import McuxDrivers.FractPll.Dfs

/-!
# The output rate after a request for the VCO

A PLL without DFS outputs latches the rate that is asked for its VCO, and applies it with the next output rate. The
history of a PLL records the last such request that has been accepted.
-/

namespace McuxDrivers.FractPll
open McuxDrivers.Lib

/-- The reference is a multiple of the accuracy, and the fields of the registers are wide enough. -/
structure Header.Valid (header : Header) : Prop where
  fref : header.frefHz = header.mfd * header.calcAccuracyHz
  pos : 0 < header.frefHz
  fref_fits : header.frefHz < 2 ^ 32
  mfd_fits : header.mfd < 2 ^ 30
  mfi_fits : header.maxHzPllvco < 2 ^ 9 * header.frefHz

/-- The states after calls of `FRACTPLL_SetRate`, with the last VCO rate of every PLL for which it returned true. -/
inductive Reachable (header : Header) (attrs : Nat → Attrs) : State → (Nat → Option Nat) → Prop
  | reset (s : State) (hrates : s.vcoRates = fun _ => 0) (hlatched : s.vcoRateIsLatched = fun _ => false) :
      Reachable header attrs s (fun _ => none)
  | vco {s : State} {requested : Nat → Option Nat} (h : Reachable header attrs s requested) (pllIdx rate : Nat)
      (hok : (setRate header attrs pllIdx true rate s).2 = true) :
      Reachable header attrs (setRate header attrs pllIdx true rate s).1 (Function.update requested pllIdx (some rate))
  | other {s : State} {requested : Nat → Option Nat} (h : Reachable header attrs s requested) (pllIdx rate : Nat)
      (vcoOp : Bool) (hother : vcoOp = true → (setRate header attrs pllIdx vcoOp rate s).2 = false) :
      Reachable header attrs (setRate header attrs pllIdx vcoOp rate s).1 requested

/-- The VCO rate that a PLL can reach for a request. -/
def vcoBelow (header : Header) (isFrac : Bool) (rate : Nat) : Nat :=
  if isFrac then rate / header.calcAccuracyHz * header.calcAccuracyHz
  else rate / header.frefHz * header.frefHz

/-- What a request for an output rate should do after a request for the VCO. -/
structure OutputRight (header : Header) (attrs : Nat → Attrs) (pllIdx vcoRate rate : Nat) (s : State) : Prop where
  accepted : (setRate header attrs pllIdx false rate s).2 = true
  consistent : ∃ vco, getRate header attrs pllIdx true (setRate header attrs pllIdx false rate s).1 = some vco ∧
    ((attrs pllIdx).isFrac = true → vcoRate < vco + header.calcAccuracyHz ∧ vco ≤ vcoRate) ∧
    ((attrs pllIdx).isFrac = false → vco = vcoRate / header.frefHz * header.frefHz) ∧
    BestBelow (Set.Icc 2 255) (fun odiv => vco / odiv) rate 255
      ((setRate header attrs pllIdx false rate s).1.pll pllIdx).odiv ∧
    getRate header attrs pllIdx false (setRate header attrs pllIdx false rate s).1 =
      some (vco / ((setRate header attrs pllIdx false rate s).1.pll pllIdx).odiv)

/-- When it does. -/
def RateFits (header : Header) (attrs : Nat → Attrs) (pllIdx vcoRate rate : Nat) : Prop :=
  ((attrs pllIdx).numDFS = 0 ∨ vcoBelow header (attrs pllIdx).isFrac vcoRate = 0) ∧
    ∀ d, 2 ≤ d → d < 255 → d * rate < vcoRate → vcoBelow header (attrs pllIdx).isFrac vcoRate / d ≤ rate →
      vcoBelow header (attrs pllIdx).isFrac vcoRate / (d + 1) = vcoBelow header (attrs pllIdx).isFrac vcoRate / d

section Divider

lemma div_le_iff_succ {w x rate : Nat} (hx : 0 < x) : w / x ≤ rate ↔ w / (rate + 1) + 1 ≤ x := by
  rw [← Nat.lt_succ_iff, Nat.succ_le_iff, Nat.div_lt_iff_lt_mul hx, Nat.div_lt_iff_lt_mul (Nat.succ_pos rate),
    Nat.mul_comm]

lemma lt_ceilDiv_iff {d x rate : Nat} (hrate : 0 < rate) : d < x ⌈/⌉ rate ↔ d * rate < x := by
  rw [← not_le, ceilDiv_le_iff_le_mul hrate, not_le, Nat.mul_comm]

lemma outputDivider_eq {vcoRate rate : Nat} (hrate : 0 < rate) :
    outputDivider vcoRate rate = max 2 (min (vcoRate ⌈/⌉ rate) 255) := by
  have hdiv := Nat.div_add_mod vcoRate rate
  have hmod := Nat.mod_lt vcoRate hrate
  unfold outputDivider
  dsimp only
  by_cases hrem : vcoRate % rate = 0
  · have hceil : vcoRate ⌈/⌉ rate = vcoRate / rate := by
      apply ceilDiv_eq hrate <;> omega
    rw [hceil, if_pos hrem]
    split
    · omega
    · split
      · omega
      · rw [Nat.mod_eq_of_lt (by omega)]
        omega
  · have hceil : vcoRate ⌈/⌉ rate = vcoRate / rate + 1 := by
      apply ceilDiv_eq hrate <;> rw [Nat.mul_succ] <;> omega
    rw [hceil, if_neg hrem]
    split
    · omega
    · split
      · omega
      · rw [Nat.mod_eq_of_lt (by omega)]
        omega

/-- The divider for the rate that has been asked for, judged by the rate that the VCO has. -/
lemma outputDivider_best_iff {vcoRate rate w : Nat} (hrate : 0 < rate) (hvco : 0 < vcoRate) (hw : w ≤ vcoRate) :
    BestBelow (Set.Icc 2 255) (fun odiv => w / odiv) rate 255 (outputDivider vcoRate rate) ↔
      ∀ d, 2 ≤ d → d < 255 → d * rate < vcoRate → w / d ≤ rate → w / (d + 1) = w / d := by
  have hfar : w / (rate + 1) + 1 ≤ vcoRate ⌈/⌉ rate := by
    have hle := Nat.div_mul_le_self w (rate + 1)
    rw [Nat.mul_succ] at hle
    rw [Nat.succ_le_iff, lt_ceilDiv_iff hrate]
    rcases Nat.eq_zero_or_pos (w / (rate + 1)) with hzero | hpos
    · rw [hzero, Nat.zero_mul]
      exact hvco
    · omega
  rw [outputDivider_eq hrate, bestBelow_icc_iff (by decide) (fun x y hx hxy _ => Nat.div_le_div_left hxy (by omega))
    (fun x hx _ => div_le_iff_succ (by omega)) hfar]
  simp only [lt_ceilDiv_iff hrate]

end Divider

section Locking

variable {header : Header} {isFrac : Bool} {vcoRate : Nat}

/-- The registers that lock a PLL to a VCO rate. -/
def lockedRegisters (header : Header) (isFrac : Bool) (vcoRate odiv : Nat) (pll : Registers) : Registers :=
  program header isFrac (vcoRate / header.frefHz)
    (if isFrac then vcoRate % header.frefHz / header.calcAccuracyHz else 0) odiv pll

lemma mfi_lt (hvalid : header.Valid) (hmax : vcoRate ≤ header.maxHzPllvco) : vcoRate / header.frefHz < 2 ^ 9 := by
  apply Nat.div_lt_of_lt_mul
  rw [Nat.mul_comm]
  exact lt_of_le_of_lt hmax hvalid.mfi_fits

lemma mfn_lt (hvalid : header.Valid) (vcoRate : Nat) : vcoRate % header.frefHz / header.calcAccuracyHz < header.mfd := by
  apply Nat.div_lt_of_lt_mul
  rw [Nat.mul_comm, ← hvalid.fref]
  exact Nat.mod_lt vcoRate hvalid.pos

lemma accuracy_pos (hvalid : header.Valid) : 0 < header.calcAccuracyHz := by
  apply Nat.pos_of_ne_zero
  intro hzero
  have hpos := hvalid.pos
  rw [hvalid.fref, hzero, Nat.mul_zero] at hpos
  exact absurd hpos (Nat.lt_irrefl 0)

lemma mfd_pos (hvalid : header.Valid) : 0 < header.mfd := by
  apply Nat.pos_of_ne_zero
  intro hzero
  have hpos := hvalid.pos
  rw [hvalid.fref, hzero, Nat.zero_mul] at hpos
  exact absurd hpos (Nat.lt_irrefl 0)

/-- The integer part and the fraction are the multiples of the accuracy. -/
lemma fraction_sum (hvalid : header.Valid) (rate : Nat) :
    header.frefHz * (rate / header.frefHz) + header.calcAccuracyHz * (rate % header.frefHz / header.calcAccuracyHz) =
      rate / header.calcAccuracyHz * header.calcAccuracyHz := by
  have hsplit : rate / header.calcAccuracyHz =
      header.mfd * (rate / header.frefHz) + rate % header.frefHz / header.calcAccuracyHz := by
    conv_lhs => rw [← Nat.div_add_mod rate header.frefHz]
    rw [← Nat.mul_add_div (accuracy_pos hvalid), ← Nat.mul_assoc, Nat.mul_comm header.calcAccuracyHz, ← hvalid.fref]
  rw [hsplit, hvalid.fref]
  ring

lemma inputRate_locked (hvalid : header.Valid) (hmax : vcoRate ≤ header.maxHzPllvco) (odiv : Nat) (pll : Registers) :
    inputRate header isFrac (lockedRegisters header isFrac vcoRate odiv pll) = some (vcoBelow header isFrac vcoRate) := by
  have hmfi := mfi_lt hvalid hmax
  have hfref := hvalid.fref_fits
  have hint : header.frefHz * (vcoRate / header.frefHz) < 2 ^ 41 :=
    lt_of_le_of_lt (Nat.mul_le_mul_left _ hmfi.le) (by omega)
  cases isFrac with
  | false =>
    rw [inputRate, lockedRegisters, program, vcoBelow]
    dsimp only
    rw [if_neg Bool.false_ne_true, if_neg Bool.false_ne_true, Nat.mod_eq_of_lt hmfi, Nat.mod_eq_of_lt (by omega),
      Nat.mul_comm]
  | true =>
    have hmfn := mfn_lt hvalid vcoRate
    have hmfd := hvalid.mfd_fits
    have hpos := mfd_pos hvalid
    have hfraction : header.frefHz * (vcoRate % header.frefHz / header.calcAccuracyHz) =
        header.calcAccuracyHz * (vcoRate % header.frefHz / header.calcAccuracyHz) * header.mfd := by
      rw [Nat.mul_right_comm, Nat.mul_comm header.calcAccuracyHz header.mfd, ← hvalid.fref]
    have hless : header.frefHz * (vcoRate % header.frefHz / header.calcAccuracyHz) < 2 ^ 62 :=
      lt_of_le_of_lt (Nat.mul_le_mul_left _ hmfn.le) (lt_of_lt_of_le (Nat.mul_lt_mul'' hfref hmfd) (by decide))
    have hsum := fraction_sum hvalid vcoRate
    have hle := Nat.div_mul_le_self vcoRate header.calcAccuracyHz
    have hmax' := hvalid.mfi_fits
    rw [inputRate, lockedRegisters, program, vcoBelow]
    dsimp only
    rw [if_pos rfl, if_pos rfl, if_pos rfl, if_pos rfl, if_pos rfl, Nat.mod_eq_of_lt hmfd, if_neg hpos.ne',
      Nat.mod_eq_of_lt hmfi, Nat.mod_eq_of_lt (show vcoRate % header.frefHz / header.calcAccuracyHz * 4 < 2 ^ 32 by omega),
      Nat.mul_div_cancel _ (show 0 < 4 by decide), Nat.mod_eq_of_lt (lt_trans hint (by decide)),
      Nat.mod_eq_of_lt (lt_trans hless (by decide)), hfraction, Nat.mul_div_cancel _ hpos, hsum, Nat.mod_eq_of_lt (by omega)]

variable {attrs : Nat → Attrs} {pllIdx rate : Nat}

/-- The state after a PLL has been locked. -/
def State.lock (s : State) (header : Header) (attrs : Nat → Attrs) (pllIdx vcoRate odiv : Nat) : State :=
  { s with
    pll := Function.update s.pll pllIdx (lockedRegisters header (attrs pllIdx).isFrac vcoRate odiv (s.pll pllIdx))
    vcoRateIsLatched := Function.update s.vcoRateIsLatched pllIdx false }

@[simp]
lemma lock_pll (s : State) (odiv : Nat) : (s.lock header attrs pllIdx vcoRate odiv).pll pllIdx =
    lockedRegisters header (attrs pllIdx).isFrac vcoRate odiv (s.pll pllIdx) :=
  Function.update_self _ _ _

@[simp]
lemma lock_latched (s : State) (odiv : Nat) :
    (s.lock header attrs pllIdx vcoRate odiv).vcoRateIsLatched pllIdx = false :=
  Function.update_self _ _ _

lemma relock_eq (hvalid : header.Valid) (hp : pllIdx < header.numPll) (hmax : vcoRate ≤ header.maxHzPllvco) (s : State) :
    relock header attrs pllIdx vcoRate rate s =
      (s.lock header attrs pllIdx vcoRate (outputDivider vcoRate rate), true) := by
  have hmfi := mfi_lt hvalid hmax
  have hfref := hvalid.fref_fits
  have hfits := hvalid.mfi_fits
  have hmfn := mfn_lt hvalid vcoRate
  have hmfd := hvalid.mfd_fits
  have hdiv := Nat.div_add_mod vcoRate header.frefHz
  have hrest : (vcoRate + (2 ^ 64 - vcoRate / header.frefHz * header.frefHz % 2 ^ 64)) % 2 ^ 64 =
      vcoRate % header.frefHz := by
    rw [Nat.mul_comm (vcoRate / header.frefHz)]
    omega
  rw [relock, Nat.mod_eq_of_lt (lt_trans hmfi (by decide)), hrest,
    Nat.mod_eq_of_lt (lt_trans hmfn (lt_trans hmfd (by decide))), updateRate, if_pos hp]
  rfl

lemma outputDivider_bounds (hrate : 0 < rate) (v : Nat) : 2 ≤ outputDivider v rate ∧ outputDivider v rate ≤ 255 := by
  rw [outputDivider_eq hrate]
  omega

/-- The rates of a PLL that has been locked. -/
lemma getRate_lock (hvalid : header.Valid) (hp : pllIdx < header.numPll) (hmax : vcoRate ≤ header.maxHzPllvco)
    {odiv : Nat} (hlo : 2 ≤ odiv) (hhi : odiv ≤ 255) (vcoOp : Bool) (s : State) :
    getRate header attrs pllIdx vcoOp (s.lock header attrs pllIdx vcoRate odiv) =
      some (if vcoOp then vcoBelow header (attrs pllIdx).isFrac vcoRate
        else vcoBelow header (attrs pllIdx).isFrac vcoRate / odiv) := by
  rw [getRate, if_pos hp, lock_latched, Bool.and_false, if_neg Bool.false_ne_true, lock_pll]
  dsimp only
  rw [inputRate_locked hvalid hmax, Option.map_some]
  have hodiv : (lockedRegisters header (attrs pllIdx).isFrac vcoRate odiv (s.pll pllIdx)).odiv = odiv :=
    Nat.mod_eq_of_lt (by omega)
  have hrdiv : (lockedRegisters header (attrs pllIdx).isFrac vcoRate odiv (s.pll pllIdx)).rdiv = 0 := rfl
  rw [hodiv, hrdiv, if_pos rfl, if_neg (Nat.not_lt_of_le hlo), Nat.div_one, Nat.one_mul]

end Locking

section Requests

variable {header : Header} {attrs : Nat → Attrs} {pllIdx rate : Nat}

lemma updateRate_vcoRates (mfi mfn odiv : Nat) (s : State) :
    (updateRate header attrs pllIdx mfi mfn odiv s).1.vcoRates = s.vcoRates := by
  unfold updateRate
  split <;> rfl

lemma relock_vcoRates (v : Nat) (s : State) : (relock header attrs pllIdx v rate s).1.vcoRates = s.vcoRates :=
  updateRate_vcoRates _ _ _ s

/-- An accepted request for the VCO. -/
lemma setRate_accepted {s : State} (h : (setRate header attrs pllIdx true rate s).2 = true) :
    (pllIdx < header.numPll ∧ 0 < rate ∧ rate ≤ header.maxHzPllvco) ∧
      (setRate header attrs pllIdx true rate s).1.vcoRates =
        if (attrs pllIdx).numDFS > 0 then s.vcoRates else Function.update s.vcoRates pllIdx rate := by
  unfold setRate at h ⊢
  by_cases hp : pllIdx < header.numPll ∧ rate ≠ 0
  · rw [if_pos hp, if_pos rfl] at h ⊢
    by_cases hrange : rate ≥ header.minHzPllvco ∧ rate ≤ header.maxHzPllvco
    · rw [if_pos hrange]
      refine ⟨⟨hp.1, Nat.pos_of_ne_zero hp.2, hrange.2⟩, ?_⟩
      split
      · exact relock_vcoRates rate s
      · rfl
    · rw [if_neg hrange] at h
      cases h
  · rw [if_neg hp] at h
    cases h

/-- Every other request leaves the rates that are kept. -/
lemma setRate_other {s : State} {vcoOp : Bool} (h : vcoOp = true → (setRate header attrs pllIdx vcoOp rate s).2 = false) :
    (setRate header attrs pllIdx vcoOp rate s).1.vcoRates = s.vcoRates := by
  cases vcoOp with
  | false =>
    unfold setRate
    split
    · exact relock_vcoRates _ _
    · rfl
  | true =>
    have hrefused := h rfl
    unfold setRate at hrefused ⊢
    by_cases hp : pllIdx < header.numPll ∧ rate ≠ 0
    · rw [if_pos hp, if_pos rfl] at hrefused ⊢
      by_cases hrange : rate ≥ header.minHzPllvco ∧ rate ≤ header.maxHzPllvco
      · rw [if_pos hrange] at hrefused ⊢
        by_cases hdfs : (attrs pllIdx).numDFS > 0
        · rw [if_pos hdfs]
          exact relock_vcoRates rate s
        · rw [if_neg hdfs] at hrefused
          cases hrefused
      · rw [if_neg hrange]
    · rw [if_neg hp]

/-- What the kept rate of a PLL is. -/
structure Kept (header : Header) (attrs : Nat → Attrs) (s : State) (requested : Nat → Option Nat) (pllIdx : Nat) :
    Prop where
  zero : (attrs pllIdx).numDFS > 0 → s.vcoRates pllIdx = 0
  latest : (attrs pllIdx).numDFS = 0 → ∀ v, requested pllIdx = some v → s.vcoRates pllIdx = v
  accepted : ∀ v, requested pllIdx = some v → pllIdx < header.numPll ∧ 0 < v ∧ v ≤ header.maxHzPllvco

lemma Kept.vco {s : State} {requested : Nat → Option Nat} {p : Nat} (h : Kept header attrs s requested p)
    (hok : (setRate header attrs pllIdx true rate s).2 = true) :
    Kept header attrs (setRate header attrs pllIdx true rate s).1 (Function.update requested pllIdx (some rate)) p := by
  obtain ⟨haccepted, hrates⟩ := setRate_accepted hok
  by_cases hsame : p = pllIdx
  · subst hsame
    refine ⟨fun hdfs => ?_, fun hnone v hv => ?_, fun v hv => ?_⟩
    · rw [hrates, if_pos hdfs]
      exact h.zero hdfs
    · rw [Function.update_self] at hv
      rw [hrates, if_neg (by omega), Function.update_self]
      exact Option.some.inj hv
    · rw [Function.update_self] at hv
      rw [← Option.some.inj hv]
      exact haccepted
  · have hkept : (setRate header attrs pllIdx true rate s).1.vcoRates p = s.vcoRates p := by
      rw [hrates]
      split
      · rfl
      · exact Function.update_of_ne hsame _ _
    refine ⟨fun hdfs => ?_, fun hnone v hv => ?_, fun v hv => ?_⟩
    · rw [hkept]
      exact h.zero hdfs
    · rw [Function.update_of_ne hsame] at hv
      rw [hkept]
      exact h.latest hnone v hv
    · rw [Function.update_of_ne hsame] at hv
      exact h.accepted v hv

lemma Reachable.kept {s : State} {requested : Nat → Option Nat} (h : Reachable header attrs s requested) (p : Nat) :
    Kept header attrs s requested p := by
  induction h with
  | reset s hrates hlatched =>
    refine ⟨fun _ => by rw [hrates], fun _ v hv => ?_, fun v hv => ?_⟩ <;> cases hv
  | vco _ pllIdx rate hok ih => exact ih.vco hok
  | other _ pllIdx rate vcoOp hother ih =>
    have hrates := setRate_other hother
    refine ⟨fun hdfs => ?_, fun hnone v hv => ?_, ih.accepted⟩
    · rw [hrates]
      exact ih.zero hdfs
    · rw [hrates]
      exact ih.latest hnone v hv

/-- A request for an output rate locks the PLL to the rate that is kept. -/
lemma setRate_output (attrs : Nat → Attrs) (hvalid : header.Valid) (hp : pllIdx < header.numPll) (hrate : 1 ≤ rate) {s : State}
    (hmax : s.vcoRates pllIdx ≤ header.maxHzPllvco) :
    ∃ s' : State, setRate header attrs pllIdx false rate s =
      (s'.lock header attrs pllIdx (s.vcoRates pllIdx) (outputDivider (s.vcoRates pllIdx) rate), true) := by
  rw [setRate, if_pos ⟨hp, Nat.one_le_iff_ne_zero.mp hrate⟩, if_neg Bool.false_ne_true]
  exact ⟨_, relock_eq hvalid hp hmax _⟩

/-- The only rate in the steps of the PLL that is close enough. -/
lemma eq_vcoBelow_iff (hvalid : header.Valid) (isFrac : Bool) (kept v : Nat) :
    ((isFrac = true → v < vcoBelow header isFrac kept + header.calcAccuracyHz ∧ vcoBelow header isFrac kept ≤ v) ∧
      (isFrac = false → vcoBelow header isFrac kept = v / header.frefHz * header.frefHz)) ↔
      vcoBelow header isFrac kept = vcoBelow header isFrac v := by
  cases isFrac with
  | false => simp [vcoBelow]
  | true =>
    have hpos := accuracy_pos hvalid
    have hle := Nat.div_mul_le_self v header.calcAccuracyHz
    have hlt := Nat.lt_div_mul_add hpos (a := v)
    unfold vcoBelow
    rw [if_pos rfl, if_pos rfl]
    constructor
    · intro h
      obtain ⟨hless, hbelow⟩ := h.1 rfl
      congr 1
      apply le_antisymm
      · exact (Nat.le_div_iff_mul_le hpos).mpr hbelow
      · rw [← Nat.lt_succ_iff, Nat.div_lt_iff_lt_mul hpos, Nat.succ_mul]
        exact hless
    · intro h
      rw [h]
      exact ⟨fun _ => ⟨hlt, hle⟩, fun hfalse => absurd hfalse.symm Bool.false_ne_true⟩

/-- The promise for the rate that is kept, and the one that has been asked for. -/
lemma outputRight_iff_kept (hvalid : header.Valid) (hp : pllIdx < header.numPll) (hrate : 1 ≤ rate) {s : State} {v w : Nat}
    (hmax : s.vcoRates pllIdx ≤ header.maxHzPllvco)
    (hw : vcoBelow header (attrs pllIdx).isFrac (s.vcoRates pllIdx) = w) :
    OutputRight header attrs pllIdx v rate s ↔ w = vcoBelow header (attrs pllIdx).isFrac v ∧
      BestBelow (Set.Icc 2 255) (fun odiv => w / odiv) rate 255 (outputDivider (s.vcoRates pllIdx) rate) := by
  obtain ⟨s', hset⟩ := setRate_output attrs hvalid hp hrate hmax
  obtain ⟨hlo, hhi⟩ := outputDivider_bounds hrate (s.vcoRates pllIdx)
  have hodiv : ((setRate header attrs pllIdx false rate s).1.pll pllIdx).odiv =
      outputDivider (s.vcoRates pllIdx) rate := by
    rw [hset, lock_pll]
    exact Nat.mod_eq_of_lt (by omega)
  have hvco : getRate header attrs pllIdx true (setRate header attrs pllIdx false rate s).1 = some w := by
    rw [hset, getRate_lock hvalid hp hmax hlo hhi, if_pos rfl, hw]
  have hout : getRate header attrs pllIdx false (setRate header attrs pllIdx false rate s).1 =
      some (w / outputDivider (s.vcoRates pllIdx) rate) := by
    rw [hset, getRate_lock hvalid hp hmax hlo hhi, if_neg Bool.false_ne_true, hw]
  have hclose := eq_vcoBelow_iff hvalid (attrs pllIdx).isFrac (s.vcoRates pllIdx) v
  rw [hw] at hclose
  constructor
  · rintro ⟨-, vco, hvco', hfrac, hint, hbest, -⟩
    rw [hvco] at hvco'
    obtain rfl := Option.some.inj hvco'
    rw [hodiv] at hbest
    exact ⟨hclose.mp ⟨hfrac, hint⟩, hbest⟩
  · rintro ⟨heq, hbest⟩
    obtain ⟨hfrac, hint⟩ := hclose.mpr heq
    refine ⟨by rw [hset], w, hvco, hfrac, hint, ?_, ?_⟩
    · rw [hodiv]
      exact hbest
    · rw [hodiv]
      exact hout

lemma vcoBelow_le (isFrac : Bool) (v : Nat) : vcoBelow header isFrac v ≤ v := by
  unfold vcoBelow
  split <;> exact Nat.div_mul_le_self _ _

@[simp]
lemma vcoBelow_zero (isFrac : Bool) : vcoBelow header isFrac 0 = 0 :=
  Nat.le_zero.mp (vcoBelow_le isFrac 0)

/-- Every divider is the best one for a VCO that stands still. -/
lemma best_of_zero {odiv : Nat} (hlo : 2 ≤ odiv) (hhi : odiv ≤ 255) :
    BestBelow (Set.Icc 2 255) (fun odiv => 0 / odiv) rate 255 odiv := by
  have hzero (x : Nat) : 0 / x ≤ rate := by
    rw [Nat.zero_div]
    exact Nat.zero_le rate
  refine ⟨⟨hlo, hhi⟩, fun x _ _ => ⟨hzero odiv, ?_⟩, fun hnone => absurd (hzero 2) (hnone 2 ⟨le_rfl, by decide⟩)⟩
  rw [Nat.zero_div]
  exact Nat.zero_le _

/-- A PLL with DFS outputs is locked to a rate of zero. -/
lemma outputRight_iff_of_dfs (hvalid : header.Valid) (hp : pllIdx < header.numPll) (hrate : 1 ≤ rate) {s : State}
    {v : Nat} (hzero : s.vcoRates pllIdx = 0) :
    OutputRight header attrs pllIdx v rate s ↔ vcoBelow header (attrs pllIdx).isFrac v = 0 := by
  obtain ⟨hlo, hhi⟩ := outputDivider_bounds hrate (s.vcoRates pllIdx)
  rw [outputRight_iff_kept (w := 0) hvalid hp hrate (by rw [hzero]; exact Nat.zero_le _) (by rw [hzero, vcoBelow_zero]),
    and_iff_left (best_of_zero hlo hhi)]
  exact eq_comm

end Requests

/-- What follows a request for the VCO in every history, and when it is right. -/
theorem outputRight_iff (header : Header) (attrs : Nat → Attrs) (s : State) (requested : Nat → Option Nat)
    (pllIdx v rate : Nat) (hvalid : header.Valid) (h : Reachable header attrs s requested)
    (hv : requested pllIdx = some v) (hrate : 1 ≤ rate) :
    OutputRight header attrs pllIdx v rate s ↔ RateFits header attrs pllIdx v rate := by
  have hkept := h.kept pllIdx
  obtain ⟨hp, hpos, hmax⟩ := hkept.accepted v hv
  unfold RateFits
  by_cases hdfs : (attrs pllIdx).numDFS = 0
  · have hlatest := hkept.latest hdfs v hv
    rw [and_iff_right (Or.inl hdfs), outputRight_iff_kept hvalid hp hrate (by rw [hlatest]; exact hmax) rfl, hlatest,
      and_iff_right rfl]
    exact outputDivider_best_iff hrate hpos (vcoBelow_le _ v)
  · rw [outputRight_iff_of_dfs hvalid hp hrate (hkept.zero (Nat.pos_of_ne_zero hdfs)), or_iff_right hdfs]
    constructor
    · intro hzero
      rw [hzero]
      exact ⟨rfl, fun d _ _ _ _ => by rw [Nat.zero_div, Nat.zero_div]⟩
    · exact fun h => h.1

section Example

lemma exampleHeader_valid : exampleHeader.Valid :=
  ⟨by decide, by decide, by decide, by decide, by decide⟩

/-- A PLL without DFS outputs. -/
def plainAttrs : Nat → Attrs :=
  fun _ => ⟨true, 0⟩

lemma reset_reachable (attrs : Nat → Attrs) : Reachable exampleHeader attrs resetState (fun _ => none) :=
  .reset resetState rfl rfl

theorem outputRight_600MHz :
    OutputRight exampleHeader plainAttrs 0 4800000000 600000000
      (setRate exampleHeader plainAttrs 0 true 4800000000 resetState).1 := by
  apply (outputRight_iff exampleHeader plainAttrs _ _ 0 4800000000 600000000 exampleHeader_valid
    ((reset_reachable plainAttrs).vco 0 4800000000 (by decide)) (Function.update_self _ _ _) (by decide)).mpr
  refine ⟨Or.inl rfl, fun d hlo _ hless hbelow => ?_⟩
  rw [show vcoBelow exampleHeader (plainAttrs 0).isFrac 4800000000 = 4800000000 by decide,
    div_le_iff_succ (by omega)] at hbelow
  omega

/-- A PLL with DFS outputs is locked at once, but the rate is not kept for the output. -/
theorem not_outputRight_dfs :
    ¬ ∀ (header : Header) (attrs : Nat → Attrs) (s : State) (requested : Nat → Option Nat) (pllIdx v rate : Nat),
      header.Valid → Reachable header attrs s requested → requested pllIdx = some v → 1 ≤ rate →
      OutputRight header attrs pllIdx v rate s := by
  intro hall
  have hreach := (reset_reachable dfsAttrs).vco 0 4800000000 (by decide)
  have hright := hall exampleHeader dfsAttrs _ _ 0 4800000000 600000000 exampleHeader_valid hreach
    (Function.update_self _ _ _) (by decide)
  rw [outputRight_iff_of_dfs exampleHeader_valid (by decide) (by decide) ((hreach.kept 0).zero (by decide))] at hright
  exact absurd hright (by decide)

end Example

end McuxDrivers.FractPll
