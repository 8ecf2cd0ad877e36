import McuxDrivers.FractPll.Pll
import McuxDrivers.Lib.BestBelow
import Mathlib.Algebra.Order.Floor.Div
import Mathlib.Algebra.Order.Floor.Semifield
import Mathlib.Data.Rat.Floor

/-!
# The dividers of the DFS outputs

`FRACTPLL_SetDfsRate` divides by `mfi + mfn / 5`. The pair is judged by the exact rate; `FRACTPLL_GetDfsRate` rounds
this rate down.
-/

namespace McuxDrivers.FractPll
open McuxDrivers.Lib

/-- The pairs that a DFS output can have. -/
def dfsChoices : Set DfsDiv :=
  {x | 2 ≤ x.mfi ∧ x.mfi ≤ 255 ∧ x.mfn ≤ 4}

/-- The fifths of a divider. -/
def DfsDiv.fifths (x : DfsDiv) : Nat :=
  5 * x.mfi + x.mfn

/-- The exact rate of a DFS output. -/
def dfsValue (vcoRate : Nat) (x : DfsDiv) : ℚ :=
  vcoRate * 5 / (5 * x.mfi + x.mfn)

lemma dfsValue_eq (vcoRate : Nat) (x : DfsDiv) : dfsValue vcoRate x = ((vcoRate * 5 : Nat) : ℚ) / (x.fifths : ℚ) := by
  rw [dfsValue, DfsDiv.fifths]
  push_cast
  rfl

lemma dfsValue_le_iff {vcoRate rate : Nat} {x : DfsDiv} (hrate : 0 < rate) (hx : x ∈ dfsChoices) :
    dfsValue vcoRate x ≤ rate ↔ vcoRate * 5 ⌈/⌉ rate ≤ x.fifths := by
  have hpos : 0 < x.fifths := by
    have hmfi := hx.1
    rw [DfsDiv.fifths]
    omega
  rw [dfsValue_eq, div_le_iff₀ (Nat.cast_pos.mpr hpos), ceilDiv_le_iff_le_mul hrate]
  exact_mod_cast Iff.rfl

lemma dfsValue_anti {vcoRate : Nat} {x y : DfsDiv} (hx : x ∈ dfsChoices) (h : x.fifths ≤ y.fifths) :
    dfsValue vcoRate y ≤ dfsValue vcoRate x := by
  have hpos : 0 < x.fifths := by
    have hmfi := hx.1
    rw [DfsDiv.fifths]
    omega
  rw [dfsValue_eq, dfsValue_eq]
  exact div_le_div_of_nonneg_left (Nat.cast_nonneg _) (Nat.cast_pos.mpr hpos) (Nat.cast_le.mpr h)

lemma fifths_bounds {x : DfsDiv} (hx : x ∈ dfsChoices) : 10 ≤ x.fifths ∧ x.fifths ≤ 1279 := by
  obtain ⟨hlo, hhi, hmfn⟩ := hx
  rw [DfsDiv.fifths]
  omega

lemma eq_slowest {x : DfsDiv} (hx : x ∈ dfsChoices) (h : x.fifths = 1279) : x = ⟨255, 4⟩ := by
  obtain ⟨hlo, hhi, hmfn⟩ := hx
  rw [DfsDiv.fifths] at h
  apply DfsDiv.ext
  · dsimp only
    omega
  · dsimp only
    omega

lemma dfsClamp_mem {x : DfsDiv} (hx : x.mfn ≤ 4) : dfsClamp x ∈ dfsChoices := by
  unfold dfsClamp
  dsimp only
  split
  · exact ⟨by decide, by decide, by decide⟩
  · split
    · exact ⟨by decide, by decide, by decide⟩
    · exact ⟨by omega, by omega, hx⟩

lemma dfsClamp_fifths {x : DfsDiv} (hx : x.mfn ≤ 4) : (dfsClamp x).fifths = max 10 (min x.fifths 1279) := by
  unfold dfsClamp DfsDiv.fifths
  dsimp only
  split
  · rw [if_neg (by decide)]
    dsimp only
    omega
  · split
    · dsimp only
      omega
    · omega

lemma ceilDiv_eq {x r k : Nat} (hr : 0 < r) (hle : x ≤ r * k) (hlt : r * k < x + r) : x ⌈/⌉ r = k := by
  apply le_antisymm ((ceilDiv_le_iff_le_mul hr).mpr hle)
  have hceil : x ≤ r * (x ⌈/⌉ r) := (ceilDiv_le_iff_le_mul hr).mp le_rfl
  have hless : r * k < r * (x ⌈/⌉ r + 1) := by
    rw [Nat.mul_succ]
    omega
  exact Nat.le_of_lt_succ (Nat.lt_of_mul_lt_mul_left hless)

/-- The pair before the clamps is the divider, rounded up to fifths. -/
lemma dfsQuotient_fifths {vcoRate rate : Nat} (hrate : 0 < rate) (hvco : vcoRate < 2 ^ 33)
    (hfits : vcoRate / rate < 2 ^ 32) :
    (dfsQuotient vcoRate rate).mfn ≤ 4 ∧ (dfsQuotient vcoRate rate).fifths = vcoRate * 5 ⌈/⌉ rate := by
  have hdiv := Nat.div_add_mod vcoRate rate
  have hmod := Nat.mod_lt vcoRate hrate
  have hnum : (vcoRate * 5 % 2 ^ 64 + (2 ^ 64 - vcoRate / rate * rate * 5 % 2 ^ 64)) % 2 ^ 64 = vcoRate % rate * 5 := by
    rw [Nat.mul_comm (vcoRate / rate) rate]
    omega
  unfold dfsQuotient
  dsimp only
  rw [Nat.mod_eq_of_lt hfits, hnum]
  clear hnum
  generalize hm : vcoRate / rate = m at hdiv hfits
  generalize hρ : vcoRate % rate = ρ at hdiv hmod
  have hdiv' := Nat.div_add_mod (ρ * 5) rate
  have hmod' := Nat.mod_lt (ρ * 5) hrate
  have hq : ρ * 5 / rate < 5 := (Nat.div_lt_iff_lt_mul hrate).mpr (by omega)
  generalize ρ * 5 / rate = q at hdiv' hq
  generalize ρ * 5 % rate = rem at hdiv' hmod'
  have hsum (t : Nat) : rate * (5 * m + t) = 5 * (rate * m) + rate * t := by ring
  rw [Nat.mod_eq_of_lt (by omega)]
  by_cases hrem : rem = 0
  · have hexact : ¬ (rem ≠ 0 ∧ q < 5) := fun h => h.1 hrem
    have hround : vcoRate * 5 ⌈/⌉ rate = 5 * m + q := by
      apply ceilDiv_eq hrate <;> rw [hsum] <;> omega
    rw [if_neg hexact, if_neg hq.ne, hround]
    exact ⟨Nat.le_of_lt_succ hq, rfl⟩
  · have hround : vcoRate * 5 ⌈/⌉ rate = 5 * m + (q + 1) := by
      have hsucc : rate * (q + 1) = rate * q + rate := Nat.mul_succ rate q
      apply ceilDiv_eq hrate <;> rw [hsum, hsucc] <;> omega
    rw [if_pos (And.intro hrem hq), hround]
    by_cases hcarry : q + 1 = 5
    · -- a carry needs a rate of more than 5 Hz
      have hrate6 : m * 6 ≤ m * rate := by
        apply Nat.mul_le_mul_left
        have hq4 : q = 4 := by omega
        subst hq4
        omega
      rw [Nat.mul_comm m rate] at hrate6
      rw [if_pos hcarry, DfsDiv.fifths]
      dsimp only
      omega
    · rw [if_neg hcarry, DfsDiv.fifths]
      dsimp only
      omega

/-- A divider of 2^32 or more keeps its low bits only. -/
lemma dfsQuotient_narrowed {low : Nat} (hlow : low < 2 ^ 32) : dfsQuotient (2 ^ 32 + low) 1 = ⟨low, 0⟩ := by
  have hmfi : (2 ^ 32 + low) / 1 % 2 ^ 32 = low := by omega
  have hnum : ((2 ^ 32 + low) * 5 % 2 ^ 64 + (2 ^ 64 - low * 1 * 5 % 2 ^ 64)) % 2 ^ 64 = 5 * 2 ^ 32 := by
    rw [Nat.mod_eq_of_lt (show (2 ^ 32 + low) * 5 < 2 ^ 64 by omega), Nat.mod_eq_of_lt (show low * 1 * 5 < 2 ^ 64 by omega)]
    omega
  have hquotient : 5 * 2 ^ 32 / 1 % 2 ^ 32 = 0 := by omega
  have hexact : ¬ (5 * 2 ^ 32 % 1 ≠ 0 ∧ 5 * 2 ^ 32 / 1 < 5) := by omega
  unfold dfsQuotient
  dsimp only
  rw [hmfi, hnum, if_neg hexact, hquotient, if_neg (by decide)]

section Programming

variable {header : Header} {attrs : Nat → Attrs} {pllIdx dfsIdx vcoRate rate : Nat} {s : State}

/-- The state after a pair has been programmed. -/
def State.setDfs (s : State) (pllIdx dfsIdx : Nat) (x : DfsDiv) : State :=
  { s with
    pll := Function.update s.pll pllIdx
      { s.pll pllIdx with dfs := Function.update (s.pll pllIdx).dfs dfsIdx x } }

@[simp]
lemma setDfs_dfs (s : State) (pllIdx dfsIdx : Nat) (x : DfsDiv) : ((s.setDfs pllIdx dfsIdx x).pll pllIdx).dfs dfsIdx = x := by
  unfold State.setDfs
  dsimp only
  rw [Function.update_self]
  exact Function.update_self _ _ _

lemma updateDfsRate_eq (hp : pllIdx < header.numPll) (hd : dfsIdx < (attrs pllIdx).numDFS) {x : DfsDiv}
    (hx : x ∈ dfsChoices) : updateDfsRate header attrs pllIdx dfsIdx x.mfi x.mfn s = (s.setDfs pllIdx dfsIdx x, true) := by
  obtain ⟨-, hmfi, hmfn⟩ := hx
  rw [updateDfsRate, if_pos ⟨hp, hd⟩, Nat.mod_eq_of_lt (by omega), Nat.mod_eq_of_lt (by omega)]
  rfl

/-- A DFS divider leaves the rate of the PLL. -/
lemma getRate_setDfs (x : DfsDiv) (vcoOp : Bool) :
    getRate header attrs pllIdx vcoOp (s.setDfs pllIdx dfsIdx x) = getRate header attrs pllIdx vcoOp s := by
  unfold getRate State.setDfs
  dsimp only
  rw [Function.update_self]
  rfl

/-- `FRACTPLL_GetDfsRate` rounds the exact rate down. -/
lemma getDfsRate_floor (hp : pllIdx < header.numPll) (hd : dfsIdx < (attrs pllIdx).numDFS)
    (hvco : getRate header attrs pllIdx true s = some vcoRate) (hlt : vcoRate < 2 ^ 33)
    (hx : (s.pll pllIdx).dfs dfsIdx ∈ dfsChoices) :
    getDfsRate header attrs pllIdx dfsIdx false s = some ⌊dfsValue vcoRate ((s.pll pllIdx).dfs dfsIdx)⌋₊ := by
  obtain ⟨hlo, hhi, hmfn⟩ := hx
  rw [dfsValue_eq, Nat.floor_div_eq_div, getDfsRate, if_pos ⟨hp, hd⟩, hvco, DfsDiv.fifths]
  dsimp only
  rw [Nat.mod_eq_of_lt (show vcoRate * 5 < 2 ^ 64 by omega), Nat.mod_eq_of_lt (by omega), if_neg (by omega),
    if_neg Bool.false_ne_true, Nat.mul_comm 5]

lemma setDfsRate_eq (hp : pllIdx < header.numPll) (hd : dfsIdx < (attrs pllIdx).numDFS)
    (hvco : getRate header attrs pllIdx true s = some vcoRate) (hrate : 1 ≤ rate)
    (hmfn : (dfsQuotient vcoRate rate).mfn ≤ 4) :
    setDfsRate header attrs pllIdx dfsIdx rate s =
      some (s.setDfs pllIdx dfsIdx (dfsClamp (dfsQuotient vcoRate rate)), true) := by
  rw [setDfsRate, if_pos ⟨hp, Nat.one_le_iff_ne_zero.mp hrate⟩, if_pos hd, hvco, Option.map_some]
  dsimp only
  rw [updateDfsRate_eq hp hd (dfsClamp_mem hmfn)]

/-- What `FRACTPLL_SetDfsRate` should do: the best pair, as `FRACTPLL_GetDfsRate` then reports it. -/
def DfsRight (header : Header) (attrs : Nat → Attrs) (pllIdx dfsIdx vcoRate rate : Nat) (s : State) : Prop :=
  ∃ s', setDfsRate header attrs pllIdx dfsIdx rate s = some (s', true) ∧
    BestBelow dfsChoices (dfsValue vcoRate) (rate : ℚ) ⟨255, 4⟩ ((s'.pll pllIdx).dfs dfsIdx) ∧
    getDfsRate header attrs pllIdx dfsIdx false s' = some ⌊dfsValue vcoRate ((s'.pll pllIdx).dfs dfsIdx)⌋₊

lemma dfsRight_iff_best (hp : pllIdx < header.numPll) (hd : dfsIdx < (attrs pllIdx).numDFS)
    (hvco : getRate header attrs pllIdx true s = some vcoRate) (hlt : vcoRate < 2 ^ 33) (hrate : 1 ≤ rate)
    (hmfn : (dfsQuotient vcoRate rate).mfn ≤ 4) :
    DfsRight header attrs pllIdx dfsIdx vcoRate rate s ↔
      BestBelow dfsChoices (dfsValue vcoRate) (rate : ℚ) ⟨255, 4⟩ (dfsClamp (dfsQuotient vcoRate rate)) := by
  have hset := setDfsRate_eq hp hd hvco hrate hmfn
  constructor
  · rintro ⟨s', hs', hbest, -⟩
    rw [hset] at hs'
    obtain ⟨rfl, -⟩ := Prod.mk.inj (Option.some.inj hs')
    rwa [setDfs_dfs] at hbest
  · intro hbest
    refine ⟨_, hset, ?_, getDfsRate_floor hp hd ((getRate_setDfs _ true).trans hvco) hlt ?_⟩
    · rwa [setDfs_dfs]
    · rw [setDfs_dfs]
      exact dfsClamp_mem hmfn

/-- The pair is the best one when the integer part fits its 32 bits. -/
lemma best_of_fits (hrate : 1 ≤ rate) (hlt : vcoRate < 2 ^ 33) (hfits : vcoRate / rate < 2 ^ 32) :
    BestBelow dfsChoices (dfsValue vcoRate) (rate : ℚ) ⟨255, 4⟩ (dfsClamp (dfsQuotient vcoRate rate)) := by
  obtain ⟨hmfn, hneed⟩ := dfsQuotient_fifths hrate hlt hfits
  apply BestBelow.of_clamp (dfsClamp_mem hmfn) (fun x hx => fifths_bounds hx)
    (fun x hx => dfsValue_le_iff hrate hx) (fun x hx y _ hle => dfsValue_anti hx hle)
  · rw [dfsClamp_fifths hmfn, hneed]
  · exact fun x hx h => eq_slowest hx h

lemma dfsClamp_narrowed (low : Nat) : dfsClamp ⟨low, 0⟩ = ⟨255, 4⟩ ↔ 255 < low := by
  unfold dfsClamp
  dsimp only
  split
  · rw [if_neg (by decide)]
    exact iff_of_false (by decide) (by omega)
  · split
    next h => exact iff_of_true rfl h
    next h =>
      apply iff_of_false
      · intro heq
        cases heq
      · exact h

/-- A rate of 1 Hz is too slow for every pair, and only the slowest pair will do. -/
lemma best_iff_slowest {x : DfsDiv} (hx : x ∈ dfsChoices) (hlow : 2 ^ 32 ≤ vcoRate) :
    BestBelow dfsChoices (dfsValue vcoRate) ((1 : Nat) : ℚ) ⟨255, 4⟩ x ↔ x = ⟨255, 4⟩ := by
  have hnone (y : DfsDiv) (hy : y ∈ dfsChoices) : ¬ dfsValue vcoRate y ≤ ((1 : Nat) : ℚ) := by
    rw [dfsValue_le_iff (Nat.one_pos) hy, ceilDiv_le_iff_le_mul Nat.one_pos]
    have hbound := (fifths_bounds hy).2
    omega
  constructor
  · exact fun hbest => hbest.otherwise hnone
  · intro heq
    exact ⟨hx, fun y hy hvalue => absurd hvalue (hnone y hy), fun _ => heq⟩

end Programming

/-- The divider of a DFS output is the best one, but for an integer part that does not fit. -/
theorem dfsRight_iff (header : Header) (attrs : Nat → Attrs) (pllIdx dfsIdx vcoRate rate : Nat) (s : State)
    (hp : pllIdx < header.numPll) (hd : dfsIdx < (attrs pllIdx).numDFS)
    (hvco : getRate header attrs pllIdx true s = some vcoRate) (hlt : vcoRate < 2 ^ 33) (hrate : 1 ≤ rate) :
    DfsRight header attrs pllIdx dfsIdx vcoRate rate s ↔ ¬ (rate = 1 ∧ 2 ^ 32 ≤ vcoRate ∧ vcoRate ≤ 2 ^ 32 + 255) := by
  by_cases hfits : vcoRate / rate < 2 ^ 32
  · rw [dfsRight_iff_best hp hd hvco hlt hrate (dfsQuotient_fifths hrate hlt hfits).1]
    apply iff_of_true (best_of_fits hrate hlt hfits)
    rintro ⟨rfl, hlow, -⟩
    rw [Nat.div_one] at hfits
    exact absurd hfits (Nat.not_lt_of_le hlow)
  · have hone : rate = 1 := by
      have hle := Nat.div_mul_le_self vcoRate rate
      have hmul : 2 ^ 32 * rate ≤ vcoRate / rate * rate := Nat.mul_le_mul_right rate (Nat.le_of_not_lt hfits)
      omega
    subst hone
    rw [Nat.div_one, not_lt] at hfits
    obtain ⟨low, rfl⟩ := Nat.exists_eq_add_of_le hfits
    have hquotient := dfsQuotient_narrowed (show low < 2 ^ 32 by omega)
    have hmfn : (dfsQuotient (2 ^ 32 + low) 1).mfn ≤ 4 := by
      rw [hquotient]
      exact Nat.zero_le 4
    rw [dfsRight_iff_best hp hd hvco hlt hrate hmfn, best_iff_slowest (dfsClamp_mem hmfn) hfits, hquotient,
      dfsClamp_narrowed]
    omega

section Example

def dfsAttrs : Nat → Attrs :=
  fun _ => ⟨true, 3⟩

/-- A PLL that has been locked to a little more than 2^32 Hz. -/
def lockedState : State :=
  (setRate exampleHeader dfsAttrs 0 true 4294967300 resetState).1

lemma lockedState_rate : getRate exampleHeader dfsAttrs 0 true lockedState = some 4294967300 := by
  decide

theorem dfsRight_1GHz : DfsRight exampleHeader dfsAttrs 0 1 4294967300 1000000000 lockedState :=
  (dfsRight_iff exampleHeader dfsAttrs 0 1 4294967300 1000000000 lockedState (by decide) (by decide) lockedState_rate
    (by decide) (by decide)).mpr (by decide)

/-- At a request of 1 Hz the divider of 4294967300 becomes 4. -/
theorem not_dfsRight_1Hz :
    ¬ ∀ (header : Header) (attrs : Nat → Attrs) (pllIdx dfsIdx vcoRate rate : Nat) (s : State), pllIdx < header.numPll →
      dfsIdx < (attrs pllIdx).numDFS → getRate header attrs pllIdx true s = some vcoRate → vcoRate < 2 ^ 33 → 1 ≤ rate →
      DfsRight header attrs pllIdx dfsIdx vcoRate rate s := by
  intro hall
  have hquotient : dfsQuotient 4294967300 1 = ⟨4, 0⟩ := dfsQuotient_narrowed (show 4 < 2 ^ 32 by decide)
  have hright := hall exampleHeader dfsAttrs 0 1 4294967300 1 lockedState (by decide) (by decide) lockedState_rate
    (by decide) (by decide)
  rw [dfsRight_iff_best (by decide) (by decide) lockedState_rate (by decide) (by decide) (by rw [hquotient]; decide),
    hquotient, best_iff_slowest (dfsClamp_mem (by decide)) (by decide)] at hright
  exact absurd hright (by decide)

end Example

end McuxDrivers.FractPll
