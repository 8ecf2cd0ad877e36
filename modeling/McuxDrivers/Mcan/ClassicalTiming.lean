import McuxDrivers.Mcan.BitTiming
import Mathlib.Data.Nat.Find

/-!
# Classical bit timing on MCAN

The two classical searches go down from the largest quanta count. The first count that divides the clock has the smallest
divider, and it decides the search, unless the divider does not fit in the 16 bits that it is stored in.
-/

namespace McuxDrivers.Mcan
open McuxDrivers.Lib

/-- A bit of `tqNum` quanta divides the clock. -/
structure Divides (baudRate clock tqNum : Nat) : Prop where
  min : 3 ≤ tqNum
  max : tqNum ≤ 385
  clock_pos : 0 < clock
  dvd : baudRate * tqNum ∣ clock

/-- The largest of these bits. -/
def Largest (baudRate clock tqNum : Nat) : Prop :=
  Divides baudRate clock tqNum ∧ ∀ tqNum', Divides baudRate clock tqNum' → tqNum' ≤ tqNum

/-- The divider of the largest bit is not taken for one that fits in `NBRP`. -/
def DividerKept (baudRate clock : Nat) : Prop :=
  ∀ tqNum, Largest baudRate clock tqNum →
    clock / (baudRate * tqNum) ≤ 2 ^ 16 ∨ maxNbrp < (clock / (baudRate * tqNum) - 1) % 2 ^ 16

/-- The sample point is within 20 per mille of the request, also before it is rounded. -/
structure NearPoint (sp : Nat) (c : TimingConfig) : Prop where
  above : sp * (3 + c.seg1 + c.seg2) ≤ (2 + c.seg1) * 1000 + 20 * (3 + c.seg1 + c.seg2)
  below : (2 + c.seg1) * 1000 ≤ sp * (3 + c.seg1 + c.seg2) + 20 * (3 + c.seg1 + c.seg2)
  rounded : distance ((2 + c.seg1) * 1000 / (3 + c.seg1 + c.seg2)) sp ≤ 20

/-- What the assertions and the types admit. -/
structure TimingParam.Admitted (param : TimingParam) : Prop where
  busLength_lt : param.busLength < 2 ^ 32
  propTxRx_lt : param.propTxRx < 2 ^ 32
  nominalSP_ge : 10 ≤ param.nominalSP
  nominalSP_le : param.nominalSP ≤ 990

/-- A quanta count and a divider for the rate. -/
def Solution (baudRate clock tq p : Nat) : Prop :=
  nbtpMinTimeQuanta ≤ tq ∧ tq ≤ nbtpMaxTimeQuanta ∧ 1 ≤ p ∧ p ≤ maxNbrp + 1 ∧ baudRate * tq * p = clock

/-- The searches for a rate are exact, and the one without a sample point is complete. -/
structure ClassicalExact (baudRate clock : Nat) : Prop where
  complete : ∀ config, (calculateImprovedTimingValues baudRate clock config).1 = true ↔
    ∃ tq p, Solution baudRate clock tq p
  improved : ∀ config, (calculateImprovedTimingValues baudRate clock config).1 = true →
    NominalExact baudRate clock (calculateImprovedTimingValues baudRate clock config).2
  specified : ∀ param config, param.Admitted → param.nominalbaudRate = baudRate →
    (calculateSpecifiedTimingValues param clock config).1 = true →
    NominalExact baudRate clock (calculateSpecifiedTimingValues param clock config).2 ∧
      NearPoint param.nominalSP (calculateSpecifiedTimingValues param clock config).2

section Divider

variable {baudRate clock tqNum : Nat}

lemma quanta_bounds (hrate : 1 ≤ baudRate) (hrate' : baudRate ≤ 1000000) (hmin : 3 ≤ tqNum) (hmax : tqNum ≤ 385) :
    0 < baudRate * tqNum ∧ baudRate * tqNum < 2 ^ 32 := by
  have hle : baudRate * tqNum ≤ 1000000 * 385 := Nat.mul_le_mul hrate' hmax
  exact ⟨Nat.mul_pos hrate (by omega), by omega⟩

/-- The divider of a bit that divides the clock. -/
lemma divider_of_divides (hrate : 1 ≤ baudRate) (hrate' : baudRate ≤ 1000000) (hclock : clock < 2 ^ 32)
    (h : Divides baudRate clock tqNum) :
    divider baudRate clock tqNum = some ((clock / (baudRate * tqNum) - 1) % 2 ^ 16) := by
  obtain ⟨hpos, hlt⟩ := quanta_bounds hrate hrate' h.min h.max
  have hle := Nat.le_of_dvd h.clock_pos h.dvd
  have hone : 1 ≤ clock / (baudRate * tqNum) := (Nat.one_le_div_iff hpos).mpr hle
  rw [divider, Nat.mod_eq_of_lt hlt, if_neg (Nat.not_lt.mpr hle), Nat.div_mul_cancel h.dvd, Nat.mod_eq_of_lt hclock,
    if_neg (fun hne => hne rfl), wsub32_of_le hone, u16]

lemma divides_of_divider (hrate : 1 ≤ baudRate) (hrate' : baudRate ≤ 1000000) (hclock : clock < 2 ^ 32)
    (hmin : 3 ≤ tqNum) (hmax : tqNum ≤ 385) {p : Nat} (h : divider baudRate clock tqNum = some p) :
    Divides baudRate clock tqNum := by
  obtain ⟨hpos, hlt⟩ := quanta_bounds hrate hrate' hmin hmax
  obtain ⟨hdvd, hclockpos, -⟩ := divider_dvd hpos hlt hclock h
  exact ⟨hmin, hmax, hclockpos, hdvd⟩

end Divider

/-- The largest bit has a divider that fits in `NBRP`, after the cast. -/
def FirstFits (baudRate clock : Nat) : Prop :=
  ∃ tqNum, Largest baudRate clock tqNum ∧ (clock / (baudRate * tqNum) - 1) % 2 ^ 16 ≤ maxNbrp

/-- A sample point that is nearer than 20 per mille after it is rounded. -/
lemma nearPoint_of_distance {sp tqNum p : Nat} {seg : Segments} (config : TimingConfig) (hfits : NominalFits tqNum seg)
    (hmin : 3 ≤ tqNum) (hnear : distance ((2 + seg.seg1) * 1000 / tqNum) sp < 20) : NearPoint sp (store config p seg) := by
  unfold distance at hnear
  have hdiv := Nat.div_add_mod ((2 + seg.seg1) * 1000) tqNum
  have hmod := Nat.mod_lt ((2 + seg.seg1) * 1000) (show tqNum > 0 by omega)
  obtain ⟨q, hq⟩ : ∃ q, q = (2 + seg.seg1) * 1000 / tqNum := ⟨_, rfl⟩
  rw [← hq] at hnear hdiv
  have habove : tqNum * sp ≤ tqNum * (q + 19) := Nat.mul_le_mul_left _ (by omega)
  have hbelow : tqNum * q ≤ tqNum * (sp + 19) := Nat.mul_le_mul_left _ (by omega)
  rw [Nat.mul_add] at habove hbelow
  have hcomm := Nat.mul_comm tqNum sp
  have hquanta : 3 + (store config p seg).seg1 + (store config p seg).seg2 = tqNum := hfits.quanta
  have hseg1 : (store config p seg).seg1 = seg.seg1 := rfl
  constructor
  · rw [hquanta, hseg1]
    omega
  · rw [hquanta, hseg1]
    omega
  · rw [hquanta, hseg1, ← hq, distance]
    omega

section Rounds

variable {baudRate clock : Nat}

/-- Before the round `k`, either a count has been accepted and the first that divides the clock fits, or none of the larger
counts divides the clock. -/
structure Passed (baudRate clock k : Nat) (accepted : Bool) : Prop where
  max : k ≤ 385
  found : accepted = true → FirstFits baudRate clock
  ahead : accepted = false → ∀ tqNum, Divides baudRate clock tqNum → tqNum ≤ k

lemma Passed.start : Passed baudRate clock 385 false where
  max := le_refl _
  found := fun h => by cases h
  ahead := fun _ _ h => h.max

variable (hrate : 1 ≤ baudRate) (hrate' : baudRate ≤ 1000000) (hclock : clock < 2 ^ 32)
include hrate hrate' hclock

/-- A count that does not divide the clock. -/
lemma Passed.skip {k : Nat} {accepted : Bool} (h : Passed baudRate clock k accepted)
    (hdiv : divider baudRate clock k = none) : Passed baudRate clock (k - 1) accepted where
  max := by
    have := h.max
    omega
  found := h.found
  ahead := by
    intro hfalse tqNum hdvd
    have hle := h.ahead hfalse tqNum hdvd
    have hne : tqNum ≠ k := by
      rintro rfl
      rw [divider_of_divides hrate hrate' hclock hdvd] at hdiv
      cases hdiv
    omega

/-- The first count that divides the clock. -/
lemma Passed.largest {k p : Nat} (hk : 3 ≤ k) (h : Passed baudRate clock k false)
    (hdiv : divider baudRate clock k = some p) : Largest baudRate clock k :=
  ⟨divides_of_divider hrate hrate' hclock hk h.max hdiv, h.ahead rfl⟩

/-- A count whose divider fits. -/
lemma Passed.accept {k p : Nat} {accepted : Bool} (hk : 3 ≤ k) (h : Passed baudRate clock k accepted)
    (hdiv : divider baudRate clock k = some p) (hp : p ≤ maxNbrp) : FirstFits baudRate clock := by
  cases accepted with
  | true => exact h.found rfl
  | false =>
    have hlargest := h.largest hrate hrate' hclock hk hdiv
    rw [divider_of_divides hrate hrate' hclock hlargest.1, Option.some.injEq] at hdiv
    rw [← hdiv] at hp
    exact ⟨k, hlargest, hp⟩

/-- A count whose divider does not fit. -/
lemma Passed.leave {k p : Nat} {accepted : Bool} (hk : 3 ≤ k) (h : Passed baudRate clock k accepted)
    (hdiv : divider baudRate clock k = some p) (hp : ¬ p ≤ maxNbrp) : accepted = true ↔ FirstFits baudRate clock := by
  cases accepted with
  | true => exact ⟨fun _ => h.found rfl, fun _ => rfl⟩
  | false =>
    have hlargest := h.largest hrate hrate' hclock hk hdiv
    rw [divider_of_divides hrate hrate' hclock hlargest.1, Option.some.injEq] at hdiv
    constructor
    · intro hfalse
      cases hfalse
    · rintro ⟨tqNum, hfirst, hfits⟩
      have heq : tqNum = k := Nat.le_antisymm (hlargest.2 tqNum hfirst.1) (hfirst.2 k hlargest.1)
      subst heq
      exact absurd (hdiv ▸ hfits) hp

omit hrate hrate' hclock in
lemma Passed.last {accepted : Bool} (h : Passed baudRate clock 2 accepted) : accepted = true ↔ FirstFits baudRate clock := by
  cases accepted with
  | true => exact ⟨fun _ => h.found rfl, fun _ => rfl⟩
  | false =>
    constructor
    · intro hfalse
      cases hfalse
    · rintro ⟨tqNum, hfirst, -⟩
      have hle := h.ahead rfl tqNum hfirst.1
      have hmin := hfirst.1.min
      omega

/-- The search without a sample point is decided by the largest bit. -/
lemma improvedSearch_iff (segments : Nat → Segments) (config : TimingConfig) :
    (improvedSearch segments baudRate clock config).1 = true ↔ FirstFits baudRate clock := by
  let I : Nat → Search → Prop := fun k s => Passed baudRate clock k s.fgRet
  let Q : Search → Prop := fun s => s.fgRet = true ↔ FirstFits baudRate clock
  have hstart : I 385 { fgRet := false, sp := 1000, config := config } := Passed.start
  refine countdown_rule (I := I) (Q := Q) ?_ ?_ (fun s h => h.last) (by decide) (by decide) hstart
  · intro k s hk h
    simp only [improvedRound, Q]
    split
    next => intro hleave; cases hleave
    next p hdiv =>
      split
      next hp => exact fun _ => h.leave hrate hrate' hclock hk hdiv (Nat.not_le.mpr hp)
      next =>
        split
        all_goals intro hleave; cases hleave
  · intro k s hk h
    simp only [improvedRound, I]
    split
    next hdiv => exact fun _ => h.skip hrate hrate' hclock hdiv
    next p hdiv =>
      split
      next => intro hgo; cases hgo
      next hp =>
        have hmax := h.max
        have hfits := h.accept hrate hrate' hclock hk hdiv (Nat.not_lt.mp hp)
        split
        all_goals
          intro _
          exact ⟨by omega, fun _ => hfits, fun hfalse => by cases hfalse⟩

end Rounds

/-- The search with a sample point only finds a timing when the largest bit fits, and the point is near. -/
lemma calculateSpecifiedTimingValues_near {clock : Nat} {param : TimingParam} (hrate : 1 ≤ param.nominalbaudRate)
    (hrate' : param.nominalbaudRate ≤ 1000000) (hclock : clock < 2 ^ 32) (hparam : param.Admitted) (config : TimingConfig)
    (hret : (calculateSpecifiedTimingValues param clock config).1 = true) :
    FirstFits param.nominalbaudRate clock ∧
      NearPoint param.nominalSP (calculateSpecifiedTimingValues param clock config).2 := by
  let N : Search → Prop := fun s => distance s.sp param.nominalSP ≤ 20 ∧
    (s.fgRet = true → NearPoint param.nominalSP s.config)
  let I : Nat → Search → Prop := fun k s =>
    (∃ accepted, Passed param.nominalbaudRate clock k accepted ∧ (s.fgRet = true → accepted = true)) ∧ N s
  let Q : Search → Prop := fun s => s.fgRet = true →
    FirstFits param.nominalbaudRate clock ∧ NearPoint param.nominalSP s.config
  have hsp := hparam.nominalSP_le
  have hsp' := hparam.nominalSP_ge
  have hfg := (Bool.and_eq_true _ _ ▸ hret).1
  have hold : distance (if param.nominalSP < 980 then param.nominalSP + 20 else wsub32 param.nominalSP 20)
      param.nominalSP ≤ 20 := by
    unfold distance
    split_ifs
    · omega
    · rw [wsub32_of_le (by omega)]
      omega
  have hshare {k : Nat} (hk : 3 ≤ k) (hmax : k ≤ 385) :
      (2 + (getSpecifiedSegments param.nominalSP k).seg1) * 1000 % 2 ^ 32 =
        (2 + (getSpecifiedSegments param.nominalSP k).seg1) * 1000 := by
    have hseg1 := (getSpecifiedSegments_fits hsp hk hmax).seg1_fits
    unfold maxNtseg1 at hseg1
    exact Nat.mod_eq_of_lt (by omega)
  refine countdown_rule (I := I) (Q := Q) ?_ ?_ ?_ (by decide) (by decide)
    ⟨⟨false, Passed.start, fun h => by cases h⟩, hold, fun h => by cases h⟩ hfg
  · rintro k s hk ⟨⟨accepted, h, hacc⟩, hnear⟩
    have hmax := h.max
    simp only [specifiedRound, Q]
    split
    next => intro hleave; cases hleave
    next p hdiv =>
      split
      next => exact fun _ hs => ⟨h.found (hacc hs), hnear.2 hs⟩
      next hp =>
        split
        next hexact =>
          intro _ _
          refine ⟨h.accept hrate hrate' hclock hk hdiv (Nat.not_lt.mp hp), ?_⟩
          apply nearPoint_of_distance s.config (getSpecifiedSegments_fits hsp hk hmax) hk
          rw [← hshare hk hmax, hexact]
          simp [distance]
        next =>
          split
          all_goals intro hleave; cases hleave
  · rintro k s hk ⟨⟨accepted, h, hacc⟩, hnear⟩
    have hmax := h.max
    simp only [specifiedRound, I]
    split
    next hdiv => exact fun _ => ⟨⟨accepted, h.skip hrate hrate' hclock hdiv, hacc⟩, hnear⟩
    next p hdiv =>
      split
      next => intro hgo; cases hgo
      next hp =>
        have hnext : Passed param.nominalbaudRate clock (k - 1) true :=
          ⟨by omega, fun _ => h.accept hrate hrate' hclock hk hdiv (Nat.not_lt.mp hp), fun hfalse => by cases hfalse⟩
        split
        next => intro hgo; cases hgo
        next =>
          split
          next hnearer =>
            intro _
            have hlt := Nat.lt_of_lt_of_le hnearer hnear.1
            refine ⟨⟨true, hnext, fun _ => rfl⟩, Nat.le_of_lt hlt, fun _ => ?_⟩
            apply nearPoint_of_distance s.config (getSpecifiedSegments_fits hsp hk hmax) hk
            rw [← hshare hk hmax]
            exact hlt
          next => exact fun _ => ⟨⟨true, hnext, fun _ => rfl⟩, hnear⟩
  · rintro s ⟨⟨accepted, h, hacc⟩, hnear⟩ hs
    exact ⟨h.found (hacc hs), hnear.2 hs⟩

section Solutions

variable {baudRate clock : Nat}

lemma Divides.exists_largest {tqNum : Nat} (h : Divides baudRate clock tqNum) :
    ∃ tqNum', Largest baudRate clock tqNum' := by
  classical
  refine ⟨Nat.findGreatest (Divides baudRate clock) 385, Nat.findGreatest_spec h.max h, ?_⟩
  intro tqNum' h'
  exact Nat.le_findGreatest h'.max h'

lemma Solution.divides {tq p : Nat} (hrate : 1 ≤ baudRate) (h : Solution baudRate clock tq p) :
    Divides baudRate clock tq := by
  obtain ⟨hmin, hmax, hp, -, rfl⟩ := h
  have hpos : 0 < tq := Nat.lt_of_lt_of_le (by decide) hmin
  exact ⟨hmin, hmax, Nat.mul_pos (Nat.mul_pos hrate hpos) hp, Nat.dvd_mul_right _ _⟩

/-- The largest bit has the smallest divider. -/
lemma Solution.largest_le {tq p tqNum : Nat} (hrate : 1 ≤ baudRate) (h : Solution baudRate clock tq p)
    (hlargest : Largest baudRate clock tqNum) : clock / (baudRate * tqNum) ≤ p := by
  have hle := hlargest.2 tq (h.divides hrate)
  obtain ⟨hmin, -, -, -, hexact⟩ := h
  have hpos : 0 < baudRate * tq := Nat.mul_pos hrate (Nat.lt_of_lt_of_le (by decide) hmin)
  calc clock / (baudRate * tqNum) ≤ clock / (baudRate * tq) := Nat.div_le_div_left (Nat.mul_le_mul_left _ hle) hpos
    _ = p := by rw [← hexact, Nat.mul_div_cancel_left p hpos]

lemma firstFits_iff (hrate : 1 ≤ baudRate) (hkept : DividerKept baudRate clock) :
    FirstFits baudRate clock ↔ ∃ tq p, Solution baudRate clock tq p := by
  constructor
  · rintro ⟨tqNum, hlargest, hfits⟩
    have hpos : 0 < baudRate * tqNum := Nat.mul_pos hrate (Nat.lt_of_lt_of_le (by decide) hlargest.1.min)
    have hone : 1 ≤ clock / (baudRate * tqNum) :=
      (Nat.one_le_div_iff hpos).mpr (Nat.le_of_dvd hlargest.1.clock_pos hlargest.1.dvd)
    have hle := (hkept tqNum hlargest).resolve_right (Nat.not_lt.mpr hfits)
    rw [Nat.mod_eq_of_lt (by omega)] at hfits
    exact ⟨tqNum, clock / (baudRate * tqNum), hlargest.1.min, hlargest.1.max, hone, by omega,
      Nat.mul_div_cancel' hlargest.1.dvd⟩
  · rintro ⟨tq, p, h⟩
    obtain ⟨tqNum, hlargest⟩ := (h.divides hrate).exists_largest
    have hle := h.largest_le hrate hlargest
    have hp := h.2.2.2.1
    refine ⟨tqNum, hlargest, ?_⟩
    rw [Nat.mod_eq_of_lt (by unfold maxNbrp at hp; omega)]
    omega

/-- With a solution, no bit has a divider that the cast changes. -/
lemma Solution.le_width {tq p tqNum : Nat} (hrate : 1 ≤ baudRate) (h : Solution baudRate clock tq p) (hmin : 3 ≤ tqNum)
    (hdvd : baudRate * tqNum ∣ clock) : clock ≤ 65536 * (baudRate * tqNum) := by
  obtain ⟨-, htq, -, hp, hexact⟩ := h
  change tq ≤ 385 at htq
  change p ≤ 512 at hp
  obtain ⟨q, rfl⟩ := hdvd
  rw [Nat.mul_comm 65536]
  apply Nat.mul_le_mul_left
  by_contra hq
  have hprod : tq * p = tqNum * q := by
    apply Nat.eq_of_mul_eq_mul_left hrate
    rw [← Nat.mul_assoc, hexact, Nat.mul_assoc]
  have hlow : tqNum * 65537 ≤ tqNum * q := Nat.mul_le_mul_left _ (by omega)
  have hhigh : tq * p ≤ 385 * 512 := Nat.mul_le_mul htq hp
  obtain rfl : tqNum = 3 := by omega
  -- only 385 quanta leave room, and neither of the two dividers is a multiple of 3
  obtain rfl : tq = 385 := by
    by_contra hne
    have hless : tq * p ≤ 384 * 512 := Nat.mul_le_mul (by omega) hp
    omega
  omega

end Solutions

/-- The searches for a rate are exact and complete when the divider of the largest bit is not taken for another one. -/
theorem classicalTiming_exact_iff {baudRate clock : Nat} (hrate : 1 ≤ baudRate) (hrate' : baudRate ≤ 1000000)
    (hclock : clock < 2 ^ 32) : ClassicalExact baudRate clock ↔ DividerKept baudRate clock := by
  constructor
  · intro h tqNum hlargest
    by_contra hnot
    obtain ⟨hwide, hfits⟩ := not_or.mp hnot
    have hfound := (improvedSearch_iff hrate hrate' hclock (getSegments baudRate) zeroTiming).mpr
      ⟨tqNum, hlargest, Nat.not_lt.mp hfits⟩
    obtain ⟨tq, p, hsolution⟩ := (h.complete zeroTiming).mp hfound
    have hle := Solution.largest_le hrate hsolution hlargest
    have hp := hsolution.2.2.2.1
    unfold maxNbrp at hp
    omega
  · intro hkept
    have hwidth (hfirst : FirstFits baudRate clock) (tqNum : Nat) (hmin : 3 ≤ tqNum) (_ : tqNum ≤ 385)
        (hdvd : baudRate * tqNum ∣ clock) : clock ≤ 65536 * (baudRate * tqNum) := by
      obtain ⟨tq, p, hsolution⟩ := (firstFits_iff hrate hkept).mp hfirst
      exact hsolution.le_width hrate hmin hdvd
    constructor
    · intro config
      exact (improvedSearch_iff hrate hrate' hclock _ config).trans (firstFits_iff hrate hkept)
    · intro config hret
      have hfirst := (improvedSearch_iff hrate hrate' hclock _ config).mp hret
      have hsegments : ∀ tqNum, 3 ≤ tqNum → tqNum ≤ 385 → NominalFits tqNum (getSegments baudRate tqNum) :=
        fun _ => getSegments_fits baudRate
      exact (improvedSearch_found hsegments baudRate clock config hret).exact hsegments hrate hrate' hclock (hwidth hfirst)
    · rintro param config hparam rfl hret
      obtain ⟨hfirst, hnear⟩ := calculateSpecifiedTimingValues_near hrate hrate' hclock hparam config hret
      have hsegments : ∀ tqNum, 3 ≤ tqNum → tqNum ≤ 385 →
          NominalFits tqNum (getSpecifiedSegments param.nominalSP tqNum) :=
        fun _ => getSpecifiedSegments_fits hparam.nominalSP_le
      refine ⟨?_, hnear⟩
      exact (calculateSpecifiedTimingValues_found param clock config hret).exact hsegments hrate hrate' hclock
        (hwidth hfirst)

theorem classicalTiming_exact_80MHz : ClassicalExact 500000 80000000 := by
  refine (classicalTiming_exact_iff (by decide) (by decide) (by decide)).mpr ?_
  intro tqNum hlargest
  have hdiv : 80000000 / (500000 * tqNum) ≤ 80000000 / (500000 * 3) :=
    Nat.div_le_div_left (Nat.mul_le_mul_left _ hlargest.1.min) (by decide)
  exact Or.inl (Nat.le_trans hdiv (by decide))

/-- 1 kbit/s at 196.611 MHz needs a divider of 65537, which is stored as 1. -/
theorem classicalTiming_not_exact : ¬ ClassicalExact 1000 196611000 := by
  intro h
  have hret : (calculateImprovedTimingValues 1000 196611000 zeroTiming).1 = true := by decide +kernel
  have hexact := (h.improved zeroTiming hret).exact
  have hconfig : (calculateImprovedTimingValues 1000 196611000 zeroTiming).2 =
      { zeroTiming with preDivider := 0, rJumpwidth := 0, seg1 := 0, seg2 := 0 } := by decide +kernel
  rw [hconfig] at hexact
  exact absurd hexact (by decide)

end McuxDrivers.Mcan
