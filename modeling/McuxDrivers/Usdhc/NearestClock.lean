import McuxDrivers.Usdhc.ClockChoice

/-!
# When the clock is the nearest one from below

Small even total divisors go to the prescaler as they are, also those that are no power of two; a divisor can overrun its
field; and at low frequencies the next legal divisor can lose more than the rounding allows.
-/

namespace McuxDrivers.Usdhc

open Lib

/-- A divisor and a prescaler that the register can hold. -/
def LegalPair (d p : Nat) : Prop :=
  1 ≤ d ∧ d ≤ 16 ∧ ∃ k ≤ 8, p = 2 ^ k

/-- The prescaler for a value of `SDCLKFS`. -/
def prescalerOf (sdclkfs : Nat) : Nat :=
  if sdclkfs = 0 then 1 else 2 * sdclkfs

/-- No legal pair gives a larger frequency within the limit. -/
def Nearest (srcClock_Hz limit frequency : Nat) : Prop :=
  ∀ d p, LegalPair d p → srcClock_Hz / (d * p) ≤ limit → srcClock_Hz / (d * p) ≤ frequency

/-- What is asked of the result and the register. -/
structure RightClock (srcClock_Hz busClock_Hz : Nat) (result : Nat × SysCtrl) : Prop where
  failed : result.1 = 0 → ∀ d p, LegalPair d p → d * p < (srcClock_Hz + busClock_Hz - 1) / busClock_Hz
  legal : result.1 ≠ 0 → LegalPair (result.2.dvs + 1) (prescalerOf result.2.sdclkfs)
  returned : result.1 ≠ 0 → result.1 = srcClock_Hz / ((result.2.dvs + 1) * prescalerOf result.2.sdclkfs)
  le : result.1 ≠ 0 → result.1 ≤ min busClock_Hz srcClock_Hz
  nearest : result.1 ≠ 0 → Nearest srcClock_Hz (min busClock_Hz srcClock_Hz) result.1

/-- The searches end, and the clock is right. -/
def SetsNearestClock (srcClock_Hz busClock_Hz : Nat) (sysctl : SysCtrl) : Prop :=
  Yields (setSdClock srcClock_Hz busClock_Hz sysctl) (RightClock srcClock_Hz busClock_Hz)

/-- The total divisor for a limit: the quotient, or the next one when the quotient gives a larger frequency. -/
def totalDivisor (srcClock_Hz limit : Nat) : Nat :=
  if srcClock_Hz / (srcClock_Hz / limit) > limit then srcClock_Hz / limit + 1 else srcClock_Hz / limit

/-- Of the two legal divisors around `t`, the lower one gives a frequency over the limit or the upper one reaches it. -/
def NothingLost (srcClock_Hz limit t : Nat) : Prop :=
  ∀ k ≤ 8, 8 * 2 ^ k < t → t ≤ 16 * 2 ^ k → 2 ^ k ∣ t ∨ limit < srcClock_Hz / (t / 2 ^ k * 2 ^ k) ∨
    srcClock_Hz / ((t / 2 ^ k + 1) * 2 ^ k) = limit

instance (srcClock_Hz limit t : Nat) : Decidable (NothingLost srcClock_Hz limit t) :=
  inferInstanceAs (Decidable (∀ k ≤ 8, 8 * 2 ^ k < t → t ≤ 16 * 2 ^ k → 2 ^ k ∣ t ∨
    limit < srcClock_Hz / (t / 2 ^ k * 2 ^ k) ∨ srcClock_Hz / ((t / 2 ^ k + 1) * 2 ^ k) = limit))

section Target

variable {src limit : Nat}

/-- What is known of the total divisor. -/
structure Target (src limit t : Nat) : Prop where
  pos : 0 < t
  le_src : t ≤ src
  le : src / t ≤ limit
  below : ∀ m, 0 < m → m < t → limit ≤ src / m
  tight : src / t = limit ∨ ∀ m, 0 < m → m < t → limit < src / m

lemma totalDivisor_target (hpos : 0 < limit) (hle : limit ≤ src) : Target src limit (totalDivisor src limit) := by
  have hquot : 0 < src / limit := Nat.div_pos hle hpos
  have hmul : src / limit * limit ≤ src := Nat.div_mul_le_self src limit
  have hbelow : ∀ m, 0 < m → m ≤ src / limit → limit ≤ src / m := by
    intro m hm hmle
    rw [Nat.le_div_iff_mul_le hm, Nat.mul_comm]
    exact le_trans (Nat.mul_le_mul_right limit hmle) hmul
  rw [totalDivisor]
  split
  · rename_i hover
    have hlarge : 2 * (src / limit) ≤ src := by
      have htwo : 2 ≤ src / (src / limit) := by omega
      exact (Nat.le_div_iff_mul_le hquot).mp htwo
    have hlt : src < (src / limit + 1) * limit := by
      rw [Nat.succ_mul]
      exact Nat.lt_div_mul_add hpos
    have hstrict : ∀ m, 0 < m → m < src / limit + 1 → limit < src / m := by
      intro m hm hmlt
      exact lt_of_lt_of_le hover (Nat.div_le_div_left (by omega) hm)
    refine ⟨by omega, by omega, ?_, fun m hm hmlt => hbelow m hm (by omega), Or.inr hstrict⟩
    rw [Nat.div_le_iff_le_mul_add_pred (by omega)]
    have hcomm := Nat.mul_comm (src / limit + 1) limit
    omega
  · rename_i hunder
    have hge := hbelow (src / limit) hquot (Nat.le_refl _)
    exact ⟨hquot, Nat.div_le_self src limit, by omega, fun m hm hmlt => hbelow m hm hmlt.le, Or.inl (by omega)⟩

end Target

section Legal

variable {t k m : Nat}

lemma LegalPair.pos {d p : Nat} (h : LegalPair d p) : 0 < d * p := by
  obtain ⟨hd, -, k, -, rfl⟩ := h
  exact Nat.mul_pos hd (Nat.two_pow_pos k)

lemma prescalerOf_half (k : Nat) : prescalerOf (2 ^ k / 2) = 2 ^ k := by
  cases k with
  | zero => rfl
  | succ k =>
    have hpos := Nat.two_pow_pos k
    rw [Nat.pow_succ, Nat.mul_div_cancel _ Nat.two_pos, prescalerOf, if_neg (by omega), Nat.mul_comm]

/-- The register for a legal pair holds the pair. -/
lemma programClock_legal {src : Nat} {sysctl : SysCtrl} {d p : Nat} (h : LegalPair d p) :
    programClock src sysctl (some (d, p)) = (src / (d * p), ⟨d - 1, p / 2⟩) := by
  obtain ⟨hd, hd16, k, hk, rfl⟩ := h
  have hp : 2 ^ k ≤ 2 ^ 8 := Nat.pow_le_pow_right (by decide) hk
  have hhalf : 2 ^ k / 2 % 2 ^ 8 = 2 ^ k / 2 := Nat.mod_eq_of_lt (by omega)
  have hdvs : (d - 1) % 2 ^ 4 = d - 1 := Nat.mod_eq_of_lt (by omega)
  rw [programClock, if_neg (by omega), if_pos (by omega), hhalf, hdvs, Nat.div_div_eq_div_mul]

/-- The multiples of a power of two are the only legal divisors between 8 and 16 times it. -/
lemma legal_le_or_le {d p : Nat} (h : LegalPair d p) (hlow : 8 * 2 ^ k < t) :
    d * p ≤ t / 2 ^ k * 2 ^ k ∨ (t / 2 ^ k + 1) * 2 ^ k ≤ d * p := by
  obtain ⟨hd, hd16, i, hi, rfl⟩ := h
  by_cases hik : k ≤ i
  · obtain ⟨c, hc⟩ : 2 ^ k ∣ d * 2 ^ i := dvd_trans (Nat.pow_dvd_pow 2 hik) (Nat.dvd_mul_left _ d)
    rw [hc, Nat.mul_comm (2 ^ k)]
    by_cases hle : c ≤ t / 2 ^ k
    · exact Or.inl (Nat.mul_le_mul_right _ hle)
    · exact Or.inr (Nat.mul_le_mul_right _ (by omega))
  · left
    have hdouble : 2 * 2 ^ i ≤ 2 ^ k := by
      rw [← Nat.pow_succ']
      exact Nat.pow_le_pow_right (by decide) (by omega)
    have height : 8 ≤ t / 2 ^ k := by
      rw [Nat.le_div_iff_mul_le (Nat.two_pow_pos k)]
      omega
    calc d * 2 ^ i ≤ 16 * 2 ^ i := Nat.mul_le_mul_right _ hd16
      _ = 8 * (2 * 2 ^ i) := by omega
      _ ≤ 8 * 2 ^ k := Nat.mul_le_mul_left 8 hdouble
      _ ≤ t / 2 ^ k * 2 ^ k := Nat.mul_le_mul_right _ height

/-- The power of two around a total divisor is unique. -/
lemma step_unique {i : Nat} (hlow : 8 * 2 ^ k < t) (hhigh : t ≤ 16 * 2 ^ k) (hlow' : 8 * 2 ^ i < t)
    (hhigh' : t ≤ 16 * 2 ^ i) : i = k := by
  have hik : 2 ^ i < 2 ^ (k + 1) := by
    rw [Nat.pow_succ]
    omega
  have hki : 2 ^ k < 2 ^ (i + 1) := by
    rw [Nat.pow_succ]
    omega
  have hle := (Nat.pow_lt_pow_iff_right (by decide : 1 < 2)).mp hik
  have hge := (Nat.pow_lt_pow_iff_right (by decide : 1 < 2)).mp hki
  omega

end Legal

section Right

variable {src bus t f : Nat} {sysctl : SysCtrl}

/-- The clock of a legal pair that is not too fast. -/
lemma rightClock_legal_iff {d p : Nat} (hlegal : LegalPair d p) (hle : src / (d * p) ≤ min bus src) :
    RightClock src bus (programClock src sysctl (some (d, p))) ↔
      (src / (d * p) = 0 → ∀ d p, LegalPair d p → d * p < (src + bus - 1) / bus) ∧
      (src / (d * p) ≠ 0 → Nearest src (min bus src) (src / (d * p))) := by
  have hd : d - 1 + 1 = d := by
    have := hlegal.1
    omega
  have hp : prescalerOf (p / 2) = p := by
    obtain ⟨-, -, k, -, rfl⟩ := hlegal
    exact prescalerOf_half k
  rw [programClock_legal hlegal]
  constructor
  · intro h
    exact ⟨h.failed, h.nearest⟩
  · rintro ⟨hfailed, hnearest⟩
    refine ⟨hfailed, fun _ => ?_, fun _ => ?_, fun _ => hle, hnearest⟩
    · rw [hd, hp]
      exact hlegal
    · rw [hd, hp]

/-- A legal pair with exactly the total divisor is right. -/
lemma nearest_exact (h : Target src (min bus src) t) : Nearest src (min bus src) (src / t) := by
  intro d p hlegal hlimit
  by_cases hlt : d * p < t
  · cases h.tight with
    | inl htight => omega
    | inr htight =>
      have := htight (d * p) hlegal.pos hlt
      omega
  · exact Nat.div_le_div_left (by omega) h.pos

lemma rightClock_exact (h : Target src (min bus src) t) {d p : Nat} (hlegal : LegalPair d p) (hdp : d * p = t) :
    RightClock src bus (programClock src sysctl (some (d, p))) := by
  have hpos : 0 < src / t := Nat.div_pos h.le_src h.pos
  rw [rightClock_legal_iff hlegal (by rw [hdp]; exact h.le), hdp]
  exact ⟨fun hzero => by omega, fun _ => nearest_exact h⟩

lemma legal_max : LegalPair 16 (2 ^ 8) :=
  ⟨by decide, by decide, 8, by decide, rfl⟩

lemma ceil_le (hsrc : 0 < src) (hbus : 0 < bus) : (src + bus - 1) / bus ≤ src := by
  rw [Nat.div_le_iff_le_mul_add_pred hbus]
  have hmul : src ≤ bus * src := Nat.le_mul_of_pos_left src hbus
  omega

/-- The next multiple of the prescaler is right when nothing is lost in between. -/
lemma rightClock_next_iff (h : Target src (min bus src) t) (hbus : 0 < bus) {k : Nat} (hk : k ≤ 8) (hlow : 8 * 2 ^ k < t)
    (hhigh : t ≤ 16 * 2 ^ k) (hdvd : ¬ 2 ^ k ∣ t) :
    RightClock src bus (programClock src sysctl (some (t / 2 ^ k + 1, 2 ^ k))) ↔
      min bus src < src / (t / 2 ^ k * 2 ^ k) ∨ src / ((t / 2 ^ k + 1) * 2 ^ k) = min bus src := by
  have hg := Nat.two_pow_pos k
  have hsrc : 0 < src := lt_of_lt_of_le h.pos h.le_src
  have hlimit : 0 < min bus src := lt_min hbus hsrc
  have height : 8 ≤ t / 2 ^ k := by
    rw [Nat.le_div_iff_mul_le hg]
    omega
  have hquot : t / 2 ^ k < 16 := by
    have hne : t ≠ 16 * 2 ^ k := by
      rintro rfl
      exact hdvd (Nat.dvd_mul_left (2 ^ k) 16)
    rw [Nat.div_lt_iff_lt_mul hg]
    omega
  have hlower : t / 2 ^ k * 2 ^ k < t := div_mul_lt hdvd
  have hupper : t ≤ (t / 2 ^ k + 1) * 2 ^ k := by
    have hlt := Nat.lt_div_mul_add hg (a := t)
    rw [Nat.succ_mul]
    omega
  have hlegal' : LegalPair (t / 2 ^ k) (2 ^ k) := ⟨by omega, by omega, k, hk, rfl⟩
  have hlegal : LegalPair (t / 2 ^ k + 1) (2 ^ k) := ⟨by omega, by omega, k, hk, rfl⟩
  have hle : src / ((t / 2 ^ k + 1) * 2 ^ k) ≤ min bus src :=
    le_trans (Nat.div_le_div_left hupper h.pos) h.le
  rw [rightClock_legal_iff hlegal hle]
  constructor
  · rintro ⟨hfailed, hnearest⟩
    by_contra hnot
    rw [not_or, Nat.not_lt] at hnot
    have hbelow := h.below _ hlegal'.pos hlower
    by_cases hzero : src / ((t / 2 ^ k + 1) * 2 ^ k) = 0
    · have hmax := hfailed hzero 16 (2 ^ 8) legal_max
      have hsmall : src < (t / 2 ^ k + 1) * 2 ^ k := Nat.lt_of_div_eq_zero hlegal.pos hzero
      have hmul : (t / 2 ^ k + 1) * 2 ^ k ≤ 16 * 2 ^ 8 :=
        Nat.mul_le_mul (by omega) (Nat.pow_le_pow_right (by decide) hk)
      have hceil := ceil_le hsrc hbus
      omega
    · have hbest := hnearest hzero _ _ hlegal' hnot.1
      omega
  · intro hcond
    have hpos : src / ((t / 2 ^ k + 1) * 2 ^ k) ≠ 0 := by
      cases hcond with
      | inl hover =>
        have htwo : 2 * (t / 2 ^ k * 2 ^ k) ≤ src := by
          rw [← Nat.le_div_iff_mul_le hlegal'.pos]
          omega
        have hstep : (t / 2 ^ k + 1) * 2 ^ k ≤ 2 * (t / 2 ^ k * 2 ^ k) := by
          rw [← Nat.mul_assoc]
          exact Nat.mul_le_mul_right _ (by omega)
        have := Nat.div_pos (le_trans hstep htwo) hlegal.pos
        omega
      | inr heq => omega
    refine ⟨fun hzero => absurd hzero hpos, fun _ => ?_⟩
    intro d p hpair hwithin
    rcases legal_le_or_le hpair hlow with hlt | hge
    · cases hcond with
      | inl hover =>
        have hfast : src / (t / 2 ^ k * 2 ^ k) ≤ src / (d * p) := Nat.div_le_div_left hlt hpair.pos
        omega
      | inr heq => omega
    · exact Nat.div_le_div_left hge hlegal.pos

/-- A total divisor that goes to the prescaler has to be a power of two. -/
lemma rightClock_even_iff (h : Target src (min bus src) t) (hle : t ≤ 16) (heven : t % 2 = 0) :
    RightClock src bus (programClock src sysctl (some (1, t))) ↔ t ∉ [6, 10, 12, 14] := by
  have hpos := h.pos
  have hprog : programClock src sysctl (some (1, t)) = (src / t, ⟨0, t / 2⟩) := by
    have hhalf : t / 2 % 2 ^ 8 = t / 2 := Nat.mod_eq_of_lt (by omega)
    rw [programClock, hhalf, if_neg (by decide), Nat.div_one]
    rfl
  have hprescaler : prescalerOf (t / 2) = t := by
    rw [prescalerOf, if_neg (by omega)]
    omega
  have hpowers : ∀ u ≤ 16, u % 2 = 0 → 0 < u → ((∃ k ≤ 8, u = 2 ^ k) ↔ u ∉ [6, 10, 12, 14]) := by
    decide
  rw [← hpowers t hle heven hpos]
  constructor
  · intro hright
    rw [hprog] at hright
    have hne : src / t ≠ 0 := (Nat.div_pos h.le_src h.pos).ne'
    have hlegal := hright.legal hne
    rw [hprescaler] at hlegal
    exact hlegal.2.2
  · intro hpower
    exact rightClock_exact h ⟨by decide, by decide, hpower⟩ (Nat.one_mul t)

/-- A divisor that overruns its field. -/
lemma not_rightClock_overrun (h : Target src (min bus src) t) {j : Nat} (hj : j ∈ [1, 2, 3]) (hlow : 16 * 2 ^ j < t)
    (hhigh : t < 16 * 2 ^ j + 16) (hdvd : 2 ^ j ∣ t) :
    ¬ RightClock src bus (programClock src sysctl (some (t / 2 ^ j, 2 ^ j))) := by
  have hg := Nat.two_pow_pos j
  have hquot : t / 2 ^ j * 2 ^ j = t := Nat.div_mul_cancel hdvd
  have hge : 16 < t / 2 ^ j := by
    rw [← hquot] at hlow
    exact Nat.lt_of_mul_lt_mul_right hlow
  have hlt : t / 2 ^ j < 32 := by
    rw [Nat.div_lt_iff_lt_mul hg]
    omega
  have hhalf : 2 ^ j / 2 % 2 ^ 8 = 2 ^ j / 2 := by
    have hall : ∀ j ∈ [1, 2, 3], 2 ^ j / 2 % 2 ^ 8 = 2 ^ j / 2 := by decide
    exact hall j hj
  have hdvs : (t / 2 ^ j - 1) % 2 ^ 4 + 1 = t / 2 ^ j - 16 := by
    omega
  have hprog : programClock src sysctl (some (t / 2 ^ j, 2 ^ j)) = (src / t, ⟨(t / 2 ^ j - 1) % 2 ^ 4, 2 ^ j / 2⟩) := by
    rw [programClock, if_neg (by omega), if_pos (by omega), hhalf, Nat.div_div_eq_div_mul, hquot]
  rw [hprog]
  intro hright
  have hpos : 0 < src / t := Nat.div_pos h.le_src h.pos
  have hreturned := hright.returned hpos.ne'
  simp only [hdvs, prescalerOf_half] at hreturned
  have hdouble : 2 * ((t / 2 ^ j - 16) * 2 ^ j) ≤ t := by
    nth_rewrite 2 [← hquot]
    rw [← Nat.mul_assoc]
    exact Nat.mul_le_mul_right _ (by omega)
  have hfast : 2 * (src / t) ≤ src / ((t / 2 ^ j - 16) * 2 ^ j) := by
    rw [Nat.le_div_iff_mul_le (Nat.mul_pos (by omega) hg)]
    calc 2 * (src / t) * ((t / 2 ^ j - 16) * 2 ^ j) = src / t * (2 * ((t / 2 ^ j - 16) * 2 ^ j)) := by
          rw [Nat.mul_comm 2, Nat.mul_assoc]
      _ ≤ src / t * t := Nat.mul_le_mul_left _ hdouble
      _ ≤ src := Nat.div_mul_le_self src t
  omega

lemma rightClock_none (h : 4096 < (src + bus - 1) / bus) : RightClock src bus (programClock src sysctl none) := by
  refine ⟨fun _ d p hlegal => ?_, fun hne => absurd rfl hne, fun hne => absurd rfl hne, fun hne => absurd rfl hne,
    fun hne => absurd rfl hne⟩
  obtain ⟨hd, hd16, k, hk, rfl⟩ := hlegal
  have hmul : d * 2 ^ k ≤ 16 * 2 ^ 8 := Nat.mul_le_mul hd16 (Nat.pow_le_pow_right (by decide) hk)
  omega

end Right

section Result

variable {src bus : Nat}

lemma ceil_of_large (hsrc : 0 < src) (hbus : 0 < bus) (hlarge : 4096 < totalDivisor src (min bus src)) :
    4096 < (src + bus - 1) / bus := by
  have hle : bus ≤ src := by
    by_contra hnot
    have hone : src / src = 1 := Nat.div_self hsrc
    rw [Nat.min_eq_right (by omega), totalDivisor, hone, Nat.div_one, if_neg (by omega)] at hlarge
    omega
  rw [Nat.min_eq_left hle, totalDivisor] at hlarge
  rw [Nat.lt_iff_add_one_le, Nat.le_div_iff_mul_le hbus]
  have hmul : src / bus * bus ≤ src := Nat.div_mul_le_self src bus
  by_cases hquot : 4097 ≤ src / bus
  · have hstep := Nat.mul_le_mul_right bus hquot
    omega
  · split at hlarge
    · rename_i hover
      have heq : src / bus = 4096 := by omega
      have hsmall : (bus + 1) * 4096 ≤ src := by
        rw [← Nat.le_div_iff_mul_le (by decide), ← heq]
        omega
      omega
    · omega

/-- The function returns what the division of the total divisor comes to. -/
lemma setSdClock_outcome (hsrc : 0 < src) (hbus : 0 < bus) (sysctl : SysCtrl) :
    Yields (setSdClock src bus sysctl) fun result =>
      ∃ split, SplitOutcome (totalDivisor src (min bus src)) split ∧ result = programClock src sysctl split := by
  have hlimit : (if bus > src then src else bus) = min bus src := by
    split <;> omega
  have hquot : 0 < src / min bus src := Nat.div_pos (Nat.min_le_right bus src) (lt_min hbus hsrc)
  have hge : src / min bus src ≤ totalDivisor src (min bus src) := by
    rw [totalDivisor]
    split <;> omega
  have hle : totalDivisor src (min bus src) ≤ src / min bus src + 1 := by
    rw [totalDivisor]
    split <;> omega
  unfold setSdClock
  simp only [hlimit]
  by_cases hlarge : src / min bus src > maxClkfs * maxDvs
  · simp only [if_pos hlarge]
    apply Yields.pure
    refine ⟨none, SplitOutcome.beyond ?_, rfl⟩
    rw [maxClkfs, maxDvs] at hlarge
    omega
  · simp only [if_neg hlarge, if_pos hquot.ne']
    rw [maxClkfs, maxDvs] at hlarge
    apply Yields.map (splitDivisor_outcome (by omega : totalDivisor src (min bus src) ≤ 4097))
    intro split hsplit
    exact ⟨split, hsplit, rfl⟩

lemma nothingLost_of_le {limit t : Nat} (hle : t ≤ 16) : NothingLost src limit t := by
  intro k _ hlow _
  have hk : 2 ^ k < 2 ^ 1 := by omega
  have hzero := (Nat.pow_lt_pow_iff_right (by decide : 1 < 2)).mp hk
  have heq : k = 0 := by omega
  subst heq
  exact Or.inl (Nat.one_dvd t)

lemma not_overruns_of {t : Nat} (h : t ≤ 16 ∨ 4096 < t) : ¬ Overruns t := by
  rintro ⟨j, hj, hlow, hhigh, -⟩
  have hall : ∀ j ∈ [1, 2, 3], 2 ≤ 2 ^ j ∧ 2 ^ j ≤ 8 := by decide
  have := hall j hj
  omega

lemma notMem_of_lt {t : Nat} (h : 16 < t) : t ∉ [6, 10, 12, 14] := by
  have hall : ∀ u ∈ [6, 10, 12, 14], u ≤ 16 := by decide
  intro hmem
  have := hall t hmem
  omega

/-- The condition for the result of a division. -/
lemma rightClock_iff {t : Nat} {split : Option (Nat × Nat)} (hsplit : SplitOutcome t split)
    (htarget : Target src (min bus src) t) (hbus : 0 < bus)
    (hceil : 4096 < t → 4096 < (src + bus - 1) / bus) (sysctl : SysCtrl) :
    RightClock src bus (programClock src sysctl split) ↔
      t ∉ [6, 10, 12, 14] ∧ ¬ Overruns t ∧ NothingLost src (min bus src) t := by
  cases hsplit with
  | odd hle hodd =>
    have hright : RightClock src bus (programClock src sysctl (some (t, 1))) :=
      rightClock_exact htarget ⟨htarget.pos, hle, 0, by decide, rfl⟩ (Nat.mul_one t)
    have hmem : t ∉ [6, 10, 12, 14] := by
      have hall : ∀ u ∈ [6, 10, 12, 14], u % 2 = 0 := by decide
      exact fun hmem => hodd (hall t hmem)
    exact ⟨fun _ => ⟨hmem, not_overruns_of (Or.inl hle), nothingLost_of_le hle⟩, fun _ => hright⟩
  | even hle heven =>
    rw [rightClock_even_iff htarget hle heven]
    exact ⟨fun hmem => ⟨hmem, not_overruns_of (Or.inl hle), nothingLost_of_le hle⟩, fun h => h.1⟩
  | overrun j hj hlow hhigh hdvd =>
    have hnot : ¬ RightClock src bus (programClock src sysctl (some (t / 2 ^ j, 2 ^ j))) :=
      not_rightClock_overrun htarget hj hlow hhigh hdvd
    exact ⟨fun h => absurd h hnot, fun h => absurd ⟨j, hj, hlow, hhigh, hdvd⟩ h.2.1⟩
  | exact hlarge k hk hlow hhigh hdvd hno =>
    have hquot : t / 2 ^ k * 2 ^ k = t := Nat.div_mul_cancel hdvd
    have hlegal : LegalPair (t / 2 ^ k) (2 ^ k) := by
      refine ⟨?_, ?_, k, hk, rfl⟩
      · rw [Nat.le_div_iff_mul_le (Nat.two_pow_pos k)]
        omega
      · exact Nat.div_le_of_le_mul (by rw [Nat.mul_comm]; exact hhigh)
    have hlost : NothingLost src (min bus src) t := by
      intro i _ hlow' hhigh'
      rw [step_unique hlow hhigh hlow' hhigh']
      exact Or.inl hdvd
    exact ⟨fun _ => ⟨notMem_of_lt hlarge, hno, hlost⟩, fun _ => rightClock_exact htarget hlegal hquot⟩
  | next hlarge k hk hlow hhigh hdvd hno =>
    rw [rightClock_next_iff htarget hbus hk hlow hhigh hdvd]
    constructor
    · intro h
      refine ⟨notMem_of_lt hlarge, hno, ?_⟩
      intro i _ hlow' hhigh'
      rw [step_unique hlow hhigh hlow' hhigh']
      exact Or.inr h
    · rintro ⟨-, -, hlost⟩
      exact (hlost k hk hlow hhigh).resolve_left hdvd
  | beyond hlarge =>
    have hright : RightClock src bus (programClock src sysctl none) := rightClock_none (hceil hlarge)
    have hlost : NothingLost src (min bus src) t := by
      intro k hk _ hhigh
      have hpow : 2 ^ k ≤ 2 ^ 8 := Nat.pow_le_pow_right (by decide) hk
      omega
    exact ⟨fun _ => ⟨notMem_of_lt (by omega), not_overruns_of (Or.inr hlarge), hlost⟩, fun _ => hright⟩

/-- The clock is set as it should be exactly when the total divisor is not one of those that go wrong in the register, and
nothing is lost to the rounding. -/
theorem setsNearestClock_iff (hsrc : 0 < src) (hbus : 0 < bus) (sysctl : SysCtrl) :
    SetsNearestClock src bus sysctl ↔ totalDivisor src (min bus src) ∉ [6, 10, 12, 14] ∧
      ¬ Overruns (totalDivisor src (min bus src)) ∧ NothingLost src (min bus src) (totalDivisor src (min bus src)) := by
  have htarget : Target src (min bus src) (totalDivisor src (min bus src)) :=
    totalDivisor_target (lt_min hbus hsrc) (Nat.min_le_right bus src)
  obtain ⟨result, hreturns, split, hsplit, rfl⟩ := setSdClock_outcome hsrc hbus sysctl
  rw [← rightClock_iff hsplit htarget hbus (ceil_of_large hsrc hbus) sysctl]
  constructor
  · intro h
    exact h.holds hreturns
  · intro h
    exact ⟨_, hreturns, h⟩

theorem setsNearestClock_25MHz : SetsNearestClock 198000000 25000000 ⟨0, 0⟩ := by
  rw [setsNearestClock_iff (by decide) (by decide)]
  decide

theorem setsNearestClock_prescaler_six : ¬ SetsNearestClock 150000000 25000000 ⟨0, 0⟩ := by
  intro h
  have hreturns : Returns (setSdClock 150000000 25000000 ⟨0, 0⟩) (25000000, ⟨0, 3⟩) := ⟨0, fun _ _ => rfl⟩
  have hpower : ¬ ∃ k ≤ 8, prescalerOf 3 = 2 ^ k := by decide
  have hlegal := (h.holds hreturns).legal (by decide)
  exact hpower hlegal.2.2

end Result

end McuxDrivers.Usdhc
