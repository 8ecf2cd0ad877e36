import McuxDrivers.Usdhc.Clock

/-!
# The clock that the search chooses

A total divisor from 17 to 4096 lies between 8 and 16 multiples of one power of two. The search takes the next multiple
of it, unless it starts at the power below with a divisor that is too large for the field and fits exactly.
-/

namespace McuxDrivers.Usdhc

open Lib

/-- The total divisors that the first prescaler divides, with a divisor of more than 16. -/
def Overruns (t : Nat) : Prop :=
  ∃ j ∈ [1, 2, 3], 16 * 2 ^ j < t ∧ t < 16 * 2 ^ j + 16 ∧ 2 ^ j ∣ t

instance (t : Nat) : Decidable (Overruns t) :=
  inferInstanceAs (Decidable (∃ j ∈ [1, 2, 3], 16 * 2 ^ j < t ∧ t < 16 * 2 ^ j + 16 ∧ 2 ^ j ∣ t))

/-- What the division of a total divisor comes to. -/
inductive SplitOutcome (t : Nat) : Option (Nat × Nat) → Prop where
  | odd (hle : t ≤ 16) (hodd : t % 2 ≠ 0) : SplitOutcome t (some (t, 1))
  | even (hle : t ≤ 16) (heven : t % 2 = 0) : SplitOutcome t (some (1, t))
  | overrun (j : Nat) (hj : j ∈ [1, 2, 3]) (hlow : 16 * 2 ^ j < t) (hhigh : t < 16 * 2 ^ j + 16) (hdvd : 2 ^ j ∣ t) :
      SplitOutcome t (some (t / 2 ^ j, 2 ^ j))
  | exact (hlarge : 16 < t) (k : Nat) (hk : k ≤ 8) (hlow : 8 * 2 ^ k < t) (hhigh : t ≤ 16 * 2 ^ k) (hdvd : 2 ^ k ∣ t)
      (hno : ¬ Overruns t) : SplitOutcome t (some (t / 2 ^ k, 2 ^ k))
  | next (hlarge : 16 < t) (k : Nat) (hk : k ≤ 8) (hlow : 8 * 2 ^ k < t) (hhigh : t ≤ 16 * 2 ^ k) (hdvd : ¬ 2 ^ k ∣ t)
      (hno : ¬ Overruns t) : SplitOutcome t (some (t / 2 ^ k + 1, 2 ^ k))
  | beyond (hlarge : 4096 < t) : SplitOutcome t none

section Split

variable {t : Nat}

/-- The power of two below the first prescaler is the only one that a divisor can overrun. -/
lemma not_overruns {j : Nat} (hj : 1 ≤ j) (hle : t / 16 ≤ 2 ^ j) (hgt : 2 ^ (j - 1) < t / 16 ∨ j = 1 ∧ t / 16 = 1)
    (hno : t ≤ 16 * 2 ^ j ∨ ¬ 2 ^ j ∣ t) : ¬ Overruns t := by
  rintro ⟨i, hi, hlow, hhigh, hdvd⟩
  have hpos : 1 ≤ i := by
    have hall : ∀ i ∈ [1, 2, 3], 1 ≤ i := by decide
    exact hall i hi
  have hquot : t / 16 = 2 ^ i := by
    omega
  rw [hquot] at hle hgt
  have hone : 1 < 2 ^ i := Nat.one_lt_two_pow (by omega)
  have hij := (Nat.pow_le_pow_iff_right (by decide : 1 < 2)).mp hle
  have heq : i = j := by
    rcases hgt with hgt | ⟨_, hgt⟩
    · have hji := (Nat.pow_lt_pow_iff_right (by decide : 1 < 2)).mp hgt
      omega
    · omega
  subst heq
  cases hno with
  | inl hno => omega
  | inr hno => exact hno hdvd

lemma mem_of_overrun {j : Nat} (hj : 1 ≤ j) (hlow : 16 * 2 ^ j < t) (hhigh : t < 16 * 2 ^ j + 16) (hdvd : 2 ^ j ∣ t) :
    j ∈ [1, 2, 3] := by
  obtain ⟨c, rfl⟩ := hdvd
  have hc : 17 ≤ c := by
    rw [Nat.mul_comm] at hlow
    exact Nat.lt_of_mul_lt_mul_left hlow
  have hge : 2 ^ j * 17 ≤ 2 ^ j * c := Nat.mul_le_mul_left (2 ^ j) hc
  have hlt : 2 ^ j < 2 ^ 4 := by omega
  have hj4 := (Nat.pow_lt_pow_iff_right (by decide : 1 < 2)).mp hlt
  have hcases : j = 1 ∨ j = 2 ∨ j = 3 := by omega
  simpa using hcases

/-- The fine tuning from the first prescaler. -/
lemma tune_outcome {j : Nat} (hlarge : 16 < t) (hmax : t ≤ 4097) (hj : 1 ≤ j) (hj8 : j ≤ 8) (hle : t / 16 ≤ 2 ^ j)
    (hgt : 2 ^ (j - 1) < t / 16 ∨ j = 1 ∧ t / 16 = 1) :
    Yields (fun fuel => loop (tuneRound t) fuel (t / 2 ^ j, 2 ^ j)) (SplitOutcome t) := by
  have hpos : 0 < 2 ^ j := Nat.two_pow_pos j
  have hhalf : 2 * 2 ^ (j - 1) = 2 ^ j := by
    rw [← Nat.pow_succ']
    congr 1
    omega
  by_cases hdvd : 2 ^ j ∣ t
  · refine ⟨_, tune_exact hdvd, ?_⟩
    by_cases hover : 16 * 2 ^ j < t
    · have hhigh : t < 16 * 2 ^ j + 16 := by omega
      exact SplitOutcome.overrun j (mem_of_overrun hj hover hhigh hdvd) hover hhigh hdvd
    · apply SplitOutcome.exact hlarge j hj8 _ (by omega) hdvd (not_overruns hj hle hgt (Or.inl (by omega)))
      rcases hgt with hgt | ⟨rfl, hgt⟩
      · omega
      · omega
  · have hno := not_overruns hj hle hgt (Or.inr hdvd)
    by_cases hover : 16 * 2 ^ j < t
    · have hquot : maxDvs < t / 2 ^ j + 1 := by
        rw [Nat.lt_succ_iff, Nat.le_div_iff_mul_le hpos, maxDvs]
        omega
      by_cases hj7 : j ≤ 7
      · have hdouble : 2 * 2 ^ j = 2 ^ (j + 1) := (Nat.pow_succ').symm
        have hdvd' : ¬ 2 ^ (j + 1) ∣ t := fun h => hdvd (dvd_trans (Nat.pow_dvd_pow 2 (by omega)) h)
        have hfits : t / 2 ^ (j + 1) + 1 ≤ maxDvs := by
          rw [Nat.succ_le_iff, Nat.div_lt_iff_lt_mul (Nat.two_pow_pos (j + 1)), maxDvs]
          omega
        have hmaxclk : 2 * 2 ^ j ≤ maxClkfs := by
          rw [hdouble]
          exact Nat.pow_le_pow_right (by decide) (by omega : j + 1 ≤ 8)
        refine ⟨_, tune_double hdvd hquot hmaxclk ?_,
          SplitOutcome.next hlarge (j + 1) (by omega) (by omega) (by omega) hdvd' hno⟩
        rw [hdouble]
        exact tune_next (Nat.two_pow_pos (j + 1)) hdvd' hfits
      · have heq : j = 8 := by omega
        subst heq
        exact ⟨_, tune_none hdvd hquot (by decide), SplitOutcome.beyond (by omega)⟩
    · refine ⟨_, tune_next hpos hdvd ?_, SplitOutcome.next hlarge j hj8 ?_ (by omega) hdvd hno⟩
      · have hne : t ≠ 16 * 2 ^ j := by
          rintro rfl
          exact hdvd (Nat.dvd_mul_left (2 ^ j) 16)
        rw [Nat.succ_le_iff, Nat.div_lt_iff_lt_mul hpos, maxDvs]
        omega
      · rcases hgt with hgt | ⟨rfl, hgt⟩
        · omega
        · omega

theorem splitDivisor_outcome (hmax : t ≤ 4097) : Yields (splitDivisor t) (SplitOutcome t) := by
  unfold splitDivisor
  by_cases hlarge : t > maxDvs
  · obtain ⟨j, hj, hj8, hle, hgt⟩ := exists_prescaler (n := t / 16) (by rw [maxDvs] at hlarge; omega) (by omega)
    simp only [if_pos hlarge]
    apply Yields.bind (prescaler_returns hj hj8 hle hgt)
    rintro prescaler rfl
    exact tune_outcome hlarge hmax hj hj8 hle hgt
  · rw [maxDvs] at hlarge
    simp only [if_neg (by simpa [maxDvs] using hlarge : ¬ t > maxDvs)]
    by_cases hodd : t % 2 ≠ 0 ∧ t ≠ 1
    · simp only [if_pos hodd]
      exact Yields.pure (SplitOutcome.odd (by omega) hodd.1)
    · simp only [if_neg hodd]
      by_cases hone : t = 1
      · subst hone
        exact Yields.pure (SplitOutcome.odd (by omega) (by decide))
      · exact Yields.pure (SplitOutcome.even (by omega) (by omega))

end Split

end McuxDrivers.Usdhc
