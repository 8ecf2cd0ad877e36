import McuxDrivers.Lib.Loop
import Mathlib.Algebra.Order.Ring.Nat
import Mathlib.Data.Nat.Prime.Basic
import Mathlib.Data.Nat.Log

/-!
# The clock of the SD bus

`USDHC_SetSdClock` of `fsl_usdhc.c`: the search for a divisor and a prescaler, and what the searches come to. The wait for
a stable clock is left out.
-/

namespace McuxDrivers.Usdhc

open Lib

/-- `USDHC_MAX_DVS`. -/
def maxDvs : Nat := 16

/-- `USDHC_MAX_CLKFS`. -/
def maxClkfs : Nat := 256

/-- The fields of `SYS_CTRL` that are set here. -/
structure SysCtrl where
  dvs : Nat
  sdclkfs : Nat
deriving DecidableEq

/-- One round of the search for a prescaler that is a power of two. -/
def prescalerRound (prescaler : Nat) : Nat ⊕ Nat :=
  if maxClkfs % prescaler ≠ 0 ∨ prescaler = 1 then .inl (prescaler + 1) else .inr prescaler

/-- One round of the fine tuning of divisor and prescaler; without a result the function returns 0. -/
def tuneRound (totalDiv : Nat) (s : Nat × Nat) : (Nat × Nat) ⊕ Option (Nat × Nat) :=
  let (divisor, prescaler) := s
  if divisor * prescaler < totalDiv then
    if divisor + 1 > maxDvs then
      if 2 * prescaler > maxClkfs then .inr none else .inl (totalDiv / (2 * prescaler), 2 * prescaler)
    else .inl (divisor + 1, prescaler)
  else .inr (some (divisor, prescaler))

/-- The division of the total divisor, with a number of rounds for each search. -/
def splitDivisor (totalDiv fuel : Nat) : Option (Option (Nat × Nat)) :=
  if totalDiv > maxDvs then
    (loop prescalerRound fuel (totalDiv / maxDvs)).bind fun prescaler =>
      loop (tuneRound totalDiv) fuel (totalDiv / prescaler, prescaler)
  else if totalDiv % 2 ≠ 0 ∧ totalDiv ≠ 1 then some (some (totalDiv, 1))
  else some (some (1, totalDiv))

/-- The end of `USDHC_SetSdClock`: the frequency that it returns, and the register. -/
def programClock (srcClock_Hz : Nat) (sysctl : SysCtrl) : Option (Nat × Nat) → Nat × SysCtrl
  | none => (0, sysctl)
  | some (divisor, prescaler) =>
    (srcClock_Hz / (if divisor = 0 then 1 else divisor) / prescaler,
      ⟨(if divisor ≠ 0 then divisor - 1 else divisor) % 2 ^ 4, prescaler / 2 % 2 ^ 8⟩)

/-- `USDHC_SetSdClock`, with a number of rounds for each search. -/
def setSdClock (srcClock_Hz busClock_Hz : Nat) (sysctl : SysCtrl) (fuel : Nat) : Option (Nat × SysCtrl) :=
  let busClock_Hz := if busClock_Hz > srcClock_Hz then srcClock_Hz else busClock_Hz
  let totalDiv := srcClock_Hz / busClock_Hz
  if totalDiv > maxClkfs * maxDvs then some (0, sysctl)
  else if totalDiv ≠ 0 then
    let totalDiv := if srcClock_Hz / totalDiv > busClock_Hz then totalDiv + 1 else totalDiv
    (splitDivisor totalDiv fuel).map (programClock srcClock_Hz sysctl)
  else some (srcClock_Hz, ⟨0, 0⟩)

section Searches

lemma maxClkfs_mod_eq_zero_iff {p : Nat} : maxClkfs % p = 0 ↔ ∃ i ≤ 8, p = 2 ^ i := by
  have hpow : maxClkfs = 2 ^ 8 := by decide
  rw [← Nat.dvd_iff_mod_eq_zero, hpow]
  exact Nat.dvd_prime_pow Nat.prime_two

/-- The search ends at the next power of two, but not at 1. -/
lemma prescaler_returns {p j : Nat} (hj : 1 ≤ j) (hmax : j ≤ 8) (hle : p ≤ 2 ^ j)
    (hgt : 2 ^ (j - 1) < p ∨ j = 1 ∧ p = 1) : Yields (fun fuel => loop prescalerRound fuel p) (· = 2 ^ j) := by
  apply loop_yields (I := fun p => p ≤ 2 ^ j ∧ (2 ^ (j - 1) < p ∨ j = 1 ∧ p = 1)) (fun p => 2 ^ j - p) _ _ ⟨hle, hgt⟩
  · rintro p p' ⟨hle, hgt⟩ hround
    rw [prescalerRound] at hround
    split at hround
    · rename_i hagain
      cases hround
      have hne : p ≠ 2 ^ j := by
        rintro rfl
        cases hagain with
        | inl hmod => exact hmod (maxClkfs_mod_eq_zero_iff.mpr ⟨j, hmax, rfl⟩)
        | inr hone =>
          have := Nat.one_lt_two_pow (by omega : j ≠ 0)
          omega
      have hone : 1 ≤ 2 ^ (j - 1) := Nat.one_le_two_pow
      refine ⟨⟨by omega, Or.inl ?_⟩, by omega⟩
      rcases hgt with hgt | ⟨rfl, rfl⟩
      · omega
      · decide
    · cases hround
  · rintro p r ⟨hle, hgt⟩ hround
    rw [prescalerRound] at hround
    split at hround
    · cases hround
    · rename_i hleave
      cases hround
      rw [not_or, not_not] at hleave
      obtain ⟨i, -, rfl⟩ := maxClkfs_mod_eq_zero_iff.mp hleave.1
      rcases hgt with hgt | ⟨-, hone⟩
      · have hij := (Nat.pow_le_pow_iff_right (by decide : 1 < 2)).mp hle
        have hji := (Nat.pow_lt_pow_iff_right (by decide : 1 < 2)).mp hgt
        have heq : i = j := by omega
        rw [heq]
      · exact absurd hone hleave.2

lemma exists_prescaler {n : Nat} (hpos : 0 < n) (hle : n ≤ 256) :
    ∃ j, 1 ≤ j ∧ j ≤ 8 ∧ n ≤ 2 ^ j ∧ (2 ^ (j - 1) < n ∨ j = 1 ∧ n = 1) := by
  by_cases hone : n = 1
  · exact ⟨1, by omega, by omega, by omega, Or.inr ⟨rfl, hone⟩⟩
  · refine ⟨Nat.clog 2 n, Nat.clog_pos (by omega) (by omega), ?_, Nat.le_pow_clog (by omega) n, Or.inl ?_⟩
    · exact Nat.clog_le_of_le_pow hle
    · exact Nat.pow_pred_clog_lt_self (by omega) (by omega)

variable {t g : Nat}

lemma tune_exact (hdvd : g ∣ t) : Returns (fun fuel => loop (tuneRound t) fuel (t / g, g)) (some (t / g, g)) := by
  apply loop_leave
  have hnot : ¬ t / g * g < t := by
    rw [Nat.div_mul_cancel hdvd]
    omega
  exact if_neg hnot

lemma div_mul_lt (hdvd : ¬ g ∣ t) : t / g * g < t :=
  lt_of_le_of_ne (Nat.div_mul_le_self t g) fun heq => hdvd ⟨t / g, by rw [Nat.mul_comm, heq]⟩

/-- The next multiple of the prescaler is found when its divisor fits. -/
lemma tune_next (hg : 0 < g) (hdvd : ¬ g ∣ t) (hfits : t / g + 1 ≤ maxDvs) :
    Returns (fun fuel => loop (tuneRound t) fuel (t / g, g)) (some (t / g + 1, g)) := by
  have hround : tuneRound t (t / g, g) = .inl (t / g + 1, g) := by
    rw [tuneRound]
    simp only [if_pos (div_mul_lt hdvd), if_neg (Nat.not_lt.mpr hfits)]
  apply loop_next hround
  apply loop_leave
  have hnot : ¬ (t / g + 1) * g < t := by
    have hlt := Nat.lt_div_mul_add hg (a := t)
    rw [Nat.succ_mul]
    omega
  exact if_neg hnot

/-- Otherwise the prescaler is doubled. -/
lemma tune_double (hdvd : ¬ g ∣ t) (hover : maxDvs < t / g + 1) (hmax : 2 * g ≤ maxClkfs) {r : Option (Nat × Nat)}
    (h : Returns (fun fuel => loop (tuneRound t) fuel (t / (2 * g), 2 * g)) r) :
    Returns (fun fuel => loop (tuneRound t) fuel (t / g, g)) r := by
  apply loop_next _ h
  rw [tuneRound]
  simp only [if_pos (div_mul_lt hdvd), if_pos hover, if_neg (Nat.not_lt.mpr hmax)]

lemma tune_none (hdvd : ¬ g ∣ t) (hover : maxDvs < t / g + 1) (hmax : maxClkfs < 2 * g) :
    Returns (fun fuel => loop (tuneRound t) fuel (t / g, g)) none := by
  apply loop_leave
  rw [tuneRound]
  simp only [if_pos (div_mul_lt hdvd), if_pos hover, if_pos hmax]

end Searches

end McuxDrivers.Usdhc
