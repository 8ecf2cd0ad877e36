import Mathlib.Data.Int.ModEq
import Mathlib.Data.Nat.ModEq
import Mathlib.Tactic.Ring
import Mathlib.Tactic.LinearCombination

/-!
# Montgomery reduction

A reduction adds a multiple `m` of the modulus that makes its argument divisible by the word size and drops
the lowest word. `MontgomeryRun` is what any number of such rounds amounts to.
-/

namespace McuxDrivers.Lib

/-- A step of Newton's iteration for the inverse of `n` doubles the precision. -/
lemma newton_dvd {R : Type*} [CommRing R] {m n x : R} (h : m ∣ n * x - 1) : m * m ∣ n * ((2 - n * x) * x) - 1 := by
  obtain ⟨c, hc⟩ := h
  refine ⟨-(c * c), ?_⟩
  linear_combination (-(n * x - 1) - m * c) * hc

/-- `t` is `x` plus a multiple of `n` less than `r`, divided by `r`. -/
def MontgomeryRun (r n x t : Nat) : Prop :=
  ∃ m < r, t * r = x + m * n

namespace MontgomeryRun

variable {r n x t : Nat}

lemma start (x n : Nat) : MontgomeryRun 1 n x x :=
  ⟨0, Nat.one_pos, by ring⟩

lemma round {w m y t' : Nat} (h : MontgomeryRun r n x t) (hm : m < w) (hround : t' * w = t + y + m * n) :
    MontgomeryRun (r * w) n (x + y * r) t' := by
  obtain ⟨k, hk, hrun⟩ := h
  refine ⟨k + m * r, ?_, ?_⟩
  · calc k + m * r < (m + 1) * r := by rw [Nat.add_mul, Nat.one_mul]; omega
      _ ≤ w * r := Nat.mul_le_mul_right r hm
      _ = r * w := Nat.mul_comm w r
  · calc t' * (r * w) = t' * w * r := by ring
      _ = t * r + y * r + m * n * r := by rw [hround]; ring
      _ = x + y * r + (k + m * r) * n := by rw [hrun]; ring

lemma modEq (h : MontgomeryRun r n x t) : t * r ≡ x [MOD n] := by
  obtain ⟨m, -, hrun⟩ := h
  rw [hrun]
  exact Nat.add_mul_modulus_modEq_iff.mpr rfl

lemma eq_zero_iff (h : MontgomeryRun r n x t) (hcop : Nat.Coprime r n) : t = 0 ↔ x = 0 := by
  obtain ⟨m, hm, hrun⟩ := h
  constructor
  · rintro rfl
    omega
  · rintro rfl
    have hdvd : r ∣ m := hcop.dvd_of_dvd_mul_right ⟨t, by rw [Nat.mul_comm r t, hrun, Nat.zero_add]⟩
    have hm0 : m = 0 := Nat.eq_zero_of_dvd_of_lt hdvd hm
    rw [hm0, Nat.zero_mul, Nat.add_zero] at hrun
    exact (Nat.mul_eq_zero.mp hrun).resolve_right (by omega)

lemma le_modulus (h : MontgomeryRun r n x t) (hx : x < r) : t ≤ n := by
  obtain ⟨m, hm, hrun⟩ := h
  have hlt : t * r < (n + 1) * r := by
    calc t * r = x + m * n := hrun
      _ < r + r * n := Nat.add_lt_add_of_lt_of_le hx (Nat.mul_le_mul_right n hm.le)
      _ = (n + 1) * r := by ring
  exact Nat.lt_succ_iff.mp (Nat.lt_of_mul_lt_mul_right hlt)

/-- The result of multiplying by a number below `r`, added to `y`. -/
lemma le_add {a b y : Nat} (h : MontgomeryRun r n (y + a * b) t) (hb : b < r) : t ≤ y + a + n := by
  obtain ⟨m, hm, hrun⟩ := h
  have hle : t * r ≤ (y + a + n) * r := by
    calc t * r = y + a * b + m * n := hrun
      _ ≤ y * r + a * r + r * n := Nat.add_le_add (Nat.add_le_add (Nat.le_mul_of_pos_right y (Nat.zero_lt_of_lt hb))
          (Nat.mul_le_mul_left a hb.le)) (Nat.mul_le_mul_right n hm.le)
      _ = (y + a + n) * r := by ring
  exact Nat.le_of_mul_le_mul_right hle (Nat.zero_lt_of_lt hb)

lemma lt_two_mul (h : MontgomeryRun r n x t) (hx : x < r * n) : t < 2 * n := by
  obtain ⟨m, hm, hrun⟩ := h
  have hlt : t * r < 2 * n * r := by
    calc t * r = x + m * n := hrun
      _ < r * n + r * n := Nat.add_lt_add_of_lt_of_le hx (Nat.mul_le_mul_right n hm.le)
      _ = 2 * n * r := by ring
  exact Nat.lt_of_mul_lt_mul_right hlt

/-- The run leaves a residue and one modulus more exactly if a multiple of the residue lies below `x`. -/
lemma eq_add_iff {s : Nat} (h : MontgomeryRun r n x t) (hcop : Nat.Coprime r n) (hx : x < r * n) (hs : s < n) :
    t = s + n ↔ s * r < x ∧ s * r ≡ x [MOD n] := by
  have hlt := h.lt_two_mul hx
  have hcong := h.modEq
  obtain ⟨m, hm, hrun⟩ := h
  constructor
  · rintro rfl
    have hless : m * n < r * n := (Nat.mul_lt_mul_right (by omega)).mpr hm
    have hsplit : (s + n) * r = s * r + r * n := by ring
    rw [hsplit] at hrun hcong
    refine ⟨by omega, ?_⟩
    exact (Nat.add_mul_modulus_modEq_iff.mpr rfl).symm.trans hcong
  · rintro ⟨hsmall, hres⟩
    have hmod : t ≡ s [MOD n] := Nat.ModEq.cancel_right_of_coprime hcop.symm (hcong.trans hres.symm)
    have hne : t ≠ s := by
      rintro rfl
      omega
    unfold Nat.ModEq at hmod
    rw [Nat.mod_eq_of_lt hs] at hmod
    rcases Nat.lt_or_ge t n with hlow | hhigh
    · exact absurd (by rwa [Nat.mod_eq_of_lt hlow] at hmod) hne
    · rw [Nat.mod_eq_sub_mod hhigh, Nat.mod_eq_of_lt (by omega)] at hmod
      omega
end MontgomeryRun

end McuxDrivers.Lib
