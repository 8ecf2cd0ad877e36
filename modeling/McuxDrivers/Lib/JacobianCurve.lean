import Mathlib.AlgebraicGeometry.EllipticCurve.Affine.Point
import Mathlib.Tactic.FieldSimp
import Mathlib.Tactic.LinearCombination

/-!
# Jacobian coordinates on a curve `y² = x³ - 3x + b`

`IsJacobian x y z P` says that a triple represents a point: `z` is 0 for the point at infinity, and otherwise
the affine coordinates are `x / z²` and `y / z³`. The formulas for doubling and adding are those of the usual
incomplete addition, which is right for operands with different affine `x`.
-/

namespace McuxDrivers.Lib

open WeierstrassCurve.Affine

variable {F : Type*} [Field F]

/-- The curve `y² = x³ - 3x + b`. -/
def shortCurve (b : F) : WeierstrassCurve.Affine F where
  a₁ := 0
  a₂ := 0
  a₃ := 0
  a₄ := -3
  a₆ := b

variable {b : F}

@[simp]
lemma shortCurve_negY (x y : F) : (shortCurve b).negY x y = -y := by
  simp [negY, shortCurve]

@[simp]
lemma shortCurve_addX (x₁ x₂ l : F) : (shortCurve b).addX x₁ x₂ l = l ^ 2 - x₁ - x₂ := by
  simp [addX, shortCurve]

@[simp]
lemma shortCurve_addY (x₁ x₂ y₁ l : F) :
    (shortCurve b).addY x₁ x₂ y₁ l = -(l * (l ^ 2 - x₁ - x₂ - x₁) + y₁) := by
  rw [addY, negAddY, shortCurve_negY, shortCurve_addX]

lemma shortCurve_nonsingular {x y : F} (htwo : (2 : F) ≠ 0) (heq : y ^ 2 = x ^ 3 - 3 * x + b) (hy : y ≠ 0) :
    (shortCurve b).Nonsingular x y := by
  refine (nonsingular_iff x y).mpr ⟨?_, Or.inr ?_⟩
  · rw [equation_iff]
    simp only [shortCurve]
    linear_combination heq
  · simp only [shortCurve]
    intro hneg
    have h2 : 2 * y = 0 := by linear_combination hneg
    exact mul_ne_zero htwo hy h2

/-- The triple represents the point. -/
def IsJacobian (x y z : F) : (shortCurve b).Point → Prop
  | .zero => z = 0
  | .some X Y _ => z ≠ 0 ∧ x = X * z ^ 2 ∧ y = Y * z ^ 3

namespace IsJacobian

variable {x y z x₁ y₁ z₁ x₂ y₂ z₂ : F} {P Q : (shortCurve b).Point}

lemma eq_zero_iff (h : IsJacobian x y z P) : z = 0 ↔ P = 0 := by
  cases P with
  | zero => exact ⟨fun _ => rfl, fun _ => h⟩
  | some X Y hP => exact ⟨fun hz => absurd hz h.1, fun hP0 => absurd hP0 (Point.some_ne_zero hP)⟩

lemma unique (hP : IsJacobian x y z P) (hQ : IsJacobian x y z Q) : P = Q := by
  cases P with
  | zero => exact ((hQ.eq_zero_iff).mp hP).symm
  | some X Y hXY =>
    cases Q with
    | zero => exact absurd hQ hP.1
    | some X' Y' hXY' =>
      obtain ⟨hz, hx, hy⟩ := hP
      obtain ⟨-, hx', hy'⟩ := hQ
      have hX : X = X' := mul_right_cancel₀ (pow_ne_zero 2 hz) (hx.symm.trans hx')
      have hY : Y = Y' := mul_right_cancel₀ (pow_ne_zero 3 hz) (hy.symm.trans hy')
      subst hX hY
      rfl

lemma cross_eq (h₁ : IsJacobian x₁ y₁ z₁ P) (h₂ : IsJacobian x₂ y₂ z₂ P) (hz₁ : z₁ ≠ 0) :
    x₁ * z₂ ^ 2 = x₂ * z₁ ^ 2 := by
  cases P with
  | zero => exact absurd h₁ hz₁
  | some X Y hP =>
    rw [h₁.2.1, h₂.2.1]
    ring

lemma neg (h : IsJacobian x y z P) : IsJacobian x (-y) z (-P) := by
  cases P with
  | zero => exact h
  | some X Y hP =>
    obtain ⟨hz, hx, hy⟩ := h
    refine ⟨hz, hx, ?_⟩
    rw [hy, shortCurve_negY]
    ring

lemma affine {X Y : F} (h : (shortCurve b).Nonsingular X Y) : IsJacobian X Y 1 (Point.some X Y h) :=
  ⟨one_ne_zero, by ring, by ring⟩

variable [DecidableEq F]

/-- Doubling, with `4 y⁴` as half of `(2 y)⁴`. -/
lemma double (htwo : (2 : F) ≠ 0) (h : IsJacobian x y z P) :
    let m := 3 * ((x - z ^ 2) * (x + z ^ 2))
    let s := (2 * y) ^ 2 * x
    let x₃ := m ^ 2 - 2 * s
    IsJacobian x₃ ((s - x₃) * m - (2 * y) ^ 4 / 2) (2 * y * z) (P + P) := by
  intro m s x₃
  cases P with
  | zero =>
    have hz : z = 0 := h
    change IsJacobian _ _ _ (0 : (shortCurve b).Point)
    change 2 * y * z = 0
    rw [hz, mul_zero]
  | some X Y hP =>
    obtain ⟨hz, hx, hy⟩ := h
    by_cases hY : Y = 0
    · rw [Point.add_self_of_Y_eq (by rw [shortCurve_negY, hY, neg_zero])]
      change 2 * y * z = 0
      rw [hy, hY, zero_mul, mul_zero, zero_mul]
    · have hne : Y ≠ (shortCurve b).negY X Y := by
        rw [shortCurve_negY]
        intro heq
        have h2 : 2 * Y = 0 := by linear_combination heq
        exact (mul_ne_zero htwo hY) h2
      have hslope : (shortCurve b).slope X X Y Y = (3 * X ^ 2 - 3) / (2 * Y) := by
        rw [slope_of_Y_ne rfl hne, shortCurve_negY]
        simp only [shortCurve]
        ring_nf
      rw [Point.add_self_of_Y_ne hne]
      refine ⟨?_, ?_, ?_⟩
      · rw [hy]
        exact mul_ne_zero (mul_ne_zero htwo (mul_ne_zero hY (pow_ne_zero 3 hz))) hz
      · rw [shortCurve_addX, hslope]
        simp only [x₃, m, s, hx, hy]
        field_simp
        ring
      · rw [shortCurve_addY, hslope]
        simp only [x₃, m, s, hx, hy]
        field_simp
        ring

omit [DecidableEq F] in
lemma eq_of_cross_eq (hP : IsJacobian x₁ y₁ z₁ P) (hQ : IsJacobian x₂ y₂ z₂ Q) (hz₁ : z₁ ≠ 0) (hz₂ : z₂ ≠ 0)
    (hx : x₂ * z₁ ^ 2 = x₁ * z₂ ^ 2) (hy : y₁ * z₂ ^ 3 = y₂ * z₁ ^ 3) : P = Q := by
  cases P with
  | zero => exact absurd hP hz₁
  | some X₁ Y₁ h₁ =>
    cases Q with
    | zero => exact absurd hQ hz₂
    | some X₂ Y₂ h₂ =>
      obtain ⟨-, rfl, rfl⟩ := hP
      obtain ⟨-, rfl, rfl⟩ := hQ
      have hX : X₁ = X₂ := by
        refine mul_right_cancel₀ (mul_ne_zero (pow_ne_zero 2 hz₁) (pow_ne_zero 2 hz₂)) ?_
        linear_combination -hx
      have hY : Y₁ = Y₂ := by
        refine mul_right_cancel₀ (mul_ne_zero (pow_ne_zero 3 hz₁) (pow_ne_zero 3 hz₂)) ?_
        linear_combination hy
      subst hX hY
      rfl

lemma add (htwo : (2 : F) ≠ 0) (hP : IsJacobian x₁ y₁ z₁ P) (hQ : IsJacobian x₂ y₂ z₂ Q) (hz₁ : z₁ ≠ 0)
    (hz₂ : z₂ ≠ 0) (hne : ¬ (x₂ * z₁ ^ 2 = x₁ * z₂ ^ 2 ∧ y₁ * z₂ ^ 3 = y₂ * z₁ ^ 3)) :
    let h := x₂ * z₁ ^ 2 - x₁ * z₂ ^ 2
    let r := 2 * (y₂ * z₁ ^ 3 - y₁ * z₂ ^ 3)
    let v := x₁ * z₂ ^ 2 * (2 * h) ^ 2
    let x₃ := r ^ 2 - h * (2 * h) ^ 2 - 2 * v
    IsJacobian x₃ (r * (v - x₃) - 2 * (y₁ * z₂ ^ 3 * (h * (2 * h) ^ 2)))
      (((z₁ + z₂) ^ 2 - z₁ ^ 2 - z₂ ^ 2) * h) (P + Q) := by
  intro h r v x₃
  cases P with
  | zero => exact absurd hP hz₁
  | some X₁ Y₁ h₁ =>
    cases Q with
    | zero => exact absurd hQ hz₂
    | some X₂ Y₂ h₂ =>
      obtain ⟨-, rfl, rfl⟩ := hP
      obtain ⟨-, rfl, rfl⟩ := hQ
      by_cases hX : X₁ = X₂
      · subst hX
        have hh : h = 0 := by
          simp only [h]
          ring
        have hY : Y₁ = (shortCurve b).negY X₁ Y₂ := by
          refine (Y_eq_of_X_eq h₁.1 h₂.1 rfl).resolve_left ?_
          rintro rfl
          exact hne ⟨by ring, by ring⟩
        rw [Point.add_of_Y_eq rfl hY]
        change _ = 0
        rw [hh, mul_zero]
      · rw [Point.add_of_X_ne hX]
        have hX' : X₁ - X₂ ≠ 0 := sub_ne_zero.mpr hX
        have hslope : (shortCurve b).slope X₁ X₂ Y₁ Y₂ = (Y₁ - Y₂) / (X₁ - X₂) := slope_of_X_ne hX
        refine ⟨?_, ?_, ?_⟩
        · have hprod : ((z₁ + z₂) ^ 2 - z₁ ^ 2 - z₂ ^ 2) * h = -2 * (z₁ * z₂) ^ 3 * (X₁ - X₂) := by
            simp only [h]
            ring
          rw [hprod]
          exact mul_ne_zero (mul_ne_zero (neg_ne_zero.mpr htwo) (pow_ne_zero 3 (mul_ne_zero hz₁ hz₂))) hX'
        · rw [shortCurve_addX, hslope]
          simp only [x₃, v, r, h]
          field_simp
          ring
        · rw [shortCurve_addY, hslope]
          simp only [x₃, v, r, h]
          field_simp
          ring

/-- Adding an affine point whose cross products are not both equal. -/
lemma add_affine {X Y : F} (hP : IsJacobian x₁ y₁ z₁ P) (hQ : IsJacobian X Y 1 Q) (hz₁ : z₁ ≠ 0)
    (hne : ¬ (z₁ ^ 2 * X = x₁ ∧ z₁ ^ 3 * Y = y₁)) :
    let h := z₁ ^ 2 * X - x₁
    let r := z₁ ^ 3 * Y - y₁
    let x₃ := r ^ 2 - 2 * (h ^ 2 * x₁) - h ^ 3
    IsJacobian x₃ ((h ^ 2 * x₁ - x₃) * r - h ^ 3 * y₁) (z₁ * h) (P + Q) := by
  intro h r x₃
  cases P with
  | zero => exact absurd hP hz₁
  | some X₁ Y₁ h₁ =>
    cases Q with
    | zero => exact absurd hQ one_ne_zero
    | some X₂ Y₂ h₂ =>
      obtain ⟨-, rfl, rfl⟩ := hP
      obtain ⟨-, rfl, rfl⟩ := hQ
      by_cases hX : X₁ = X₂
      · subst hX
        have hh : h = 0 := by
          simp only [h]
          ring
        have hY : Y₁ = (shortCurve b).negY X₁ Y₂ := by
          refine (Y_eq_of_X_eq h₁.1 h₂.1 rfl).resolve_left ?_
          rintro rfl
          exact hne ⟨by ring, by ring⟩
        rw [Point.add_of_Y_eq rfl hY]
        change _ = 0
        rw [hh, mul_zero]
      · rw [Point.add_of_X_ne hX]
        have hX' : X₁ - X₂ ≠ 0 := sub_ne_zero.mpr hX
        have hslope : (shortCurve b).slope X₁ X₂ Y₁ Y₂ = (Y₁ - Y₂) / (X₁ - X₂) := slope_of_X_ne hX
        refine ⟨?_, ?_, ?_⟩
        · have hprod : z₁ * h = -z₁ ^ 3 * (X₁ - X₂) := by
            simp only [h]
            ring
          rw [hprod]
          exact mul_ne_zero (neg_ne_zero.mpr (pow_ne_zero 3 hz₁)) hX'
        · rw [shortCurve_addX, hslope]
          simp only [x₃, r, h]
          field_simp
          ring
        · rw [shortCurve_addY, hslope]
          simp only [x₃, r, h]
          field_simp
          ring

end IsJacobian

end McuxDrivers.Lib
