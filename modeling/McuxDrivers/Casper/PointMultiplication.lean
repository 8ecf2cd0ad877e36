import McuxDrivers.Casper.DoubleScalar
import McuxDrivers.Casper.Inversion
import McuxDrivers.Casper.Multiply

/-!
# The point multiplications of the interface

`CASPER_ECC_SECP256R1_Mul` and its siblings for the other curves convert a point into Montgomery form, multiply,
and convert the affine result back. The `MulAdd` functions do it for the sum of two multiples.
-/

namespace McuxDrivers.Casper
open McuxDrivers.Lib

namespace Curve

/-- The `R2` of `toMontgomery_ECC_P256`, `toMontgomery_ECC_P384` and `toMontgomery_ECC_P521`. -/
def r2 : Curve → Nat
  | p256 => 0x00000004fffffffdfffffffffffffffefffffffbffffffff0000000000000003
  | p384 => 0x000000000000000000000000000000010000000200000000fffffffe000000000000000200000000fffffffe00000001
  | p521 => 0x4000 * (2 ^ 32) ^ 3

variable (c : Curve)

/-- `toMontgomery_ECC_P256` and its siblings. -/
def toMontgomery (a : Nat) : Nat :=
  c.multiplyCasper a c.r2

end Curve

/-- The end of all six functions: the affine coordinates times 1. -/
def normalResult (c : Curve) (s : Jac) : Nat × Nat :=
  let affine := jacToAffine c s
  (c.multiplyCasper affine.1 1, c.multiplyCasper affine.2 1)

/-- `CASPER_ECC_SECP256R1_Mul`, `CASPER_ECC_SECP384R1_Mul` and `CASPER_ECC_SECP521R1_Mul`. -/
def casperEccMul (c : Curve) (x y scalar : Nat) : Nat × Nat :=
  let x1 := c.toMontgomery x
  let y1 := c.toMontgomery y
  normalResult c (jacScalarMultiplication c x1 y1 scalar)

/-- `CASPER_ECC_SECP256R1_MulAdd`, `CASPER_ECC_SECP384R1_MulAdd` and `CASPER_ECC_SECP521R1_MulAdd`. -/
def casperEccMulAdd (c : Curve) (beyond : Nat → Bool) (x1 y1 scalar1 x2 y2 scalar2 : Nat) : Nat × Nat :=
  normalResult c (doubleScalarMultiplication c beyond (c.toMontgomery x1) (c.toMontgomery y1) scalar1
    (c.toMontgomery x2) (c.toMontgomery y2) scalar2).s

namespace Curve

variable {c : Curve} {a : Nat}

lemma q_bounds (c : Curve) : c.q < 2 ^ c.bitlen ∧ c.q % 2 = 1 := by
  cases c <;> decide +kernel

lemma val_r2 (c : Curve) : c.val c.r2 = ((2 ^ 32) ^ c.wordlen : Nat) := by
  have hmod : c.r2 * c.rInv % c.p = (2 ^ 32) ^ c.wordlen % c.p := by cases c <;> decide +kernel
  rw [val, ← Nat.cast_mul, ← ZMod.natCast_mod, hmod, ZMod.natCast_mod]

lemma r_mul_rInv_eq_one (c : Curve) : (((2 ^ 32) ^ c.wordlen : Nat) : ZMod c.p) * c.rInv = 1 := by
  rw [← Nat.cast_mul, ← ZMod.natCast_mod, c.r_mul_rInv, Nat.cast_one]

/-- The Montgomery form stands for the number itself. -/
lemma val_toMontgomery : c.val (c.toMontgomery a) = a := by
  rw [toMontgomery, val_multiplyCasper, val_r2, val, mul_assoc, mul_comm (c.rInv : ZMod c.p), r_mul_rInv_eq_one,
    mul_one]

/-- The product with 1 is the number that the Montgomery form stands for. -/
lemma natCast_multiplyCasper_one : (c.multiplyCasper a 1 : ZMod c.p) = c.val a := by
  rw [multiplyCasper, ZMod.natCast_mod, mul_one, Nat.cast_mul, val]

end Curve

/-- The two numbers are the affine coordinates of the point, or 0 for the point at infinity. -/
def IsNormal (c : Curve) {b : ZMod c.p} (r : Nat × Nat) : (shortCurve b).Point → Prop
  | .zero => r = (0, 0)
  | .some X Y _ => r.1 < c.p ∧ r.2 < c.p ∧ X = r.1 ∧ Y = r.2

section Results

variable {c : Curve} {b : ZMod c.p} {P Q : (shortCurve b).Point} {s : Jac}

lemma normalResult_isNormal (h : Jac.Represents c s P) : IsNormal c (normalResult c s) P := by
  cases P with
  | zero =>
    change normalResult c s = (0, 0)
    rw [normalResult, jacToAffine_zero h rfl]
    simp [Curve.multiplyCasper]
  | some X Y hXY =>
    obtain ⟨hx, hy⟩ := jacToAffine_affine h
    refine ⟨Curve.multiplyCasper_lt, Curve.multiplyCasper_lt, ?_, ?_⟩
    · exact hx.symm.trans Curve.natCast_multiplyCasper_one.symm
    · exact hy.symm.trans Curve.natCast_multiplyCasper_one.symm

/-- The Montgomery form of the coordinates of a point. -/
lemma IsNormal.isJacobian {x y : Nat} (h : IsNormal c (x, y) P) (hP : P ≠ 0) :
    IsJacobian (c.val (c.toMontgomery x)) (c.val (c.toMontgomery y)) 1 P := by
  cases P with
  | zero => exact absurd rfl hP
  | some X Y hXY =>
    obtain ⟨-, -, hX, hY⟩ := h
    rw [Curve.val_toMontgomery, Curve.val_toMontgomery, ← hX, ← hY]
    exact IsJacobian.affine hXY

lemma IsNormal.affine {x y : Nat} (h : IsNormal c (x, y) P) (hP : P ≠ 0) :
    Affine c (c.toMontgomery x) (c.toMontgomery y) P where
  x_lt := Curve.multiplyCasper_lt
  y_lt := Curve.multiplyCasper_lt
  isJacobian := h.isJacobian hP

/-- An even scalar is negated modulo the order and the result negated. -/
lemma jacScalarMultiplication_even {x1 y1 k : Nat} (hx : x1 < c.p) (hy : y1 < c.p)
    (hP : IsJacobian (c.val x1) (c.val y1) 1 P) (hq : c.q • P = 0) (heven : k % 2 = 0) (hkq : k ≤ c.q) :
    Jac.Represents c (jacScalarMultiplication c x1 y1 k) (k • P) := by
  have hbounds := c.q_bounds
  have hsub : c.subN c.q k = c.q - k := if_pos hkq
  have hrep := scalarLoop_recode (k := c.q - k) hx hy hP (by omega) (by omega)
  have hneg : k • P = -((c.q - k) • P) := by
    rw [eq_neg_iff_add_eq_zero, ← add_nsmul, Nat.add_sub_cancel' hkq, hq]
  simp only [jacScalarMultiplication, if_neg (by omega : ¬ k % 2 = 1), hsub]
  rw [hneg]
  exact represents_neg hrep.1 hrep.2

/-- The coordinates of the base point. -/
lemma p256Base_isNormal : IsNormal .p256
    (Curve.p256.multiplyCasper p256BaseX 1, Curve.p256.multiplyCasper p256BaseY 1) p256Base :=
  ⟨Curve.multiplyCasper_lt, Curve.multiplyCasper_lt, Curve.natCast_multiplyCasper_one.symm,
    Curve.natCast_multiplyCasper_one.symm⟩

/-- The `Mul` functions give the coordinates of the multiple. -/
theorem casperEccMul_isNormal {x y k : Nat} (hP : P ≠ 0) (h : IsNormal c (x, y) P) (hq : c.q • P = 0)
    (hkq : k ≤ c.q) : IsNormal c (casperEccMul c x y k) (k • P) := by
  have hbounds := c.q_bounds.1
  have haffine := h.affine hP
  apply normalResult_isNormal
  by_cases hodd : k % 2 = 1
  · exact jacScalarMultiplication_odd haffine.x_lt haffine.y_lt haffine.isJacobian hodd (by omega)
  · exact jacScalarMultiplication_even haffine.x_lt haffine.y_lt haffine.isJacobian hq (by omega) hkq

theorem casperEccMul_isNormal_base : IsNormal .p256 (casperEccMul .p256 (Curve.p256.multiplyCasper p256BaseX 1)
    (Curve.p256.multiplyCasper p256BaseY 1) 6) (6 • p256Base) :=
  casperEccMul_isNormal (WeierstrassCurve.Affine.Point.some_ne_zero p256Base_nonsingular) p256Base_isNormal
    p256Base_order (by decide)

/-- The `MulAdd` functions give the coordinates of the sum of the multiples. With windows of two bits one scalar has
to have two bits; with windows of one bit the points have to be different. -/
theorem casperEccMulAdd_isNormal {x1 y1 k1 x2 y2 k2 : Nat} (beyond : Nat → Bool) (hP : P ≠ 0) (hQ : Q ≠ 0)
    (h1 : IsNormal c (x1, y1) P) (h2 : IsNormal c (x2, y2) Q) (hk1 : k1 < 2 ^ c.nBitlen) (hk2 : k2 < 2 ^ c.nBitlen)
    (hlong : if c = .p521 then P ≠ Q ∧ ¬ (k1 = 0 ∧ k2 = 0) else 2 ≤ k1 ∨ 2 ≤ k2) :
    IsNormal c (casperEccMulAdd c beyond x1 y1 k1 x2 y2 k2) (k1 • P + k2 • Q) := by
  have haffine1 := h1.affine hP
  have haffine2 := h2.affine hQ
  apply normalResult_isNormal
  by_cases hc : c = .p521
  · rw [if_pos hc] at hlong
    obtain ⟨hne, hzero⟩ := hlong
    refine (doubleScalar_spec haffine1 haffine2 hk1 hk2 hzero (Or.inl hc) ?_).1
    intro m hle hbit _
    exact lut4_stands hc haffine1 haffine2 windowBits_lt windowBits_lt (hbit.imp (windowBits_ge hle) (windowBits_ge hle))
      (Or.inl hne)
  · rw [if_neg hc] at hlong
    refine (doubleScalar_spec haffine1 haffine2 hk1 hk2 (by omega) (Or.inr hlong) ?_).1
    intro m hle hbit _
    exact lut16_stands hc haffine1 haffine2 windowBits_lt windowBits_lt (hbit.imp (windowBits_ge hle) (windowBits_ge hle))

theorem casperEccMulAdd_isNormal_base : IsNormal .p256
    (casperEccMulAdd .p256 (fun _ => false) (Curve.p256.multiplyCasper p256BaseX 1)
      (Curve.p256.multiplyCasper p256BaseY 1) 3 (Curve.p256.multiplyCasper p256BaseX 1)
      (Curve.p256.multiplyCasper p256BaseY 1) 5)
    (3 • p256Base + 5 • p256Base) :=
  casperEccMulAdd_isNormal _ (WeierstrassCurve.Affine.Point.some_ne_zero p256Base_nonsingular)
    (WeierstrassCurve.Affine.Point.some_ne_zero p256Base_nonsingular) p256Base_isNormal p256Base_isNormal
    (by decide) (by decide) (by decide)

end Results

end McuxDrivers.Casper
