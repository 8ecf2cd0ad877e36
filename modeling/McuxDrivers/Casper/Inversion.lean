import McuxDrivers.Casper.Points
import Mathlib.FieldTheory.Finite.Basic

/-!
# The inversion in the prime fields

`invert_mod_p256`, `invert_mod_p384` and `invert_mod_p521` raise to the power `p - 2` by an addition chain.
`IsPower` keeps the exponent of what a buffer holds. `Jac_toAffine` divides by the third coordinate.
-/

namespace McuxDrivers.Casper
open McuxDrivers.Lib

namespace Curve

variable (c : Curve)

/-- Two squarings, into the other buffer and back, as the loops of the inversions do them. -/
def squareTwice (a : Nat) : Nat :=
  c.squareCasper (c.squareCasper a)

/-- `x` stands for the power `e` of what `a` stands for. -/
def IsPower (a e x : Nat) : Prop :=
  c.val x = c.val a ^ e

variable {c} {a x y e f : Nat}

namespace IsPower

lemma self (a : Nat) : c.IsPower a 1 a :=
  (pow_one _).symm

lemma multiply (hx : c.IsPower a e x) (hy : c.IsPower a f y) : c.IsPower a (e + f) (c.multiplyCasper x y) := by
  unfold IsPower
  rw [val_multiplyCasper, hx, hy, pow_add]

lemma square (hx : c.IsPower a e x) : c.IsPower a (2 * e) (c.squareCasper x) := by
  rw [two_mul]
  exact hx.multiply hx

lemma squares (hx : c.IsPower a e x) (n : Nat) : c.IsPower a (4 ^ n * e) (c.squareTwice^[n] x) := by
  induction n with
  | zero =>
    rw [pow_zero, one_mul]
    exact hx
  | succ n ih =>
    rw [Function.iterate_succ_apply', pow_succ', show 4 * 4 ^ n * e = 2 * (2 * (4 ^ n * e)) by ring]
    exact ih.square.square

lemma of_eq (hx : c.IsPower a e x) (h : e = f) : c.IsPower a f x :=
  h ▸ hx

/-- Fermat's little theorem, also for 0. -/
lemma inverse (hx : c.IsPower a (c.p - 2) x) : c.val x = (c.val a)⁻¹ := by
  have hp := c.two_lt_p
  rw [hx]
  by_cases ha : c.val a = 0
  · rw [ha, inv_zero, zero_pow (by omega)]
  · apply eq_inv_of_mul_eq_one_left
    rw [← pow_succ, show c.p - 2 + 1 = c.p - 1 by omega]
    exact ZMod.pow_card_sub_one_eq_one ha

end IsPower

end Curve

/-- `invert_mod_p256`. -/
def invertModP256 (a : Nat) : Nat :=
  let square := Curve.p256.squareCasper
  let multiply := Curve.p256.multiplyCasper
  let twice := Curve.p256.squareTwice
  let tmp := square a
  let t2 := multiply tmp a
  let s1 := square t2
  let tmp := square s1
  let s1 := multiply tmp t2
  let s2 := square s1
  let tmp := square s2
  let s2 := square tmp
  let tmp := square s2
  let s2 := multiply tmp s1
  let s4 := square s2
  let s4 := twice^[3] s4
  let tmp := square s4
  let s4 := multiply tmp s2
  let s8 := square s4
  let s8 := twice^[7] s8
  let tmp := square s8
  let s8 := multiply tmp s4
  let tmp := square s8
  let tmp := twice^[15] tmp
  let t := square tmp
  let tmp := multiply t a
  let tmp := twice^[64] tmp
  let t := multiply tmp s8
  let t := twice^[16] t
  let tmp := multiply t s8
  let tmp := twice^[8] tmp
  let t := multiply tmp s4
  let t := twice^[4] t
  let tmp := multiply t s2
  let tmp := twice^[2] tmp
  let t := multiply tmp s1
  let tmp := square t
  let t := square tmp
  let tmp := multiply t t2
  let t := square tmp
  let tmp := square t
  multiply tmp a

/-- `invert_mod_p384`. -/
def invertModP384 (a : Nat) : Nat :=
  let square := Curve.p384.squareCasper
  let multiply := Curve.p384.multiplyCasper
  let twice := Curve.p384.squareTwice
  let tmp := square a
  let t1 := square tmp
  let tmp := square t1
  let t2 := multiply tmp t1
  let d := multiply a t2
  let e := multiply d a
  let t0 := multiply e a
  let tmp := square t0
  let t1 := square tmp
  let tmp := square t1
  let t2 := square tmp
  let t1 := multiply t2 t0
  let tmp := square t1
  let tmp := twice^[3] tmp
  let t3 := square tmp
  let t2 := multiply t3 t1
  let tmp := square t2
  let tmp := twice^[7] tmp
  let t4 := square tmp
  let t3 := multiply t4 t2
  let tmp := square t3
  let tmp := twice^[15] tmp
  let t5 := square tmp
  let t4 := multiply t5 t3
  let tmp := square t4
  let tmp := twice^[31] tmp
  let t6 := square tmp
  let t5 := multiply t6 t4
  let tmp := square t5
  let tmp := twice^[31] tmp
  let t6 := square tmp
  let t5 := multiply t6 t4
  let tmp := square t5
  let tmp := twice^[15] tmp
  let t6 := square tmp
  let t5 := multiply t6 t3
  let tmp := square t5
  let tmp := twice^[7] tmp
  let t6 := square tmp
  let t5 := multiply t6 t2
  let tmp := square t5
  let tmp := twice^[3] tmp
  let t6 := square tmp
  let t5 := multiply t6 t1
  let tmp := square t5
  let tmp := twice^[1] tmp
  let t6 := square tmp
  let t5 := multiply t6 t0
  let tmp := square t5
  let tmp := twice^[1] tmp
  let t6 := square tmp
  let t5 := multiply t6 e
  let tmp := square t5
  let tmp := twice^[15] tmp
  let t6 := square tmp
  let t5 := multiply t6 t3
  let tmp := square t5
  let tmp := twice^[31] tmp
  let t5 := square tmp
  let tmp := square t5
  let tmp := twice^[7] tmp
  let t6 := square tmp
  let t5 := multiply t6 t2
  let tmp := square t5
  let tmp := twice^[3] tmp
  let t6 := square tmp
  let t5 := multiply t6 t1
  let tmp := square t5
  let tmp := twice^[1] tmp
  let t6 := square tmp
  let t5 := multiply t6 t0
  let tmp := square t5
  let tmp := twice^[1] tmp
  let t6 := square tmp
  multiply t6 d

/-- `invert_mod_p521`. -/
def invertModP521 (a : Nat) : Nat :=
  let square := Curve.p521.squareCasper
  let multiply := Curve.p521.multiplyCasper
  let twice := Curve.p521.squareTwice
  let d2 := square a
  let t2 := multiply d2 a
  let d3 := square t2
  let e3 := square d3
  let t4 := multiply e3 t2
  let d3 := square t4
  let e3 := square d3
  let d3 := square e3
  let e3 := square d3
  let d2 := multiply e3 t4
  let d3 := square d2
  let e3 := square d3
  let e3 := twice^[3] e3
  let d4 := multiply e3 d2
  let d3 := square d4
  let e3 := square d3
  let e3 := twice^[7] e3
  let d2 := multiply e3 d4
  let d3 := square d2
  let e3 := square d3
  let e3 := twice^[15] e3
  let d4 := multiply e3 d2
  let d3 := square d4
  let e3 := square d3
  let e3 := twice^[31] e3
  let d2 := multiply e3 d4
  let d3 := square d2
  let e3 := square d3
  let e3 := twice^[63] e3
  let d4 := multiply e3 d2
  let d3 := square d4
  let e3 := square d3
  let e3 := twice^[127] e3
  let d2 := multiply e3 d4
  let d3 := square d2
  let e3 := square d3
  let d2 := multiply e3 t2
  let d3 := square d2
  let e3 := square d3
  let d3 := square e3
  let e3 := square d3
  let d2 := multiply e3 t4
  let d3 := square d2
  let d2 := multiply d3 a
  let d3 := square d2
  let e3 := square d3
  multiply e3 a

section Chains

variable (a : Nat)

lemma invertModP256_power : Curve.p256.IsPower a (Curve.p256.p - 2) (invertModP256 a) := by
  have h1 := Curve.IsPower.self (c := .p256) a
  have h2 := (h1.square.multiply h1).of_eq (show _ = 2 ^ 2 - 1 by norm_num)
  have h4 := (h2.square.square.multiply h2).of_eq (show _ = 2 ^ 4 - 1 by norm_num)
  have h8 := (h4.square.square.square.square.multiply h4).of_eq (show _ = 2 ^ 8 - 1 by norm_num)
  have h16 := ((h8.square.squares 3).square.multiply h8).of_eq (show _ = 2 ^ 16 - 1 by norm_num)
  have h32 := ((h16.square.squares 7).square.multiply h16).of_eq (show _ = 2 ^ 32 - 1 by norm_num)
  have h64 := (h32.square.squares 15).square.multiply h1
  have h192 := (h64.squares 64).multiply h32
  have h224 := (h192.squares 16).multiply h32
  have h240 := (h224.squares 8).multiply h16
  have h248 := (h240.squares 4).multiply h8
  have h252 := (h248.squares 2).multiply h4
  have h254 := h252.square.square.multiply h2
  exact (h254.square.square.multiply h1).of_eq (by norm_num [Curve.p])

lemma invertModP384_power : Curve.p384.IsPower a (Curve.p384.p - 2) (invertModP384 a) := by
  have h1 := Curve.IsPower.self (c := .p384) a
  have hd := h1.multiply (h1.square.square.square.multiply h1.square.square)
  have he := hd.multiply h1
  have h4 := (he.multiply h1).of_eq (show _ = 2 ^ 4 - 1 by norm_num)
  have h8 := (h4.square.square.square.square.multiply h4).of_eq (show _ = 2 ^ 8 - 1 by norm_num)
  have h16 := ((h8.square.squares 3).square.multiply h8).of_eq (show _ = 2 ^ 16 - 1 by norm_num)
  have h32 := ((h16.square.squares 7).square.multiply h16).of_eq (show _ = 2 ^ 32 - 1 by norm_num)
  have h64 := ((h32.square.squares 15).square.multiply h32).of_eq (show _ = 2 ^ 64 - 1 by norm_num)
  have h128 := ((h64.square.squares 31).square.multiply h64).of_eq (show _ = 2 ^ 128 - 1 by norm_num)
  have h192 := (h128.square.squares 31).square.multiply h64
  have h224 := (h192.square.squares 15).square.multiply h32
  have h240 := (h224.square.squares 7).square.multiply h16
  have h248 := (h240.square.squares 3).square.multiply h8
  have h252 := (h248.square.squares 1).square.multiply h4
  have h256 := (h252.square.squares 1).square.multiply he
  have h288 := (h256.square.squares 15).square.multiply h32
  have h352 := (h288.square.squares 31).square
  have h368 := (h352.square.squares 7).square.multiply h16
  have h376 := (h368.square.squares 3).square.multiply h8
  have h380 := (h376.square.squares 1).square.multiply h4
  exact ((h380.square.squares 1).square.multiply hd).of_eq (by norm_num [Curve.p])

lemma invertModP521_power : Curve.p521.IsPower a (Curve.p521.p - 2) (invertModP521 a) := by
  have h1 := Curve.IsPower.self (c := .p521) a
  have h2 := (h1.square.multiply h1).of_eq (show _ = 2 ^ 2 - 1 by norm_num)
  have h4 := (h2.square.square.multiply h2).of_eq (show _ = 2 ^ 4 - 1 by norm_num)
  have h8 := (h4.square.square.square.square.multiply h4).of_eq (show _ = 2 ^ 8 - 1 by norm_num)
  have h16 := ((h8.square.square.squares 3).multiply h8).of_eq (show _ = 2 ^ 16 - 1 by norm_num)
  have h32 := ((h16.square.square.squares 7).multiply h16).of_eq (show _ = 2 ^ 32 - 1 by norm_num)
  have h64 := ((h32.square.square.squares 15).multiply h32).of_eq (show _ = 2 ^ 64 - 1 by norm_num)
  have h128 := ((h64.square.square.squares 31).multiply h64).of_eq (show _ = 2 ^ 128 - 1 by norm_num)
  have h256 := (h128.square.square.squares 63).multiply h128
  have h512 := (h256.square.square.squares 127).multiply h256
  have h514 := h512.square.square.multiply h2
  have h518 := h514.square.square.square.square.multiply h4
  have h519 := h518.square.multiply h1
  exact (h519.square.square.multiply h1).of_eq (by decide +kernel)

end Chains

/-- The inversion that `Jac_toAffine` chooses. -/
def Curve.invertMod : Curve → Nat → Nat
  | p256 => invertModP256
  | p384 => invertModP384
  | p521 => invertModP521

/-- `Jac_toAffine`: the two affine coordinates. -/
def jacToAffine (c : Curve) (s : Jac) : Nat × Nat :=
  let t1 := c.squareCasper s.z
  let t2 := c.multiplyCasper t1 s.z
  let t1 := c.invertMod t2
  let y3 := c.multiplyCasper s.y t1
  let t2 := c.multiplyCasper t1 s.z
  let x3 := c.multiplyCasper s.x t2
  (x3, y3)

namespace Curve

variable {c : Curve} {a : Nat}

lemma val_invertMod (c : Curve) (a : Nat) : c.val (c.invertMod a) = (c.val a)⁻¹ := by
  cases c with
  | p256 => exact (invertModP256_power a).inverse
  | p384 => exact (invertModP384_power a).inverse
  | p521 => exact (invertModP521_power a).inverse

lemma invertMod_lt (c : Curve) (a : Nat) : c.invertMod a < c.p := by
  cases c with
  | p256 => exact multiplyCasper_lt
  | p384 => exact multiplyCasper_lt
  | p521 => exact multiplyCasper_lt

/-- The inversions give the only number below the prime that times the argument is 1 in Montgomery form, and 0 for 0. -/
theorem invertMod_unique (ha : a < c.p) (h0 : a ≠ 0) (x : Nat) :
    x < c.p ∧ c.multiplyCasper x a = c.one ↔ x = c.invertMod a := by
  have hval : c.val a ≠ 0 := (val_eq_zero_iff ha).not.mpr h0
  constructor
  · rintro ⟨hx, hone⟩
    rw [← val_inj hx (c.invertMod_lt a), val_invertMod]
    apply eq_inv_of_mul_eq_one_left
    rw [← val_multiplyCasper, hone, val_one]
  · rintro rfl
    refine ⟨c.invertMod_lt a, ?_⟩
    rw [← val_inj multiplyCasper_lt c.one_lt_p, val_multiplyCasper, val_invertMod, inv_mul_cancel₀ hval, val_one]

/-- The inverse of 1. -/
theorem invertMod_unique_one : p384.one < p384.p ∧ p384.multiplyCasper p384.one p384.one = p384.one ↔
    p384.one = p384.invertMod p384.one :=
  invertMod_unique p384.one_lt_p (by decide) p384.one

end Curve

section Affine

variable {c : Curve} {b : ZMod c.p} {s : Jac} {P : (shortCurve b).Point}

lemma jacToAffine_lt : (jacToAffine c s).1 < c.p ∧ (jacToAffine c s).2 < c.p :=
  ⟨Curve.multiplyCasper_lt, Curve.multiplyCasper_lt⟩

lemma val_jacToAffine :
    c.val (jacToAffine c s).1 = c.val s.x * ((c.val s.z ^ 3)⁻¹ * c.val s.z) ∧
      c.val (jacToAffine c s).2 = c.val s.y * (c.val s.z ^ 3)⁻¹ := by
  simp only [jacToAffine, Curve.val_multiplyCasper, Curve.val_squareCasper, Curve.val_invertMod]
  rw [show c.val s.z * c.val s.z * c.val s.z = c.val s.z ^ 3 by ring]
  exact ⟨rfl, rfl⟩

/-- For the point at infinity both coordinates are 0. -/
lemma jacToAffine_zero (h : Jac.Represents c s P) (hP : P = 0) : jacToAffine c s = (0, 0) := by
  have hz : c.val s.z = 0 := h.2.eq_zero_iff.mpr hP
  obtain ⟨hx, hy⟩ := val_jacToAffine (c := c) (s := s)
  rw [hz, mul_zero, mul_zero] at hx
  rw [hz, zero_pow (by decide), inv_zero, mul_zero] at hy
  apply Prod.ext
  · exact (Curve.val_eq_zero_iff jacToAffine_lt.1).mp hx
  · exact (Curve.val_eq_zero_iff jacToAffine_lt.2).mp hy

/-- Otherwise they are those of the point. -/
lemma jacToAffine_affine {X Y : ZMod c.p} {hXY : (shortCurve b).Nonsingular X Y}
    (h : Jac.Represents c s (.some X Y hXY)) :
    c.val (jacToAffine c s).1 = X ∧ c.val (jacToAffine c s).2 = Y := by
  obtain ⟨-, hz, hx, hy⟩ := h
  obtain ⟨hx3, hy3⟩ := val_jacToAffine (c := c) (s := s)
  rw [hx3, hy3, hx, hy]
  constructor
  · field_simp
  · field_simp

end Affine

end McuxDrivers.Casper
