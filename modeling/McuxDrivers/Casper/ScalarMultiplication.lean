import McuxDrivers.Casper.Points
import Mathlib.GroupTheory.OrderOfElement

/-!
# The constant-time scalar multiplication

`Jac_scalar_multiplication` recodes an odd scalar into signed odd digits. The number that the recoding still has
to process after `i` digits is the multiple that the main loop has computed when it reaches digit `i`.
-/

namespace McuxDrivers.Casper
open McuxDrivers.Lib

/-- The `bitlen` of `Jac_scalar_multiplication`. -/
def Curve.bitlen : Curve → Nat
  | p256 => 256
  | p384 => 384
  | p521 => 521

/-- `recodeLength`. -/
def Curve.recodeLength : Curve → Nat
  | p256 => 87
  | p384 => 129
  | p521 => 175

/-- The digit that `recode` takes from the lowest four bits. -/
def recodeDigit (k : Nat) : Int :=
  ((k % 16 : Nat) : Int) - 8

/-- What `recode` leaves in `K`. -/
def recodeStep (c : Curve) (k : Nat) : Nat :=
  (k / 8 + if recodeDigit k < 0 then 1 else 0) % (2 ^ 32) ^ c.wordlen

/-- A conversion to `int8_t`. -/
def toInt8 (k : Nat) : Int :=
  if k % 2 ^ 8 < 2 ^ 7 then ((k % 2 ^ 8 : Nat) : Int) else ((k % 2 ^ 8 : Nat) : Int) - 2 ^ 8

/-- `recode` with windows of four bits, into an array of zeros. -/
def recode (c : Curve) (k n : Nat) (i : Nat) : Int :=
  let k := k % 2 ^ (8 * ((n + 7) / 8))
  let t := (n + 2) / 3
  if i < t then recodeDigit ((recodeStep c)^[i] k)
  else if i = t then toInt8 ((recodeStep c)^[t] k)
  else 0

/-- The table of odd multiples. -/
structure Lut where
  p1 : Jac
  p3 : Jac
  p5 : Jac
  p7 : Jac

/-- The precomputation of `Jac_scalar_multiplication`. -/
def oddMultiples (c : Curve) (x1 y1 : Nat) : Lut :=
  let p1 : Jac := { x := x1, y := y1, z := c.one }
  let p2 := jacDouble c p1
  let p3 := jacAddAffine c p2 x1 y1
  let p5 := jacAddition c p3 p2
  let p7 := jacAddition c p5 p2
  { p1 := p1, p3 := p3, p5 := p5, p7 := p7 }

/-- `GET_LUT`. -/
def getLut (lut : Lut) (index : Nat) : Jac :=
  let s := lut.p1
  let s := if index = 3 then lut.p3 else s
  let s := if index = 5 then lut.p5 else s
  if index = 7 then lut.p7 else s

/-- The element for a digit, negated for a negative one. -/
def signedLut (c : Curve) (lut : Lut) (digit : Int) : Jac :=
  let s := getLut lut digit.natAbs
  { s with y := if digit < 0 then c.subN c.p s.y else s.y }

/-- The main loop, for the digits `i - 1, ..., 0`. -/
def scalarLoop (c : Curve) (lut : Lut) (digits : Nat → Int) : Nat → Jac → Jac
  | 0, s => s
  | i + 1, s =>
    scalarLoop c lut digits i (jacAddition c (jacDouble c (jacDouble c (jacDouble c s))) (signedLut c lut (digits i)))

/-- `Jac_scalar_multiplication`. -/
def jacScalarMultiplication (c : Curve) (x1 y1 k : Nat) : Jac :=
  let lut := oddMultiples c x1 y1
  let odd := k % 2 = 1
  let m := c.subN c.q k
  let scalar := if odd then k else m
  let digits := recode c scalar c.bitlen
  let s := signedLut c lut (digits (c.recodeLength - 1))
  let s := scalarLoop c lut digits (c.recodeLength - 1) s
  { s with y := if odd then s.y else c.subN c.p s.y }

section Recoding

variable {c : Curve} {k : Nat}

lemma recodeDigit_cases (hodd : k % 2 = 1) :
    (recodeDigit k).natAbs = 1 ∨ (recodeDigit k).natAbs = 3 ∨ (recodeDigit k).natAbs = 5 ∨
      (recodeDigit k).natAbs = 7 := by
  unfold recodeDigit
  omega

lemma recodeStep_eq (hk : k < (2 ^ 32) ^ c.wordlen) :
    recodeStep c k = k / 8 + if recodeDigit k < 0 then 1 else 0 := by
  have hwords : 2 ^ 32 ≤ (2 ^ 32) ^ c.wordlen := Nat.le_self_pow (by cases c <;> decide) _
  refine Nat.mod_eq_of_lt ?_
  split_ifs <;> omega

/-- What is left is odd again, and with the digit it makes up the number. -/
lemma recodeStep_spec (hk : k < (2 ^ 32) ^ c.wordlen) (hodd : k % 2 = 1) :
    recodeStep c k % 2 = 1 ∧ (k : Int) = 8 * recodeStep c k + recodeDigit k := by
  rw [recodeStep_eq hk]
  unfold recodeDigit
  split_ifs <;> omega

lemma recode_iterate (hk : k < (2 ^ 32) ^ c.wordlen) (hodd : k % 2 = 1) (i : Nat) :
    (recodeStep c)^[i] k % 2 = 1 ∧ (recodeStep c)^[i] k ≤ k / 8 ^ i + 1 ∧
      (recodeStep c)^[i] k < (2 ^ 32) ^ c.wordlen := by
  induction i with
  | zero =>
    rw [pow_zero, Nat.div_one]
    exact ⟨hodd, Nat.le_succ k, hk⟩
  | succ i ih =>
    obtain ⟨hi, hle, hlt⟩ := ih
    rw [Function.iterate_succ_apply']
    refine ⟨(recodeStep_spec hlt hi).1, ?_, Nat.mod_lt _ (by positivity)⟩
    rw [recodeStep_eq hlt, pow_succ, ← Nat.div_div_eq_div_mul]
    split_ifs <;> omega

lemma recode_iterate_last {t : Nat} (hk : k < (2 ^ 32) ^ c.wordlen) (hodd : k % 2 = 1) (ht : k < 8 ^ t) :
    (recodeStep c)^[t] k = 1 := by
  obtain ⟨hi, hle, -⟩ := recode_iterate hk hodd t
  rw [Nat.div_eq_of_lt ht] at hle
  omega

end Recoding

section Table

variable {c : Curve} {b : ZMod c.p} {P : (shortCurve b).Point} {x1 y1 : Nat}

/-- The table holds the odd multiples up to 7, with `y` reduced. -/
lemma oddMultiples_represents (hx : x1 < c.p) (hy : y1 < c.p) (hP : IsJacobian (c.val x1) (c.val y1) 1 P) :
    ∀ i, i = 1 ∨ i = 3 ∨ i = 5 ∨ i = 7 →
      Jac.Represents c (getLut (oddMultiples c x1 y1) i) (i • P) ∧ (getLut (oddMultiples c x1 y1) i).y < c.p := by
  have h1 := represents_affine hP
  have h2 := jacDouble_represents h1
  have r2 : Jac.Reduced c (jacDouble c { x := x1, y := y1, z := c.one }) := jacDouble_reduced
  have h3 := jacAddAffine_represents h2 r2.1 r2.2.1 hP
  have r3 := jacAddAffine_reduced (s := jacDouble c { x := x1, y := y1, z := c.one }) hx hy
  have h5 := jacAddition_represents h3 h2
  have r5 := jacAddition_reduced r3 r2
  have h7 := jacAddition_represents h5 h2
  have r7 := jacAddition_reduced r5 r2
  rintro i (rfl | rfl | rfl | rfl)
  · rw [one_smul]
    exact ⟨h1, hy⟩
  · rw [show (3 : ℕ) • P = P + P + P by abel]
    exact ⟨h3, r3.2.1⟩
  · rw [show (5 : ℕ) • P = P + P + P + (P + P) by abel]
    exact ⟨h5, r5.2.1⟩
  · rw [show (7 : ℕ) • P = P + P + P + (P + P) + (P + P) by abel]
    exact ⟨h7, r7.2.1⟩

end Table

section Loop

variable {c : Curve} {b : ZMod c.p} {P Q : (shortCurve b).Point} {s t : Jac} {x1 y1 k : Nat}

/-- Negation by a subtraction from the prime, which may leave `p` for 0. -/
lemma represents_neg (h : Jac.Represents c s P) (hy : s.y ≤ c.p) :
    Jac.Represents c { s with y := c.subN c.p s.y } (-P) := by
  refine ⟨h.1, ?_⟩
  rw [Curve.val_subN hy]
  exact h.2.neg

lemma subN_le {a : Nat} (ha : a ≤ c.p) : c.subN c.p a ≤ c.p := by
  rw [Curve.subN, if_pos ha]
  exact Nat.sub_le _ _

lemma jacAddition_y_le (hs : s.y ≤ c.p) (ht : t.y ≤ c.p) : (jacAddition c s t).y ≤ c.p := by
  unfold jacAddition
  dsimp only
  split_ifs
  · exact ht
  · exact hs
  · exact Curve.subCasper_lt.le
  · exact Curve.subCasper_lt.le

lemma signedLut_represents (hx : x1 < c.p) (hy : y1 < c.p) (hP : IsJacobian (c.val x1) (c.val y1) 1 P) {d : Int}
    (hd : d.natAbs = 1 ∨ d.natAbs = 3 ∨ d.natAbs = 5 ∨ d.natAbs = 7) :
    Jac.Represents c (signedLut c (oddMultiples c x1 y1) d) (d • P) ∧
      (signedLut c (oddMultiples c x1 y1) d).y ≤ c.p := by
  obtain ⟨hrep, hlt⟩ := oddMultiples_represents hx hy hP d.natAbs hd
  unfold signedLut
  dsimp only
  by_cases hneg : d < 0
  · have hd : d • P = -(d.natAbs • P) := by
      rw [← natCast_zsmul, ← neg_zsmul, Int.ofNat_natAbs_of_nonpos hneg.le, neg_neg]
    rw [if_pos hneg, hd]
    exact ⟨represents_neg hrep hlt.le, subN_le hlt.le⟩
  · have hd : d • P = d.natAbs • P := by
      rw [← natCast_zsmul, Int.natAbs_of_nonneg (not_lt.mp hneg)]
    rw [if_neg hneg, hd]
    exact ⟨hrep, hlt.le⟩

/-- Before digit `i - 1` the loop has computed the multiple that the recoding had left after `i` digits. -/
lemma scalarLoop_represents (hx : x1 < c.p) (hy : y1 < c.p) (hP : IsJacobian (c.val x1) (c.val y1) 1 P)
    {digits : Nat → Int} {i : Nat} (hk : k < (2 ^ 32) ^ c.wordlen) (hodd : k % 2 = 1)
    (hdigits : ∀ j < i, digits j = recodeDigit ((recodeStep c)^[j] k))
    (hs : Jac.Represents c s ((recodeStep c)^[i] k • P)) (hsy : s.y ≤ c.p) :
    Jac.Represents c (scalarLoop c (oddMultiples c x1 y1) digits i s) (k • P) ∧
      (scalarLoop c (oddMultiples c x1 y1) digits i s).y ≤ c.p := by
  induction i generalizing s with
  | zero => exact ⟨hs, hsy⟩
  | succ i ih =>
    obtain ⟨hi, -, hlt⟩ := recode_iterate hk hodd i
    obtain ⟨hlut, hluty⟩ := signedLut_represents hx hy hP (recodeDigit_cases hi)
    have hdouble := jacDouble_represents (jacDouble_represents (jacDouble_represents hs))
    have hnext := jacAddition_represents hdouble hlut
    rw [scalarLoop, hdigits i (Nat.lt_succ_self i)]
    refine ih (fun j hj => hdigits j (Nat.lt_succ_of_lt hj)) ?_ (jacAddition_y_le Curve.subCasper_lt.le hluty)
    rw [Function.iterate_succ_apply'] at hnext
    convert hnext using 1
    -- eight times what is left and the digit
    rw [← natCast_zsmul P ((recodeStep c)^[i] k), (recodeStep_spec hlt hi).2, add_zsmul, mul_zsmul, natCast_zsmul]
    abel

lemma scalarLoop_recode (hx : x1 < c.p) (hy : y1 < c.p) (hP : IsJacobian (c.val x1) (c.val y1) 1 P)
    (hodd : k % 2 = 1) (hk : k < 2 ^ c.bitlen) :
    let lut := oddMultiples c x1 y1
    let digits := recode c k c.bitlen
    let s := scalarLoop c lut digits (c.recodeLength - 1) (signedLut c lut (digits (c.recodeLength - 1)))
    Jac.Represents c s (k • P) ∧ s.y ≤ c.p := by
  intro lut digits s
  have hbits : 2 ^ c.bitlen ≤ 2 ^ (8 * ((c.bitlen + 7) / 8)) ∧ 2 ^ c.bitlen ≤ 8 ^ ((c.bitlen + 2) / 3) ∧
      2 ^ c.bitlen ≤ (2 ^ 32) ^ c.wordlen ∧ c.recodeLength - 1 = (c.bitlen + 2) / 3 := by
    cases c <;> decide +kernel
  obtain ⟨hbytes, hdigits, hwords, hlength⟩ := hbits
  have hlast := recode_iterate_last (hk.trans_le hwords) hodd (hk.trans_le hdigits)
  have hrecode : ∀ j < c.recodeLength - 1, digits j = recodeDigit ((recodeStep c)^[j] k) := by
    intro j hj
    simp only [digits, recode]
    rw [Nat.mod_eq_of_lt (hk.trans_le hbytes), if_pos (hlength ▸ hj)]
  have htop : digits (c.recodeLength - 1) = 1 := by
    simp only [digits, recode]
    rw [Nat.mod_eq_of_lt (hk.trans_le hbytes), hlength, if_neg (lt_irrefl _), if_pos rfl, hlast]
    rfl
  obtain ⟨hstart, hstarty⟩ := signedLut_represents (d := 1) hx hy hP (Or.inl rfl)
  have hone : (1 : ℤ) • P = (recodeStep c)^[c.recodeLength - 1] k • P := by
    rw [hlength, hlast, one_smul, one_smul]
  simp only [s, htop]
  refine scalarLoop_represents hx hy hP (hk.trans_le hwords) hodd hrecode ?_ hstarty
  rw [← hone]
  exact hstart

end Loop

section Result

variable {c : Curve} {b : ZMod c.p} {P : (shortCurve b).Point} {x1 y1 k : Nat}

/-- An odd scalar, with no condition on the order of the point. -/
lemma jacScalarMultiplication_odd (hx : x1 < c.p) (hy : y1 < c.p) (hP : IsJacobian (c.val x1) (c.val y1) 1 P)
    (hodd : k % 2 = 1) (hk : k < 2 ^ c.bitlen) : Jac.Represents c (jacScalarMultiplication c x1 y1 k) (k • P) := by
  have hrep := scalarLoop_recode hx hy hP hodd hk
  simp only [jacScalarMultiplication, if_pos hodd]
  exact hrep.1

/-- The triple represents `k • P`, and no doubling or addition goes wrong for any operands. -/
theorem jacScalarMultiplication_represents (hx : x1 < c.p) (hy : y1 < c.p)
    (hP : IsJacobian (c.val x1) (c.val y1) 1 P) (hq : c.q • P = 0) (hk : 1 ≤ k) (hkq : k ≤ c.q - 1) :
    Jac.Represents c (jacScalarMultiplication c x1 y1 k) (k • P) ∧
      ∀ (s t : Jac) (Q R : (shortCurve b).Point), Jac.Represents c s Q → Jac.Represents c t R →
        Jac.Represents c (jacDouble c s) (Q + Q) ∧ Jac.Represents c (jacAddition c s t) (Q + R) ∧
        (Jac.Reduced c s → t.z = c.one → Jac.Represents c (jacAddAffine c s t.x t.y) (Q + R)) := by
  have hbounds : c.q < 2 ^ c.bitlen ∧ c.q % 2 = 1 := by cases c <;> decide +kernel
  refine ⟨?_, ?_⟩
  · by_cases hodd : k % 2 = 1
    · exact jacScalarMultiplication_odd hx hy hP hodd (by omega)
    · have hle : k ≤ c.q := by omega
      have hsub : c.subN c.q k = c.q - k := if_pos hle
      have hrep := scalarLoop_recode (k := c.q - k) hx hy hP (by omega) (by omega)
      have hneg : k • P = -((c.q - k) • P) := by
        rw [eq_neg_iff_add_eq_zero, ← add_nsmul, Nat.add_sub_cancel' hle, hq]
      simp only [jacScalarMultiplication, if_neg hodd, hsub]
      rw [hneg]
      exact represents_neg hrep.1 hrep.2
  · intro s t Q R hs ht
    refine ⟨jacDouble_represents hs, jacAddition_represents hs ht, ?_⟩
    intro hred hone
    have hR := ht.2
    rw [hone, Curve.val_one] at hR
    exact jacAddAffine_represents hs hred.1 hred.2.1 hR

end Result

section BasePoint

/-- The base point of P-256, in Montgomery form. -/
def p256BaseX : Nat := 0x18905f76a53755c679fb732b7762251075ba95fc5fedb60179e730d418a9143c

/-- Its second coordinate. -/
def p256BaseY : Nat := 0x8571ff1825885d85d2e88688dd21f3258b4ab8e4ba19e45cddf25357ce95560a

/-- The coefficient of P-256. -/
def p256B : Nat := 0x5ac635d8aa3a93e7b3ebbd55769886bc651d06b0cc53b0f63bce3c3e27d2604b

lemma p256Base_nonsingular : (shortCurve (p256B : ZMod Curve.p256.p)).Nonsingular
    (Curve.p256.val p256BaseX) (Curve.p256.val p256BaseY) := by
  have hmod : ((p256BaseY * Curve.p256.rInv) ^ 2 + 3 * (p256BaseX * Curve.p256.rInv)) % Curve.p256.p =
      ((p256BaseX * Curve.p256.rInv) ^ 3 + p256B) % Curve.p256.p := by decide +kernel
  have hcast := (ZMod.natCast_eq_natCast_iff' _ _ _).mpr hmod
  push_cast at hcast
  refine shortCurve_nonsingular Curve.p256.two_ne_zero ?_ ?_
  · unfold Curve.val
    linear_combination hcast
  · exact (Curve.val_eq_zero_iff (by decide +kernel)).not.mpr (by decide +kernel)

/-- The base point of P-256. -/
def p256Base : (shortCurve (p256B : ZMod Curve.p256.p)).Point :=
  .some _ _ p256Base_nonsingular

lemma p256Base_isJacobian :
    IsJacobian (Curve.p256.val p256BaseX) (Curve.p256.val p256BaseY) 1 p256Base :=
  IsJacobian.affine p256Base_nonsingular

/-- The driver computes the point at infinity for the order itself, which is an odd scalar. -/
lemma p256Base_order : Curve.p256.q • p256Base = 0 := by
  have hz : (jacScalarMultiplication .p256 p256BaseX p256BaseY Curve.p256.q).z = 0 := by decide +kernel
  have hrep := jacScalarMultiplication_odd (k := Curve.p256.q) (by decide +kernel) (by decide +kernel)
    p256Base_isJacobian (by decide +kernel) (by decide +kernel)
  exact (hrep.z_eq_zero_iff).mp hz

end BasePoint

/-- Twice the base point. -/
theorem jacScalarMultiplication_represents_base :
    Jac.Represents .p256 (jacScalarMultiplication .p256 p256BaseX p256BaseY 2) (2 • p256Base) :=
  (jacScalarMultiplication_represents (by decide +kernel) (by decide +kernel) p256Base_isJacobian p256Base_order
    (by decide) (by decide +kernel)).1

end McuxDrivers.Casper
