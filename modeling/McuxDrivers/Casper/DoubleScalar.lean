import McuxDrivers.Casper.ScalarMultiplication

/-!
# The double scalar multiplication

`double_scalar_multiplication` slides a window over the bits of two scalars. Its counter says how many of the
highest bits it has consumed, and the point it keeps is the combination for these bits.
-/

namespace McuxDrivers.Casper
open McuxDrivers.Lib

namespace Curve

/-- The `bitlen` of `double_scalar_multiplication`: all bits of the words. -/
def nBitlen : Curve → Nat
  | p256 => 256
  | p384 => 384
  | p521 => 576

/-- The width of the window. -/
def shiftl : Curve → Nat
  | p256 => 2
  | p384 => 2
  | p521 => 1

def shiftr : Curve → Nat
  | p256 => 30
  | p384 => 30
  | p521 => 31

/-- The number of points in the table. -/
def lutSize : Curve → Nat
  | p256 => 12
  | p384 => 12
  | p521 => 3

variable (c : Curve)

/-- `shiftleft`. -/
def shiftleft (x n : Nat) : Nat :=
  (x <<< n) % (2 ^ 32) ^ c.wordlen

/-- Word `N_wordlen - 1`. -/
def topWord (x : Nat) : Nat :=
  x / (2 ^ 32) ^ (c.wordlen - 1)

/-- The `index` for the bits of a window, in 32-bit arithmetic. -/
def lutIndex (x1 x2 : Nat) : Nat :=
  match c with
  | p521 => (x2 + 1) &&& wsub32 0 x1
  | _ => wsub32 (wsub32 (x2 ||| x1 <<< 2) 2) ((if x1 ≠ 0 then 1 else 0) * 2)

end Curve

/-- `precompute_double_scalar_LUT16`. -/
def precomputeDoubleScalarLut16 (c : Curve) (px py qx qy : Nat) : List Jac :=
  let q2 := jacDouble c { x := qx, y := qy, z := c.one }
  let q3 := jacAddAffine c q2 qx qy
  let p1q2 := jacAddAffine c q2 px py
  let p1q3 := jacAddAffine c p1q2 qx qy
  let p2 := jacDouble c { x := px, y := py, z := c.one }
  let p2q1 := jacAddAffine c p2 qx qy
  let p2q2 := jacAddAffine c p2q1 qx qy
  let p2q3 := jacAddAffine c p2q2 qx qy
  let p3 := jacAddAffine c p2 px py
  let p3q1 := jacAddAffine c p3 qx qy
  let p3q2 := jacAddAffine c p3q1 qx qy
  let p3q3 := jacAddAffine c p3q2 qx qy
  [q2, q3, p1q2, p1q3, p2, p2q1, p2q2, p2q3, p3, p3q1, p3q2, p3q3]

/-- `Jac_double` as `precompute_double_scalar_LUT4` reaches it. `Z1` lies in the words 4 to 17 of the scratch
number `T4` and the four zero words behind it. The coordinates of the result lie side by side, so that the
product for `Y3` clears the lowest four words of `Z3`. -/
def lut4Double (c : Curve) (x1 y1 t4 : Nat) : Jac :=
  let t1 := c.squareCasper (t4 / 2 ^ 128)
  let t3 := c.subCasper x1 t1
  let t1 := c.addCasper x1 t1
  let t4 := c.multiplyCasper t3 t1
  let t3 := c.mul2Casper t4
  let t2 := c.addCasper t3 t4
  let y3 := c.mul2Casper y1
  let t5 := t4 / 2 ^ 128
  let z3 := c.multiplyCasper y3 t5
  let t5 := c.squareCasper y3
  let t3 := c.multiplyCasper t5 x1
  let y3 := c.squareCasper t5
  let z3 := z3 / 2 ^ 128 * 2 ^ 128
  let t5 := c.half y3
  let x3 := c.squareCasper t2
  let t1 := c.mul2Casper t3
  let x3 := c.subCasper x3 t1
  let t1 := c.subCasper t3 x3
  let t3 := c.multiplyCasper t1 t2
  let y3 := c.subCasper t3 t5
  { x := x3, y := y3, z := z3 }

/-- `Jac_add_affine` as `precompute_double_scalar_LUT4` calls it. Its `Z1` is lost when `T4` is written. -/
def lut4Sum (c : Curve) (px py qx qy : Nat) : Jac :=
  let z := c.one
  let t3 := c.squareCasper z
  let t2 := c.multiplyCasper t3 z
  let t4 := c.multiplyCasper t3 qx
  let t3 := c.multiplyCasper t2 qy
  if t4 = px ∧ t3 = py then lut4Double c px py t4
  else jacAddAffine c { x := px, y := py, z := z } qx qy

/-- `precompute_double_scalar_LUT4`. -/
def precomputeDoubleScalarLut4 (c : Curve) (px py qx qy : Nat) : List Jac :=
  [{ x := qx, y := qy, z := c.one }, { x := px, y := py, z := c.one }, lut4Sum c px py qx qy]

/-- The table that the curve uses. -/
def doubleScalarLut (c : Curve) (px py qx qy : Nat) : List Jac :=
  match c with
  | .p521 => precomputeDoubleScalarLut4 c px py qx qy
  | _ => precomputeDoubleScalarLut16 c px py qx qy

/-- The variables of `double_scalar_multiplication`, with the table indices that it has used and the bit
positions that it has consumed, counted from the highest. -/
structure DoubleScalar where
  p1 : Nat
  p2 : Nat
  c : Nat
  s : Jac
  used : List Nat
  consumed : List Nat

/-- A loop that slides over zero bits, with what it does to the point. -/
def slide (c : Curve) (f : Jac → Jac) : Nat → DoubleScalar → DoubleScalar
  | 0, d => d
  | n + 1, d =>
    if (c.topWord d.p1 ||| c.topWord d.p2) >>> 31 = 0 ∧ d.c < c.nBitlen then
      slide c f n { d with
        p1 := c.shiftleft d.p1 1
        p2 := c.shiftleft d.p2 1
        c := d.c + 1
        s := f d.s
        consumed := d.consumed ++ [d.c] }
    else d

/-- One window: `f` combines the point with the one in the table. -/
def takeWindow (c : Curve) (lut : List Jac) (f : Jac → Jac → Jac) (d : DoubleScalar) : DoubleScalar :=
  let x1 := c.topWord d.p1 >>> c.shiftr
  let x2 := c.topWord d.p2 >>> c.shiftr
  let index := c.lutIndex x1 x2
  { p1 := c.shiftleft d.p1 c.shiftl
    p2 := c.shiftleft d.p2 c.shiftl
    c := d.c + c.shiftl
    s := f d.s (lut.getD index { x := 0, y := 0, z := 0 })
    used := d.used ++ [index]
    consumed := d.consumed ++ List.range' d.c c.shiftl }

/-- The main loop. Its test for zero reads 18 words of each scalar; `beyond` says whether those behind the
`N_wordlen` words of the scalars are nonzero, for each value of the counter. -/
def windowLoop (c : Curve) (lut : List Jac) (beyond : Nat → Bool) : Nat → DoubleScalar → DoubleScalar
  | 0, d => d
  | n + 1, d =>
    if d.p1 ≠ 0 ∨ d.p2 ≠ 0 ∨ beyond d.c then
      let d := slide c (jacDouble c) c.nBitlen d
      if d.c ≥ c.nBitlen - 1 then d
      else
        windowLoop c lut beyond n
          (takeWindow c lut (fun s t => jacAddition c ((jacDouble c)^[c.shiftl] s) t) d)
    else d

/-- The special case for the last bit. -/
def lastBit (c : Curve) (px py qx qy : Nat) (d : DoubleScalar) : DoubleScalar :=
  if d.c = c.nBitlen - 1 then
    let s := jacDouble c d.s
    let s := if c.topWord d.p1 >>> 31 ≠ 0 then jacAddAffine c s px py else s
    let s := if c.topWord d.p2 >>> 31 ≠ 0 then jacAddAffine c s qx qy else s
    { d with s := s, c := d.c + 1, consumed := d.consumed ++ [d.c] }
  else d

/-- The doublings at the end. -/
def lastDoublings (c : Curve) (d : DoubleScalar) : DoubleScalar :=
  { d with
    s := (jacDouble c)^[c.nBitlen - d.c] d.s
    c := d.c + (c.nBitlen - d.c)
    consumed := d.consumed ++ List.range' d.c (c.nBitlen - d.c) }

/-- `double_scalar_multiplication`. -/
def doubleScalarMultiplication (c : Curve) (beyond : Nat → Bool) (px py k1 qx qy k2 : Nat) : DoubleScalar :=
  let lut := doubleScalarLut c px py qx qy
  let d : DoubleScalar :=
    { p1 := k1, p2 := k2, c := 0, s := { x := 0, y := 0, z := 0 }, used := [], consumed := [] }
  let d := slide c id c.nBitlen d
  let d := takeWindow c lut (fun _ t => t) d
  let d := windowLoop c lut beyond c.nBitlen d
  lastDoublings c (lastBit c px py qx qy d)

section Bits

variable {c : Curve} {k m n w : Nat}

/-- The next `w` bits of a number that has been shifted left. -/
lemma shifted_div (hle : m + w ≤ n) : k * 2 ^ m % 2 ^ n / 2 ^ (n - w) = k / 2 ^ (n - m - w) % 2 ^ w := by
  have hn : 2 ^ n = 2 ^ (n - w) * 2 ^ w := by
    rw [← pow_add]
    congr 1
    omega
  have hm : 2 ^ (n - w) = 2 ^ (n - m - w) * 2 ^ m := by
    rw [← pow_add]
    congr 1
    omega
  rw [hn, Nat.mod_mul_right_div_self, hm, Nat.mul_div_mul_right _ _ (by positivity)]

lemma div_extend (hle : m + w ≤ n) : k / 2 ^ (n - (m + w)) = 2 ^ w * (k / 2 ^ (n - m)) + k / 2 ^ (n - m - w) % 2 ^ w := by
  have hm : 2 ^ (n - m) = 2 ^ (n - m - w) * 2 ^ w := by
    rw [← pow_add]
    congr 1
    omega
  rw [hm, ← Nat.div_div_eq_div_mul, Nat.div_add_mod, Nat.sub_add_eq]

lemma range_extend : List.range m ++ List.range' m n = List.range (m + n) := by
  rw [List.range_eq_range', List.range_eq_range', ← List.range'_append_1, Nat.zero_add]

lemma words_eq (c : Curve) : (2 ^ 32) ^ c.wordlen = 2 ^ c.nBitlen := by
  have hbits : 32 * c.wordlen = c.nBitlen := by cases c <;> rfl
  rw [← pow_mul, hbits]

lemma shiftleft_eq : c.shiftleft (k * 2 ^ m % 2 ^ c.nBitlen) n = k * 2 ^ (m + n) % 2 ^ c.nBitlen := by
  rw [Curve.shiftleft, words_eq, Nat.shiftLeft_eq, Nat.mod_mul_mod, mul_assoc, ← pow_add]

lemma topWord_shiftr : c.topWord k >>> c.shiftr = k / 2 ^ (c.nBitlen - c.shiftl) := by
  have hpow : (2 ^ 32) ^ (c.wordlen - 1) * 2 ^ c.shiftr = 2 ^ (c.nBitlen - c.shiftl) := by
    have hbits : 32 * (c.wordlen - 1) + c.shiftr = c.nBitlen - c.shiftl := by cases c <;> rfl
    rw [← pow_mul, ← pow_add, hbits]
  rw [Nat.shiftRight_eq_div_pow, Curve.topWord, Nat.div_div_eq_div_mul, hpow]

lemma topWord_bit : c.topWord k >>> 31 = k / 2 ^ (c.nBitlen - 1) := by
  have hpow : (2 ^ 32) ^ (c.wordlen - 1) * 2 ^ 31 = 2 ^ (c.nBitlen - 1) := by
    have hbits : 32 * (c.wordlen - 1) + 31 = c.nBitlen - 1 := by cases c <;> rfl
    rw [← pow_mul, ← pow_add, hbits]
  rw [Nat.shiftRight_eq_div_pow, Curve.topWord, Nat.div_div_eq_div_mul, hpow]

end Bits

section Scan

variable {c : Curve} {k1 k2 n : Nat} {d : DoubleScalar} {f : Jac → Jac} {I : Nat → Jac → Prop}

/-- The first `d.c` bits of both scalars are consumed, each once, and the others are in `p1` and `p2`. -/
structure Scanned (c : Curve) (k1 k2 : Nat) (d : DoubleScalar) : Prop where
  le : d.c ≤ c.nBitlen
  p1 : d.p1 = k1 * 2 ^ d.c % 2 ^ c.nBitlen
  p2 : d.p2 = k2 * 2 ^ d.c % 2 ^ c.nBitlen
  used : ∀ i ∈ d.used, i < c.lutSize
  consumed : d.consumed = List.range d.c

/-- The bit of a scalar behind the first `m`. -/
def nextBit (c : Curve) (k m : Nat) : Nat :=
  k / 2 ^ (c.nBitlen - m - 1) % 2

lemma Scanned.topWord_p1 (h : Scanned c k1 k2 d) (hlt : d.c < c.nBitlen) :
    c.topWord d.p1 >>> 31 = nextBit c k1 d.c := by
  rw [topWord_bit, h.p1, shifted_div hlt, pow_one, nextBit]

lemma Scanned.topWord_p2 (h : Scanned c k1 k2 d) (hlt : d.c < c.nBitlen) :
    c.topWord d.p2 >>> 31 = nextBit c k2 d.c := by
  rw [topWord_bit, h.p2, shifted_div hlt, pow_one, nextBit]

lemma Scanned.shift_one (h : Scanned c k1 k2 d) (hlt : d.c < c.nBitlen) (s : Jac) :
    Scanned c k1 k2 { d with
      p1 := c.shiftleft d.p1 1
      p2 := c.shiftleft d.p2 1
      c := d.c + 1
      s := s
      consumed := d.consumed ++ [d.c] } where
  le := hlt
  p1 := by rw [h.p1, shiftleft_eq]
  p2 := by rw [h.p2, shiftleft_eq]
  used := h.used
  consumed := by rw [h.consumed, List.range_succ]

/-- A loop that slides stops at a bit that is set or behind the last bit. -/
lemma slide_spec (hstep : ∀ m s, m < c.nBitlen → nextBit c k1 m = 0 → nextBit c k2 m = 0 → I m s → I (m + 1) (f s))
    (h : Scanned c k1 k2 d) (hI : I d.c d.s) (hn : c.nBitlen ≤ d.c + n) :
    Scanned c k1 k2 (slide c f n d) ∧ I (slide c f n d).c (slide c f n d).s ∧
      ((slide c f n d).c < c.nBitlen → nextBit c k1 (slide c f n d).c ≠ 0 ∨ nextBit c k2 (slide c f n d).c ≠ 0) ∧
      d.c ≤ (slide c f n d).c := by
  induction n generalizing d with
  | zero => exact ⟨h, hI, fun hlt => absurd hlt (not_lt.mpr hn), le_refl _⟩
  | succ n ih =>
    rw [slide]
    by_cases hlt : d.c < c.nBitlen
    · have hcond : ((c.topWord d.p1 ||| c.topWord d.p2) >>> 31 = 0 ∧ d.c < c.nBitlen) ↔
          nextBit c k1 d.c = 0 ∧ nextBit c k2 d.c = 0 := by
        rw [Nat.shiftRight_or_distrib, h.topWord_p1 hlt, h.topWord_p2 hlt, Nat.or_eq_zero_iff]
        exact and_iff_left hlt
      by_cases hzero : nextBit c k1 d.c = 0 ∧ nextBit c k2 d.c = 0
      · rw [if_pos (hcond.mpr hzero)]
        have hnext := ih (h.shift_one hlt (f d.s)) (hstep _ _ hlt hzero.1 hzero.2 hI)
          (le_of_le_of_eq hn (Nat.succ_add_eq_add_succ d.c n).symm)
        exact ⟨hnext.1, hnext.2.1, hnext.2.2.1, (Nat.le_succ _).trans hnext.2.2.2⟩
      · rw [if_neg (hcond.not.mpr hzero)]
        exact ⟨h, hI, fun _ => not_and_or.mp hzero, le_refl _⟩
    · rw [if_neg (fun hand => hlt hand.2)]
      exact ⟨h, hI, fun hlt' => absurd hlt' hlt, le_refl _⟩

end Scan

section Window

variable {c : Curve} {k1 k2 x1 x2 m : Nat} {d : DoubleScalar} {lut : List Jac} {g : Jac → Jac → Jac}

/-- The bits of a scalar in the window behind the first `m`. -/
def windowBits (c : Curve) (k m : Nat) : Nat :=
  k / 2 ^ (c.nBitlen - m - c.shiftl) % 2 ^ c.shiftl

lemma windowBits_lt {k : Nat} : windowBits c k m < 2 ^ c.shiftl :=
  Nat.mod_lt _ (by positivity)

lemma windowBits_ge {k : Nat} (hle : m + c.shiftl ≤ c.nBitlen) (hbit : nextBit c k m ≠ 0) :
    2 ^ (c.shiftl - 1) ≤ windowBits c k m := by
  have hsplit : 2 ^ c.shiftl = 2 ^ (c.shiftl - 1) * 2 := by cases c <;> rfl
  have hpos : 0 < c.shiftl := by cases c <;> decide
  have hpow : 2 ^ (c.nBitlen - m - 1) = 2 ^ (c.nBitlen - m - c.shiftl) * 2 ^ (c.shiftl - 1) := by
    rw [← pow_add]
    congr 1
    omega
  have htop : windowBits c k m / 2 ^ (c.shiftl - 1) = nextBit c k m := by
    rw [windowBits, nextBit, hpow, hsplit, Nat.mod_mul_right_div_self, Nat.div_div_eq_div_mul]
  by_contra hlt
  rw [Nat.div_eq_of_lt (not_le.mp hlt)] at htop
  exact hbit htop.symm

/-- The index is inside the table for every window that starts with a set bit. -/
lemma lutIndex_lt (h1 : x1 < 2 ^ c.shiftl) (h2 : x2 < 2 ^ c.shiftl)
    (htop : 2 ^ (c.shiftl - 1) ≤ x1 ∨ 2 ^ (c.shiftl - 1) ≤ x2) : c.lutIndex x1 x2 < c.lutSize := by
  have hall : ∀ x1 < 2 ^ c.shiftl, ∀ x2 < 2 ^ c.shiftl, 2 ^ (c.shiftl - 1) ≤ x1 ∨ 2 ^ (c.shiftl - 1) ≤ x2 →
      c.lutIndex x1 x2 < c.lutSize := by
    cases c <;> decide
  exact hall x1 h1 x2 h2 htop

/-- The point in the table for the bits of a window. -/
def lutPoint (c : Curve) (lut : List Jac) (x1 x2 : Nat) : Jac :=
  lut.getD (c.lutIndex x1 x2) { x := 0, y := 0, z := 0 }

lemma takeWindow_s (h : Scanned c k1 k2 d) (hle : d.c + c.shiftl ≤ c.nBitlen) :
    (takeWindow c lut g d).s = g d.s (lutPoint c lut (windowBits c k1 d.c) (windowBits c k2 d.c)) := by
  simp only [takeWindow, lutPoint, windowBits]
  rw [topWord_shiftr, topWord_shiftr, h.p1, h.p2, shifted_div hle, shifted_div hle]

lemma Scanned.takeWindow (h : Scanned c k1 k2 d) (hle : d.c + c.shiftl ≤ c.nBitlen)
    (hbit : nextBit c k1 d.c ≠ 0 ∨ nextBit c k2 d.c ≠ 0) : Scanned c k1 k2 (takeWindow c lut g d) where
  le := hle
  p1 := by
    simp only [Casper.takeWindow]
    rw [h.p1, shiftleft_eq]
  p2 := by
    simp only [Casper.takeWindow]
    rw [h.p2, shiftleft_eq]
  used := by
    intro i hi
    simp only [Casper.takeWindow, List.mem_append, List.mem_singleton] at hi
    rcases hi with hi | rfl
    · exact h.used i hi
    · rw [topWord_shiftr, topWord_shiftr, h.p1, h.p2, shifted_div hle, shifted_div hle]
      exact lutIndex_lt windowBits_lt windowBits_lt (hbit.imp (windowBits_ge hle) (windowBits_ge hle))
  consumed := by
    simp only [Casper.takeWindow]
    rw [h.consumed, range_extend]

end Window

section Tables

variable {c : Curve} {b : ZMod c.p} {s t : Jac} {P Q R : (shortCurve b).Point} {px py qx qy x1 x2 : Nat}

/-- A triple of reduced coordinates for a point. -/
def Jac.Stands (c : Curve) {b : ZMod c.p} (s : Jac) (P : (shortCurve b).Point) : Prop :=
  Jac.Represents c s P ∧ Jac.Reduced c s

lemma Jac.Stands.congr (h : Jac.Stands c s P) (ht : t = s) (hQ : Q = P) : Jac.Stands c t Q := by
  rw [ht, hQ]
  exact h

/-- The coordinates of an affine point. -/
structure Affine (c : Curve) {b : ZMod c.p} (x y : Nat) (P : (shortCurve b).Point) : Prop where
  x_lt : x < c.p
  y_lt : y < c.p
  isJacobian : IsJacobian (c.val x) (c.val y) 1 P

lemma Affine.stands (h : Affine c px py P) : Jac.Stands c { x := px, y := py, z := c.one } P :=
  ⟨represents_affine h.isJacobian, h.x_lt, h.y_lt, c.one_lt_p⟩

lemma Jac.Stands.double (h : Jac.Stands c s P) : Jac.Stands c (jacDouble c s) (P + P) :=
  ⟨jacDouble_represents h.1, jacDouble_reduced⟩

lemma Jac.Stands.addition (hs : Jac.Stands c s P) (ht : Jac.Stands c t Q) :
    Jac.Stands c (jacAddition c s t) (P + Q) :=
  ⟨jacAddition_represents hs.1 ht.1, jacAddition_reduced hs.2 ht.2⟩

lemma Jac.Stands.addAffine (hs : Jac.Stands c s R) (h : Affine c px py P) :
    Jac.Stands c (jacAddAffine c s px py) (R + P) :=
  ⟨jacAddAffine_represents hs.1 hs.2.1 hs.2.2.1 h.isJacobian, jacAddAffine_reduced h.x_lt h.y_lt⟩

lemma lut16_stands (hc : c ≠ .p521) (hP : Affine c px py P) (hQ : Affine c qx qy Q)
    (h1 : x1 < 2 ^ c.shiftl) (h2 : x2 < 2 ^ c.shiftl) (htop : 2 ^ (c.shiftl - 1) ≤ x1 ∨ 2 ^ (c.shiftl - 1) ≤ x2) :
    Jac.Stands c (lutPoint c (doubleScalarLut c px py qx qy) x1 x2) (x1 • P + x2 • Q) := by
  have hlut : doubleScalarLut c px py qx qy = precomputeDoubleScalarLut16 c px py qx qy := by
    cases c with
    | p521 => exact absurd rfl hc
    | p256 => rfl
    | p384 => rfl
  have hindex : c.lutIndex x1 x2 = wsub32 (wsub32 (x2 ||| x1 <<< 2) 2) ((if x1 ≠ 0 then 1 else 0) * 2) := by
    cases c with
    | p521 => exact absurd rfl hc
    | p256 => rfl
    | p384 => rfl
  have hshift : c.shiftl = 2 := by
    cases c with
    | p521 => exact absurd rfl hc
    | p256 => rfl
    | p384 => rfl
  have q2 := hQ.stands.double
  have p2 := hP.stands.double
  have q3 := q2.addAffine hQ
  have p1q2 := q2.addAffine hP
  have p1q3 := p1q2.addAffine hQ
  have p2q1 := p2.addAffine hQ
  have p2q2 := p2q1.addAffine hQ
  have p2q3 := p2q2.addAffine hQ
  have p3 := p2.addAffine hP
  have p3q1 := p3.addAffine hQ
  have p3q2 := p3q1.addAffine hQ
  have p3q3 := p3q2.addAffine hQ
  rw [lutPoint, hlut, hindex]
  rw [hshift] at h1 h2 htop
  interval_cases x1 <;> interval_cases x2 <;> first | (exfalso; omega) | skip
  · exact q2.congr rfl (by abel)
  · exact q3.congr rfl (by abel)
  · exact p1q2.congr rfl (by abel)
  · exact p1q3.congr rfl (by abel)
  · exact p2.congr rfl (by abel)
  · exact p2q1.congr rfl (by abel)
  · exact p2q2.congr rfl (by abel)
  · exact p2q3.congr rfl (by abel)
  · exact p3.congr rfl (by abel)
  · exact p3q1.congr rfl (by abel)
  · exact p3q2.congr rfl (by abel)
  · exact p3q3.congr rfl (by abel)

/-- The sum in the table for windows of one bit, for different points. -/
lemma lut4Sum_stands (hP : Affine c px py P) (hQ : Affine c qx qy Q) (hne : P ≠ Q) :
    Jac.Stands c (lut4Sum c px py qx qy) (P + Q) := by
  unfold lut4Sum
  dsimp only
  rw [if_neg]
  · exact hP.stands.addAffine hQ
  · rintro ⟨hx, hy⟩
    have hxval : c.val qx = c.val px := by
      rw [← hx]
      simp
    have hyval : c.val qy = c.val py := by
      rw [← hy]
      simp
    have hQ' := hQ.isJacobian
    rw [hxval, hyval] at hQ'
    exact hne (hP.isJacobian.unique hQ')

lemma lut4_stands (hc : c = .p521) (hP : Affine c px py P) (hQ : Affine c qx qy Q)
    (h1 : x1 < 2 ^ c.shiftl) (h2 : x2 < 2 ^ c.shiftl) (htop : 2 ^ (c.shiftl - 1) ≤ x1 ∨ 2 ^ (c.shiftl - 1) ≤ x2)
    (hgood : P ≠ Q ∨ ¬ (x1 = 1 ∧ x2 = 1)) :
    Jac.Stands c (lutPoint c (doubleScalarLut c px py qx qy) x1 x2) (x1 • P + x2 • Q) := by
  subst hc
  have h1 : x1 < 2 := h1
  have h2 : x2 < 2 := h2
  have htop : 1 ≤ x1 ∨ 1 ≤ x2 := htop
  interval_cases x1 <;> interval_cases x2
  · omega
  · exact hQ.stands.congr rfl (by abel)
  · exact hP.stands.congr rfl (by abel)
  · have hne : P ≠ Q := hgood.resolve_right (fun h => h ⟨rfl, rfl⟩)
    have hindex : Curve.p521.lutIndex 1 1 = 2 := by decide
    have hentry : lutPoint .p521 (doubleScalarLut .p521 px py qx qy) 1 1 = lut4Sum .p521 px py qx qy := by
      rw [lutPoint, hindex, doubleScalarLut, precomputeDoubleScalarLut4, List.getD_cons_succ, List.getD_cons_succ,
        List.getD_cons_zero]
    exact (lut4Sum_stands hP hQ hne).congr hentry (by abel)

end Tables

section Loop

variable {c : Curve} {b : ZMod c.p} {P Q : (shortCurve b).Point} {s : Jac} {k1 k2 m n : Nat} {d : DoubleScalar}
  {lut : List Jac}

/-- The combination for the first `m` bits. -/
def prefixPoint (c : Curve) {b : ZMod c.p} (P Q : (shortCurve b).Point) (k1 k2 m : Nat) : (shortCurve b).Point :=
  (k1 / 2 ^ (c.nBitlen - m)) • P + (k2 / 2 ^ (c.nBitlen - m)) • Q

lemma prefixPoint_succ (hlt : m < c.nBitlen) :
    prefixPoint c P Q k1 k2 (m + 1) = prefixPoint c P Q k1 k2 m + prefixPoint c P Q k1 k2 m +
      nextBit c k1 m • P + nextBit c k2 m • Q := by
  unfold prefixPoint nextBit
  rw [div_extend hlt, div_extend hlt, pow_one, add_nsmul, add_nsmul, mul_nsmul', mul_nsmul', two_nsmul, two_nsmul]
  abel

lemma prefixPoint_zeros (hlt : m < c.nBitlen) (h1 : nextBit c k1 m = 0) (h2 : nextBit c k2 m = 0) :
    prefixPoint c P Q k1 k2 (m + 1) = prefixPoint c P Q k1 k2 m + prefixPoint c P Q k1 k2 m := by
  rw [prefixPoint_succ hlt, h1, h2, zero_nsmul, zero_nsmul, add_zero, add_zero]

lemma prefixPoint_window (hle : m + c.shiftl ≤ c.nBitlen) :
    prefixPoint c P Q k1 k2 (m + c.shiftl) =
      2 ^ c.shiftl • prefixPoint c P Q k1 k2 m + (windowBits c k1 m • P + windowBits c k2 m • Q) := by
  unfold prefixPoint windowBits
  rw [div_extend hle, div_extend hle, add_nsmul, add_nsmul, mul_nsmul', mul_nsmul', nsmul_add]
  abel

lemma prefixPoint_nBitlen : prefixPoint c P Q k1 k2 c.nBitlen = k1 • P + k2 • Q := by
  rw [prefixPoint, Nat.sub_self, pow_zero, Nat.div_one, Nat.div_one]

lemma Jac.Stands.doublings (h : Jac.Stands c s P) : Jac.Stands c ((jacDouble c)^[n] s) (2 ^ n • P) := by
  induction n with
  | zero =>
    rw [pow_zero, one_nsmul]
    exact h
  | succ n ih =>
    rw [Function.iterate_succ_apply', pow_succ, mul_nsmul, two_nsmul]
    exact ih.double

/-- What holds whenever the main loop tests its condition. -/
def Advanced (c : Curve) {b : ZMod c.p} (P Q : (shortCurve b).Point) (k1 k2 : Nat) (d : DoubleScalar) : Prop :=
  Scanned c k1 k2 d ∧ Jac.Stands c d.s (prefixPoint c P Q k1 k2 d.c)

/-- The loop consumes bits until the last one, or leaves only zeros. -/
lemma windowLoop_spec (beyond : Nat → Bool)
    (hlut : ∀ m, m + 1 < c.nBitlen → nextBit c k1 m ≠ 0 ∨ nextBit c k2 m ≠ 0 →
      Jac.Stands c (lutPoint c lut (windowBits c k1 m) (windowBits c k2 m))
        (windowBits c k1 m • P + windowBits c k2 m • Q))
    (h : Advanced c P Q k1 k2 d) (hn : c.nBitlen < d.c + n) :
    Advanced c P Q k1 k2 (windowLoop c lut beyond n d) ∧
      (c.nBitlen - 1 ≤ (windowLoop c lut beyond n d).c ∨
        (windowLoop c lut beyond n d).p1 = 0 ∧ (windowLoop c lut beyond n d).p2 = 0) := by
  induction n generalizing d with
  | zero => exact absurd h.1.le (not_le.mpr hn)
  | succ n ih =>
    rw [windowLoop]
    by_cases hcond : d.p1 ≠ 0 ∨ d.p2 ≠ 0 ∨ beyond d.c = true
    · rw [if_pos hcond]
      have hslide := slide_spec (f := jacDouble c) (n := c.nBitlen)
        (I := fun m s => Jac.Stands c s (prefixPoint c P Q k1 k2 m))
        (fun m s hlt h1 h2 hs => hs.double.congr rfl (prefixPoint_zeros hlt h1 h2)) h.1 h.2 (by omega)
      obtain ⟨hscan, hstands, hbit, hmono⟩ := hslide
      dsimp only
      by_cases hend : (slide c (jacDouble c) c.nBitlen d).c ≥ c.nBitlen - 1
      · rw [if_pos hend]
        exact ⟨⟨hscan, hstands⟩, Or.inl hend⟩
      · rw [if_neg hend]
        have hshift : 0 < c.shiftl ∧ c.shiftl ≤ 2 := by cases c <;> decide
        have hle : (slide c (jacDouble c) c.nBitlen d).c + c.shiftl ≤ c.nBitlen := by omega
        have hset := hbit (by omega)
        refine ih ⟨hscan.takeWindow hle hset, ?_⟩ ?_
        · rw [takeWindow_s hscan hle]
          exact (hstands.doublings.addition (hlut _ (by omega) hset)).congr rfl (prefixPoint_window hle)
        · change c.nBitlen < (slide c (jacDouble c) c.nBitlen d).c + c.shiftl + n
          omega
    · rw [if_neg hcond]
      push Not at hcond
      exact ⟨h, Or.inr ⟨hcond.1, hcond.2.1⟩⟩

lemma nextBit_cases {k : Nat} : nextBit c k m = 0 ∨ nextBit c k m = 1 :=
  Nat.mod_two_eq_zero_or_one _

/-- The addition of an affine point for a set bit. -/
lemma Jac.Stands.addBit {px py k : Nat} (hs : Jac.Stands c s Q) (hP : Affine c px py P) :
    Jac.Stands c (if nextBit c k m ≠ 0 then jacAddAffine c s px py else s) (Q + nextBit c k m • P) := by
  rcases nextBit_cases (c := c) (k := k) (m := m) with h | h
  · rw [h, if_neg (not_not.mpr rfl), zero_nsmul, add_zero]
    exact hs
  · rw [h, if_pos one_ne_zero, one_nsmul]
    exact hs.addAffine hP

lemma lastBit_spec {px py qx qy : Nat} (hP : Affine c px py P) (hQ : Affine c qx qy Q)
    (h : Advanced c P Q k1 k2 d) (hend : c.nBitlen - 1 ≤ d.c ∨ d.p1 = 0 ∧ d.p2 = 0) :
    Jac.Stands c (lastBit c px py qx qy d).s (prefixPoint c P Q k1 k2 (lastBit c px py qx qy d).c) ∧
      (lastBit c px py qx qy d).c ≤ c.nBitlen ∧
      (lastBit c px py qx qy d).used = d.used ∧
      (lastBit c px py qx qy d).consumed = List.range (lastBit c px py qx qy d).c ∧
      ((lastBit c px py qx qy d).c = c.nBitlen ∨ (lastBit c px py qx qy d).c = d.c ∧ d.p1 = 0 ∧ d.p2 = 0) := by
  obtain ⟨hscan, hstands⟩ := h
  have hpos : 0 < c.nBitlen := by cases c <;> decide
  unfold lastBit
  by_cases hlast : d.c = c.nBitlen - 1
  · have hlt : d.c < c.nBitlen := by omega
    rw [if_pos hlast]
    dsimp only
    rw [hscan.topWord_p1 hlt, hscan.topWord_p2 hlt, hscan.consumed, ← List.range_succ]
    refine ⟨?_, hlt, rfl, rfl, Or.inl (by omega)⟩
    exact ((hstands.double.addBit hP).addBit hQ).congr rfl (prefixPoint_succ hlt)
  · rw [if_neg hlast]
    have hle := hscan.le
    refine ⟨hstands, hle, rfl, hscan.consumed, ?_⟩
    rcases hend with hend | hzero
    · exact Or.inl (by omega)
    · exact Or.inr ⟨rfl, hzero⟩

/-- Doublings consume bits that are zero. -/
lemma prefixPoint_doublings (hm : m ≤ c.nBitlen) (h1 : k1 * 2 ^ m % 2 ^ c.nBitlen = 0)
    (h2 : k2 * 2 ^ m % 2 ^ c.nBitlen = 0) :
    2 ^ (c.nBitlen - m) • prefixPoint c P Q k1 k2 m = k1 • P + k2 • Q := by
  have hexact : ∀ {k : Nat}, k * 2 ^ m % 2 ^ c.nBitlen = 0 → k / 2 ^ (c.nBitlen - m) * 2 ^ (c.nBitlen - m) = k := by
    intro k hk
    have hdvd := Nat.dvd_of_mod_eq_zero hk
    rw [← Nat.sub_add_cancel hm, pow_add] at hdvd
    exact Nat.div_mul_cancel (Nat.dvd_of_mul_dvd_mul_right (by positivity) hdvd)
  rw [prefixPoint, nsmul_add, ← mul_nsmul, ← mul_nsmul, hexact h1, hexact h2]

/-- From the main loop to the result. -/
lemma finish_spec {px py qx qy : Nat} (hP : Affine c px py P) (hQ : Affine c qx qy Q)
    (h : Advanced c P Q k1 k2 d) (hend : c.nBitlen - 1 ≤ d.c ∨ d.p1 = 0 ∧ d.p2 = 0) :
    Jac.Stands c (lastDoublings c (lastBit c px py qx qy d)).s (k1 • P + k2 • Q) ∧
      (lastDoublings c (lastBit c px py qx qy d)).used = d.used ∧
      (lastDoublings c (lastBit c px py qx qy d)).consumed = List.range c.nBitlen := by
  obtain ⟨hstands, hle, hused, hconsumed, hrest⟩ := lastBit_spec hP hQ h hend
  have hmul : 2 ^ (c.nBitlen - (lastBit c px py qx qy d).c) • prefixPoint c P Q k1 k2 (lastBit c px py qx qy d).c =
      k1 • P + k2 • Q := by
    rcases hrest with hfull | ⟨hsame, h1, h2⟩
    · rw [hfull, Nat.sub_self, pow_zero, one_nsmul, prefixPoint_nBitlen]
    · refine prefixPoint_doublings hle ?_ ?_
      · rw [hsame, ← h.1.p1, h1]
      · rw [hsame, ← h.1.p2, h2]
  refine ⟨hstands.doublings.congr rfl hmul.symm, hused, ?_⟩
  simp only [lastDoublings]
  rw [hconsumed, range_extend, Nat.add_sub_cancel' hle]

end Loop

section Result

variable {c : Curve} {b : ZMod c.p} {P Q : (shortCurve b).Point} {px py k1 qx qy k2 : Nat} {beyond : Nat → Bool}

/-- The result represents the combination, every index is inside the table and every bit is consumed once. -/
def DoubleScalarExact (c : Curve) {b : ZMod c.p} (P Q : (shortCurve b).Point) (k1 k2 : Nat) (d : DoubleScalar) :
    Prop :=
  Jac.Represents c d.s (k1 • P + k2 • Q) ∧ (∀ i ∈ d.used, i < c.lutSize) ∧ d.consumed = List.range c.nBitlen

lemma slide_first (h1 : k1 < 2 ^ c.nBitlen) (h2 : k2 < 2 ^ c.nBitlen) (hne : ¬ (k1 = 0 ∧ k2 = 0)) :
    let d := slide c id c.nBitlen
      { p1 := k1, p2 := k2, c := 0, s := { x := 0, y := 0, z := 0 }, used := [], consumed := [] }
    Scanned c k1 k2 d ∧ (k1 / 2 ^ (c.nBitlen - d.c) = 0 ∧ k2 / 2 ^ (c.nBitlen - d.c) = 0) ∧ d.c < c.nBitlen ∧
      (nextBit c k1 d.c ≠ 0 ∨ nextBit c k2 d.c ≠ 0) := by
  intro d
  have hstart : Scanned c k1 k2
      { p1 := k1, p2 := k2, c := 0, s := { x := 0, y := 0, z := 0 }, used := [], consumed := [] } :=
    { le := Nat.zero_le _
      p1 := by rw [pow_zero, mul_one, Nat.mod_eq_of_lt h1]
      p2 := by rw [pow_zero, mul_one, Nat.mod_eq_of_lt h2]
      used := by simp
      consumed := rfl }
  have hslide := slide_spec (f := id) (n := c.nBitlen)
    (I := fun m _ => k1 / 2 ^ (c.nBitlen - m) = 0 ∧ k2 / 2 ^ (c.nBitlen - m) = 0)
    (fun m _ hlt hb1 hb2 hI => by
      unfold nextBit at hb1 hb2
      rw [div_extend hlt, div_extend hlt, pow_one, hb1, hb2, hI.1, hI.2]
      exact ⟨rfl, rfl⟩)
    hstart ⟨Nat.div_eq_of_lt h1, Nat.div_eq_of_lt h2⟩ (Nat.le_add_left _ _)
  obtain ⟨hscan, hzero, hbit, -⟩ := hslide
  have hlt : d.c < c.nBitlen := by
    refine lt_of_le_of_ne hscan.le ?_
    intro hfull
    have hzero' : k1 / 2 ^ (c.nBitlen - d.c) = 0 ∧ k2 / 2 ^ (c.nBitlen - d.c) = 0 := hzero
    rw [hfull, Nat.sub_self, pow_zero, Nat.div_one, Nat.div_one] at hzero'
    exact hne hzero'
  exact ⟨hscan, hzero, hlt, hbit hlt⟩

/-- The multiplication when the first window lies inside the scalars. -/
lemma doubleScalar_spec (hP : Affine c px py P) (hQ : Affine c qx qy Q) (h1 : k1 < 2 ^ c.nBitlen)
    (h2 : k2 < 2 ^ c.nBitlen) (hne : ¬ (k1 = 0 ∧ k2 = 0)) (hlong : c = .p521 ∨ 2 ≤ k1 ∨ 2 ≤ k2)
    (hlut : ∀ m, m + c.shiftl ≤ c.nBitlen → nextBit c k1 m ≠ 0 ∨ nextBit c k2 m ≠ 0 →
      m + 1 < c.nBitlen ∨ k1 < 2 ∧ k2 < 2 →
      Jac.Stands c (lutPoint c (doubleScalarLut c px py qx qy) (windowBits c k1 m) (windowBits c k2 m))
        (windowBits c k1 m • P + windowBits c k2 m • Q)) :
    DoubleScalarExact c P Q k1 k2 (doubleScalarMultiplication c beyond px py k1 qx qy k2) := by
  obtain ⟨hscan, hzero, hlt, hbit⟩ := slide_first h1 h2 hne
  have hshift : 0 < c.shiftl ∧ c.shiftl ≤ 2 ∧ (c = .p521 → c.shiftl = 1) := by cases c <;> decide
  have hpos : 1 < c.nBitlen := by cases c <;> decide
  unfold doubleScalarMultiplication
  dsimp only
  generalize slide c id c.nBitlen
    { p1 := k1, p2 := k2, c := 0, s := { x := 0, y := 0, z := 0 }, used := [], consumed := [] } = d at *
  -- a first window on the last bit leaves scalars of one bit
  have hsmall : ¬ d.c + 1 < c.nBitlen → k1 < 2 ∧ k2 < 2 := by
    intro hlast
    have hone : c.nBitlen - d.c = 1 := by omega
    rw [hone, pow_one] at hzero
    omega
  have hle : d.c + c.shiftl ≤ c.nBitlen := by
    by_cases hlast : d.c + 1 < c.nBitlen
    · omega
    · have hone := hsmall hlast
      have hc : c = .p521 := hlong.resolve_right (by omega)
      have hwidth := hshift.2.2 hc
      omega
  have hentry := hlut d.c hle hbit (by tauto)
  have hadvanced : Advanced c P Q k1 k2
      (takeWindow c (doubleScalarLut c px py qx qy) (fun _ t => t) d) := by
    refine ⟨hscan.takeWindow hle hbit, ?_⟩
    rw [takeWindow_s hscan hle]
    refine hentry.congr rfl ?_
    change prefixPoint c P Q k1 k2 (d.c + c.shiftl) = _
    rw [prefixPoint_window hle, prefixPoint, hzero.1, hzero.2, zero_nsmul, zero_nsmul, add_zero, nsmul_zero, zero_add]
  have hloop := windowLoop_spec beyond (n := c.nBitlen)
    (fun m hm hb => hlut m (by omega) hb (Or.inl hm)) hadvanced (by
      change c.nBitlen < d.c + c.shiftl + c.nBitlen
      omega)
  obtain ⟨hstands, hused, hconsumed⟩ := finish_spec hP hQ hloop.1 hloop.2
  refine ⟨hstands.1, ?_, hconsumed⟩
  rw [hused]
  exact hloop.1.1.used

/-- Scalars of one bit with windows of two bits: the window reaches behind the last bit. -/
lemma doubleScalar_short (beyond : Nat → Bool) (hc : c ≠ .p521) (hP : Affine c px py P) (hQ : Affine c qx qy Q) (h1 : k1 < 2) (h2 : k2 < 2)
    (hne : ¬ (k1 = 0 ∧ k2 = 0)) :
    Jac.Stands c (doubleScalarMultiplication c beyond px py k1 qx qy k2).s ((2 * k1) • P + (2 * k2) • Q) ∧
      (doubleScalarMultiplication c beyond px py k1 qx qy k2).consumed = List.range (c.nBitlen + 1) := by
  have hpos : 2 < c.nBitlen ∧ 2 ≤ 2 ^ c.nBitlen := by cases c <;> decide +kernel
  have hwidth : c.shiftl = 2 := by
    cases c with
    | p521 => exact absurd rfl hc
    | p256 => rfl
    | p384 => rfl
  obtain ⟨hscan, -, hlt, hbit⟩ := slide_first (c := c) (by omega) (by omega) hne
  unfold doubleScalarMultiplication
  dsimp only
  generalize slide c id c.nBitlen
    { p1 := k1, p2 := k2, c := 0, s := { x := 0, y := 0, z := 0 }, used := [], consumed := [] } = d at *
  have hlast : d.c = c.nBitlen - 1 := by
    by_contra hother
    have hpow : 2 ≤ 2 ^ (c.nBitlen - d.c - 1) := by
      calc 2 = 2 ^ 1 := rfl
        _ ≤ 2 ^ (c.nBitlen - d.c - 1) := Nat.pow_le_pow_right (by decide) (by omega)
    unfold nextBit at hbit
    rw [Nat.div_eq_of_lt (h1.trans_le hpow), Nat.div_eq_of_lt (h2.trans_le hpow)] at hbit
    omega
  -- the window sees the last bit and a zero
  have hbits : ∀ {k : Nat}, k < 2 → k * 2 ^ d.c % 2 ^ c.nBitlen / 2 ^ (c.nBitlen - 2) = 2 * k := by
    intro k hk
    have hsplit : 2 ^ c.nBitlen = 2 * 2 * 2 ^ (c.nBitlen - 2) := by
      rw [← pow_two, ← pow_add]
      congr 1
      omega
    have hpow : 2 ^ d.c = 2 * 2 ^ (c.nBitlen - 2) := by
      rw [hlast, ← pow_succ']
      congr 1
      omega
    have hmod : k * 2 ^ d.c < 2 ^ c.nBitlen := by
      rw [hpow, hsplit, ← mul_assoc]
      exact Nat.mul_lt_mul_of_pos_right (by omega) (by positivity)
    rw [Nat.mod_eq_of_lt hmod, hpow, ← mul_assoc, Nat.mul_div_cancel _ (by positivity), mul_comm]
  generalize hd' : takeWindow c (doubleScalarLut c px py qx qy) (fun _ t => t) d = d'
  have hcounter : d'.c = c.nBitlen + 1 := by
    rw [← hd']
    change d.c + c.shiftl = _
    omega
  have hs : d'.s = lutPoint c (doubleScalarLut c px py qx qy) (2 * k1) (2 * k2) := by
    rw [← hd']
    simp only [takeWindow, lutPoint]
    rw [topWord_shiftr, topWord_shiftr, hscan.p1, hscan.p2, hwidth, hbits h1, hbits h2]
  have hconsumed : d'.consumed = List.range (c.nBitlen + 1) := by
    rw [← hcounter, ← hd']
    simp only [takeWindow]
    rw [hscan.consumed, range_extend]
  have hslide : slide c (jacDouble c) c.nBitlen d' = d' := by
    obtain ⟨n, hn⟩ : ∃ n, c.nBitlen = n + 1 := ⟨c.nBitlen - 1, by omega⟩
    rw [hn, slide, if_neg]
    intro hand
    omega
  have hloop : windowLoop c (doubleScalarLut c px py qx qy) beyond c.nBitlen d' = d' := by
    obtain ⟨n, hn⟩ : ∃ n, c.nBitlen = n + 1 := ⟨c.nBitlen - 1, by omega⟩
    rw [hn, windowLoop]
    by_cases hcond : d'.p1 ≠ 0 ∨ d'.p2 ≠ 0 ∨ beyond d'.c = true
    · rw [if_pos hcond]
      dsimp only
      rw [hslide, if_pos (by omega)]
    · rw [if_neg hcond]
  have hbitlast : lastBit c px py qx qy d' = d' := by
    rw [lastBit, if_neg (by omega)]
  have hnone : c.nBitlen - d'.c = 0 := by omega
  rw [hloop, hbitlast]
  simp only [lastDoublings]
  rw [hnone, Function.iterate_zero_apply, List.range'_zero, List.append_nil]
  refine ⟨?_, hconsumed⟩
  rw [hs]
  refine lut16_stands hc hP hQ ?_ ?_ ?_
  · rw [hwidth]
    omega
  · rw [hwidth]
    omega
  · rw [hwidth]
    omega

/-- When the multiplication is exact: for windows of two bits a scalar has to have two bits; for windows of one
bit the entry `P + Q` must not be used when the points are equal. -/
def DoubleScalarSafe (c : Curve) {b : ZMod c.p} (P Q : (shortCurve b).Point) (k1 k2 : Nat) : Prop :=
  (c ≠ .p521 → 2 ≤ k1 ∨ 2 ≤ k2) ∧
    (c = .p521 → P ≠ Q ∨ (∀ i, 0 < i → ¬ (k1.testBit i ∧ k2.testBit i)) ∧ ¬ (k1 = 1 ∧ k2 = 1))

theorem doubleScalarMultiplication_exact (hP : Affine c px py P) (hQ : Affine c qx qy Q) (h1 : k1 < c.q)
    (h2 : k2 < c.q) (hne : ¬ (k1 = 0 ∧ k2 = 0)) :
    (DoubleScalarSafe c P Q k1 k2 →
      DoubleScalarExact c P Q k1 k2 (doubleScalarMultiplication c beyond px py k1 qx qy k2)) ∧
      (c ≠ .p521 → DoubleScalarExact c P Q k1 k2 (doubleScalarMultiplication c beyond px py k1 qx qy k2) →
        DoubleScalarSafe c P Q k1 k2) := by
  have hq : c.q < 2 ^ c.nBitlen := by cases c <;> decide +kernel
  refine ⟨?_, ?_⟩
  · rintro ⟨htwo, hone⟩
    refine doubleScalar_spec hP hQ (h1.trans hq) (h2.trans hq) hne ((eq_or_ne c .p521).imp_right htwo) ?_
    intro m hle hbit hpos
    have htop := hbit.imp (windowBits_ge hle) (windowBits_ge hle)
    by_cases hc : c = .p521
    · refine lut4_stands hc hP hQ windowBits_lt windowBits_lt htop ?_
      refine (hone hc).imp_right ?_
      rintro ⟨hcommon, hboth⟩ ⟨hw1, hw2⟩
      have hwidth : c.shiftl = 1 := by
        rw [hc]
        rfl
      unfold windowBits at hw1 hw2
      rw [hwidth, pow_one] at hw1 hw2
      rcases hpos with hm | ⟨hk1, hk2⟩
      · refine hcommon (c.nBitlen - m - 1) (by omega) ⟨?_, ?_⟩
        · rw [Nat.testBit_eq_decide_div_mod_eq, decide_eq_true hw1]
        · rw [Nat.testBit_eq_decide_div_mod_eq, decide_eq_true hw2]
      · refine hboth ⟨?_, ?_⟩
        · have hpos1 : k1 ≠ 0 := by
            rintro rfl
            rw [Nat.zero_div] at hw1
            exact absurd hw1 (by decide)
          omega
        · have hpos2 : k2 ≠ 0 := by
            rintro rfl
            rw [Nat.zero_div] at hw2
            exact absurd hw2 (by decide)
          omega
    · exact lut16_stands hc hP hQ windowBits_lt windowBits_lt htop
  · intro hc hexact
    refine ⟨fun _ => ?_, fun hc' => absurd hc' hc⟩
    by_contra hshort
    have hrun := doubleScalar_short beyond hc hP hQ (by omega) (by omega) hne
    have hlength := congrArg List.length (hrun.2.symm.trans hexact.2.2)
    rw [List.length_range, List.length_range] at hlength
    omega

end Result

lemma p256Base_affine : Affine .p256 p256BaseX p256BaseY p256Base where
  x_lt := by decide
  y_lt := by decide
  isJacobian := p256Base_isJacobian

/-- The multiplication for the scalars 3 and 5. -/
theorem doubleScalarMultiplication_exact_base :
    DoubleScalarExact .p256 p256Base p256Base 3 5
      (doubleScalarMultiplication .p256 (fun _ => false) p256BaseX p256BaseY 3 p256BaseX p256BaseY 5) :=
  (doubleScalarMultiplication_exact p256Base_affine p256Base_affine (by decide +kernel) (by decide +kernel)
    (by decide)).1 ⟨fun _ => Or.inl (by decide), fun hc => absurd hc (by decide)⟩

/-- For the scalars 1 and 0 the result is twice the first point. -/
theorem doubleScalarMultiplication_not_exact :
    ¬ Jac.Represents .p256
      (doubleScalarMultiplication .p256 (fun _ => false) p256BaseX p256BaseY 1 p256BaseX p256BaseY 0).s
      (1 • p256Base + 0 • p256Base) := by
  intro hrep
  have hone : 1 < 2 := by decide
  have hzero : 0 < 2 := by decide
  have hrun := (doubleScalar_short (fun _ => false) (by decide) p256Base_affine p256Base_affine hone hzero
    (by decide)).1
  have heq := hrun.1.2.unique hrep.2
  have hbase : p256Base = 0 := by
    rw [mul_zero, mul_one, zero_nsmul, add_zero, add_zero, two_nsmul, one_nsmul] at heq
    exact add_eq_left.mp heq
  exact WeierstrassCurve.Affine.Point.some_ne_zero p256Base_nonsingular hbase

section EqualPoints

/-- The base point of P-521, in Montgomery form. -/
def p521BaseX : Nat := 0x74e6cf1f65b311cada214e32409c829fda90fc1457b035a69edd50a5af3bf7f3ac947f0ee093d17fd46f19a459e0c2b5214dfcbf3f18e172deb331a16381adc101

/-- Its second coordinate. -/
def p521BaseY : Nat := 0x1e0022e452fda163e8deccc7aa224abcda2340bd7de8b939f33164bf7394caf7a132062a85c809fd683b09a9e384351396120445f4a3b4fe8b328460e4a5a9e268e

/-- With equal points the entry for both bits is not twice the point, for the base point of P-521. -/
theorem doubleScalarMultiplication_equal_points {c : Curve} {b : ZMod c.p} {P : (shortCurve b).Point} (hc : c = .p521)
    (hP : Affine c p521BaseX p521BaseY P) :
    ¬ Jac.Represents c
      (doubleScalarMultiplication c (fun _ => false) p521BaseX p521BaseY 1 p521BaseX p521BaseY 1).s (P + P) := by
  intro hrep
  have hdouble := hP.stands.double
  have hz : (jacDouble c { x := p521BaseX, y := p521BaseY, z := c.one }).z ≠ 0 := by
    rw [hc]
    decide +kernel
  have hne : c.multiplyCasper (jacDouble c { x := p521BaseX, y := p521BaseY, z := c.one }).x
        (c.squareCasper (doubleScalarMultiplication c (fun _ => false) p521BaseX p521BaseY 1 p521BaseX p521BaseY 1).s.z) ≠
      c.multiplyCasper
        (doubleScalarMultiplication c (fun _ => false) p521BaseX p521BaseY 1 p521BaseX p521BaseY 1).s.x
        (c.squareCasper (jacDouble c { x := p521BaseX, y := p521BaseY, z := c.one }).z) := by
    rw [hc]
    decide +kernel
  refine hne ?_
  have hcross := hdouble.1.2.cross_eq hrep.2 ((Curve.val_eq_zero_iff hdouble.1.1).not.mpr hz)
  rw [← Curve.val_inj Curve.multiplyCasper_lt Curve.multiplyCasper_lt]
  simp only [Curve.val_multiplyCasper, Curve.val_squareCasper]
  linear_combination hcross

end EqualPoints

end McuxDrivers.Casper
