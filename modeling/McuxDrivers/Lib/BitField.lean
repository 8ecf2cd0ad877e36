import Mathlib.Data.BitVec
import Mathlib.Tactic.Positivity

/-!
# Fields of a register

A field is a range of bits of a 32-bit register. Fields that do not overlap can be written and read independently.
-/

namespace McuxDrivers.Lib

structure BitField where
  shift : Nat
  width : Nat
  fits : shift + width ≤ 32
deriving DecidableEq

namespace BitField

/-- The macro `.._MASK`. -/
def mask (f : BitField) : BitVec 32 :=
  (BitVec.allOnes f.width).setWidth 32 <<< f.shift

/-- The macro that puts a value into the field. -/
def put (f : BitField) (x : BitVec 32) : BitVec 32 :=
  (x <<< f.shift) &&& f.mask

/-- The value of the field in a register. -/
def get (f : BitField) (r : BitVec 32) : BitVec 32 :=
  (r &&& f.mask) >>> f.shift

def Disjoint (f g : BitField) : Prop :=
  f.shift + f.width ≤ g.shift ∨ g.shift + g.width ≤ f.shift

instance (f g : BitField) : Decidable (f.Disjoint g) :=
  inferInstanceAs (Decidable (_ ∨ _))

variable {f g : BitField} {x y r : BitVec 32}

lemma Disjoint.symm (h : f.Disjoint g) : g.Disjoint f :=
  Or.symm h

lemma getLsbD_mask (i : Nat) : f.mask.getLsbD i = decide (f.shift ≤ i ∧ i < f.shift + f.width) := by
  have hfits := f.fits
  unfold mask
  rw [BitVec.getLsbD_shiftLeft, BitVec.getLsbD_setWidth, BitVec.getLsbD_allOnes]
  by_cases hlow : f.shift ≤ i
  · by_cases hhigh : i < f.shift + f.width
    · simp [hlow, hhigh, show i < 32 by omega, show i - f.shift < 32 by omega, show i - f.shift < f.width by omega]
    · simp [hlow, hhigh, show ¬ i - f.shift < f.width by omega]
  · simp [hlow, show i < f.shift by omega]

lemma getLsbD_get (i : Nat) : (f.get r).getLsbD i = (decide (i < f.width) && r.getLsbD (f.shift + i)) := by
  unfold get
  rw [BitVec.getLsbD_ushiftRight, BitVec.getLsbD_and, getLsbD_mask, Bool.and_comm]
  congr 1
  simp

lemma getLsbD_put (i : Nat) :
    (f.put x).getLsbD i = (decide (f.shift ≤ i ∧ i < f.shift + f.width) && x.getLsbD (i - f.shift)) := by
  have hfits := f.fits
  unfold put
  rw [BitVec.getLsbD_and, BitVec.getLsbD_shiftLeft, getLsbD_mask]
  by_cases h : f.shift ≤ i ∧ i < f.shift + f.width
  · simp [h, show i < 32 by omega, show ¬ i < f.shift by omega]
  · simp [h]

@[simp]
lemma get_or : f.get (x ||| y) = f.get x ||| f.get y := by
  apply BitVec.eq_of_getLsbD_eq
  intro i _
  rw [BitVec.getLsbD_or, getLsbD_get, getLsbD_get, getLsbD_get, BitVec.getLsbD_or, Bool.and_or_distrib_left]

@[simp]
lemma put_zero : f.put 0#32 = 0#32 := by
  simp [put]

@[simp]
lemma get_zero : f.get 0#32 = 0#32 := by
  simp [get]

/-- A value that fits is read back. -/
lemma get_put_self (hx : x.toNat < 2 ^ f.width) : f.get (f.put x) = x := by
  apply BitVec.eq_of_getLsbD_eq
  intro i _
  rw [getLsbD_get, getLsbD_put]
  by_cases hi : i < f.width
  · simp [hi]
  · have hbit : x.getLsbD i = false := by
      rw [BitVec.getLsbD, Nat.testBit_lt_two_pow]
      exact hx.trans_le (Nat.pow_le_pow_right (by decide) (by omega))
    simp [hi, hbit]

lemma get_put_of_disjoint (h : f.Disjoint g) : f.get (g.put x) = 0#32 := by
  apply BitVec.eq_of_getLsbD_eq
  intro i _
  rw [getLsbD_get, getLsbD_put, BitVec.getLsbD_zero]
  by_cases hi : i < f.width
  · have hout : ¬ (g.shift ≤ f.shift + i ∧ f.shift + i < g.shift + g.width) := by
      unfold Disjoint at h
      omega
    simp [hout]
  · simp [hi]

lemma get_and_not_mask_self : f.get (r &&& ~~~f.mask) = 0#32 := by
  apply BitVec.eq_of_getLsbD_eq
  intro i _
  rw [getLsbD_get, BitVec.getLsbD_and, BitVec.getLsbD_not, getLsbD_mask, BitVec.getLsbD_zero]
  by_cases hi : i < f.width
  · simp [hi]
  · simp [hi]

/-- A field holds a value if the masked register is the value in its place. -/
lemma put_eq_iff (hx : x.toNat < 2 ^ f.width) : f.put x = r &&& f.mask ↔ f.get r = x := by
  constructor
  · intro h
    have hself : f.get r = f.get (f.put x) := by
      rw [get, get, h, BitVec.and_assoc, BitVec.and_self]
    rw [hself, get_put_self hx]
  · rintro rfl
    apply BitVec.eq_of_getLsbD_eq
    intro i _
    rw [getLsbD_put, getLsbD_get, BitVec.getLsbD_and, getLsbD_mask]
    by_cases h : f.shift ≤ i ∧ i < f.shift + f.width
    · simp [h, show i - f.shift < f.width by omega]
    · simp [h]

lemma and_mask_eq_zero_iff : r &&& f.mask = 0#32 ↔ f.get r = 0#32 := by
  rw [← put_eq_iff (by positivity), put]
  simp [eq_comm]

/-- The mask of a field of one bit. -/
lemma put_one (h : f.width = 1) : f.put 1#32 = f.mask := by
  apply BitVec.eq_of_getLsbD_eq
  intro i _
  rw [getLsbD_put, getLsbD_mask, h, BitVec.getLsbD_one]
  by_cases hi : i = f.shift
  · simp [hi]
  · have houtside : ¬ (f.shift ≤ i ∧ i < f.shift + 1) := by omega
    rw [decide_eq_false houtside, Bool.false_and]

end BitField

end McuxDrivers.Lib
