import Mathlib.Algebra.BigOperators.Group.List.Basic
import Mathlib.Data.BitVec
import Mathlib.Tactic.Ring

/-!
# The offset of the NETC timer

`NETC_TimerAddOffset` of `fsl_netc_timer.c` on the register pair `TMROFF_H` and `TMROFF_L`. For a negative offset the
code subtracts the absolute value from the largest number of 64 bits, which gives one less than the offset.
-/

namespace McuxDrivers.Netc

/-- The offset registers. -/
structure TimerOffset where
  tmroffH : BitVec 32
  tmroffL : BitVec 32

/-- An offset in nanoseconds whose negation fits in 64 bits too. -/
abbrev Nanoseconds := { n : Int // -2 ^ 63 < n ∧ n < 2 ^ 63 }

namespace TimerOffset

/-- The 64-bit number in the registers. -/
def value (r : TimerOffset) : BitVec 64 :=
  r.tmroffH ++ r.tmroffL

/-- `NETC_TimerAddOffset`. -/
def addOffset (r : TimerOffset) (nanosecond : Nanoseconds) : TimerOffset :=
  let offset : BitVec 64 :=
    if nanosecond.1 ≥ 0 then BitVec.ofInt 64 nanosecond
    else BitVec.allOnes 64 - BitVec.ofInt 64 (-nanosecond)
  let offset := offset + ((r.tmroffH.setWidth 64 <<< 32) + r.tmroffL.setWidth 64)
  { tmroffL := offset.setWidth 32, tmroffH := (offset >>> 32).setWidth 32 }

/-- The sum of the offsets. -/
def total (offsets : List Nanoseconds) : Int :=
  (offsets.map Subtype.val).sum

/-- The number of negative offsets. -/
def negatives (offsets : List Nanoseconds) : Nat :=
  offsets.countP fun n => n.1 < 0

lemma read_value (r : TimerOffset) : (r.tmroffH.setWidth 64 <<< 32) + r.tmroffL.setWidth 64 = r.value := by
  have hh := r.tmroffH.isLt
  have hl := r.tmroffL.isLt
  apply BitVec.eq_of_toNat_eq
  rw [value, BitVec.toNat_append, ← Nat.shiftLeft_add_eq_or_of_lt hl]
  simp only [BitVec.toNat_add, BitVec.toNat_shiftLeft, BitVec.toNat_setWidth, Nat.shiftLeft_eq]
  omega

lemma value_write (offset : BitVec 64) :
    value { tmroffL := offset.setWidth 32, tmroffH := (offset >>> 32).setWidth 32 } = offset := by
  have ho := offset.isLt
  apply BitVec.eq_of_toNat_eq
  rw [value, BitVec.toNat_append, ← Nat.shiftLeft_add_eq_or_of_lt (BitVec.isLt _)]
  simp only [BitVec.toNat_setWidth, BitVec.toNat_ushiftRight, Nat.shiftLeft_eq, Nat.shiftRight_eq_div_pow]
  omega

/-- One call. A negative offset takes one nanosecond more away. -/
lemma value_addOffset (r : TimerOffset) (n : Nanoseconds) :
    (r.addOffset n).value = r.value + ((n.1 - if n.1 < 0 then 1 else 0 : Int) : BitVec 64) := by
  unfold addOffset
  dsimp only
  rw [value_write, read_value, add_comm]
  congr 1
  by_cases hneg : n.1 < 0
  · rw [if_neg (by omega), if_pos hneg]
    have hones : BitVec.allOnes 64 = -1 := by decide
    rw [hones]
    change (-1 : BitVec 64) - ((-n.1 : Int) : BitVec 64) = _
    rw [Int.cast_neg, Int.cast_sub, Int.cast_one]
    ring
  · rw [if_pos (by omega), if_neg hneg, sub_zero]
    rfl

lemma value_run (offsets : List Nanoseconds) : ∀ r : TimerOffset,
    (offsets.foldl addOffset r).value = r.value + ((total offsets - negatives offsets : Int) : BitVec 64) := by
  induction offsets with
  | nil =>
    intro r
    simp [total, negatives]
  | cons n offsets ih =>
    intro r
    have htotal : total (n :: offsets) = n.1 + total offsets := rfl
    have hneg : (negatives (n :: offsets) : Int) = negatives offsets + if n.1 < 0 then 1 else 0 := by
      rw [negatives, List.countP_cons]
      push_cast
      simp [negatives]
    rw [List.foldl_cons, ih, value_addOffset, htotal, hneg, Int.cast_sub, Int.cast_sub, Int.cast_sub, Int.cast_add,
      Int.cast_add]
    ring

/-- The offsets add up exactly when the number of negative ones is a multiple of `2 ^ 64`. -/
theorem addOffset_exact_iff (r : TimerOffset) (offsets : List Nanoseconds) :
    (offsets.foldl addOffset r).value = r.value + BitVec.ofInt 64 (total offsets) ↔ 2 ^ 64 ∣ negatives offsets := by
  rw [value_run]
  change r.value + _ = r.value + ((total offsets : Int) : BitVec 64) ↔ _
  rw [add_right_inj, Int.cast_sub, sub_eq_self, Int.cast_natCast]
  change BitVec.ofNat 64 (negatives offsets) = 0 ↔ _
  rw [← BitVec.toNat_inj, BitVec.toNat_ofNat]
  exact (Nat.dvd_iff_mod_eq_zero).symm

/-- An offset of -1 takes two nanoseconds away. -/
theorem addOffset_minus_one : ¬ ∀ (r : TimerOffset) (offsets : List Nanoseconds),
    (offsets.foldl addOffset r).value = r.value + BitVec.ofInt 64 (total offsets) := by
  intro h
  exact absurd (h { tmroffH := 0, tmroffL := 5 } [⟨-1, by decide⟩]) (by decide)

/-- The order of the calls does not matter. -/
theorem addOffset_perm (r : TimerOffset) {a b : List Nanoseconds} (h : a.Perm b) :
    (a.foldl addOffset r).value = (b.foldl addOffset r).value := by
  have htotal : total a = total b := (h.map _).sum_eq
  have hneg : negatives a = negatives b := h.countP_eq _
  rw [value_run, value_run, htotal, hneg]

end TimerOffset

end McuxDrivers.Netc
