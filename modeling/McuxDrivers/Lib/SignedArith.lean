import Mathlib.Data.Int.Order.Basic
import Mathlib.Algebra.Group.Nat.Defs
import Mathlib.Algebra.Ring.Int.Defs

/-!
# Signed arithmetic of C

An operation on signed integers of `bits` bits has no result when it overflows. The quotient of C is rounded towards
zero, and `divFloor` corrects it to the floor.
-/

namespace McuxDrivers.Lib

/-- The result of a signed operation, if it fits. -/
def checked (bits : Nat) (z : Int) : Option Int :=
  if -2 ^ (bits - 1) ≤ z ∧ z < 2 ^ (bits - 1) then some z else none

/-- The conversion to an unsigned type. -/
def unsigned (bits : Nat) (z : Int) : Nat :=
  (z % 2 ^ bits).toNat

/-- `((x) >= 0 || (x) % (y) == 0) ? (x) / (y) : (x) / (y) - 1` for a positive `y`. -/
def divFloor (bits : Nat) (x y : Int) : Option Int :=
  if x ≥ 0 ∨ x.tmod y = 0 then some (x.tdiv y) else checked bits (x.tdiv y - 1)

lemma checked_of_fits {bits : Nat} {z : Int} (hlow : -2 ^ (bits - 1) ≤ z) (hhigh : z < 2 ^ (bits - 1)) :
    checked bits z = some z :=
  if_pos ⟨hlow, hhigh⟩

lemma unsigned_natCast (bits n : Nat) : unsigned bits n = n % 2 ^ bits := by
  have hcast : ((n : Int) % 2 ^ bits) = ((n % 2 ^ bits : Nat) : Int) := by norm_cast
  rw [unsigned, hcast, Int.toNat_natCast]

lemma divFloor_eq {bits : Nat} {x y : Int} (hy : 0 < y) (hlow : -2 ^ (bits - 1) ≤ x / y) (hhigh : x / y < 2 ^ (bits - 1)) :
    divFloor bits x y = some (x / y) := by
  have hcond : (x ≥ 0 ∨ x.tmod y = 0) ↔ (0 ≤ x ∨ y ∣ x) := or_congr Iff.rfl Int.dvd_iff_tmod_eq_zero.symm
  rw [divFloor, Int.tdiv_eq_ediv]
  by_cases hexact : 0 ≤ x ∨ y ∣ x
  · rw [if_pos (hcond.mpr hexact), if_pos hexact, Int.add_zero]
  · rw [if_neg (mt hcond.mp hexact), if_neg hexact, Int.sign_eq_one_of_pos hy, Int.add_sub_cancel]
    exact checked_of_fits hlow hhigh

end McuxDrivers.Lib
