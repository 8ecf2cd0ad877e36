import Mathlib.Algebra.BigOperators.Group.List.Basic
import Mathlib.Data.Nat.ModEq

/-!
# Sums of bytes with end-around carry

A carry out of the byte is added back. The sum keeps the residue modulo 255, which tells apart all bytes but 0 and
255.
-/

namespace McuxDrivers.Lib

/-- One addition. -/
def endAroundAdd (s b : Nat) : Nat :=
  if s + b > 0xFF then s + b - 0xFF else s + b

def endAroundSum (s : Nat) (bytes : List UInt8) : Nat :=
  bytes.foldl (fun sum b => endAroundAdd sum b.toNat) s

variable {s : Nat} {u v : UInt8} {bytes front back : List UInt8}

lemma endAroundAdd_le {b : Nat} (hs : s ≤ 255) (hb : b ≤ 255) : endAroundAdd s b ≤ 255 := by
  unfold endAroundAdd
  split_ifs <;> omega

lemma endAroundAdd_mod {b : Nat} : endAroundAdd s b % 255 = (s + b) % 255 := by
  unfold endAroundAdd
  split_ifs <;> omega

lemma endAroundSum_le (hs : s ≤ 255) : endAroundSum s bytes ≤ 255 := by
  induction bytes generalizing s with
  | nil => exact hs
  | cons b bytes ih => exact ih (endAroundAdd_le hs (Nat.le_of_lt_succ b.toNat_lt))

lemma endAroundSum_mod : endAroundSum s bytes % 255 = (s + (bytes.map UInt8.toNat).sum) % 255 := by
  induction bytes generalizing s with
  | nil => rfl
  | cons b bytes ih =>
    have hadd := endAroundAdd_mod (s := s) (b := b.toNat)
    change endAroundSum (endAroundAdd s b.toNat) bytes % 255 = _
    rw [ih, List.map_cons, List.sum_cons]
    omega

lemma toNat_mod_ne (hne : u ≠ v) (h0 : ¬ (u = 0x00 ∧ v = 0xFF)) (h255 : ¬ (u = 0xFF ∧ v = 0x00)) :
    u.toNat % 255 ≠ v.toNat % 255 := by
  intro hmod
  have hu := u.toNat_lt
  have hv := v.toNat_lt
  rw [← UInt8.toNat_inj, ← UInt8.toNat_inj] at h0 h255
  rw [Ne, ← UInt8.toNat_inj] at hne
  have hzero : (0x00 : UInt8).toNat = 0 := rfl
  have hfull : (0xFF : UInt8).toNat = 255 := rfl
  omega

/-- A change of one byte, other than between 0 and 255, changes the sum. -/
theorem endAroundSum_ne (hne : u ≠ v) (h0 : ¬ (u = 0x00 ∧ v = 0xFF)) (h255 : ¬ (u = 0xFF ∧ v = 0x00)) :
    endAroundSum s (front ++ u :: back) ≠ endAroundSum s (front ++ v :: back) := by
  intro heq
  have hmod := congrArg (fun x => x % 255) heq
  simp only [endAroundSum_mod, List.map_append, List.map_cons, List.sum_append, List.sum_cons] at hmod
  have hbytes := toNat_mod_ne hne h0 h255
  omega

end McuxDrivers.Lib
