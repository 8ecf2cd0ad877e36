import Mathlib.Algebra.BigOperators.Group.List.Basic
import Mathlib.Algebra.Group.Nat.Defs
import Mathlib.Algebra.Order.BigOperators.Group.List
import Mathlib.Algebra.Order.Ring.Nat
import Mathlib.Data.List.Basic

/-!
# Runs of bytes cut into pieces

A run of bytes in an address space of `w` bits, cut into pieces of a bounded length: enough pieces, in order, hold its
bytes.
-/

namespace McuxDrivers.Lib

/-- A run of bytes; behind the last address the first one follows. -/
structure Span (w : Nat) where
  address : BitVec w
  length : Nat
deriving DecidableEq

namespace Span

variable {w : Nat}

/-- The addresses of the bytes, in order. -/
def bytes (s : Span w) : List (BitVec w) :=
  (List.range s.length).map fun k => s.address + BitVec.ofNat w k

@[simp] lemma length_bytes (s : Span w) : s.bytes.length = s.length := by
  simp [bytes]

/-- The run without its first `n` bytes. -/
def skip (s : Span w) (n : Nat) : Span w :=
  ⟨s.address + BitVec.ofNat w n, s.length - n⟩

/-- The first `n` bytes of the run. -/
def front (s : Span w) (n : Nat) : Span w :=
  ⟨s.address, min s.length n⟩

lemma bytes_front_skip (s : Span w) (n : Nat) : (s.front n).bytes ++ (s.skip (min s.length n)).bytes = s.bytes := by
  obtain ⟨m, hm⟩ : ∃ m, s.length = min s.length n + m := ⟨s.length - min s.length n, by omega⟩
  have hleft : s.length - min s.length n = m := by omega
  simp only [bytes, front, skip, hleft]
  nth_rewrite 3 [hm]
  rw [List.range_add, List.map_append, List.map_map]
  congr 1
  apply List.map_congr_left
  intro k _
  rw [Function.comp_apply, BitVec.ofNat_add, BitVec.add_assoc]

/-- Cut a run into `count` pieces of at most `max` bytes. -/
def cut (max : Nat) : Nat → Span w → List (Span w)
  | 0, _ => []
  | count + 1, s => s.front max :: cut max count (s.skip (min s.length max))

variable {max count : Nat}

@[simp] lemma length_cut (s : Span w) : (cut max count s).length = count := by
  induction count generalizing s with
  | zero => rfl
  | succ count ih => rw [cut, List.length_cons, ih]

/-- Enough pieces hold the bytes of the run. -/
theorem flatMap_bytes_cut {s : Span w} (h : s.length ≤ count * max) : (cut max count s).flatMap bytes = s.bytes := by
  induction count generalizing s with
  | zero =>
    have hzero : s.length = 0 := by omega
    simp [cut, bytes, hzero]
  | succ count ih =>
    rw [Nat.succ_mul] at h
    have hrest : (s.skip (min s.length max)).length ≤ count * max := by
      simp only [skip]
      omega
    rw [cut, List.flatMap_cons, ih hrest, bytes_front_skip]

/-- No piece is empty when no fewer pieces are enough. -/
theorem length_of_mem_cut {s p : Span w} (h : (count - 1) * max < s.length) (hmax : 0 < max) (hp : p ∈ cut max count s) :
    1 ≤ p.length ∧ p.length ≤ max := by
  induction count generalizing s with
  | zero => cases hp
  | succ count ih =>
    rw [cut, List.mem_cons] at hp
    rcases hp with rfl | hp
    · simp only [front]
      omega
    · cases count with
      | zero => cases hp
      | succ count =>
        simp only [Nat.add_sub_cancel, Nat.succ_mul] at h
        apply ih _ hp
        simp only [skip, Nat.add_sub_cancel]
        omega

/-- The pieces start a multiple of `max` behind the start of the run. -/
theorem address_of_mem_cut {s p : Span w} (h : (count - 1) * max < s.length) (hp : p ∈ cut max count s) :
    ∃ j, p.address = s.address + BitVec.ofNat w (j * max) := by
  induction count generalizing s with
  | zero => cases hp
  | succ count ih =>
    rw [cut, List.mem_cons] at hp
    rcases hp with rfl | hp
    · exact ⟨0, by simp [front]⟩
    · cases count with
      | zero => cases hp
      | succ count =>
        simp only [Nat.add_sub_cancel, Nat.succ_mul] at h
        have hfull : min s.length max = max := by omega
        obtain ⟨j, hj⟩ := ih (by simp only [skip, Nat.add_sub_cancel]; omega) hp
        refine ⟨j + 1, ?_⟩
        rw [hj, skip, hfull, Nat.succ_mul, Nat.add_comm (j * max), BitVec.ofNat_add, BitVec.add_assoc]

/-- Pieces of at most `max` bytes hold no more than `max` bytes each. -/
theorem length_flatMap_bytes_le {pieces : List (Span w)} (h : ∀ p ∈ pieces, p.length ≤ max) :
    (pieces.flatMap bytes).length ≤ pieces.length * max := by
  rw [List.length_flatMap]
  have hsum := List.sum_le_card_nsmul (pieces.map fun p => p.bytes.length) max
    (by simpa using h)
  simpa using hsum

end Span

end McuxDrivers.Lib
