import Mathlib.Data.List.Perm.Basic

/-!
# Allocators of distinct buffers

The pool of an allocator is the list of the buffers that it can hand out. Which one it hands out, or that it hands out
none, is an answer from outside.
-/

namespace McuxDrivers.Lib

variable {β : Type} [DecidableEq β]

/-- A buffer of the pool, or none. -/
def poolAlloc (pool : List β) : Option β → Option (β × List β)
  | none => none
  | some b => if b ∈ pool then some (b, pool.erase b) else none

/-- Give a buffer back. -/
def poolFree (pool : List β) (b : β) : List β :=
  b :: pool

lemma perm_of_poolAlloc {pool pool' : List β} {answer : Option β} {b : β} (h : poolAlloc pool answer = some (b, pool')) :
    pool.Perm (b :: pool') := by
  cases answer with
  | none => cases h
  | some a =>
    rw [poolAlloc] at h
    split at h
    next hmem =>
      obtain ⟨rfl, rfl⟩ := Prod.mk.inj (Option.some.inj h)
      exact List.perm_cons_erase hmem
    next => cases h

omit [DecidableEq β] in
lemma foldl_poolFree_perm (buffers pool : List β) : (buffers.foldl poolFree pool).Perm (buffers ++ pool) := by
  induction buffers generalizing pool with
  | nil => exact List.Perm.refl _
  | cons b buffers ih =>
    apply (ih (poolFree pool b)).trans
    exact List.perm_middle

end McuxDrivers.Lib
