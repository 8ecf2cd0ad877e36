import Mathlib.Algebra.Group.Nat.Defs
import Mathlib.Data.BitVec
import Mathlib.Data.List.Count
import Mathlib.Logic.Function.Basic

/-!
# Tables of bits with counters

A table has a bit and a counter of `w` bits for each key, and members that can have the same key. The bits can only lose
the members where one is removed, because the counter comes back to 0 at `2 ^ w` members.
-/

namespace McuxDrivers.Lib

structure KeyTable (κ : Type) (w : Nat) where
  bit : κ → Bool
  count : κ → BitVec w

namespace KeyTable

variable {α κ : Type} [DecidableEq κ] {w : Nat} {key : α → κ} {members : List α} {t : KeyTable κ w} {a : α} {k : κ}

/-- A member with the key comes. -/
def insert (t : KeyTable κ w) (k : κ) : KeyTable κ w where
  bit := Function.update t.bit k true
  count := Function.update t.count k (t.count k + 1)

/-- A member with the key goes, and the bit with the counter. -/
def remove (t : KeyTable κ w) (k : κ) : KeyTable κ w where
  bit := if t.count k - 1 = 0 then Function.update t.bit k false else t.bit
  count := Function.update t.count k (t.count k - 1)

/-- The number of members with a key. -/
def load (key : α → κ) (members : List α) (k : κ) : Nat :=
  members.countP fun a => key a = k

/-- A bit is set if and only if a member has its key. -/
def Tracks (key : α → κ) (t : KeyTable κ w) (members : List α) : Prop :=
  ∀ k, t.bit k = true ↔ ∃ a ∈ members, key a = k

/-- The counters are the numbers of members in `w` bits. -/
structure Counted (key : α → κ) (t : KeyTable κ w) (members : List α) : Prop where
  bit : ∀ k, t.bit k = true ↔ 0 < load key members k
  count : ∀ k, t.count k = BitVec.ofNat w (load key members k)

/-- The member is the only one with its key, or the others are not a multiple of `2 ^ w`. -/
def CanRemove (w : Nat) (key : α → κ) (members : List α) (a : α) : Prop :=
  load key members (key a) = 1 ∨ ¬ 2 ^ w ∣ load key members (key a) - 1

lemma load_pos_iff : 0 < load key members k ↔ ∃ a ∈ members, key a = k := by
  rw [load, List.countP_pos_iff]
  simp

lemma Counted.tracks (h : Counted key t members) : Tracks key t members := by
  intro k
  rw [h.bit, load_pos_iff]

lemma load_cons : load key (a :: members) k = load key members k + if k = key a then 1 else 0 := by
  rw [load, List.countP_cons]
  simp [load, eq_comm]

lemma load_erase [DecidableEq α] (key : α → κ) (ha : a ∈ members) (k : κ) :
    load key (members.erase a) k + (if k = key a then 1 else 0) = load key members k := by
  have hperm : members.Perm (a :: members.erase a) := List.perm_cons_erase ha
  rw [← load_cons, load, load, hperm.countP_eq]

lemma counted_empty : Counted key (⟨fun _ => false, fun _ => 0⟩ : KeyTable κ w) [] := by
  constructor
  · simp [load]
  · exact fun _ => rfl

lemma Counted.insert (h : Counted key t members) (a : α) : Counted key (t.insert (key a)) (a :: members) := by
  constructor
  · intro k
    rw [load_cons]
    by_cases hk : k = key a
    · simp [KeyTable.insert, hk]
    · simp [KeyTable.insert, hk, h.bit k]
  · intro k
    rw [load_cons]
    by_cases hk : k = key a
    · rw [hk, if_pos rfl, BitVec.ofNat_add, ← h.count]
      exact Function.update_self ..
    · rw [if_neg hk, Nat.add_zero, ← h.count]
      exact Function.update_of_ne hk ..

variable [DecidableEq α]

/-- The counter of a key after one of its members has gone. -/
lemma Counted.count_erase (h : Counted key t members) (ha : a ∈ members) :
    t.count (key a) - 1 = BitVec.ofNat w (load key (members.erase a) (key a)) := by
  have hload := load_erase key ha (key a)
  rw [if_pos rfl] at hload
  rw [h.count, ← hload, BitVec.ofNat_add]
  exact BitVec.add_sub_cancel _ _

lemma Counted.count_remove (h : Counted key t members) (ha : a ∈ members) (k : κ) :
    (t.remove (key a)).count k = BitVec.ofNat w (load key (members.erase a) k) := by
  change Function.update t.count (key a) (t.count (key a) - 1) k = _
  have hload := load_erase key ha k
  by_cases hk : k = key a
  · rw [hk, Function.update_self, h.count_erase ha]
  · rw [if_neg hk, Nat.add_zero] at hload
    rw [Function.update_of_ne hk, h.count, hload]

/-- The counter comes to 0 where the members that stay are a multiple of `2 ^ w`. -/
lemma Counted.last_iff (h : Counted key t members) (ha : a ∈ members) :
    t.count (key a) - 1 = 0 ↔ 2 ^ w ∣ load key (members.erase a) (key a) := by
  rw [h.count_erase ha, ← BitVec.toNat_inj, BitVec.toNat_ofNat, Nat.dvd_iff_mod_eq_zero]
  rfl

lemma canRemove_iff (ha : a ∈ members) : CanRemove w key members a ↔
    (2 ^ w ∣ load key (members.erase a) (key a) → load key (members.erase a) (key a) = 0) := by
  have hload := load_erase key ha (key a)
  rw [if_pos rfl] at hload
  unfold CanRemove
  rw [← hload, Nat.add_sub_cancel]
  omega

/-- A member that can be removed keeps the table in step. -/
lemma Counted.remove (h : Counted key t members) (ha : a ∈ members) (hcan : CanRemove w key members a) :
    Counted key (t.remove (key a)) (members.erase a) := by
  constructor
  · intro k
    have hload := load_erase key ha k
    have hbit := h.bit k
    change (if t.count (key a) - 1 = 0 then Function.update t.bit (key a) false else t.bit) k = true ↔ _
    by_cases hk : k = key a
    · subst hk
      rw [if_pos rfl] at hload
      by_cases hlast : t.count (key a) - 1 = 0
      · have hnone := (canRemove_iff ha).mp hcan ((h.last_iff ha).mp hlast)
        rw [if_pos hlast, Function.update_self, hnone]
        simp
      · have hsome : load key (members.erase a) (key a) ≠ 0 := by
          intro hzero
          apply hlast
          rw [h.last_iff ha, hzero]
          exact Nat.dvd_zero _
        rw [if_neg hlast, hbit]
        omega
    · rw [if_neg hk, Nat.add_zero] at hload
      rw [hload, ← hbit]
      split_ifs <;> simp [hk]
  · exact h.count_remove ha

/-- A member that cannot be removed takes away the bit of others. -/
lemma Counted.not_tracks_remove (h : Counted key t members) (ha : a ∈ members) (hcan : ¬ CanRemove w key members a) :
    ¬ Tracks key (t.remove (key a)) (members.erase a) := by
  rw [canRemove_iff ha] at hcan
  obtain ⟨hlast, hsome⟩ := Classical.not_imp.mp hcan
  intro htracks
  have hset := (htracks (key a)).mpr (load_pos_iff.mp (Nat.pos_of_ne_zero hsome))
  change (if t.count (key a) - 1 = 0 then Function.update t.bit (key a) false else t.bit) (key a) = true at hset
  rw [if_pos ((h.last_iff ha).mpr hlast), Function.update_self] at hset
  cases hset

end KeyTable

end McuxDrivers.Lib
