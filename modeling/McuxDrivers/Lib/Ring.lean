import Mathlib.Data.List.Nodup
import Mathlib.Data.List.Rotate
import Mathlib.Data.Int.ModEq
import Mathlib.Logic.Function.Basic
import Mathlib.Tactic.Ring

/-!
# Ring buffers with one reserved slot

A ring of `size` slots between a tail and a head index that wrap without a modulo. `ringContents`
reads the queue back; pushing appends to it, popping removes its first element.
-/

namespace McuxDrivers.Lib

variable {α : Type}

/-- The index after `i`. -/
def ringNext (size i : Nat) : Nat :=
  if i + 1 = size then 0 else i + 1

/-- The number of elements from the tail up to the head. -/
def ringLength (size head tail : Nat) : Nat :=
  if tail > head then head + size - tail else head - tail

/-- The elements from the tail up to the head. -/
def ringContents (mem : Nat → α) (size head tail : Nat) : List α :=
  (List.range (ringLength size head tail)).map (fun k => mem ((tail + k) % size))

lemma ringNext_lt {size i : Nat} (h : i < size) : ringNext size i < size := by
  unfold ringNext
  split <;> omega

lemma ringNext_eq_mod {size i : Nat} (h : i < size) : ringNext size i = (i + 1) % size := by
  unfold ringNext
  split
  next heq => rw [heq, Nat.mod_self]
  next hne => rw [Nat.mod_eq_of_lt (by omega)]

lemma ringLength_lt {size head tail : Nat} (hh : head < size) (ht : tail < size) :
    ringLength size head tail < size := by
  unfold ringLength
  split <;> omega

@[simp]
lemma length_ringContents (mem : Nat → α) (size head tail : Nat) :
    (ringContents mem size head tail).length = ringLength size head tail := by
  simp [ringContents]

lemma ringContents_getElem? {size head tail k : Nat} (hk : k < ringLength size head tail) (mem : Nat → α) :
    (ringContents mem size head tail)[k]? = some (mem ((tail + k) % size)) := by
  rw [ringContents, List.getElem?_map, List.getElem?_range hk, Option.map_some]

/-- The head is as far behind the tail as there are elements. -/
lemma head_eq_add_ringLength {size head tail : Nat} (hh : head < size) (ht : tail < size) :
    head = (tail + ringLength size head tail) % size := by
  unfold ringLength
  split
  next hgt =>
    have hsum : tail + (head + size - tail) = head + size := by omega
    rw [hsum, Nat.add_mod_right, Nat.mod_eq_of_lt hh]
  next hle =>
    have hsum : tail + (head - tail) = head := by omega
    rw [hsum, Nat.mod_eq_of_lt hh]

lemma ringLength_push {size head tail : Nat} (ht : tail < size)
    (hroom : ringLength size head tail + 1 < size) :
    ringLength size (ringNext size head) tail = ringLength size head tail + 1 := by
  unfold ringLength ringNext at *
  split_ifs at * <;> omega

lemma ringLength_pop {size head tail : Nat} (hh : head < size) (ht : tail < size)
    (hne : ringLength size head tail ≠ 0) :
    ringLength size head (ringNext size tail) + 1 = ringLength size head tail := by
  unfold ringLength ringNext at *
  split_ifs at * <;> omega

/-- Two offsets below the size that reach the same slot are equal. -/
lemma ring_offset_inj {size tail i j : Nat} (hi : i < size) (hj : j < size)
    (h : (tail + i) % size = (tail + j) % size) : i = j := by
  have hmod : i % size = j % size := Nat.ModEq.add_left_cancel' tail h
  rwa [Nat.mod_eq_of_lt hi, Nat.mod_eq_of_lt hj] at hmod

lemma ring_offset_exists {size start i : Nat} (hstart : start < size) (hi : i < size) :
    ∃ k < size, (start + k) % size = i := by
  refine ⟨(i + size - start) % size, Nat.mod_lt _ (by omega), ?_⟩
  rw [Nat.add_mod_mod, show start + (i + size - start) = i + size by omega, Nat.add_mod_right, Nat.mod_eq_of_lt hi]

/-- Writing at the head and advancing it appends to the queue. -/
theorem ringContents_push {size head tail : Nat} (hh : head < size) (ht : tail < size)
    (hroom : ringLength size head tail + 1 < size) (mem : Nat → α) (v : α) :
    ringContents (Function.update mem head v) size (ringNext size head) tail =
      ringContents mem size head tail ++ [v] := by
  have hhead := head_eq_add_ringLength hh ht
  unfold ringContents
  rw [ringLength_push ht hroom, List.range_succ, List.map_append, List.map_singleton, ← hhead,
    Function.update_self]
  congr 1
  apply List.map_congr_left
  intro k hk
  have hlt : k < ringLength size head tail := List.mem_range.mp hk
  have hne : (tail + k) % size ≠ head := by
    intro heq
    rw [hhead] at heq
    have hcontra := ring_offset_inj (by omega) (by omega) heq
    omega
  rw [Function.update_of_ne hne]

/-- The tail is the first element, and advancing it leaves the others. -/
theorem ringContents_pop {size head tail : Nat} (hh : head < size) (ht : tail < size)
    (hne : ringLength size head tail ≠ 0) (mem : Nat → α) :
    ringContents mem size head tail = mem tail :: ringContents mem size head (ringNext size tail) := by
  have hpop := ringLength_pop hh ht hne
  unfold ringContents
  rw [← hpop, List.range_succ_eq_map, List.map_cons, List.map_map, Nat.add_zero, Nat.mod_eq_of_lt ht]
  congr 1
  apply List.map_congr_left
  intro k _
  have hstep : (tail + k.succ) % size = (ringNext size tail + k) % size := by
    rw [ringNext_eq_mod ht, Nat.mod_add_mod, Nat.succ_eq_add_one, Nat.add_right_comm, Nat.add_assoc]
  rw [Function.comp_apply, hstep]

lemma ring_add_mod {size tail k : Nat} (ht : tail < size) (hk : k ≤ size) :
    (tail + k) % size = if tail + k < size then tail + k else tail + k - size := by
  split
  next hlt => exact Nat.mod_eq_of_lt hlt
  next hge =>
    rw [Nat.mod_eq_sub_mod (by omega)]
    by_cases heq : tail + k - size < size
    · exact Nat.mod_eq_of_lt heq
    · omega

lemma ringLength_add_mod {size tail k : Nat} (ht : tail < size) (hk : k < size) :
    ringLength size ((tail + k) % size) tail = k := by
  rw [ring_add_mod ht hk.le]
  unfold ringLength
  split_ifs <;> omega

lemma ringLength_drop {size head tail k : Nat} (hh : head < size) (ht : tail < size)
    (hk : k ≤ ringLength size head tail) :
    ringLength size head ((tail + k) % size) = ringLength size head tail - k := by
  have hlt := ringLength_lt hh ht
  rw [ring_add_mod ht (by omega)]
  unfold ringLength at *
  split_ifs at * <;> omega

/-- The index before the head is the last slot of the queue. -/
lemma ring_last {size head tail i : Nat} (ht : tail < size) (hi : i < size) (hnext : ringNext size i = head)
    (hne : ringLength size head tail ≠ 0) : i = (tail + (ringLength size head tail - 1)) % size := by
  have hhead : head < size := hnext ▸ ringNext_lt hi
  have hlt := ringLength_lt hhead ht
  rw [ring_add_mod ht (by omega)]
  unfold ringLength ringNext at *
  split_ifs at * <;> omega

/-- Writing a slot of the queue replaces one element. -/
theorem ringContents_update {size head tail k : Nat} (hh : head < size) (ht : tail < size)
    (hk : k < ringLength size head tail) (mem : Nat → α) (v : α) :
    ringContents (Function.update mem ((tail + k) % size) v) size head tail =
      (ringContents mem size head tail).set k v := by
  have hlt := ringLength_lt hh ht
  apply List.ext_getElem
  · simp
  intro i hi _
  rw [length_ringContents] at hi
  simp only [ringContents, List.getElem_map, List.getElem_range, List.getElem_set]
  by_cases heq : k = i
  · rw [if_pos heq, heq, Function.update_self]
  · rw [if_neg heq, Function.update_of_ne]
    intro hslot
    exact heq (ring_offset_inj (by omega) (by omega) hslot.symm)

lemma ringContents_map {β : Type} (f : α → β) (mem : Nat → α) (size head tail : Nat) :
    ringContents (fun i => f (mem i)) size head tail = (ringContents mem size head tail).map f := by
  simp [ringContents, Function.comp_def]

/-- The elements from the `k`-th on. -/
theorem ringContents_drop {size head tail k : Nat} (hh : head < size) (ht : tail < size)
    (hk : k ≤ ringLength size head tail) (mem : Nat → α) :
    ringContents mem size head ((tail + k) % size) = (ringContents mem size head tail).drop k := by
  apply List.ext_getElem
  · simp [ringLength_drop hh ht hk]
  intro i _ _
  simp [ringContents, Nat.add_assoc]

section View

/-- All slots of a ring, from an index on. -/
def ringView (mem : Nat → α) (size start : Nat) : List α :=
  (List.range size).map fun k => mem ((start + k) % size)

variable {size start : Nat}

@[simp]
lemma length_ringView (mem : Nat → α) (size start : Nat) : (ringView mem size start).length = size := by
  simp [ringView]

lemma ringView_getElem? {k : Nat} (hk : k < size) (mem : Nat → α) (start : Nat) :
    (ringView mem size start)[k]? = some (mem ((start + k) % size)) := by
  rw [ringView, List.getElem?_map, List.getElem?_range hk, Option.map_some]

/-- Writing a slot replaces one element. -/
theorem ringView_update {k : Nat} (hk : k < size) (mem : Nat → α) (v : α) :
    ringView (Function.update mem ((start + k) % size) v) size start = (ringView mem size start).set k v := by
  apply List.ext_getElem
  · simp
  intro i hi _
  rw [length_ringView] at hi
  simp only [ringView, List.getElem_map, List.getElem_range, List.getElem_set]
  by_cases heq : k = i
  · rw [if_pos heq, heq, Function.update_self]
  · rw [if_neg heq, Function.update_of_ne]
    intro hslot
    exact heq (ring_offset_inj hk hi hslot.symm)

/-- The slot of an element of the view. -/
theorem ringView_slot {mem : Nat → α} {a b : List α} {x : α} (h : ringView mem size start = a ++ x :: b) :
    mem ((start + a.length) % size) = x := by
  have hlt : a.length < size := by
    rw [← length_ringView mem size start, h, List.length_append, List.length_cons]
    omega
  have hget := ringView_getElem? hlt mem start
  rw [h, List.getElem?_append_right (Nat.le_refl _), Nat.sub_self, List.getElem?_cons_zero] at hget
  exact (Option.some.inj hget).symm

/-- Writing the slot of an element of the view. -/
theorem ringView_write {mem : Nat → α} {a b : List α} {x : α} (h : ringView mem size start = a ++ x :: b) (v : α) :
    ringView (Function.update mem ((start + a.length) % size) v) size start = a ++ v :: b := by
  have hlt : a.length < size := by
    rw [← length_ringView mem size start, h, List.length_append, List.length_cons]
    omega
  rw [ringView_update hlt, h, List.set_append_right _ _ (Nat.le_refl _), Nat.sub_self, List.set_cons_zero]

lemma ringView_cons (hstart : start < size) (mem : Nat → α) :
    ringView mem size start = mem start :: (ringView mem size start).tail := by
  obtain ⟨m, rfl⟩ : ∃ m, size = m + 1 := Nat.exists_eq_succ_of_ne_zero (by omega)
  rw [ringView, List.range_succ_eq_map, List.map_cons, List.tail_cons, Nat.add_zero, Nat.mod_eq_of_lt hstart]

/-- Advancing the index moves the first element behind the others. -/
theorem ringView_next (hstart : start < size) (mem : Nat → α) :
    ringView mem size (ringNext size start) = (ringView mem size start).tail ++ [mem start] := by
  obtain ⟨m, rfl⟩ : ∃ m, size = m + 1 := Nat.exists_eq_succ_of_ne_zero (by omega)
  have htail : (ringView mem (m + 1) start).tail = (List.range m).map fun k => mem ((start + (k + 1)) % (m + 1)) := by
    rw [ringView, List.range_succ_eq_map, List.map_cons, List.tail_cons, List.map_map]
    rfl
  rw [htail, ringView, List.range_succ, List.map_append, List.map_singleton, ringNext_eq_mod hstart, Nat.mod_add_mod]
  have hlast : (start + 1 + m) % (m + 1) = start := by
    rw [show start + 1 + m = start + (m + 1) by omega, Nat.add_mod_right, Nat.mod_eq_of_lt hstart]
  rw [hlast]
  congr 1
  apply List.map_congr_left
  intro k _
  rw [Nat.mod_add_mod, Nat.add_assoc, Nat.add_comm 1 k]

/-- Writing the first slot and advancing the index. -/
theorem ringView_push (hstart : start < size) (mem : Nat → α) (v : α) :
    ringView (Function.update mem start v) size (ringNext size start) = (ringView mem size start).tail ++ [v] := by
  have hupdate : ringView (Function.update mem ((start + 0) % size) v) size start = (ringView mem size start).set 0 v :=
    ringView_update (by omega) mem v
  rw [Nat.add_zero, Nat.mod_eq_of_lt hstart] at hupdate
  rw [ringView_next hstart, Function.update_self, hupdate, ringView_cons hstart mem]
  rfl

lemma ringView_map {β : Type} (f : α → β) (mem : Nat → α) (size start : Nat) :
    ringView (fun i => f (mem i)) size start = (ringView mem size start).map f := by
  simp [ringView, Function.comp_def]

/-- The view from a later index is the same view, rotated. -/
theorem ringView_rotate (mem : Nat → α) (size start k : Nat) :
    ringView mem size ((start + k) % size) = (ringView mem size start).rotate k := by
  apply List.ext_getElem
  · simp
  intro i _ _
  have hslot : ((start + k) % size + i) % size = (start + (i + k) % size) % size := by
    rw [Nat.mod_add_mod, Nat.add_mod_mod, Nat.add_assoc, Nat.add_comm k i]
  simp only [ringView, List.getElem_rotate, List.getElem_map, List.getElem_range, List.length_map, List.length_range, hslot]

/-- Where two rings have the same end of the view, they have the same slots. -/
theorem ringView_same_end {mem mem' : Nat → α} {a a' b : List α} (hstart : start < size)
    (h : ringView mem size start = a ++ b) (h' : ringView mem' size start = a' ++ b) (hlen : a.length = a'.length)
    {i : Nat} (hi : i < size) : mem i ∈ a ∨ mem' i = mem i := by
  obtain ⟨k, hk, rfl⟩ := ring_offset_exists hstart hi
  have hget := ringView_getElem? hk mem start
  have hget' := ringView_getElem? hk mem' start
  rw [h] at hget
  rw [h'] at hget'
  by_cases hka : k < a.length
  · left
    rw [List.getElem?_append_left hka] at hget
    exact List.mem_of_getElem? hget
  · right
    rw [List.getElem?_append_right (by omega)] at hget hget'
    rw [hlen, hget'] at hget
    exact Option.some.inj hget

/-- The view of a ring has each slot once. -/
theorem ringView_perm (hstart : start < size) (mem : Nat → α) :
    (ringView mem size start).Perm ((List.range size).map mem) := by
  have hindices : ((List.range size).map fun k => (start + k) % size).Perm (List.range size) := by
    rw [List.perm_ext_iff_of_nodup _ List.nodup_range]
    · intro i
      rw [List.mem_map, List.mem_range]
      constructor
      · rintro ⟨k, -, rfl⟩
        exact Nat.mod_lt _ (by omega)
      · intro hi
        obtain ⟨k, hk, hslot⟩ := ring_offset_exists hstart hi
        exact ⟨k, List.mem_range.mpr hk, hslot⟩
    · apply (List.nodup_map_iff_inj_on List.nodup_range).mpr
      intro i hi k hk heq
      exact ring_offset_inj (List.mem_range.mp hi) (List.mem_range.mp hk) heq
  have hmap := hindices.map mem
  rwa [List.map_map] at hmap

end View

end McuxDrivers.Lib
