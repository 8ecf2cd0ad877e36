import McuxDrivers.Lib.Regions
import Mathlib.Data.List.GetD

/-!
# A memory of bytes

A memory is what it holds at each address and the addresses written so far, in order. A store
writes a list of bytes one after the other. `off` forgets a region, such as the stack frame of a
function, so that what a caller sees of two memories can be compared.
-/

namespace McuxDrivers.Lib

structure ByteMemory where
  bytes : Nat → UInt8
  written : List Nat

namespace ByteMemory

/-- The `n` bytes from `a` on. -/
def read (m : ByteMemory) (a n : Nat) : List UInt8 :=
  (List.range' a n).map m.bytes

/-- The bytes `bs` are written to `a`, the first one first. -/
def store (m : ByteMemory) (a : Nat) (bs : List UInt8) : ByteMemory where
  bytes x := if a ≤ x then bs.getD (x - a) (m.bytes x) else m.bytes x
  written := m.written ++ List.range' a bs.length

@[simp]
lemma length_read (m : ByteMemory) (a n : Nat) : (m.read a n).length = n := by
  rw [read, List.length_map, List.length_range']

@[simp]
lemma read_zero (m : ByteMemory) (a : Nat) : m.read a 0 = [] :=
  rfl

lemma read_add (m : ByteMemory) (a n k : Nat) : m.read a (n + k) = m.read a n ++ m.read (a + n) k := by
  have hsplit := @List.range'_append a n k 1
  rw [Nat.one_mul] at hsplit
  rw [read, ← hsplit, List.map_append]
  rfl

lemma read_congr {m m' : ByteMemory} {a n : Nat} (h : ∀ x, a ≤ x → x < a + n → m.bytes x = m'.bytes x) :
    m.read a n = m'.read a n := by
  apply List.map_congr_left
  intro x hx
  rw [List.mem_range'_1] at hx
  exact h x hx.1 hx.2

lemma store_bytes_of_lt (m : ByteMemory) {a x : Nat} (bs : List UInt8) (h : x < a) : (m.store a bs).bytes x = m.bytes x :=
  if_neg (Nat.not_le.mpr h)

lemma store_bytes_of_le (m : ByteMemory) {a x : Nat} (bs : List UInt8) (h : a + bs.length ≤ x) :
    (m.store a bs).bytes x = m.bytes x := by
  have hle : a ≤ x := by omega
  rw [store]
  simp only [hle, if_true]
  exact List.getD_eq_default _ _ (by omega)

lemma store_bytes_add (m : ByteMemory) (a : Nat) {i : Nat} (bs : List UInt8) (h : i < bs.length) :
    (m.store a bs).bytes (a + i) = bs[i] := by
  rw [store]
  simp only [Nat.le_add_right, if_true, Nat.add_sub_cancel_left]
  exact List.getD_eq_getElem _ _ h

@[ext]
lemma ext_bytes {m m' : ByteMemory} (hbytes : ∀ x, m.bytes x = m'.bytes x) (hwritten : m.written = m'.written) : m = m' := by
  cases m
  cases m'
  obtain rfl : _ = _ := funext hbytes
  obtain rfl : _ = _ := hwritten
  rfl

@[simp]
lemma store_nil (m : ByteMemory) (a : Nat) : m.store a [] = m := by
  apply ext_bytes
  · intro x
    by_cases h : x < a
    · exact store_bytes_of_lt m [] h
    · exact store_bytes_of_le m [] (Nat.le_of_not_lt h)
  · exact List.append_nil _

lemma store_append (m : ByteMemory) (a : Nat) (bs cs : List UInt8) :
    (m.store a bs).store (a + bs.length) cs = m.store a (bs ++ cs) := by
  apply ext_bytes
  · intro x
    by_cases h₁ : x < a
    · rw [store_bytes_of_lt _ _ (by omega), store_bytes_of_lt _ _ h₁, store_bytes_of_lt _ _ h₁]
    · by_cases h₂ : x < a + bs.length
      · obtain ⟨i, rfl⟩ := Nat.exists_eq_add_of_le (Nat.le_of_not_lt h₁)
        have hi : i < bs.length := by omega
        rw [store_bytes_of_lt _ _ h₂, store_bytes_add _ _ _ hi,
          store_bytes_add _ _ _ (by rw [List.length_append]; omega), List.getElem_append_left hi]
      · by_cases h₃ : x < a + bs.length + cs.length
        · obtain ⟨i, rfl⟩ := Nat.exists_eq_add_of_le (Nat.le_of_not_lt h₂)
          have hi : i < cs.length := by omega
          rw [store_bytes_add _ _ _ hi, Nat.add_assoc,
            store_bytes_add _ _ _ (by rw [List.length_append]; omega)]
          simp
        · rw [store_bytes_of_le _ _ (by omega), store_bytes_of_le _ _ (by omega),
            store_bytes_of_le _ _ (by rw [List.length_append]; omega)]
  · have hsplit := @List.range'_append a bs.length cs.length 1
    rw [Nat.one_mul] at hsplit
    rw [store, store, store, List.length_append, ← hsplit, List.append_assoc]

/-- A block of `n` bytes and then those behind it. -/
lemma store_flatten (m : ByteMemory) (a : Nat) {n : Nat} {l : List UInt8} (hl : l.length = n) (ls : List (List UInt8)) :
    (m.store a l).store (a + n) ls.flatten = m.store a (l :: ls).flatten := by
  rw [List.flatten_cons, ← store_append, hl]

lemma read_store (m : ByteMemory) (a : Nat) (bs : List UInt8) : (m.store a bs).read a bs.length = bs := by
  apply List.ext_getElem
  · exact length_read _ _ _
  · intro i h₁ h₂
    simp only [read, List.getElem_map, List.getElem_range', Nat.one_mul]
    exact store_bytes_add m a bs h₂

lemma read_store_of_disjoint (m : ByteMemory) {a n b : Nat} (bs : List UInt8)
    (h : a + n ≤ b ∨ b + bs.length ≤ a) : (m.store b bs).read a n = m.read a n := by
  apply read_congr
  intro x hle hlt
  rcases h with h | h
  · exact store_bytes_of_lt m bs (by omega)
  · exact store_bytes_of_le m bs (by omega)

/-- The `n` blocks of `b` bytes that begin at `a`. -/
def blocks (m : ByteMemory) (b a : Nat) : Nat → List (List UInt8)
  | 0 => []
  | n + 1 => m.read a b :: m.blocks b (a + b) n

@[simp]
lemma length_blocks (m : ByteMemory) (b a n : Nat) : (m.blocks b a n).length = n := by
  induction n generalizing a with
  | zero => rfl
  | succ n ih => rw [blocks, List.length_cons, ih]

lemma length_of_mem_blocks {m : ByteMemory} {b a n : Nat} {x : List UInt8} (h : x ∈ m.blocks b a n) : x.length = b := by
  induction n generalizing a with
  | zero => cases h
  | succ n ih =>
    rw [blocks] at h
    rcases List.mem_cons.mp h with rfl | h
    · exact length_read m a b
    · exact ih h

lemma blocks_add (m : ByteMemory) (b a n k : Nat) :
    m.blocks b a (n + k) = m.blocks b a n ++ m.blocks b (a + n * b) k := by
  induction n generalizing a with
  | zero => rw [Nat.zero_add, Nat.zero_mul, Nat.add_zero, blocks, List.nil_append]
  | succ n ih =>
    have haddr : a + b + n * b = a + (n + 1) * b := by rw [Nat.succ_mul]; omega
    rw [Nat.succ_add, blocks, blocks, ih, haddr, List.cons_append]

lemma flatten_blocks (m : ByteMemory) (b a n : Nat) : (m.blocks b a n).flatten = m.read a (n * b) := by
  induction n generalizing a with
  | zero => rw [Nat.zero_mul, read_zero, blocks, List.flatten_nil]
  | succ n ih => rw [blocks, List.flatten_cons, ih, Nat.succ_mul, Nat.add_comm (n * b) b, read_add]

lemma blocks_congr {m m' : ByteMemory} {b a n : Nat} (h : ∀ x, a ≤ x → x < a + n * b → m.bytes x = m'.bytes x) :
    m.blocks b a n = m'.blocks b a n := by
  induction n generalizing a with
  | zero => rfl
  | succ n ih =>
    rw [Nat.succ_mul] at h
    rw [blocks, blocks, ih (fun x hle hlt => h x (by omega) (by omega)),
      read_congr (fun x hle hlt => h x hle (by omega))]

lemma blocks_store_of_disjoint (m : ByteMemory) {b a n c : Nat} (bs : List UInt8)
    (h : a + n * b ≤ c ∨ c + bs.length ≤ a) : (m.store c bs).blocks b a n = m.blocks b a n := by
  apply blocks_congr
  intro x hle hlt
  rcases h with h | h
  · exact store_bytes_of_lt m bs (by omega)
  · exact store_bytes_of_le m bs (by omega)

lemma blocks_eq_of_read {m m' : ByteMemory} {b a a' n : Nat} (h : m.read a (n * b) = m'.read a' (n * b)) :
    m.blocks b a n = m'.blocks b a' n := by
  induction n generalizing a a' with
  | zero => rfl
  | succ n ih =>
    rw [Nat.succ_mul, Nat.add_comm (n * b) b, read_add, read_add] at h
    obtain ⟨hfirst, hrest⟩ := List.append_inj h (by rw [length_read, length_read])
    rw [blocks, blocks, hfirst, ih hrest]

/-- Blocks that were stored one behind the other are found as blocks. -/
lemma blocks_store_flatten (m : ByteMemory) {b : Nat} (a : Nat) {ls : List (List UInt8)} (h : ∀ l ∈ ls, l.length = b) :
    (m.store a ls.flatten).blocks b a ls.length = ls := by
  induction ls generalizing m a with
  | nil => rfl
  | cons l ls ih =>
    have hl : l.length = b := h l List.mem_cons_self
    rw [← m.store_flatten a hl ls, List.length_cons, blocks,
      ih (m.store a l) (a + b) (fun x hx => h x (List.mem_cons_of_mem l hx)),
      read_store_of_disjoint _ _ (Or.inl (Nat.le_refl _)), ← hl, read_store]

/-- The memory without what it holds in `r` and without the writes into `r`. -/
def off (m : ByteMemory) (r : Region) : ByteMemory where
  bytes x := if r.address ≤ x ∧ x < r.address + r.bytes then 0 else m.bytes x
  written := m.written.filter (fun x => ¬(r.address ≤ x ∧ x < r.address + r.bytes))

lemma off_bytes {m : ByteMemory} {r : Region} {x : Nat} (h : ¬(r.address ≤ x ∧ x < r.address + r.bytes)) :
    (m.off r).bytes x = m.bytes x :=
  if_neg h

/-- A read outside of the region does not see whether it was forgotten. -/
lemma read_off (m : ByteMemory) {r : Region} {a n : Nat}
    (h : a + n ≤ r.address ∨ r.address + r.bytes ≤ a) : (m.off r).read a n = m.read a n := by
  apply read_congr
  intro x hle hlt
  apply off_bytes
  omega

lemma off_store_of_within (m : ByteMemory) {r : Region} {a : Nat} (bs : List UInt8)
    (hlow : r.address ≤ a) (hhigh : a + bs.length ≤ r.address + r.bytes) : (m.store a bs).off r = m.off r := by
  apply ext_bytes
  · intro x
    by_cases h : r.address ≤ x ∧ x < r.address + r.bytes
    · rw [off, off]
      simp only [h, and_self, if_true]
    · rw [off_bytes h, off_bytes h]
      by_cases hx : x < a
      · exact store_bytes_of_lt m bs hx
      · exact store_bytes_of_le m bs (by omega)
  · have hnil : (List.range' a bs.length).filter (fun x => ¬(r.address ≤ x ∧ x < r.address + r.bytes)) = [] := by
      rw [List.filter_eq_nil_iff]
      intro x hx
      rw [List.mem_range'_1] at hx
      simp only [decide_eq_true_eq, not_not]
      omega
    rw [off, off, store, List.filter_append, hnil, List.append_nil]

lemma off_store_of_disjoint (m : ByteMemory) {r : Region} {a : Nat} (bs : List UInt8)
    (h : a + bs.length ≤ r.address ∨ r.address + r.bytes ≤ a) : (m.store a bs).off r = (m.off r).store a bs := by
  apply ext_bytes
  · intro x
    by_cases hx : x < a
    · rw [store_bytes_of_lt _ _ hx, off, off]
      simp only [store_bytes_of_lt _ _ hx]
    · by_cases hx' : x < a + bs.length
      · obtain ⟨i, rfl⟩ := Nat.exists_eq_add_of_le (Nat.le_of_not_lt hx)
        have hi : i < bs.length := by omega
        rw [off_bytes (by omega), store_bytes_add _ _ _ hi, store_bytes_add _ _ _ hi]
      · have hle : a + bs.length ≤ x := Nat.le_of_not_lt hx'
        rw [store_bytes_of_le _ _ hle, off, off]
        simp only [store_bytes_of_le _ _ hle]
  · have hself : (List.range' a bs.length).filter (fun x => ¬(r.address ≤ x ∧ x < r.address + r.bytes)) =
        List.range' a bs.length := by
      rw [List.filter_eq_self]
      intro x hx
      rw [List.mem_range'_1] at hx
      simp only [decide_eq_true_eq]
      omega
    rw [off, store, store, List.filter_append, hself]
    rfl

end ByteMemory

end McuxDrivers.Lib
