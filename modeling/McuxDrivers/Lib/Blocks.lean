import Mathlib.Data.List.Basic
import Mathlib.Data.Nat.Bitwise
import Mathlib.Tactic.Ring

/-!
# Block streams

A block processor consumes a byte stream in blocks of `n` elements and keeps an incomplete
tail. This file cuts a list into its blocks, shows that a list of full blocks is determined
by its concatenation, and gives the step of a consumer that buffers up to one full block.
-/

namespace McuxDrivers.Lib

variable {α : Type}

/-- The full blocks of `n` elements of a list, without the incomplete tail. -/
def blocksOf (n : Nat) (l : List α) : List (List α) :=
  (List.range (l.length / n)).map (fun i => (l.drop (i * n)).take n)

/-- What `blocksOf` leaves over. -/
def tailOf (n : Nat) (l : List α) : List α :=
  l.drop (l.length / n * n)

@[simp]
lemma blocksOf_nil (n : Nat) : blocksOf n ([] : List α) = [] := by
  simp [blocksOf]

lemma length_of_mem_blocksOf {n : Nat} {l b : List α} (hb : b ∈ blocksOf n l) : b.length = n := by
  obtain ⟨i, hi, rfl⟩ := List.mem_map.mp hb
  have hlt : i < l.length / n := List.mem_range.mp hi
  have hle : (i + 1) * n ≤ l.length :=
    (Nat.mul_le_mul_right n hlt).trans (Nat.div_mul_le_self _ _)
  have hsplit : (i + 1) * n = i * n + n := by ring
  rw [List.length_take, List.length_drop]
  omega

lemma blocksOf_cons {n : Nat} (hn : 0 < n) (b l : List α) (hb : b.length = n) :
    blocksOf n (b ++ l) = b :: blocksOf n l := by
  have hlen : (b ++ l).length / n = l.length / n + 1 := by
    rw [List.length_append, hb, Nat.add_comm, Nat.add_div_right _ hn]
  unfold blocksOf
  rw [hlen, List.range_succ_eq_map, List.map_cons, List.map_map]
  congr 1
  · simp [← hb]
  · apply List.map_congr_left
    intro i _
    have hi : Nat.succ i * n = b.length + i * n := by rw [hb, Nat.succ_mul, Nat.add_comm]
    rw [Function.comp_apply, hi, List.drop_length_add_append]

/-- A list of blocks is recovered from its concatenation. -/
theorem blocksOf_flatten {n : Nat} (hn : 0 < n) (bs : List (List α))
    (h : ∀ b ∈ bs, b.length = n) : blocksOf n bs.flatten = bs := by
  induction bs with
  | nil => simp
  | cons b bs ih =>
    rw [List.flatten_cons, blocksOf_cons hn b _ (h b (by simp)),
      ih (fun c hc => h c (List.mem_cons_of_mem _ hc))]

lemma blocksOf_of_length_lt {n : Nat} {l : List α} (h : l.length < n) : blocksOf n l = [] := by
  simp [blocksOf, Nat.div_eq_of_lt h]

lemma tailOf_of_length_lt {n : Nat} {l : List α} (h : l.length < n) : tailOf n l = l := by
  simp [tailOf, Nat.div_eq_of_lt h]

lemma tailOf_append {n : Nat} (hn : 0 < n) (b l : List α) (hb : b.length = n) :
    tailOf n (b ++ l) = tailOf n l := by
  have hlen : (b ++ l).length / n * n = b.length + l.length / n * n := by
    rw [List.length_append, hb, Nat.add_comm n, Nat.add_div_right _ hn, Nat.succ_mul, Nat.add_comm]
  rw [tailOf, hlen, List.drop_length_add_append, tailOf]

/-- Cutting at a multiple of the block size. -/
lemma blocksOf_append_mul {n : Nat} (hn : 0 < n) (k : Nat) (a b : List α) (ha : a.length = k * n) :
    blocksOf n (a ++ b) = blocksOf n a ++ blocksOf n b ∧ tailOf n (a ++ b) = tailOf n b := by
  induction k generalizing a with
  | zero =>
    have hnil : a = [] := List.length_eq_zero_iff.mp (by rw [ha, Nat.zero_mul])
    rw [hnil]
    simp
  | succ k ih =>
    have hsucc : (k + 1) * n = k * n + n := Nat.succ_mul k n
    have hhead : (a.take n).length = n := by rw [List.length_take]; omega
    obtain ⟨hblocks, htail⟩ := ih (a.drop n) (by rw [List.length_drop]; omega)
    have hcut : a.take n ++ a.drop n = a := List.take_append_drop n a
    rw [← hcut, List.append_assoc, blocksOf_cons hn _ _ hhead, blocksOf_cons hn _ _ hhead,
      tailOf_append hn _ _ hhead, hblocks, htail]
    simp

lemma length_completed {n : Nat} {buf chunk : List α} (hb : buf.length ≤ n) (hgt : n < buf.length + chunk.length) :
    (buf ++ chunk.take (n - buf.length)).length = n := by
  rw [List.length_append, List.length_take]
  omega

/-- A buffer of at most one block and a chunk that overflows it: the first block is the buffer
completed from the chunk. -/
lemma blocksOf_append_overflow {n : Nat} (hn : 0 < n) (buf chunk : List α) (hb : buf.length ≤ n)
    (hgt : n < buf.length + chunk.length) :
    blocksOf n (buf ++ chunk) =
        (buf ++ chunk.take (n - buf.length)) :: blocksOf n (chunk.drop (n - buf.length)) ∧
      tailOf n (buf ++ chunk) = tailOf n (chunk.drop (n - buf.length)) := by
  have hfull := length_completed hb hgt
  have hcut : buf ++ chunk =
      (buf ++ chunk.take (n - buf.length)) ++ chunk.drop (n - buf.length) := by
    rw [List.append_assoc, List.take_append_drop]
  rw [hcut]
  exact ⟨blocksOf_cons hn _ _ hfull, tailOf_append hn _ _ hfull⟩

lemma length_tailOf_lt {n : Nat} (hn : 0 < n) (l : List α) : (tailOf n l).length < n := by
  have h := Nat.div_add_mod l.length n
  have hm := Nat.mod_lt l.length hn
  rw [tailOf, List.length_drop, Nat.mul_comm]
  omega

lemma flatten_blocksOf_append_tailOf {n : Nat} (hn : 0 < n) (l : List α) :
    (blocksOf n l).flatten ++ tailOf n l = l := by
  induction hk : l.length using Nat.strong_induction_on generalizing l with
  | _ k ih =>
    by_cases hlt : l.length < n
    · rw [blocksOf_of_length_lt hlt, tailOf_of_length_lt hlt]
      rfl
    · have hb : (l.take n).length = n := by rw [List.length_take]; omega
      have hrest := ih (l.drop n).length (by rw [List.length_drop]; omega) (l.drop n) rfl
      have hl : l.take n ++ l.drop n = l := List.take_append_drop n l
      rw [← hl, blocksOf_cons hn _ _ hb, tailOf_append hn _ _ hb, List.flatten_cons,
        List.append_assoc, hrest]

/-- The loop `while (size >= n)` that hands a message over block by block: the consumer after the
full blocks and the bytes left. -/
def feedBlocks {σ : Type} (n : Nat) (step : σ → List α → σ) (s : σ) (message : List α) : σ × List α :=
  if _h : 0 < n ∧ n ≤ message.length then feedBlocks n step (step s (message.take n)) (message.drop n)
  else (s, message)
termination_by message.length
decreasing_by
  rw [List.length_drop]
  omega

lemma feedBlocks_eq {σ : Type} {n : Nat} (hn : 0 < n) (step : σ → List α → σ) (s : σ)
    (message : List α) :
    feedBlocks n step s message = ((blocksOf n message).foldl step s, tailOf n message) := by
  fun_induction feedBlocks n step s message with
  | case1 s message hge ih =>
    have hlen : (message.take n).length = n := by
      rw [List.length_take]
      exact Nat.min_eq_left hge.2
    have hblocks := blocksOf_cons hn _ (message.drop n) hlen
    have htail := tailOf_append hn _ (message.drop n) hlen
    rw [List.take_append_drop] at hblocks htail
    rw [ih, hblocks, htail, List.foldl_cons]
  | case2 s message hlt =>
    have hshort : message.length < n := by omega
    rw [blocksOf_of_length_lt hshort, tailOf_of_length_lt hshort]
    rfl

/-- One update of a consumer that holds up to one full block back: the chunk is only buffered
while everything still fits into one block, otherwise the buffer is completed and fed and the
chunk is fed block by block. -/
def absorb (n : Nat) (s : List (List α) × List α) (chunk : List α) : List (List α) × List α :=
  if (s.2 ++ chunk).length ≤ n then (s.1, s.2 ++ chunk)
  else (s.1 ++ blocksOf n (s.2 ++ chunk), tailOf n (s.2 ++ chunk))

lemma absorb_of_le {n : Nat} {s : List (List α) × List α} {chunk : List α} (h : s.2.length + chunk.length ≤ n) :
    absorb n s chunk = (s.1, s.2 ++ chunk) := by
  rw [absorb, if_pos (by rwa [List.length_append])]

lemma absorb_of_lt {n : Nat} {s : List (List α) × List α} {chunk : List α} (h : n < s.2.length + chunk.length) :
    absorb n s chunk = (s.1 ++ blocksOf n (s.2 ++ chunk), tailOf n (s.2 ++ chunk)) := by
  rw [absorb, if_neg (by rw [List.length_append]; exact Nat.not_le_of_lt h)]

/-- The blocks fed so far and the buffer spell the message received so far. -/
structure Absorbed (n : Nat) (s : List (List α) × List α) (message : List α) : Prop where
  full : ∀ b ∈ s.1, b.length = n
  bounded : s.2.length ≤ n
  spelled : s.1.flatten ++ s.2 = message

lemma absorbed_nil (n : Nat) : Absorbed n (([], []) : List (List α) × List α) [] :=
  ⟨by simp, by simp, rfl⟩

lemma Absorbed.absorb_nil {n : Nat} {s : List (List α) × List α} {message : List α} (h : Absorbed n s message) :
    absorb n s [] = s := by
  rw [absorb_of_le (by simpa using h.bounded), List.append_nil]

theorem Absorbed.absorb {n : Nat} (hn : 0 < n) {s : List (List α) × List α} {message : List α}
    (h : Absorbed n s message) (chunk : List α) :
    Absorbed n (absorb n s chunk) (message ++ chunk) := by
  unfold Lib.absorb
  split
  next hle =>
    refine ⟨h.full, hle, ?_⟩
    rw [← List.append_assoc, h.spelled]
  next hgt =>
    refine ⟨?_, (length_tailOf_lt hn _).le, ?_⟩
    · intro b hb
      rcases List.mem_append.mp hb with hb | hb
      · exact h.full b hb
      · exact length_of_mem_blocksOf hb
    · rw [List.flatten_append, List.append_assoc, flatten_blocksOf_append_tailOf hn,
        ← List.append_assoc, h.spelled]

end McuxDrivers.Lib
