import McuxDrivers.Usdhc.DataPort

/-!
# The words that go through the data port

One access of the port moves the next words of the buffer; it stays within the buffer unless it takes the total again.
-/

namespace McuxDrivers.Usdhc

open Lib

/-- `blockSize` rounded up to whole words. -/
def wholeWords (blockSize : Nat) : Nat :=
  (blockSize + 3) / 4 * 4

/-- The word `i` that has moved is element `i` of the buffer, which has `total` words. -/
structure InBuffer (total : Nat) (moved : List BufferAccess) : Prop where
  inOrder : moved.map BufferAccess.index = List.range moved.length
  bounded : moved.length ≤ total

instance (total : Nat) (moved : List BufferAccess) : Decidable (InBuffer total moved) :=
  decidable_of_iff (moved.map BufferAccess.index = List.range moved.length ∧ moved.length ≤ total)
    ⟨fun h => ⟨h.1, h.2⟩, fun h => ⟨h.inOrder, h.bounded⟩⟩

/-- The words have moved one after the other, and the count is theirs. -/
def PortState.Counted (s : PortState) : Prop :=
  s.moved.map BufferAccess.index = List.range s.transferredWords

lemma PortState.Counted.length_moved {s : PortState} (hs : s.Counted) : s.moved.length = s.transferredWords := by
  simpa using congrArg List.length hs

lemma PortState.Counted.inBuffer {s : PortState} (hs : s.Counted) {total : Nat} (hle : s.transferredWords ≤ total) :
    InBuffer total s.moved where
  inOrder := by
    rw [hs.length_moved]
    exact hs
  bounded := by
    rw [hs.length_moved]
    exact hle

lemma moveWords_eq (access : Nat → BufferAccess) (n : Nat) (s : PortState) (hlt : s.transferredWords + n < 2 ^ 32) :
    moveWords access n s =
      { s with
        transferredWords := s.transferredWords + n
        moved := s.moved ++ (List.range' s.transferredWords n).map access } := by
  induction n generalizing s with
  | zero => simp [moveWords]
  | succ n ih =>
    have hone : (s.transferredWords + 1) % 2 ^ 32 = s.transferredWords + 1 := Nat.mod_eq_of_lt (by omega)
    rw [moveWords, ih _ (by simp only [hone]; omega), hone]
    simp [List.range'_succ, Nat.add_comm, Nat.add_left_comm]

lemma words_moveWords (access : Nat → BufferAccess) (n : Nat) {s : PortState} {P : BufferAccess → Prop}
    (haccess : ∀ i, P (access i)) (hs : ∀ w ∈ s.moved, P w) : ∀ w ∈ (moveWords access n s).moved, P w := by
  induction n generalizing s with
  | zero => exact hs
  | succ n ih =>
    apply ih
    intro w hw
    cases List.mem_append.mp hw with
    | inl hold => exact hs w hold
    | inr hnew =>
      rw [List.mem_singleton.mp hnew]
      exact haccess s.transferredWords

lemma wordsAtOnce_eq {watermark total transferred : Nat} (hle : transferred ≤ total) :
    wordsAtOnce watermark total transferred =
      if total ≤ watermark then total else min watermark (total - transferred) := by
  rw [wordsAtOnce, wsub32_of_le hle]
  split_ifs <;> omega

lemma wordAligned_eq_wholeWords {blockSize : Nat} (hlt : blockSize < 2 ^ 32) :
    wordAligned blockSize = wholeWords blockSize % 2 ^ 32 := by
  unfold wordAligned wholeWords
  split_ifs <;> omega

lemma wordAligned_wordAligned (blockSize : Nat) : wordAligned (wordAligned blockSize) = wordAligned blockSize := by
  unfold wordAligned
  split_ifs <;> omega

namespace PortConfig

variable (c : PortConfig)

/-- The words of all blocks. -/
def allWords (blockSize : Nat) : Nat :=
  c.blockCount * wholeWords blockSize / 4

/-- The bytes of all blocks can be counted with 32 bits. -/
def NoWrap (blockSize : Nat) : Prop :=
  c.blockCount * wholeWords blockSize < 2 ^ 32

instance (blockSize : Nat) : Decidable (c.NoWrap blockSize) :=
  inferInstanceAs (Decidable (_ < _))

lemma totalWords_lt (blockSize : Nat) : c.totalWords blockSize < 2 ^ 30 := by
  unfold totalWords
  omega

lemma totalWords_wordAligned (blockSize : Nat) :
    c.totalWords (wordAligned blockSize) = c.totalWords blockSize := by
  rw [totalWords, totalWords, wordAligned_wordAligned]

variable {c}

lemma NoWrap.totalWords_eq {blockSize : Nat} (hfits : c.NoWrap blockSize) (hlt : blockSize < 2 ^ 32) :
    c.totalWords blockSize = c.allWords blockSize := by
  rw [totalWords, allWords, wordAligned_eq_wholeWords hlt, Nat.mul_mod_mod, Nat.mod_eq_of_lt hfits]

lemma totalWords_lt_allWords {blockSize : Nat} (hwrap : ¬ c.NoWrap blockSize) :
    c.totalWords blockSize < c.allWords blockSize := by
  have hbytes : 2 ^ 32 ≤ c.blockCount * wholeWords blockSize := Nat.le_of_not_lt hwrap
  have hwords : c.totalWords blockSize < 2 ^ 30 := c.totalWords_lt blockSize
  unfold allWords
  omega

/-- The words that one access of the port moves. -/
def quantum (c : PortConfig) (watermark : Nat) (s : PortState) : Nat :=
  wordsAtOnce watermark (c.totalWords s.blockSize) s.transferredWords

lemma quantum_eq (watermark : Nat) {s : PortState} (hle : s.transferredWords ≤ c.totalWords s.blockSize) :
    c.quantum watermark s =
      if c.totalWords s.blockSize ≤ watermark then c.totalWords s.blockSize
      else min watermark (c.totalWords s.blockSize - s.transferredWords) :=
  wordsAtOnce_eq hle

lemma quantum_pos {watermark : Nat} {s : PortState} (hpos : 1 ≤ watermark)
    (hlt : s.transferredWords < c.totalWords s.blockSize) : 0 < c.quantum watermark s := by
  rw [quantum_eq watermark hlt.le]
  split_ifs <;> omega

/-- An access that does not take the total again stays within the buffer. -/
lemma quantum_fits {watermark : Nat} {s : PortState} (hle : s.transferredWords ≤ c.totalWords s.blockSize)
    (hfirst : c.totalWords s.blockSize ≤ watermark → s.transferredWords = 0) :
    s.transferredWords + c.quantum watermark s ≤ c.totalWords s.blockSize := by
  rw [quantum_eq watermark hle]
  split_ifs with hall
  · rw [hfirst hall, Nat.zero_add]
  · omega

lemma movePort_eq (hport : c.dmaEnabled = false) (watermark : Nat) (access : Nat → BufferAccess) {s : PortState}
    (hle : s.transferredWords ≤ c.totalWords s.blockSize) :
    c.movePort watermark access s =
      { blockSize := wordAligned s.blockSize
        transferredWords := s.transferredWords + c.quantum watermark s
        moved := s.moved ++ (List.range' s.transferredWords (c.quantum watermark s)).map access } := by
  have hwords : c.totalWords s.blockSize < 2 ^ 30 := c.totalWords_lt s.blockSize
  have hquantum : c.quantum watermark s ≤ c.totalWords s.blockSize := by
    rw [quantum_eq watermark hle]
    split_ifs <;> omega
  rw [movePort, if_neg (by simp [hport])]
  apply moveWords_eq
  simp only
  unfold quantum at hquantum
  omega

lemma words_movePort (watermark : Nat) {access : Nat → BufferAccess} {s : PortState} {P : BufferAccess → Prop}
    (haccess : ∀ i, P (access i)) (hs : ∀ w ∈ s.moved, P w) : ∀ w ∈ (c.movePort watermark access s).moved, P w := by
  unfold movePort
  split_ifs
  · exact hs
  · exact words_moveWords access _ haccess hs

lemma counted_movePort (hport : c.dmaEnabled = false) (watermark : Nat) {access : Nat → BufferAccess}
    (hindex : ∀ i, (access i).index = i) {s : PortState} (hs : s.Counted)
    (hle : s.transferredWords ≤ c.totalWords s.blockSize) : (c.movePort watermark access s).Counted := by
  have hsame : BufferAccess.index ∘ access = id := by
    funext i
    exact hindex i
  have hrange := @List.range'_append_1 0 s.transferredWords (c.quantum watermark s)
  rw [movePort_eq hport watermark access hle]
  unfold PortState.Counted at hs ⊢
  simp only [List.map_append, List.map_map, hsame, hs, List.map_id, List.range_eq_range']
  rwa [Nat.zero_add] at hrange

end PortConfig

end McuxDrivers.Usdhc
