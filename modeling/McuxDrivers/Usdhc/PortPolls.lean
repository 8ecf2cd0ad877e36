import McuxDrivers.Usdhc.PortWords

/-!
# The polls of the blocking functions

`USDHC_ReadByDataPortBlocking` and `USDHC_WriteByDataPortBlocking` differ in the port function, in what follows the loop
and in the tuning transfer. What they have in common is stated here of any `poll`.
-/

namespace McuxDrivers.Usdhc

open Lib

/-- No error flag is raised. -/
def PortFlags.NoError (flags : PortFlags) : Prop :=
  flags.dataError = false ∧ flags.tuningError = false

/-- A poll that moves no word. -/
structure Blocking.Rests (s s' : Blocking) : Prop where
  port : s'.port = s.port
  totalWords : s'.totalWords = s.totalWords
  phase : s'.phase = .transferring → s.phase = .transferring

lemma Blocking.Rests.refl (s : Blocking) : s.Rests s :=
  ⟨rfl, rfl, id⟩

lemma Blocking.Rests.leave (s : Blocking) {phase : BlockingPhase} (hphase : phase ≠ .transferring) :
    s.Rests { s with phase } :=
  ⟨rfl, rfl, fun hsame => absurd hsame hphase⟩

/-- What holds between the polls: in the loop there is more to move, and a `watermark` that reaches `total` has not moved
a word. -/
structure Blocking.Inv (c : PortConfig) (watermark : Nat) (access : Nat → BufferAccess) (total : Nat) (s : Blocking) :
    Prop where
  counted : s.port.Counted
  words : ∀ w ∈ s.port.moved, ∃ i, w = access i
  totalWords : s.totalWords = total
  size : c.totalWords s.port.blockSize = total
  within : s.port.transferredWords ≤ total
  ahead : s.phase = .transferring → s.port.transferredWords < total
  first : s.phase = .transferring → total ≤ watermark → s.port.transferredWords = 0

section

variable {c : PortConfig} {watermark total : Nat} {access : Nat → BufferAccess} {after : BlockingPhase} {s s' : Blocking}

lemma Blocking.Inv.rests (hs : s.Inv c watermark access total) (hrests : s.Rests s') :
    s'.Inv c watermark access total where
  counted := by simpa only [hrests.port] using hs.counted
  words := by simpa only [hrests.port] using hs.words
  totalWords := by rw [hrests.totalWords, hs.totalWords]
  size := by rw [hrests.port, hs.size]
  within := by simpa only [hrests.port] using hs.within
  ahead hphase := by simpa only [hrests.port] using hs.ahead (hrests.phase hphase)
  first hphase := by simpa only [hrests.port] using hs.first (hrests.phase hphase)

lemma Blocking.Inv.advance (hport : c.dmaEnabled = false) (hindex : ∀ i, (access i).index = i)
    (hafter : after ≠ .transferring) (hs : s.Inv c watermark access total) (hphase : s.phase = .transferring) :
    (s.advance after (c.movePort watermark access s.port)).Inv c watermark access total := by
  have hle : s.port.transferredWords ≤ c.totalWords s.port.blockSize := hs.size ▸ hs.within
  have hfirst : c.totalWords s.port.blockSize ≤ watermark → s.port.transferredWords = 0 := hs.size ▸ hs.first hphase
  have hfits := PortConfig.quantum_fits hle hfirst
  have hquantum := PortConfig.quantum_eq watermark hle
  have hagain : (s.advance after (c.movePort watermark access s.port)).phase = .transferring →
      (c.movePort watermark access s.port).transferredWords < total := by
    intro hagain
    by_contra hend
    rw [Blocking.advance, hs.totalWords, if_neg hend] at hagain
    exact hafter hagain
  have hmoved := PortConfig.movePort_eq hport watermark access hle
  refine ⟨PortConfig.counted_movePort hport watermark hindex hs.counted hle,
    PortConfig.words_movePort watermark (fun i => ⟨i, rfl⟩) hs.words, hs.totalWords, ?_, ?_, hagain, ?_⟩
  · simp only [Blocking.advance, hmoved, PortConfig.totalWords_wordAligned, hs.size]
  · simp only [Blocking.advance, hmoved]
    rwa [hs.size] at hfits
  · intro hnext hall
    have hmore := hagain hnext
    rw [hmoved] at hmore
    rw [hs.size, if_pos hall] at hquantum
    simp only [hquantum] at hmore
    omega

end

/-- What the polls of both functions do. -/
def Polls (c : PortConfig) (watermark : Nat) (access : Nat → BufferAccess) (after : BlockingPhase)
    (poll : Blocking → PortFlags → Blocking) : Prop :=
  ∀ (s : Blocking) (flags : PortFlags), s.Rests (poll s flags) ∨
    s.phase = .transferring ∧ poll s flags = s.advance after (c.movePort watermark access s.port)

/-- Without an error flag, a poll of the loop moves words exactly if the port is ready. -/
structure Progresses (c : PortConfig) (watermark : Nat) (access : Nat → BufferAccess) (after : BlockingPhase)
    (ready : PortFlags → Bool) (poll : Blocking → PortFlags → Blocking) : Prop where
  moves : ∀ (s : Blocking) (flags : PortFlags), flags.NoError → s.phase = .transferring → ready flags = true →
    poll s flags = s.advance after (c.movePort watermark access s.port)
  waits : ∀ (s : Blocking) (flags : PortFlags), flags.NoError → s.phase = .transferring → ready flags = false → poll s flags = s
  ended : ∀ (s : Blocking) (flags : PortFlags), s.phase ≠ .transferring → s.Rests (poll s flags)

section

variable {c : PortConfig} {watermark total : Nat} {access : Nat → BufferAccess} {after : BlockingPhase}
variable {poll : Blocking → PortFlags → Blocking} {ready : PortFlags → Bool}

lemma Polls.run_inv (hpolls : Polls c watermark access after poll) (hport : c.dmaEnabled = false)
    (hindex : ∀ i, (access i).index = i) (hafter : after ≠ .transferring) (polls : List PortFlags) {s : Blocking}
    (hs : s.Inv c watermark access total) : (polls.foldl poll s).Inv c watermark access total := by
  induction polls generalizing s with
  | nil => exact hs
  | cons flags polls ih =>
    apply ih
    cases hpolls s flags with
    | inl hrests => exact hs.rests hrests
    | inr hmoves =>
      rw [hmoves.2]
      exact hs.advance hport hindex hafter hmoves.1

/-- A loop that has been left stays left. -/
lemma Progresses.run_ended (hprog : Progresses c watermark access after ready poll) (polls : List PortFlags) {s : Blocking}
    (hphase : s.phase ≠ .transferring) :
    (polls.foldl poll s).phase ≠ .transferring ∧ (polls.foldl poll s).port = s.port := by
  induction polls generalizing s with
  | nil => exact ⟨hphase, rfl⟩
  | cons flags polls ih =>
    have hrests := hprog.ended s flags hphase
    obtain ⟨hrest, hsame⟩ := ih (fun hnext => hphase (hrests.phase hnext))
    exact ⟨hrest, hsame.trans hrests.port⟩

/-- While the loop goes on, each poll that finds the port ready has moved a word. -/
lemma Progresses.count_le (hprog : Progresses c watermark access after ready poll) (hport : c.dmaEnabled = false)
    (hpos : 1 ≤ watermark) (hindex : ∀ i, (access i).index = i) (hafter : after ≠ .transferring)
    (polls : List PortFlags) (hclean : ∀ flags ∈ polls, flags.NoError) {s : Blocking}
    (hs : s.Inv c watermark access total) (hend : (polls.foldl poll s).phase = .transferring) :
    s.port.transferredWords + polls.countP ready ≤ (polls.foldl poll s).port.transferredWords := by
  induction polls generalizing s with
  | nil => simp
  | cons flags polls ih =>
    have hflags : flags.NoError := hclean flags List.mem_cons_self
    have hrest : ∀ flags ∈ polls, flags.NoError := fun flags hmem => hclean flags (List.mem_cons_of_mem _ hmem)
    have hphase : s.phase = .transferring := by
      by_contra hleft
      exact (hprog.run_ended (flags :: polls) hleft).1 hend
    rw [List.foldl_cons] at hend ⊢
    cases hready : ready flags with
    | false =>
      rw [hprog.waits s flags hflags hphase hready] at hend ⊢
      rw [List.countP_cons_of_neg (by simp [hready])]
      exact ih hrest hs hend
    | true =>
      have hle : s.port.transferredWords < c.totalWords s.port.blockSize := hs.size ▸ hs.ahead hphase
      have hstep := hs.advance hport hindex hafter hphase
      have hmoved := PortConfig.movePort_eq hport watermark access hle.le
      have hmore := PortConfig.quantum_pos hpos hle
      rw [hprog.moves s flags hflags hphase hready] at hend ⊢
      rw [List.countP_cons_of_pos hready]
      have htail := ih hrest hstep hend
      have hword : s.port.transferredWords + 1 ≤ (s.advance after (c.movePort watermark access s.port)).port.transferredWords := by
        simp only [Blocking.advance, hmoved]
        omega
      omega

/-- Without an error flag the loop is left with all words moved. -/
lemma Progresses.run_complete (hprog : Progresses c watermark access after ready poll) (hport : c.dmaEnabled = false)
    (hindex : ∀ i, (access i).index = i) (hafter : after ≠ .transferring) (polls : List PortFlags)
    (hclean : ∀ flags ∈ polls, flags.NoError) {s : Blocking} (hs : s.Inv c watermark access total)
    (hall : s.phase ≠ .transferring → s.port.transferredWords = total)
    (hend : (polls.foldl poll s).phase ≠ .transferring) : (polls.foldl poll s).port.transferredWords = total := by
  induction polls generalizing s with
  | nil => exact hall hend
  | cons flags polls ih =>
    have hflags : flags.NoError := hclean flags List.mem_cons_self
    have hrest : ∀ flags ∈ polls, flags.NoError := fun flags hmem => hclean flags (List.mem_cons_of_mem _ hmem)
    by_cases hphase : s.phase = .transferring
    · rw [List.foldl_cons] at hend ⊢
      cases hready : ready flags with
      | false =>
        rw [hprog.waits s flags hflags hphase hready] at hend ⊢
        exact ih hrest hs hall hend
      | true =>
        have hstep := hs.advance hport hindex hafter hphase
        rw [hprog.moves s flags hflags hphase hready] at hend ⊢
        apply ih hrest hstep _ hend
        intro hleft
        have hlast : ¬ (c.movePort watermark access s.port).transferredWords < total := by
          intro hlt
          rw [Blocking.advance, hs.totalWords, if_pos hlt] at hleft
          exact hleft rfl
        have hwithin : (c.movePort watermark access s.port).transferredWords ≤ total := hstep.within
        exact Nat.le_antisymm hwithin (Nat.le_of_not_lt hlast)
    · rw [(hprog.run_ended (flags :: polls) hphase).2]
      exact hall hphase

end

namespace PortConfig

variable (c : PortConfig)

lemma readPoll_of_ended (s : Blocking) (flags : PortFlags) (hphase : s.phase ≠ .transferring) :
    c.readPoll s flags = s := by
  rw [readPoll, if_pos hphase]

/-- A tuning transfer is over with the first word that is ready. -/
lemma readPoll_of_tuning (htuning : c.tuning = true) (s : Blocking) (flags : PortFlags) (hready : flags.readReady = true) :
    (c.readPoll s flags).phase ≠ .transferring ∧ (c.readPoll s flags).port = s.port := by
  by_cases hphase : s.phase = .transferring
  · simp [readPoll, hphase, htuning, hready]
  · rw [readPoll_of_ended c s flags hphase]
    exact ⟨hphase, rfl⟩

lemma polls_read : Polls c c.readWatermark .rxData (.returned .success) c.readPoll := by
  intro s flags
  by_cases hphase : s.phase = .transferring
  · unfold readPoll
    rw [if_neg (not_not.mpr hphase)]
    split_ifs
    · exact Or.inl (Blocking.Rests.refl s)
    · exact Or.inl (Blocking.Rests.leave s (by simp))
    · exact Or.inl (Blocking.Rests.leave s (by simp))
    · exact Or.inl (Blocking.Rests.leave s (by simp))
    · exact Or.inr ⟨hphase, rfl⟩
  · rw [readPoll_of_ended c s flags hphase]
    exact Or.inl (Blocking.Rests.refl s)

lemma progresses_read (htuning : c.tuning = false) :
    Progresses c c.readWatermark .rxData (.returned .success) PortFlags.readReady c.readPoll where
  moves s flags hclean hphase hready := by
    simp [readPoll, hphase, hready, htuning, tuningFails, hclean.1, hclean.2, readDataPort]
  waits s flags hclean hphase hready := by
    simp [readPoll, hready, tuningFails, hclean.1, hclean.2]
  ended s flags hphase := by
    rw [readPoll_of_ended c s flags hphase]
    exact Blocking.Rests.refl s

lemma polls_write : Polls c c.writeWatermark .txData .completing c.writePoll := by
  intro s flags
  unfold writePoll
  cases hphase : s.phase with
  | transferring =>
    simp only
    split_ifs
    · exact Or.inl (Blocking.Rests.refl s)
    · exact Or.inl (Blocking.Rests.leave s (by simp))
    · exact Or.inl (Blocking.Rests.leave s (by simp))
    · exact Or.inr ⟨trivial, rfl⟩
  | completing =>
    simp only
    split_ifs
    · exact Or.inl (Blocking.Rests.refl s)
    · exact Or.inl (Blocking.Rests.leave s (by simp))
    · exact Or.inl (Blocking.Rests.leave s (by simp))
  | returned status => exact Or.inl (Blocking.Rests.refl s)

lemma progresses_write : Progresses c c.writeWatermark .txData .completing PortFlags.writeReady c.writePoll where
  moves s flags hclean hphase hready := by
    simp [writePoll, hphase, hready, tuningFails, hclean.1, hclean.2, writeDataPort]
  waits s flags hclean hphase hready := by
    simp [writePoll, hphase, hready, tuningFails, hclean.1, hclean.2]
  ended s flags hphase := by
    cases polls_write c s flags with
    | inl hrests => exact hrests
    | inr hmoves => exact absurd hmoves.1 hphase

/-- The loop starts with nothing moved, unless there is nothing to move. -/
lemma inv_startBlocking (watermark : Nat) (access : Nat → BufferAccess) {after : BlockingPhase}
    (hafter : after ≠ .transferring) (blockSize : Nat) :
    (c.startBlocking after blockSize).Inv c watermark access (c.totalWords blockSize) := by
  have hloop : (c.startBlocking after blockSize).phase = .transferring → 0 < c.totalWords blockSize := by
    intro hphase
    by_contra hnone
    exact hafter ((if_neg hnone).symm.trans hphase)
  exact {
    counted := rfl
    words := by simp [startBlocking, Blocking.advance]
    totalWords := rfl
    size := c.totalWords_wordAligned blockSize
    within := Nat.zero_le _
    ahead := hloop
    first := fun _ _ => rfl }

lemma startBlocking_ended {after : BlockingPhase} {blockSize : Nat}
    (hphase : (c.startBlocking after blockSize).phase ≠ .transferring) :
    (c.startBlocking after blockSize).port.transferredWords = c.totalWords blockSize := by
  by_contra hmore
  apply hphase
  apply if_pos
  exact Nat.pos_of_ne_zero (Ne.symm hmore)

end PortConfig

end McuxDrivers.Usdhc
