import McuxDrivers.Lib.Runs
import McuxDrivers.Usdhc.PortPolls

/-!
# The words of a transfer stay inside the buffer

The blocking functions stop at the total. `USDHC_TransferHandleData` has no such test, and an access of the port whose
watermark reaches the total takes the whole buffer again.
-/

namespace McuxDrivers.Usdhc

open Lib

variable (c : PortConfig) (blockSize : Nat)

/-- The transfer after the interrupts of `events`. -/
def afterInterrupts (events : List PortFlags) : PortState :=
  (events.foldl c.transferHandleData (startTransfer blockSize)).port

def afterReads (polls : List PortFlags) : Blocking :=
  polls.foldl c.readPoll (c.startRead blockSize)

def afterWrites (polls : List PortFlags) : Blocking :=
  polls.foldl c.writePoll (c.startWrite blockSize)

/-- A loop of a blocking function moves `total` words: it is not left before, and it is left when the port has been ready
as often. -/
def MovesAll (total : Nat) (ready : PortFlags → Bool) (run : List PortFlags → Blocking) : Prop :=
  ∀ polls : List PortFlags, (∀ flags ∈ polls, flags.NoError) →
    ((run polls).phase ≠ .transferring → (run polls).port.moved.length = total) ∧
      (total ≤ polls.countP ready → (run polls).phase ≠ .transferring)

/-- The transfers of all three functions keep to the buffer, and the blocking ones are complete. -/
structure KeepsToBuffer (events : List PortFlags) : Prop where
  interrupts : ∀ front, front <+: events → InBuffer (c.allWords blockSize) (afterInterrupts c blockSize front).moved
  onlyReads : (∀ flags ∈ events, flags.writeReady = false) →
    ∀ w ∈ (afterInterrupts c blockSize events).moved, w.isRead = true
  onlyWrites : (∀ flags ∈ events, flags.readReady = false) →
    ∀ w ∈ (afterInterrupts c blockSize events).moved, w.isRead = false
  reads : ∀ polls, InBuffer (c.allWords blockSize) (afterReads c blockSize polls).port.moved ∧
    ∀ w ∈ (afterReads c blockSize polls).port.moved, w.isRead = true
  writes : ∀ polls, InBuffer (c.allWords blockSize) (afterWrites c blockSize polls).port.moved ∧
    ∀ w ∈ (afterWrites c blockSize polls).port.moved, w.isRead = false
  readAll : MovesAll (c.allWords blockSize) PortFlags.readReady (afterReads c blockSize)
  writeAll : MovesAll (c.allWords blockSize) PortFlags.writeReady (afterWrites c blockSize)

/-- An interrupt that reads or writes at a watermark that reaches the total finds no word moved. -/
def FirstIfWhole (s : DataHandle) (flags : PortFlags) : Prop :=
  s.active = true → c.aborts flags = false →
    (flags.readReady = true → c.tuning = false → c.allWords blockSize ≤ c.readWatermark → s.port.transferredWords = 0) ∧
      (flags.readReady = false → flags.writeReady = true → c.allWords blockSize ≤ c.writeWatermark →
        s.port.transferredWords = 0)

instance (s : DataHandle) (flags : PortFlags) : Decidable (FirstIfWhole c blockSize s flags) :=
  inferInstanceAs (Decidable (_ → _ → _))

/-! The interrupts. -/

/-- What an interrupt does to the words. -/
lemma port_transferHandleData (s : DataHandle) (flags : PortFlags) :
    ((c.transferHandleData s flags).port = s.port ∧
      (s.active = true → c.aborts flags = false → flags.readReady = true → c.tuning = true) ∧
      (s.active = true → c.aborts flags = false → flags.readReady = false → flags.writeReady = false)) ∨
      (s.active = true ∧ c.aborts flags = false ∧ flags.readReady = true ∧ c.tuning = false ∧
        (c.transferHandleData s flags).port = c.readDataPort s.port) ∨
      (s.active = true ∧ c.aborts flags = false ∧ flags.readReady = false ∧ flags.writeReady = true ∧
        (c.transferHandleData s flags).port = c.writeDataPort s.port) := by
  unfold PortConfig.transferHandleData
  cases hactive : s.active with
  | false => simp
  | true =>
    cases haborts : c.aborts flags with
    | true => simp
    | false =>
      cases hread : flags.readReady with
      | true => cases htuning : c.tuning <;> simp
      | false =>
        cases hwrite : flags.writeReady with
        | true => simp
        | false => cases hcomplete : flags.dataComplete <;> simp

variable {c blockSize}

/-- What holds between the interrupts of a transfer whose events meet the condition. -/
structure DataHandle.Inv (c : PortConfig) (total : Nat) (s : DataHandle) : Prop where
  counted : s.port.Counted
  size : c.totalWords s.port.blockSize = total
  within : s.port.transferredWords ≤ total

lemma inv_startTransfer : (startTransfer blockSize).Inv c (c.totalWords blockSize) where
  counted := rfl
  size := rfl
  within := Nat.zero_le _

/-- An access that does not take the total again keeps the transfer in the buffer; after any other it is behind the
end. -/
lemma DataHandle.Inv.movePort (hport : c.dmaEnabled = false) {watermark total : Nat} {access : Nat → BufferAccess}
    (hindex : ∀ i, (access i).index = i) {s s' : DataHandle} (hs : s.Inv c total)
    (hmove : s'.port = c.movePort watermark access s.port) :
    ((total ≤ watermark → s.port.transferredWords = 0) → s'.Inv c total) ∧
      (¬ (total ≤ watermark → s.port.transferredWords = 0) → ¬ InBuffer total s'.port.moved) := by
  have hle : s.port.transferredWords ≤ c.totalWords s.port.blockSize := hs.size ▸ hs.within
  have hmoved := PortConfig.movePort_eq hport watermark access hle
  have hcounted : s'.port.Counted := by
    rw [hmove]
    exact PortConfig.counted_movePort hport watermark hindex hs.counted hle
  have hwords : s'.port.transferredWords = s.port.transferredWords + c.quantum watermark s.port := by
    rw [hmove, hmoved]
  constructor
  · intro hfirst
    have hfits := PortConfig.quantum_fits hle (hs.size ▸ hfirst)
    refine ⟨hcounted, ?_, ?_⟩
    · rw [hmove, hmoved]
      exact (c.totalWords_wordAligned s.port.blockSize).trans hs.size
    · rw [hwords]
      rwa [hs.size] at hfits
  · intro hagain hstay
    obtain ⟨hwhole, hsome⟩ := Classical.not_imp.mp hagain
    have hquantum := PortConfig.quantum_eq watermark hle
    rw [hs.size, if_pos hwhole] at hquantum
    have hbound := hstay.bounded
    rw [hcounted.length_moved, hwords, hquantum] at hbound
    omega

lemma DataHandle.Inv.step (hport : c.dmaEnabled = false) {s : DataHandle} (flags : PortFlags)
    (hs : s.Inv c (c.allWords blockSize)) :
    (FirstIfWhole c blockSize s flags → (c.transferHandleData s flags).Inv c (c.allWords blockSize)) ∧
      (¬ FirstIfWhole c blockSize s flags →
        ¬ InBuffer (c.allWords blockSize) (c.transferHandleData s flags).port.moved) := by
  unfold FirstIfWhole
  rcases port_transferHandleData c s flags with ⟨hrests, hread, hwrite⟩ | ⟨hactive, haborts, hread, htuning, hmove⟩ |
    ⟨hactive, haborts, hread, hwrite, hmove⟩
  · constructor
    · intro _
      refine ⟨?_, ?_, ?_⟩
      · simpa only [hrests] using hs.counted
      · simpa only [hrests] using hs.size
      · simpa only [hrests] using hs.within
    · intro hnot
      refine absurd (fun hactive haborts => ⟨?_, ?_⟩) hnot
      · intro hready hdata
        simp [hread hactive haborts hready] at hdata
      · intro hidle hready
        simp [hwrite hactive haborts hidle] at hready
  · have hmoves := hs.movePort hport (fun _ => rfl) hmove
    simpa [hactive, haborts, hread, htuning] using hmoves
  · have hmoves := hs.movePort hport (fun _ => rfl) hmove
    simpa [hactive, haborts, hread, hwrite] using hmoves

/-- The interrupts keep to the buffer exactly if each meets the condition. -/
lemma interrupts_iff (hport : c.dmaEnabled = false) (hfits : c.totalWords blockSize = c.allWords blockSize)
    (events : List PortFlags) :
    (∀ front, front <+: events → InBuffer (c.allWords blockSize) (afterInterrupts c blockSize front).moved) ↔
      EachStep c.transferHandleData (FirstIfWhole c blockSize) (startTransfer blockSize) events := by
  have hstart : (startTransfer blockSize).Inv c (c.allWords blockSize) := hfits ▸ inv_startTransfer
  have hstays : ∀ s : DataHandle, s.Inv c (c.allWords blockSize) → InBuffer (c.allWords blockSize) s.port.moved :=
    fun s hs => hs.counted.inBuffer hs.within
  exact forall_front_iff hstays (fun s flags hs _ => (hs.step hport flags).1) (fun s flags hs _ => (hs.step hport flags).2)
    events hstart (eachStep_true _ _ events)

/-- Only a read event moves words to the buffer, and only a write event takes words from it. -/
lemma isRead_run (read : Bool) (events : List PortFlags)
    (hother : ∀ flags ∈ events, (if read then flags.writeReady else flags.readReady) = false) {s : DataHandle}
    (hs : ∀ w ∈ s.port.moved, w.isRead = read) :
    ∀ w ∈ (events.foldl c.transferHandleData s).port.moved, w.isRead = read := by
  induction events generalizing s with
  | nil => exact hs
  | cons flags events ih =>
    have hflags := hother flags List.mem_cons_self
    apply ih (fun flags hmem => hother flags (List.mem_cons_of_mem _ hmem))
    rcases port_transferHandleData c s flags with ⟨hrests, -⟩ | ⟨-, -, hread, -, hmove⟩ | ⟨-, -, -, hwrite, hmove⟩
    · rwa [hrests]
    · cases read with
      | false => simp [hread] at hflags
      | true =>
        rw [hmove]
        exact PortConfig.words_movePort _ (fun _ => rfl) hs
    · cases read with
      | false =>
        rw [hmove]
        exact PortConfig.words_movePort _ (fun _ => rfl) hs
      | true => simp [hwrite] at hflags

/-! The blocking functions. -/

/-- A blocking function stays within the words that it counts. -/
lemma Polls.stays {poll : Blocking → PortFlags → Blocking} {watermark : Nat} {access : Nat → BufferAccess}
    {after : BlockingPhase} (hpolls : Polls c watermark access after poll) (hport : c.dmaEnabled = false)
    (hindex : ∀ i, (access i).index = i) (hafter : after ≠ .transferring) {read : Bool}
    (hread : ∀ i, (access i).isRead = read) (polls : List PortFlags) :
    InBuffer (c.totalWords blockSize) (polls.foldl poll (c.startBlocking after blockSize)).port.moved ∧
      ∀ w ∈ (polls.foldl poll (c.startBlocking after blockSize)).port.moved, w.isRead = read := by
  have hinv := hpolls.run_inv hport hindex hafter polls (c.inv_startBlocking watermark access hafter blockSize)
  refine ⟨hinv.counted.inBuffer hinv.within, ?_⟩
  intro w hw
  obtain ⟨i, rfl⟩ := hinv.words w hw
  exact hread i

lemma Progresses.movesAll {poll : Blocking → PortFlags → Blocking} {watermark : Nat} {access : Nat → BufferAccess}
    {after : BlockingPhase} {ready : PortFlags → Bool} (hprog : Progresses c watermark access after ready poll)
    (hpolls : Polls c watermark access after poll) (hport : c.dmaEnabled = false) (hpos : 1 ≤ watermark)
    (hindex : ∀ i, (access i).index = i) (hafter : after ≠ .transferring) :
    MovesAll (c.totalWords blockSize) ready (fun polls => polls.foldl poll (c.startBlocking after blockSize)) := by
  intro polls hclean
  have hstart := c.inv_startBlocking watermark access hafter blockSize
  have hinv := hpolls.run_inv hport hindex hafter polls hstart
  constructor
  · intro hend
    have hwords := hprog.run_complete hport hindex hafter polls hclean hstart c.startBlocking_ended hend
    exact hinv.counted.length_moved.trans hwords
  · intro hcount hend
    have hmoved := hprog.count_le hport hpos hindex hafter polls hclean hstart hend
    have hmore := hinv.ahead hend
    omega

/-- A loop that ends can only move one number of words. -/
lemma MovesAll.unique {total total' : Nat} {ready : PortFlags → Bool} {run : List PortFlags → Blocking}
    (h : MovesAll total ready run) (h' : MovesAll total' ready run) (flags : PortFlags) (hclean : flags.NoError)
    (hready : ready flags = true) : total = total' := by
  have hpolls : ∀ flags' ∈ List.replicate total flags, flags'.NoError := by
    intro flags' hmem
    rw [List.eq_of_mem_replicate hmem]
    exact hclean
  have hcount : total ≤ (List.replicate total flags).countP ready := by
    simp [List.countP_replicate, hready]
  have hend := (h _ hpolls).2 hcount
  exact ((h _ hpolls).1 hend).symm.trans ((h' _ hpolls).1 hend)

/-- A tuning transfer is over with its first word ready. -/
lemma MovesAll.of_tuning {total : Nat} (htuning : c.tuning = true)
    (h : MovesAll total PortFlags.readReady (afterReads c blockSize)) : total = 0 := by
  let flags : PortFlags := ⟨true, false, false, false, false, false⟩
  have hclean : ∀ flags' ∈ [flags], flags'.NoError := by
    intro flags' hmem
    rw [List.mem_singleton.mp hmem]
    exact ⟨rfl, rfl⟩
  obtain ⟨hleft, hport⟩ := c.readPoll_of_tuning htuning (c.startRead blockSize) flags rfl
  have hmoved : (c.readPoll (c.startRead blockSize) flags).port.moved.length = total := (h [flags] hclean).1 hleft
  rw [hport] at hmoved
  exact hmoved.symm

/-- With nothing to read the function returns at once. -/
lemma movesAll_reads_of_none (hnone : c.totalWords blockSize = 0) :
    MovesAll 0 PortFlags.readReady (afterReads c blockSize) := by
  have hphase : (c.startRead blockSize).phase ≠ .transferring := by
    simp [PortConfig.startRead, PortConfig.startBlocking, Blocking.advance, hnone]
  have hstart : afterReads c blockSize = fun _ => c.startRead blockSize := by
    funext polls
    exact List.foldl_fixed' (fun flags => c.readPoll_of_ended _ flags hphase) polls
  intro polls _
  rw [hstart]
  exact ⟨fun _ => rfl, fun _ => hphase⟩

lemma movesAll_reads (hport : c.dmaEnabled = false) (hread : 1 ≤ c.readWatermark)
    (htotal : c.totalWords blockSize = c.allWords blockSize) (htuning : c.tuning = true → c.allWords blockSize = 0) :
    MovesAll (c.allWords blockSize) PortFlags.readReady (afterReads c blockSize) := by
  cases hdata : c.tuning with
  | true =>
    rw [htuning hdata]
    exact movesAll_reads_of_none (htotal.trans (htuning hdata))
  | false =>
    rw [← htotal]
    exact (c.progresses_read hdata).movesAll c.polls_read hport hread (fun _ => rfl) (by simp)

variable (c blockSize)

/-- The transfers keep to the buffer, and the blocking ones move all of it, exactly if its bytes can be counted, the
blocking read is not one for tuning, and no interrupt takes the whole buffer again. -/
theorem keepsToBuffer_iff (hport : c.dmaEnabled = false) (hread : 1 ≤ c.readWatermark) (hwrite : 1 ≤ c.writeWatermark)
    (hsize : blockSize < 2 ^ 32) (events : List PortFlags) :
    KeepsToBuffer c blockSize events ↔
      c.NoWrap blockSize ∧ (c.tuning = true → c.allWords blockSize = 0) ∧
        EachStep c.transferHandleData (FirstIfWhole c blockSize) (startTransfer blockSize) events := by
  have hwriteAll : MovesAll (c.totalWords blockSize) PortFlags.writeReady (afterWrites c blockSize) :=
    c.progresses_write.movesAll c.polls_write hport hwrite (fun _ => rfl) (by simp)
  constructor
  · intro hkeeps
    have hfits : c.NoWrap blockSize := by
      by_contra hwrap
      have hless := PortConfig.totalWords_lt_allWords hwrap
      have hsame := hwriteAll.unique hkeeps.writeAll ⟨false, true, false, false, false, false⟩ ⟨rfl, rfl⟩ rfl
      omega
    refine ⟨hfits, fun htuning => hkeeps.readAll.of_tuning htuning, ?_⟩
    exact (interrupts_iff hport (hfits.totalWords_eq hsize) events).mp hkeeps.interrupts
  · rintro ⟨hfits, htuning, hevents⟩
    have htotal := hfits.totalWords_eq hsize
    exact {
      interrupts := (interrupts_iff hport htotal events).mpr hevents
      onlyReads := fun hreads => isRead_run true events hreads (by simp [startTransfer])
      onlyWrites := fun hwrites => isRead_run false events hwrites (by simp [startTransfer])
      reads := htotal ▸ c.polls_read.stays hport (fun _ => rfl) (by simp) (fun _ => rfl)
      writes := htotal ▸ c.polls_write.stays hport (fun _ => rfl) (by simp) (fun _ => rfl)
      readAll := movesAll_reads hport hread htotal htuning
      writeAll := htotal ▸ hwriteAll }

/-- Four words in two accesses of two words each. -/
theorem keepsToBuffer_two_accesses :
    KeepsToBuffer ⟨2, 2, false, 2, false, false, true, true⟩ 8
      [⟨true, false, false, false, false, false⟩, ⟨true, false, false, false, false, false⟩] :=
  (keepsToBuffer_iff _ 8 rfl (by decide) (by decide) (by decide) _).mpr ⟨by decide, by simp, by decide⟩

/-- Two interrupts that read four words at a watermark of 128 words move eight. -/
theorem keepsToBuffer_whole_twice :
    ¬ KeepsToBuffer ⟨128, 128, false, 2, false, false, true, true⟩ 8
      [⟨true, false, false, false, false, false⟩, ⟨true, false, false, false, false, false⟩] := by
  intro hkeeps
  exact absurd (hkeeps.interrupts _ List.prefix_rfl).bounded (by decide)

end McuxDrivers.Usdhc
