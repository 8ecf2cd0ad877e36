import McuxDrivers.Lpi2c.DataPhase

/-!
# The interrupt handler

A run of the state machine, from the status that it reads to the state that waits for the next interrupt,
and the moves of the controller between two runs.
-/

namespace McuxDrivers.Lpi2c
open Lib

variable {bus : Bus} {t : Transfer} {memory : Nat → Byte} {s : Sys} {p : Params}

section Machine

lemma executeState_yields (hc : Countable bus.fifoSize t) (hfifo : 0 < bus.fifoSize) (h : Streams bus t memory s)
    (hcounts : Counts bus t s p) (hrun : p.stateComplete = false) :
    Yields (fun fuel => executeState bus fuel s p) (Executed bus t memory s p) := by
  unfold executeState
  cases hstate : s.handle.state with
  | idle => exact absurd hstate hcounts.running
  | sendCommand => exact sendCommandState_yields hc hfifo h hcounts hrun hstate
  | issueReadCommand => exact Yields.pure (issueReadCommandState_executed hc h hcounts hrun hstate)
  | stop => exact Yields.pure (stopState_executed h hcounts hrun hstate)
  | waitForCompletion => exact Yields.pure (waitState_executed h hcounts hrun hstate)
  | transferData =>
    cases hdirection : t.direction with
    | write => exact Yields.pure (transferDataState_write h hcounts hrun hstate hdirection)
    | read => exact Yields.pure (transferDataState_read h hcounts hrun hstate hdirection)

/-- The states have been executed until one of them waits. -/
structure Ran (bus : Bus) (t : Transfer) (memory : Nat → Byte) (s : Sys) (p : Params) (x : Sys × Params) : Prop where
  streams : Streams bus t memory x.1
  counts : Counts bus t x.1 x.2
  complete : x.2.stateComplete = true
  work_le : work t memory x.1 ≤ work t memory s
  acts : p.stateComplete = false → Acts t s p → work t memory x.1 < work t memory s ∨ x.2.isDone = true

lemma executeStates_yields (hc : Countable bus.fifoSize t) (hfifo : 0 < bus.fifoSize) (h : Streams bus t memory s)
    (hcounts : Counts bus t s p) :
    Yields (fun fuel => executeStates bus fuel (s, p)) (Ran bus t memory s p) := by
  induction hwork : work t memory s using Nat.strong_induction_on generalizing s p with
  | _ n ih =>
    apply Yields.succ
    simp only [executeStates]
    cases hcomplete : p.stateComplete with
    | true =>
      exact Yields.pure ⟨h, hcounts, hcomplete, le_refl _, fun hrun => absurd (hcomplete.symm.trans hrun) (by decide)⟩
    | false =>
      apply (executeState_yields hc hfifo h hcounts hcomplete).bind
      rintro ⟨s₁, p₁⟩ hexecuted
      cases hcomplete₁ : p₁.stateComplete with
      | true =>
        apply Yields.succ
        simp only [executeStates, hcomplete₁, if_true]
        exact Yields.pure ⟨hexecuted.streams, hexecuted.counts, hcomplete₁, hexecuted.work_le,
          fun _ => hexecuted.acts⟩
      | false =>
        have hless : work t memory s₁ < work t memory s := hexecuted.forward hcomplete₁
        apply (ih (work t memory s₁) (by omega) hexecuted.streams hexecuted.counts rfl).mono
        intro x hran
        exact ⟨hran.streams, hran.counts, hran.complete, le_trans hran.work_le hexecuted.work_le,
          fun _ _ => Or.inl (lt_of_le_of_lt hran.work_le hless)⟩

end Machine

section Between

/-- The controller may go on at any time. -/
lemma Streams.later {m : Machine} (h : Streams bus t memory s) (hlater : Later s.machine m)
    (hflow : Flow bus m (bytesRead s.handle)) :
    Streams bus t memory (s.setMachine m) ∧ work t memory (s.setMachine m) ≤ work t memory s := by
  refine ⟨{ h with
    flow := hflow
    mtdr := hlater.mtdr.trans h.mtdr
    memory := hlater.memory.trans h.memory }, ?_⟩
  have hload := hlater.load_le
  show 258 * ((stream t memory).length - m.mtdr.length) + load m + (readSize t - bytesRead s.handle) +
    rank s.handle.state ≤ _
  rw [hlater.mtdr, work]
  omega

/-- Everything asked for has been read, but in the middle of a read. -/
lemma Streams.allRead (h : Streams bus t memory s) (hstate : s.handle.state ≠ .transferData ∨ t.direction = .write) :
    requested s.machine.mtdr = bytesRead s.handle := by
  rw [h.mtdr, written, bytesRead, h.handle.transfer]
  cases hs : s.handle.state with
  | sendCommand =>
    rw [requested_plain (fun w hw => plain_addressWords t w (List.mem_of_mem_take hw))]
    split <;> rfl
  | issueReadCommand =>
    show 0 = _
    split <;> rfl
  | transferData =>
    have hdirection := hstate.resolve_left (not_not.mpr hs)
    rw [hdirection]
    dsimp only
    rw [requested_append, requested_addressWords, requested_plain (plain_memory memory _)]
  | stop =>
    dsimp only
    rw [requested_append, requested_addressWords, requested_dataWords, Nat.zero_add]
    rfl
  | waitForCompletion => exact requested_stream t memory
  | idle => exact requested_stream t memory

lemma dataWords_noStop (t : Transfer) (memory : Nat → Byte) : ∀ w ∈ dataWords t memory, cmd w ≠ 2 := by
  intro w hw
  unfold dataWords at hw
  cases hdirection : t.direction with
  | write =>
    rw [hdirection] at hw
    exact (plain_memory memory _ w hw).2
  | read =>
    rw [hdirection] at hw
    have hcmd := cmd_rxCommands _ _ w hw
    rw [hcmd]
    decide

lemma written_noStop {h : Handle}
    (hstate : h.state ≠ .waitForCompletion ∧ h.state ≠ .idle ∨ t.noStop = true) :
    ∀ w ∈ written t memory h, cmd w ≠ 2 := by
  have haddress (w : Word) (hw : w ∈ addressWords t) : cmd w ≠ 2 := (plain_addressWords t w hw).2
  have hdata (w : Word) (hw : w ∈ addressWords t ++ dataWords t memory) : cmd w ≠ 2 := by
    rcases List.mem_append.mp hw with hw | hw
    · exact haddress w hw
    · exact dataWords_noStop t memory w hw
  have hall (hnoStop : t.noStop = true) (w : Word) (hw : w ∈ stream t memory) : cmd w ≠ 2 := by
    rw [stream, stopWords, if_pos hnoStop, List.append_nil] at hw
    exact hdata w hw
  intro w hw
  unfold written at hw
  cases hs : h.state with
  | sendCommand =>
    rw [hs] at hw
    exact haddress w (List.mem_of_mem_take hw)
  | issueReadCommand =>
    rw [hs] at hw
    exact absurd hw List.not_mem_nil
  | stop =>
    rw [hs] at hw
    exact hdata w hw
  | transferData =>
    rw [hs] at hw
    cases hdirection : t.direction with
    | read =>
      rw [hdirection] at hw
      exact hdata w hw
    | write =>
      rw [hdirection] at hw
      rcases List.mem_append.mp hw with hw | hw
      · exact haddress w hw
      · exact (plain_memory memory _ w hw).2
  | waitForCompletion =>
    rw [hs] at hw
    exact hall (hstate.resolve_left (fun hne => hne.1 hs)) w hw
  | idle =>
    rw [hs] at hw
    exact hall (hstate.resolve_left (fun hne => hne.2 hs)) w hw

lemma Streams.stopDetect_eq_false (h : Streams bus t memory s)
    (hstate : s.handle.state ≠ .waitForCompletion ∧ s.handle.state ≠ .idle ∨ t.noStop = true) :
    s.machine.stopDetect = false := by
  obtain ⟨sent, hsent, -, hstop⟩ := h.flow.sent
  by_contra hdetected
  obtain ⟨w, hw, hcmd⟩ := hstop.mpr (Bool.eq_true_of_not_eq_false hdetected)
  have hword : w ∈ written t memory s.handle := by
    rw [← h.mtdr, ← hsent]
    exact List.mem_append_left _ hw
  exact written_noStop hstate w hword hcmd

/-- Once the FIFO is empty the stop has been seen. -/
lemma Streams.stopDetect_of_empty (h : Streams bus t memory s) (hstate : s.handle.state = .waitForCompletion)
    (hnoStop : t.noStop = false) (hempty : s.machine.txFifo = []) : s.machine.stopDetect = true := by
  obtain ⟨sent, hsent, -, hstop⟩ := h.flow.sent
  apply hstop.mp
  rw [hempty, List.append_nil, h.mtdr, written, hstate] at hsent
  refine ⟨kStopCmd, ?_, by decide⟩
  rw [hsent, stream, stopWords, hnoStop]
  exact List.mem_append_right _ (List.mem_singleton_self _)

lemma interruptPending_iff :
    interruptPending s = true ↔ (s.txIrqEnabled = true ∧ s.machine.txFifo = []) ∨
      s.irqEnabled = true ∧ (s.machine.rxFifo ≠ [] ∨ s.machine.stopDetect = true) := by
  simp [interruptPending]

/-- Without bytes to read and without a stop, only the command FIFO interrupts. -/
lemma Streams.txFifo_of_pending (h : Streams bus t memory s)
    (hquiet : s.handle.state ≠ .transferData ∨ t.direction = .write)
    (hstate : s.handle.state ≠ .waitForCompletion ∧ s.handle.state ≠ .idle ∨ t.noStop = true)
    (hpending : interruptPending s = true) : s.machine.txFifo = [] := by
  rcases interruptPending_iff.mp hpending with ⟨-, hempty⟩ | ⟨-, hrx | hstop⟩
  · exact hempty
  · exact absurd (h.flow.quiet (h.allRead hquiet)).2.1 hrx
  · rw [h.stopDetect_eq_false hstate] at hstop
    cases hstop

lemma Streams.running_of_pending (h : Streams bus t memory s) (hpending : interruptPending s = true) :
    s.handle.state ≠ .idle := by
  intro hidle
  have htx := h.txEnabled
  have hirq := h.enabled
  rw [hidle] at htx hirq
  rcases interruptPending_iff.mp hpending with ⟨hon, -⟩ | ⟨hon, -⟩
  · rw [htx] at hon
    cases hon
  · rw [hirq] at hon
    exact absurd hon (by decide)

end Between

section Interrupt

lemma Streams.counts (hc : Countable bus.fifoSize t) (h : Streams bus t memory s) (hrest : Rest t s)
    (hpending : interruptPending s = true) :
    Counts bus t (s.setMachine (readStatus bus s.machine).1) (readStatus bus s.machine).2 := by
  have hlater := settle_later bus s.machine
  have hlater₂ := hlater.trans (settle_later bus _)
  have hlater₃ := settle_later bus (settle bus (settle bus s.machine))
  have hroom := h.flow.settle.settle.room
  have hsuffix := hlater₃.txFifo.length_le
  have htx : bus.fifoSize - (settle bus (settle bus s.machine)).txFifo.length +
      (settle bus (settle bus (settle bus s.machine))).txFifo.length ≤ bus.fifoSize := by omega
  exact {
    running := h.running_of_pending hpending
    tx := fun _ => htx
    rx := le_refl _
    txOfRead := fun hstate hdirection => by
      refine Or.inr ⟨htx, ?_⟩
      -- the byte that interrupts has been asked for by a command that has left the FIFO
      have hstarted : 0 < s.machine.taken + s.machine.reading := by
        have hstop : s.machine.stopDetect = false := by
          apply h.stopDetect_eq_false
          left
          rw [show s.handle.state = .transferData from hstate]
          decide
        have hheld := h.flow.length_rxFifo
        have hlengthPos : 0 < s.machine.rxFifo.length := by
          apply List.length_pos_of_ne_nil
          rcases interruptPending_iff.mp hpending with ⟨hon, -⟩ | ⟨-, hrx | hdetected⟩
          · rw [h.txEnabled, show s.handle.state = .transferData from hstate, usesTx, hdirection] at hon
            exact absurd hon (by decide)
          · exact hrx
          · rw [hstop] at hdetected
            cases hdetected
        omega
      have hmtdr := h.mtdr
      simp only [written, show s.handle.state = .transferData from hstate, hdirection,
        dataWords_of_read memory hdirection] at hmtdr
      have hless := h.flow.length_lt_of_started hmtdr (requested_addressWords t) hstarted
      have hcount := length_rxCommands (le_refl t.dataSize.toNat)
      have haccepted := hc.accepted hdirection
      have hle := hlater₂.txFifo.length_le
      show 0 < bus.fifoSize - (settle bus (settle bus s.machine)).txFifo.length
      omega
    stop := fun hstate hdirection hne => by
      have huses := hrest.stop hstate
      rw [usesTx, hdirection, decide_eq_false hne] at huses
      exact absurd huses (by decide)
    wait := fun hstate hnoStop => Or.inr (hrest.wait hstate hnoStop)
    done := by rintro ⟨⟩
    rest := by rintro ⟨⟩ }

/-- The interrupt has something to do. -/
lemma Streams.acts (hfifo : 0 < bus.fifoSize) (h : Streams bus t memory s) (hrest : Rest t s)
    (hpending : interruptPending s = true) :
    Acts t (s.setMachine (readStatus bus s.machine).1) (readStatus bus s.machine).2 := by
  have hlater := settle_later bus s.machine
  have hlater₂ := hlater.trans (settle_later bus _)
  have hlater₃ := hlater₂.trans (settle_later bus _)
  have hempties (hempty : s.machine.txFifo = []) : (readStatus bus s.machine).2.txCount ≠ 0 := by
    have hsuffix := hlater₂.txFifo
    rw [hempty, List.suffix_nil] at hsuffix
    show bus.fifoSize - (settle bus (settle bus s.machine)).txFifo.length ≠ 0
    rw [hsuffix]
    exact Nat.pos_iff_ne_zero.mp hfifo
  unfold Acts
  simp only [Sys.setMachine]
  cases hstate : s.handle.state with
  | idle => exact absurd hstate (h.running_of_pending hpending)
  | sendCommand =>
    apply hempties
    apply h.txFifo_of_pending _ _ hpending
    · rw [hstate]
      exact Or.inl (by decide)
    · rw [hstate]
      exact Or.inl (by decide)
  | issueReadCommand =>
    apply hempties
    apply h.txFifo_of_pending _ _ hpending
    · rw [hstate]
      exact Or.inl (by decide)
    · rw [hstate]
      exact Or.inl (by decide)
  | stop =>
    apply hempties
    apply h.txFifo_of_pending _ _ hpending
    · rw [hstate]
      exact Or.inl (by decide)
    · rw [hstate]
      exact Or.inl (by decide)
  | transferData =>
    cases hdirection : t.direction with
    | write =>
      apply hempties
      apply h.txFifo_of_pending (Or.inr hdirection) _ hpending
      rw [hstate]
      exact Or.inl (by decide)
    | read =>
      show (settle bus (settle bus (settle bus s.machine))).rxFifo.length ≠ 0
      have hle := hlater₃.rxFifo.length_le
      have hpos : 0 < s.machine.rxFifo.length := by
        apply List.length_pos_of_ne_nil
        rcases interruptPending_iff.mp hpending with ⟨hon, -⟩ | ⟨-, hrx | hdetected⟩
        · rw [h.txEnabled, hstate, usesTx, hdirection] at hon
          exact absurd hon (by decide)
        · exact hrx
        · rw [h.stopDetect_eq_false (by rw [hstate]; exact Or.inl (by decide))] at hdetected
          cases hdetected
      omega
  | waitForCompletion =>
    cases hnoStop : t.noStop with
    | true =>
      have hempty := h.txFifo_of_pending (Or.inr (hrest.wait hstate hnoStop)) (Or.inr hnoStop) hpending
      have hsuffix := hlater₃.txFifo
      rw [hempty, List.suffix_nil] at hsuffix
      rw [if_pos rfl]
      exact hsuffix
    | false =>
      rw [if_neg (by decide)]
      apply hlater.stopDetect
      rcases interruptPending_iff.mp hpending with ⟨-, hempty⟩ | ⟨-, hrx | hdetected⟩
      · exact h.stopDetect_of_empty hstate hnoStop hempty
      · exact absurd (h.flow.quiet (h.allRead (by rw [hstate]; exact Or.inl (by decide)))).2.1 hrx
      · exact hdetected

lemma Streams.finish (h : Streams bus t memory s) (hstate : s.handle.state = .waitForCompletion) :
    Streams bus t memory s.finish ∧ work t memory s.finish < work t memory s := by
  have hread : bytesRead s.finish.handle = bytesRead s.handle := by
    rw [bytesRead, bytesRead, hstate]
    rfl
  have hmtdr := h.mtdr
  rw [written, hstate] at hmtdr
  refine ⟨?_, ?_⟩
  · exact {
      handle := ⟨h.handle.transfer, by rintro ⟨⟩, by rintro ⟨⟩, by rintro ⟨⟩⟩
      flow := by
        rw [hread]
        exact h.flow
      mtdr := hmtdr
      memory := by
        rw [hread]
        exact h.memory
      notWrapped := h.notWrapped
      enabled := rfl
      txEnabled := rfl
      completions := by
        show s.completions + 1 = 1
        rw [h.completions, hstate]
        rfl }
  · unfold work
    rw [hread, hstate]
    exact Nat.lt_succ_self _

/-- The handler returns, and brings the transfer forward. -/
theorem handleIRQ_yields (hc : Countable bus.fifoSize t) (hfifo : 0 < bus.fifoSize) (h : Streams bus t memory s)
    (hrest : Rest t s) (hpending : interruptPending s = true) :
    Yields (fun fuel => handleIRQ bus fuel s)
      (fun s' => Streams bus t memory s' ∧ Rest t s' ∧ work t memory s' < work t memory s) := by
  have hflow : Flow bus (readStatus bus s.machine).1 (bytesRead s.handle) := h.flow.settle.settle.settle
  have hlater : Later s.machine (readStatus bus s.machine).1 :=
    ((settle_later bus s.machine).trans (settle_later bus _)).trans (settle_later bus _)
  obtain ⟨hstreams, hwork⟩ := h.later hlater hflow
  have hran := executeStates_yields hc hfifo hstreams (h.counts hc hrest hpending)
  unfold handleIRQ
  simp only [if_neg (h.running_of_pending hpending), runTransferStateMachine]
  apply hran.map
  rintro ⟨s', p'⟩ hran
  have hless := hran.acts rfl (h.acts hfifo hrest hpending)
  cases hdone : p'.isDone with
  | false =>
    have hrest' := (hran.counts.rest hran.complete).resolve_left (fun hf => absurd (hdone.symm.trans hf) (by decide))
    have hless' := hless.resolve_right (fun hf => absurd (hdone.symm.trans hf) (by decide))
    exact ⟨hran.streams, hrest', lt_of_lt_of_le hless' hwork⟩
  | true =>
    obtain ⟨hfinish, hlast⟩ := hran.streams.finish (hran.counts.done hdone).2
    exact ⟨hfinish, ⟨by rintro ⟨⟩, by rintro ⟨⟩⟩, lt_of_lt_of_le hlast (le_trans hran.work_le hwork)⟩

/-- A transfer that is not complete is waiting for the controller, or has its interrupt pending. -/
lemma Streams.live (hfifo : 0 < bus.fifoSize) (h : Streams bus t memory s) (hrest : Rest t s)
    (hrunning : s.handle.state ≠ .idle) : CanMove bus s.machine ∨ interruptPending s = true := by
  have hirq : s.irqEnabled = true := by
    rw [h.enabled]
    exact decide_eq_true hrunning
  by_cases hreading : s.handle.state = .transferData ∧ t.direction = .read
  · obtain ⟨hstate, hdirection⟩ := hreading
    obtain ⟨hcount, hpos⟩ := h.handle.data hstate
    have hrequested : requested s.machine.mtdr = t.dataSize.toNat := by
      rw [h.mtdr]
      simp only [written, hstate, hdirection]
      rw [requested_append, requested_addressWords, requested_dataWords, Nat.zero_add, readSize_of_read hdirection]
    have hread : bytesRead s.handle = s.handle.buf := by rw [bytesRead, h.handle.transfer, hdirection, hstate]
    by_cases hempty : s.machine.rxFifo = []
    · left
      apply h.flow.canMove_of_missing hfifo _ hempty
      omega
    · exact Or.inr (interruptPending_iff.mpr (Or.inr ⟨hirq, Or.inl hempty⟩))
  · have hquiet : s.handle.state ≠ .transferData ∨ t.direction = .write := by
      by_cases hstate : s.handle.state = .transferData
      · cases hdirection : t.direction with
        | write => exact Or.inr rfl
        | read => exact absurd ⟨hstate, hdirection⟩ hreading
      · exact Or.inl hstate
    by_cases hempty : s.machine.txFifo = []
    · right
      by_cases huses : usesTx t s.handle.state = true
      · exact interruptPending_iff.mpr (Or.inl ⟨h.txEnabled.trans huses, hempty⟩)
      · -- only the end of a read with a stop does not wait for the command FIFO
        have hstate : s.handle.state = .waitForCompletion := by
          cases hs : s.handle.state with
          | idle => exact absurd hs hrunning
          | sendCommand => rw [hs] at huses; exact absurd rfl huses
          | issueReadCommand => rw [hs] at huses; exact absurd rfl huses
          | stop => rw [hs] at huses; exact absurd (hrest.stop hs) huses
          | transferData =>
            rw [hs, usesTx, hquiet.resolve_left (not_not.mpr hs)] at huses
            exact absurd rfl huses
          | waitForCompletion => rfl
        have hnoStop : t.noStop = false := by
          by_contra hset
          apply huses
          rw [hstate, usesTx, hrest.wait hstate (Bool.eq_true_of_not_eq_false hset)]
          rfl
        exact interruptPending_iff.mpr (Or.inr ⟨hirq, Or.inr (h.stopDetect_of_empty hstate hnoStop hempty)⟩)
    · exact Or.inl (h.flow.canMove_of_quiet (h.allRead hquiet) hempty)

end Interrupt

section Start

lemma handleCommands_eq (hnoStart : t.noStart = false) : handleCommands t = addressWords t := by
  rw [addressWords, hnoStart]
  rfl

/-- The transfer has been started. -/
theorem masterTransferNonBlocking_streams (hc : Countable bus.fifoSize t) (hfresh : Fresh s.machine)
    (hidle : s.handle.state = .idle) (hcompletions : s.completions = 0) (hwrapped : s.wrapped = false)
    (haccepted : tooLong bus t = false) :
    (masterTransferNonBlocking bus t s).2 = .success ∧
      Streams bus t s.machine.memory (masterTransferNonBlocking bus t s).1 ∧
      Rest t (masterTransferNonBlocking bus t s).1 := by
  obtain ⟨hsettled, -⟩ : Fresh (settle bus s.machine) ∧ (settle bus s.machine).stopDetect = s.machine.stopDetect :=
    hfresh.settle
  have hmemory := (settle_later bus s.machine).memory
  have hstarted : masterTransferNonBlocking bus t s =
      ((initTransferStateMachine ((s.setMachine (settle bus s.machine)).prepare t)).enable, .success) := by
    have hbusy : (s.setMachine (settle bus s.machine)).machine.busBusy = false := hsettled.busBusy
    simp [masterTransferNonBlocking, haccepted, hidle, hbusy]
  rw [hstarted]
  have hreset : Fresh { (settle bus s.machine) with txFifo := [], rxFifo := [] } :=
    { hsettled with txFifo := rfl, rxFifo := rfl }
  have hcleared : Fresh (clearStopDetect { (settle bus s.machine) with txFifo := [], rxFifo := [] }) := { hreset with }
  have hflow : Flow bus _ 0 := hcleared.flow rfl
  refine ⟨rfl, ?_⟩
  unfold initTransferStateMachine
  have htransfer : ((s.setMachine (settle bus s.machine)).prepare t).handle.transfer = t := rfl
  rw [htransfer]
  dsimp only
  cases hnoStart : t.noStart with
  | false =>
    rw [if_neg (by decide), handleCommands_eq hnoStart]
    have hlength := length_addressWords_le hc.subaddress
    have hpos : 0 < (addressWords t).length := by
      rw [← handleCommands_eq hnoStart]
      exact Nat.succ_pos _
    refine ⟨?_, by rintro ⟨⟩, by rintro ⟨⟩⟩
    exact {
      handle := {
        transfer := rfl
        command := fun _ => by
          have hcount : (BitVec.ofNat 16 (addressWords t).length).toNat = (addressWords t).length := by
            rw [BitVec.toNat_ofNat]
            exact Nat.mod_eq_of_lt (by omega)
          refine ⟨hnoStart, rfl, 0, rfl, ?_, ?_⟩
          · show 0 + (BitVec.ofNat 16 (addressWords t).length).toNat = _
            omega
          · show 0 < (BitVec.ofNat 16 (addressWords t).length).toNat
            omega
        issue := by rintro ⟨⟩
        data := by rintro ⟨⟩ }
      flow := by
        rw [bytesRead_sendCommand rfl]
        exact hflow
      mtdr := by
        simp only [written, Sys.enable, Nat.zero_div, List.take_zero]
        exact hcleared.mtdr
      memory := by
        rw [bytesRead_sendCommand rfl, filled_zero]
        exact hmemory
      notWrapped := hwrapped
      enabled := rfl
      txEnabled := rfl
      completions := hcompletions }
  | true =>
    rw [if_pos rfl]
    have hne := (hc.noStart hnoStart).1
    have haddress := addressWords_of_noStart hnoStart
    have hremaining := setWidth_dataSize hc.size
    have hread (state : State) (hstate : state = .issueReadCommand ∨ state = .transferData) :
        bytesRead ((((s.setMachine (settle bus s.machine)).prepare t).pointToData state).enable).handle = 0 := by
      unfold bytesRead
      rcases hstate with rfl | rfl
      · split <;> rfl
      · split <;> rfl
    cases hdirection : t.direction with
    | read =>
      rw [if_pos rfl]
      refine ⟨?_, by rintro ⟨⟩, by rintro ⟨⟩⟩
      exact {
        handle := {
          transfer := rfl
          command := by rintro ⟨⟩
          issue := fun _ => ⟨hnoStart, hdirection, rfl, hremaining⟩
          data := by rintro ⟨⟩ }
        flow := by
          rw [hread .issueReadCommand (Or.inl rfl)]
          exact hflow
        mtdr := hcleared.mtdr
        memory := by
          rw [hread .issueReadCommand (Or.inl rfl), filled_zero]
          exact hmemory
        notWrapped := hwrapped
        enabled := rfl
        txEnabled := rfl
        completions := hcompletions }
    | write =>
      rw [if_neg (by decide)]
      refine ⟨?_, by rintro ⟨⟩, by rintro ⟨⟩⟩
      exact {
        handle := {
          transfer := rfl
          command := by rintro ⟨⟩
          issue := by rintro ⟨⟩
          data := fun _ => by
            show 0 + (t.dataSize.setWidth 16).toNat = _ ∧ 0 < (t.dataSize.setWidth 16).toNat
            rw [hremaining, Nat.zero_add]
            exact ⟨rfl, dataSize_pos hne⟩ }
        flow := by
          rw [hread .transferData (Or.inr rfl)]
          exact hflow
        mtdr := by
          simp only [written, Sys.enable, Sys.pointToData, hdirection, haddress, List.range_zero, List.map_nil,
            List.append_nil]
          exact hcleared.mtdr
        memory := by
          rw [hread .transferData (Or.inr rfl), filled_zero]
          exact hmemory
        notWrapped := hwrapped
        enabled := rfl
        txEnabled := by simp [usesTx, Sys.enable, Sys.pointToData, hdirection]
        completions := hcompletions }

end Start

end McuxDrivers.Lpi2c
