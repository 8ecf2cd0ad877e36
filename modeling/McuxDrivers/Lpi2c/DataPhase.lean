import McuxDrivers.Lpi2c.Interrupts

/-!
# The data, the stop and the end of an interrupt-driven transfer

The states after the last command, and the whole run of the machine in the handler.
-/

namespace McuxDrivers.Lpi2c
open Lib

variable {bus : Bus} {t : Transfer} {memory : Nat → Byte} {s s' : Sys} {p : Params}

section Data

lemma work_lt_of_read (hlength : s'.machine.mtdr.length = s.machine.mtdr.length)
    (hload : load s'.machine ≤ load s.machine) (hread : bytesRead s.handle < bytesRead s'.handle)
    (hsize : bytesRead s'.handle ≤ readSize t) (hrank : rank s'.handle.state ≤ rank s.handle.state) :
    work t memory s' < work t memory s := by
  unfold work
  omega

/-- One more byte has been counted. -/
structure Moved (t : Transfer) (s s' : Sys) : Prop where
  transfer : s'.handle.transfer = t
  state : s'.handle.state = .transferData
  buf : s'.handle.buf = s.handle.buf + 1
  count : s'.handle.buf + s'.handle.remainingBytes.toNat = t.dataSize.toNat
  notWrapped : s'.wrapped = false
  enabled : s'.irqEnabled = true
  txEnabled : s'.txIrqEnabled = usesTx t .transferData
  completions : s'.completions = 0

lemma Streams.moved (h : Streams bus t memory s) (hstate : s.handle.state = .transferData) (m : Machine) :
    Moved t s ((s.setMachine m).skip 1).countDown := by
  obtain ⟨hsize, hpos⟩ := h.handle.data hstate
  have hremaining := countDown_toNat hpos
  exact {
    transfer := h.handle.transfer
    state := hstate
    buf := rfl
    count := by
      show s.handle.buf + 1 + (s.handle.remainingBytes - 1).toNat = _
      omega
    notWrapped := (countDown_wrapped (s := (s.setMachine m).skip 1) hpos).trans h.notWrapped
    enabled := h.enabled.trans (by rw [hstate]; rfl)
    txEnabled := h.txEnabled.trans (by rw [hstate])
    completions := h.completions.trans (by rw [hstate]; rfl) }

lemma Moved.streams (h : Moved t s s') (hmore : s'.handle.remainingBytes ≠ 0)
    (hflow : Flow bus s'.machine (bytesRead s'.handle)) (hmtdr : s'.machine.mtdr = written t memory s'.handle)
    (hmemory : s'.machine.memory = filled bus memory (bytesRead s'.handle)) : Streams bus t memory s' := by
  have hstate := h.state
  have hpos : 0 < s'.handle.remainingBytes.toNat := by
    apply Nat.pos_of_ne_zero
    intro hzero
    exact hmore (BitVec.eq_of_toNat_eq hzero)
  exact {
    handle := {
      transfer := h.transfer
      command := fun hf => by rw [hstate] at hf; cases hf
      issue := fun hf => by rw [hstate] at hf; cases hf
      data := fun _ => ⟨h.count, hpos⟩ }
    flow := hflow
    mtdr := hmtdr
    memory := hmemory
    notWrapped := h.notWrapped
    enabled := by rw [h.enabled, hstate]; rfl
    txEnabled := by rw [h.txEnabled, hstate]
    completions := by rw [h.completions, hstate]; rfl }

lemma Moved.last (h : Moved t s s') (hlast : s'.handle.remainingBytes = 0) : s.handle.buf + 1 = t.dataSize.toNat := by
  have hcount := h.count
  rw [hlast, h.buf] at hcount
  exact hcount

/-- The last byte leads to the stop. -/
lemma Moved.stopStreams (h : Moved t s s') (hlast : s'.handle.remainingBytes = 0)
    (hflow : Flow bus s'.machine (readSize t)) (hmtdr : s'.machine.mtdr = addressWords t ++ dataWords t memory)
    (hmemory : s'.machine.memory = filled bus memory (readSize t)) :
    Streams bus t memory (s'.setState .stop) ∧ bytesRead (s'.setState .stop).handle = readSize t := by
  have hread : bytesRead (s'.setState .stop).handle = readSize t := by
    show readSize s'.handle.transfer = readSize t
    rw [h.transfer]
  have hne : t.dataSize ≠ 0 := by
    intro hzero
    have hall := h.last hlast
    rw [hzero] at hall
    exact absurd hall (Nat.succ_ne_zero _)
  refine ⟨?_, hread⟩
  exact {
    handle := ⟨h.transfer, by rintro ⟨⟩, by rintro ⟨⟩, by rintro ⟨⟩⟩
    flow := by rw [hread]; exact hflow
    mtdr := hmtdr
    memory := by rw [hread]; exact hmemory
    notWrapped := h.notWrapped
    enabled := h.enabled
    txEnabled := by
      show s'.txIrqEnabled = (decide (t.direction = .write) || decide (t.dataSize = 0))
      rw [decide_eq_false hne, Bool.or_false]
      exact h.txEnabled
    completions := h.completions }

lemma rest_transferData (hstate : s.handle.state = .transferData) : Rest t s := by
  constructor
  · intro hf
    rw [hstate] at hf
    cases hf
  · intro hf
    rw [hstate] at hf
    cases hf

lemma transferDataState_write (h : Streams bus t memory s) (hcounts : Counts bus t s p)
    (hrun : p.stateComplete = false) (hstate : s.handle.state = .transferData) (hdirection : t.direction = .write) :
    Executed bus t memory s p (transferDataState bus s p) := by
  unfold transferDataState
  rw [h.handle.transfer, hdirection]
  dsimp only
  by_cases htx : p.txCount = 0
  · rw [if_pos htx]
    apply Executed.waits h hcounts hrun (rest_transferData hstate)
    rw [Acts, hstate, hdirection]
    exact not_not.mpr htx
  · rw [if_neg htx]
    have hcount := hcounts.tx (Or.inr hdirection)
    have hnotDone := hcounts.notDone hrun
    have hread (h' : Handle) (htransfer : h'.transfer = t) : bytesRead h' = 0 := by
      rw [bytesRead, htransfer, hdirection]
    have hread₀ := hread s.handle h.handle.transfer
    have hflow := h.flow
    have hmemory := h.memory
    have hmtdr := h.mtdr
    rw [hread₀] at hflow hmemory
    rw [filled_zero] at hmemory
    simp only [written, hstate, hdirection] at hmtdr
    obtain ⟨w, hw⟩ : ∃ w, w = (s.machine.memory s.handle.buf).setWidth 16 := ⟨_, rfl⟩
    have hmoved := h.moved hstate (writeMtdr bus w s.machine)
    have hwrote := writeMtdr_wrote bus w s.machine
    have hflow' := hflow.write w (by omega)
    have hsend : (s.sendByte bus).countDown = ((s.setMachine (writeMtdr bus w s.machine)).skip 1).countDown := by
      rw [hw]
      rfl
    rw [hsend]
    obtain ⟨s', hs'⟩ : ∃ s', s' = ((s.setMachine (writeMtdr bus w s.machine)).skip 1).countDown := ⟨_, rfl⟩
    have hmachine : s'.machine = writeMtdr bus w s.machine := by rw [hs']; rfl
    rw [← hs'] at hmoved ⊢
    rw [← hmachine] at hwrote hflow'
    have hmtdr' : s'.machine.mtdr =
        addressWords t ++ (List.range (s.handle.buf + 1)).map fun i => (memory i).setWidth 16 := by
      rw [hwrote.mtdr, hmtdr, hw, hmemory, List.range_succ, List.map_append, List.append_assoc]
      rfl
    have hmemory' : s'.machine.memory = filled bus memory 0 := by
      rw [filled_zero]
      exact hwrote.memory.trans hmemory
    have hroom : p.txCount - 1 + s'.machine.txFifo.length ≤ bus.fifoSize := by
      have htxFifo := hwrote.txFifo
      omega
    have hlength : s'.machine.mtdr.length = s.machine.mtdr.length + 1 := by
      rw [hwrote.mtdr, List.length_append]
      rfl
    have hbefore {n : Nat} : bytesRead s.handle ≤ n := by
      rw [hread₀]
      exact Nat.zero_le n
    by_cases hlast : s'.handle.remainingBytes = 0
    · rw [if_pos hlast]
      rw [hmoved.last hlast, ← dataWords_of_write memory hdirection] at hmtdr'
      rw [← readSize_of_write hdirection] at hflow' hmemory'
      obtain ⟨hstreams, -⟩ := hmoved.stopStreams hlast hflow' hmtdr' hmemory'
      apply Executed.of_lt hstreams
      · exact {
          running := by rintro ⟨⟩
          tx := fun _ => hroom
          rx := le_trans hcounts.rx hwrote.rxFifo.length_le
          txOfRead := by rintro ⟨⟩
          stop := fun _ hf => absurd (hdirection.symm.trans hf) (by decide)
          wait := by rintro ⟨⟩
          done := fun hdone => absurd (hnotDone.symm.trans hdone) (by decide)
          rest := fun _ => Or.inr ⟨fun _ => by simp [usesTx, hdirection], by rintro ⟨⟩⟩ }
      · apply work_lt_of_wrote 1 hstreams Nat.one_pos hlength hwrote.load_le hbefore
        rw [hstate]
        exact le_refl 2
    · rw [if_neg hlast]
      have hstreams : Streams bus t memory s' := by
        apply hmoved.streams hlast
        · rw [hread _ hmoved.transfer]
          exact hflow'
        · simp only [written, hmoved.state, hdirection, hmoved.buf]
          exact hmtdr'
        · rw [hread _ hmoved.transfer]
          exact hmemory'
      apply Executed.of_lt hstreams
      · exact {
          running := by rw [hmoved.state]; decide
          tx := fun _ => hroom
          rx := le_trans hcounts.rx hwrote.rxFifo.length_le
          txOfRead := fun _ hf => absurd (hdirection.symm.trans hf) (by decide)
          stop := fun hf => by rw [hmoved.state] at hf; cases hf
          wait := fun hf => by rw [hmoved.state] at hf; cases hf
          done := fun hdone => absurd (hnotDone.symm.trans hdone) (by decide)
          rest := fun hcomplete => absurd (hrun.symm.trans hcomplete) (by decide) }
      · apply work_lt_of_wrote 1 hstreams Nat.one_pos hlength hwrote.load_le hbefore
        rw [hstate, hmoved.state]

lemma storeByte_frame (i : Nat) (m : Machine) :
    (storeByte i m).mtdr = m.mtdr ∧ (storeByte i m).txFifo = m.txFifo ∧ load (storeByte i m) = load m := by
  unfold storeByte
  split <;> exact ⟨rfl, rfl, rfl⟩

lemma transferDataState_read (h : Streams bus t memory s) (hcounts : Counts bus t s p)
    (hrun : p.stateComplete = false) (hstate : s.handle.state = .transferData) (hdirection : t.direction = .read) :
    Executed bus t memory s p (transferDataState bus s p) := by
  unfold transferDataState
  rw [h.handle.transfer, hdirection]
  dsimp only
  by_cases hrx : p.rxCount = 0
  · rw [if_pos hrx]
    apply Executed.waits h hcounts hrun (rest_transferData hstate)
    rw [Acts, hstate, hdirection]
    exact not_not.mpr hrx
  · rw [if_neg hrx]
    have hnotDone := hcounts.notDone hrun
    obtain ⟨htxCount, htxPos⟩ := (hcounts.txOfRead hstate hdirection).resolve_left hrx
    have hrxCount := hcounts.rx
    have hread₀ : bytesRead s.handle = s.handle.buf := by rw [bytesRead, h.handle.transfer, hdirection, hstate]
    have hflow := h.flow
    have hmemory := h.memory
    have hmtdr := h.mtdr
    rw [hread₀] at hflow hmemory
    simp only [written, hstate, hdirection] at hmtdr
    have hlater := settle_later bus s.machine
    have hheld := hlater.rxFifo.length_le
    obtain ⟨hflow', hmemory', hrx'⟩ := hflow.settle.store s.handle.buf (by
      intro hempty
      rw [hempty, List.length_nil] at hheld
      omega)
    rw [hlater.memory, hmemory, filled_succ] at hmemory'
    obtain ⟨hframeMtdr, hframeTx, hframeLoad⟩ := storeByte_frame s.handle.buf (settle bus s.machine)
    have hmoved := h.moved hstate (storeByte s.handle.buf (settle bus s.machine))
    obtain ⟨s', hs'⟩ : ∃ s', s' = (s.readByte bus).countDown := ⟨_, rfl⟩
    have hmachine : s'.machine = storeByte s.handle.buf (settle bus s.machine) := by rw [hs']; rfl
    rw [← hmachine] at hflow' hmemory' hrx' hframeMtdr hframeTx hframeLoad
    have hmoved' : Moved t s s' := by
      rw [hs']
      exact hmoved
    rw [← hs']
    have hmtdr' : s'.machine.mtdr = addressWords t ++ dataWords t memory := by
      rw [hframeMtdr, hlater.mtdr, hmtdr]
    have hlength : s'.machine.mtdr.length = s.machine.mtdr.length := by rw [hframeMtdr, hlater.mtdr]
    have hload : load s'.machine ≤ load s.machine := by
      rw [hframeLoad]
      exact hlater.load_le
    have hroom : p.txCount + s'.machine.txFifo.length ≤ bus.fifoSize := by
      have htxFifo := hlater.txFifo.length_le
      rw [hframeTx]
      omega
    have hrxCount' : p.rxCount - 1 ≤ s'.machine.rxFifo.length := by omega
    by_cases hlast : s'.handle.remainingBytes = 0
    · rw [if_pos hlast]
      have hall : s.handle.buf + 1 = readSize t := by
        rw [readSize_of_read hdirection]
        exact hmoved'.last hlast
      rw [hall] at hflow' hmemory'
      obtain ⟨hstreams, hread⟩ := hmoved'.stopStreams hlast hflow' hmtdr' hmemory'
      apply Executed.of_lt hstreams
      · exact {
          running := by rintro ⟨⟩
          tx := fun _ => hroom
          rx := hrxCount'
          txOfRead := by rintro ⟨⟩
          stop := fun _ _ _ => htxPos
          wait := by rintro ⟨⟩
          done := fun hdone => absurd (hnotDone.symm.trans hdone) (by decide)
          rest := fun hcomplete => absurd (hrun.symm.trans hcomplete) (by decide) }
      · apply work_lt_of_read
        · exact hlength
        · exact hload
        · rw [hread, hread₀, ← hall]
          exact Nat.lt_succ_self _
        · exact le_of_eq hread
        · rw [hstate]
          exact le_refl 2
    · rw [if_neg hlast]
      have hread : bytesRead s'.handle = s.handle.buf + 1 := by
        rw [bytesRead, hmoved'.transfer, hdirection, hmoved'.state]
        exact hmoved'.buf
      have hstreams : Streams bus t memory s' := by
        apply hmoved'.streams hlast
        · rw [hread]
          exact hflow'
        · simp only [written, hmoved'.state, hdirection]
          exact hmtdr'
        · rw [hread]
          exact hmemory'
      apply Executed.of_lt hstreams
      · exact {
          running := by rw [hmoved'.state]; decide
          tx := fun hf => by
            rcases hf with hf | hf
            · exact absurd hmoved'.state hf
            · exact absurd (hdirection.symm.trans hf) (by decide)
          rx := hrxCount'
          txOfRead := fun _ _ => Or.inr ⟨hroom, htxPos⟩
          stop := fun hf => by rw [hmoved'.state] at hf; cases hf
          wait := fun hf => by rw [hmoved'.state] at hf; cases hf
          done := fun hdone => absurd (hnotDone.symm.trans hdone) (by decide)
          rest := fun hcomplete => absurd (hrun.symm.trans hcomplete) (by decide) }
      · apply work_lt_of_read hlength hload
        · rw [hread, hread₀]
          exact Nat.lt_succ_self _
        · have hcount := hmoved'.count
          rw [hmoved'.buf] at hcount
          rw [hread, readSize_of_read hdirection]
          omega
        · rw [hstate, hmoved'.state]

end Data

section Stop

lemma stopState_executed (h : Streams bus t memory s) (hcounts : Counts bus t s p) (hrun : p.stateComplete = false)
    (hstate : s.handle.state = .stop) : Executed bus t memory s p (stopState bus s p) := by
  have hread : bytesRead (s.setState .waitForCompletion).handle = bytesRead s.handle := by
    cases hdirection : s.handle.transfer.direction with
    | write => simp [bytesRead, Sys.setState, hdirection]
    | read => simp [bytesRead, Sys.setState, hdirection, hstate]
  have hmtdr := h.mtdr
  rw [written, hstate] at hmtdr
  unfold stopState
  rw [h.handle.transfer]
  cases hnoStop : t.noStop with
  | false =>
    rw [if_pos rfl]
    by_cases htx : p.txCount = 0
    · rw [if_pos htx]
      apply Executed.waits h hcounts hrun
      · constructor
        · intro _
          by_contra huses
          simp only [usesTx, Bool.or_eq_true, decide_eq_true_eq, not_or] at huses
          have hreads : t.direction = .read := by
            cases hdirection : t.direction with
            | write => exact absurd hdirection huses.1
            | read => rfl
          have hpos := hcounts.stop hstate hreads huses.2
          omega
        · intro hf
          rw [hstate] at hf
          cases hf
      · rw [Acts, hstate]
        exact not_not.mpr htx
    · rw [if_neg htx]
      have hcount := hcounts.tx (Or.inl (by rw [hstate]; decide))
      have hwrote := writeMtdr_wrote bus kStopCmd s.machine
      have hstreams : Streams bus t memory ((s.write bus kStopCmd).setState .waitForCompletion) := {
        handle := ⟨h.handle.transfer, by rintro ⟨⟩, by rintro ⟨⟩, by rintro ⟨⟩⟩
        flow := by
          show Flow bus (writeMtdr bus kStopCmd s.machine) (bytesRead (s.setState .waitForCompletion).handle)
          rw [hread]
          exact h.flow.write kStopCmd (by omega)
        mtdr := by
          show (writeMtdr bus kStopCmd s.machine).mtdr = stream t memory
          rw [hwrote.mtdr, hmtdr, stream, stopWords, hnoStop]
          rfl
        memory := by
          show (writeMtdr bus kStopCmd s.machine).memory = filled bus memory (bytesRead (s.setState .waitForCompletion).handle)
          rw [hread, hwrote.memory]
          exact h.memory
        notWrapped := h.notWrapped
        enabled := h.enabled.trans (by rw [hstate]; rfl)
        txEnabled := h.txEnabled.trans (by rw [hstate]; rfl)
        completions := h.completions.trans (by rw [hstate]; rfl) }
      apply Executed.of_lt hstreams
      · exact {
          running := by rintro ⟨⟩
          tx := fun _ => by
            have htxFifo := hwrote.txFifo
            show p.txCount - 1 + (writeMtdr bus kStopCmd s.machine).txFifo.length ≤ bus.fifoSize
            omega
          rx := le_trans hcounts.rx hwrote.rxFifo.length_le
          txOfRead := by rintro ⟨⟩
          stop := by rintro ⟨⟩
          wait := fun _ hf => absurd (hnoStop.symm.trans hf) (by decide)
          done := fun hdone => absurd ((hcounts.notDone hrun).symm.trans hdone) (by decide)
          rest := fun hcomplete => absurd (hrun.symm.trans hcomplete) (by decide) }
      · apply work_lt_of_wrote 1 hstreams Nat.one_pos
        · show (writeMtdr bus kStopCmd s.machine).mtdr.length = _
          rw [hwrote.mtdr, List.length_append]
          rfl
        · exact hwrote.load_le
        · exact le_of_eq hread.symm
        · rw [hstate]
          exact Nat.le_succ 1
  | true =>
    rw [if_neg (by decide)]
    have hstreams : Streams bus t memory (s.setState .waitForCompletion) := {
      handle := ⟨h.handle.transfer, by rintro ⟨⟩, by rintro ⟨⟩, by rintro ⟨⟩⟩
      flow := by
        rw [hread]
        exact h.flow
      mtdr := by
        show s.machine.mtdr = stream t memory
        rw [hmtdr, stream, stopWords, hnoStop, if_pos rfl, List.append_nil]
      memory := by
        rw [hread]
        exact h.memory
      notWrapped := h.notWrapped
      enabled := h.enabled.trans (by rw [hstate]; rfl)
      txEnabled := h.txEnabled.trans (by rw [hstate]; rfl)
      completions := h.completions.trans (by rw [hstate]; rfl) }
    have hdirection : (p.isDone || decide (t.direction = .read)) = true ∨ t.direction = .write := by
      cases t.direction with
      | write => exact Or.inr rfl
      | read => exact Or.inl (by simp)
    apply Executed.of_lt hstreams
    · exact {
        running := by rintro ⟨⟩
        tx := fun _ => hcounts.tx (Or.inl (by rw [hstate]; decide))
        rx := hcounts.rx
        txOfRead := by rintro ⟨⟩
        stop := by rintro ⟨⟩
        wait := fun _ _ => hdirection
        done := fun _ => ⟨rfl, rfl⟩
        rest := fun _ => hdirection.imp_right (fun hwrite => ⟨by rintro ⟨⟩, fun _ _ => hwrite⟩) }
    · show work t memory (s.setState .waitForCompletion) < _
      have hbytes := hread
      unfold work
      rw [hbytes, hstate]
      exact Nat.lt_succ_self _

/-- The end is seen in the status, or in the FIFO. -/
lemma waitState_executed (h : Streams bus t memory s) (hcounts : Counts bus t s p) (hrun : p.stateComplete = false)
    (hstate : s.handle.state = .waitForCompletion) : Executed bus t memory s p (waitState bus s p) := by
  unfold waitState
  rw [h.handle.transfer]
  cases hnoStop : t.noStop with
  | false =>
    rw [if_pos rfl]
    exact {
      streams := h
      counts := {
        running := hcounts.running
        tx := hcounts.tx
        rx := hcounts.rx
        txOfRead := hcounts.txOfRead
        stop := hcounts.stop
        wait := fun _ hf => absurd (hnoStop.symm.trans hf) (by decide)
        done := fun _ => ⟨rfl, hstate⟩
        rest := fun _ => Or.inr {
          stop := fun hf => by rw [hstate] at hf; cases hf
          wait := fun _ hf => absurd (hnoStop.symm.trans hf) (by decide) } }
      work_le := le_refl _
      forward := by rintro ⟨⟩
      acts := fun hacts => by
        rw [Acts, hstate] at hacts
        simp only [hnoStop, Bool.false_eq_true, if_false] at hacts
        right
        show (p.isDone || p.stopDetect) = true
        rw [hacts, Bool.or_true] }
  | true =>
    rw [if_neg (by decide)]
    have hdirection : t.direction = .write := by
      rcases hcounts.wait hstate hnoStop with hdone | hwrite
      · rw [hcounts.notDone hrun] at hdone
        cases hdone
      · exact hwrite
    rw [hdirection]
    have hlater := settle_later bus s.machine
    exact {
      streams := {
        handle := h.handle
        flow := h.flow.settle
        mtdr := hlater.mtdr.trans h.mtdr
        memory := hlater.memory.trans h.memory
        notWrapped := h.notWrapped
        enabled := h.enabled
        txEnabled := h.txEnabled
        completions := h.completions }
      counts := {
        running := hcounts.running
        tx := fun hf => le_trans (Nat.add_le_add_left hlater.txFifo.length_le _) (hcounts.tx hf)
        rx := le_trans hcounts.rx hlater.rxFifo.length_le
        txOfRead := fun hf => absurd (hstate.symm.trans hf) (by decide)
        stop := hcounts.stop
        wait := fun _ _ => Or.inr hdirection
        done := fun _ => ⟨rfl, hstate⟩
        rest := fun _ => Or.inr {
          stop := fun hf => absurd (hstate.symm.trans hf) (by decide)
          wait := fun _ _ => hdirection } }
      work_le := by
        have hload := hlater.load_le
        show 258 * ((stream t memory).length - (settle bus s.machine).mtdr.length) + load (settle bus s.machine) +
          (readSize t - bytesRead s.handle) + rank s.handle.state ≤ _
        rw [hlater.mtdr, work]
        omega
      forward := by rintro ⟨⟩
      acts := fun hacts => by
        rw [Acts, hstate] at hacts
        simp only [hnoStop, if_true] at hacts
        have hempty : (settle bus s.machine).txFifo = [] := by
          have hsuffix := hlater.txFifo
          rw [hacts] at hsuffix
          exact List.suffix_nil.mp hsuffix
        right
        show (p.isDone || (settle bus s.machine).txFifo.isEmpty) = true
        rw [hempty]
        exact Bool.or_true _ }

end Stop

end McuxDrivers.Lpi2c
