import McuxDrivers.Lpi2c.NonBlocking
import McuxDrivers.Lpi2c.Polled

/-!
# The interrupt-driven transfer

Between two runs of the handler `Streams` says how far the transfer has come. Each state of the machine
keeps it, and brings the transfer forward by `work` unless it waits for a FIFO.
-/

namespace McuxDrivers.Lpi2c
open Lib

/-- The transfers that the state machine handles: no empty one without a start, no long read without a
start, and no size that the counter cannot hold. -/
structure Countable (fifoSize : Nat) (t : Transfer) : Prop where
  size : t.dataSize.toNat < 65536
  noStart : t.noStart = true → t.dataSize ≠ 0 ∧ (t.direction = .read → t.dataSize.toNat ≤ 256)
  subaddress : t.subaddressSize ≤ 4
  accepted : t.direction = .read → t.dataSize.toNat ≤ 256 * fifoSize

/-- The bytes that have been stored. -/
def bytesRead (h : Handle) : Nat :=
  match h.transfer.direction with
  | .write => 0
  | .read =>
    match h.state with
    | .sendCommand | .issueReadCommand => 0
    | .transferData => h.buf
    | .stop | .waitForCompletion | .idle => h.transfer.dataSize.toNat

/-- The words that have been written. -/
def written (t : Transfer) (memory : Nat → Byte) (h : Handle) : List Word :=
  match h.state with
  | .sendCommand => (addressWords t).take (h.buf / 2)
  | .issueReadCommand => []
  | .transferData =>
    match t.direction with
    | .write => addressWords t ++ (List.range h.buf).map fun i => (memory i).setWidth 16
    | .read => addressWords t ++ dataWords t memory
  | .stop => addressWords t ++ dataWords t memory
  | .waitForCompletion | .idle => stream t memory

/-- The states that wait for the command FIFO. -/
def usesTx (t : Transfer) : State → Bool
  | .sendCommand | .issueReadCommand => true
  | .transferData => t.direction = .write
  | .stop | .waitForCompletion => t.direction = .write || t.dataSize = 0
  | .idle => false

structure Handled (t : Transfer) (h : Handle) : Prop where
  transfer : h.transfer = t
  command : h.state = .sendCommand → t.noStart = false ∧ h.commandBuffer = addressWords t ∧
    ∃ i, h.buf = 2 * i ∧ i + h.remainingBytes.toNat = (addressWords t).length ∧ 0 < h.remainingBytes.toNat
  issue : h.state = .issueReadCommand → t.noStart = true ∧ t.direction = .read ∧ h.buf = 0 ∧
    h.remainingBytes.toNat = t.dataSize.toNat
  data : h.state = .transferData → h.buf + h.remainingBytes.toNat = t.dataSize.toNat ∧ 0 < h.remainingBytes.toNat

/-- How far the transfer has come. -/
structure Streams (bus : Bus) (t : Transfer) (memory : Nat → Byte) (s : Sys) : Prop where
  handle : Handled t s.handle
  flow : Flow bus s.machine (bytesRead s.handle)
  mtdr : s.machine.mtdr = written t memory s.handle
  memory : s.machine.memory = filled bus memory (bytesRead s.handle)
  notWrapped : s.wrapped = false
  enabled : s.irqEnabled = decide (s.handle.state ≠ .idle)
  txEnabled : s.txIrqEnabled = usesTx t s.handle.state
  completions : s.completions = if s.handle.state = .idle then 1 else 0

/-- Nothing is left to do without another interrupt. -/
structure Rest (t : Transfer) (s : Sys) : Prop where
  stop : s.handle.state = .stop → usesTx t .stop = true
  wait : s.handle.state = .waitForCompletion → t.noStop = true → t.direction = .write

/-- What the counts of a run of the machine are good for. -/
structure Counts (bus : Bus) (t : Transfer) (s : Sys) (p : Params) : Prop where
  running : s.handle.state ≠ .idle
  tx : s.handle.state ≠ .transferData ∨ t.direction = .write → p.txCount + s.machine.txFifo.length ≤ bus.fifoSize
  rx : p.rxCount ≤ s.machine.rxFifo.length
  txOfRead : s.handle.state = .transferData → t.direction = .read →
    p.rxCount = 0 ∨ p.txCount + s.machine.txFifo.length ≤ bus.fifoSize ∧ 0 < p.txCount
  stop : s.handle.state = .stop → t.direction = .read → t.dataSize ≠ 0 → 0 < p.txCount
  wait : s.handle.state = .waitForCompletion → t.noStop = true → p.isDone = true ∨ t.direction = .write
  done : p.isDone = true → p.stateComplete = true ∧ s.handle.state = .waitForCompletion
  rest : p.stateComplete = true → p.isDone = true ∨ Rest t s

/-- The state does something. -/
def Acts (t : Transfer) (s : Sys) (p : Params) : Prop :=
  match s.handle.state with
  | .sendCommand | .issueReadCommand | .stop => p.txCount ≠ 0
  | .transferData =>
    match t.direction with
    | .write => p.txCount ≠ 0
    | .read => p.rxCount ≠ 0
  | .waitForCompletion => if t.noStop then s.machine.txFifo = [] else p.stopDetect = true
  | .idle => False

def rank : State → Nat
  | .idle => 0
  | .waitForCompletion => 1
  | .sendCommand | .issueReadCommand | .transferData | .stop => 2

/-- What the driver and the controller have to do. -/
def work (t : Transfer) (memory : Nat → Byte) (s : Sys) : Nat :=
  258 * ((stream t memory).length - s.machine.mtdr.length) + load s.machine + (readSize t - bytesRead s.handle) +
    rank s.handle.state

/-- A state has been executed. -/
structure Executed (bus : Bus) (t : Transfer) (memory : Nat → Byte) (s : Sys) (p : Params) (x : Sys × Params) :
    Prop where
  streams : Streams bus t memory x.1
  counts : Counts bus t x.1 x.2
  work_le : work t memory x.1 ≤ work t memory s
  forward : x.2.stateComplete = false → work t memory x.1 < work t memory s
  acts : Acts t s p → work t memory x.1 < work t memory s ∨ x.2.isDone = true

variable {bus : Bus} {t : Transfer} {memory : Nat → Byte} {s : Sys} {p : Params}

section Facts

lemma requested_stopWords (t : Transfer) : requested (stopWords t) = 0 := by
  rw [stopWords]
  split <;> rfl

lemma requested_stream (t : Transfer) (memory : Nat → Byte) : requested (stream t memory) = readSize t := by
  rw [stream, requested_append, requested_append, requested_addressWords, requested_dataWords, requested_stopWords,
    Nat.zero_add, Nat.add_zero]

lemma dataWords_of_empty (memory : Nat → Byte) (hsize : t.dataSize = 0) : dataWords t memory = [] := by
  rw [dataWords, hsize]
  cases t.direction <;> rfl

lemma dataWords_of_write (memory : Nat → Byte) (hdirection : t.direction = .write) :
    dataWords t memory = (List.range t.dataSize.toNat).map fun i => (memory i).setWidth 16 := by
  rw [dataWords, hdirection]

lemma dataWords_of_read (memory : Nat → Byte) (hdirection : t.direction = .read) :
    dataWords t memory = rxCommands t.dataSize.toNat t.dataSize.toNat := by
  rw [dataWords, hdirection]

lemma readSize_of_write (hdirection : t.direction = .write) : readSize t = 0 := by
  rw [readSize, hdirection]

lemma readSize_of_read (hdirection : t.direction = .read) : readSize t = t.dataSize.toNat := by
  rw [readSize, hdirection]

lemma length_addressWords_le (hsub : t.subaddressSize ≤ 4) : (addressWords t).length ≤ 6 := by
  have hlength := length_subaddressBytes t.subaddress t.subaddressSize
  have hrepeated : (repeatedStart t).length ≤ 1 := by
    rw [repeatedStart]
    split
    · exact le_refl 1
    · exact Nat.zero_le 1
  rw [addressWords]
  split
  · exact Nat.zero_le 6
  · rw [List.length_append, List.length_cons]
    omega

lemma addressWords_of_noStart (h : t.noStart = true) : addressWords t = [] := by
  rw [addressWords, if_pos h]

/-- The bytes of the command buffer make up its words again. -/
lemma sendval_eq {h : Handle} {i : Nat} (hbuf : h.buf = 2 * i) : sendval h = h.commandBuffer.getD i 0 := by
  have hlow : commandByte h.commandBuffer h.buf = (h.commandBuffer.getD i 0).setWidth 8 := by
    rw [commandByte, hbuf, if_pos (Nat.mul_mod_right 2 i), Nat.mul_div_cancel_left i (by decide)]
  have hhigh : commandByte h.commandBuffer (h.buf + 1) = ((h.commandBuffer.getD i 0) >>> 8).setWidth 8 := by
    rw [commandByte, hbuf, if_neg (by omega), show (2 * i + 1) / 2 = i by omega]
  rw [sendval, hlow, hhigh]
  generalize h.commandBuffer.getD i 0 = w
  ext j hj
  simp only [BitVec.getElem_or, BitVec.getElem_setWidth, BitVec.getLsbD_setWidth, BitVec.getElem_shiftLeft,
    BitVec.getLsbD_ushiftRight]
  by_cases hsmall : j < 8
  · simp [hsmall, BitVec.getLsbD_eq_getElem hj]
  · have hsum : 8 + (j - 8) = j := by omega
    simp [hsmall, hsum, BitVec.getLsbD_eq_getElem hj]
    omega

lemma countDown_toNat {r : BitVec 16} (h : 0 < r.toNat) : (r - 1).toNat = r.toNat - 1 := by
  bv_omega

lemma countDown_wrapped (hpos : 0 < s.handle.remainingBytes.toNat) : s.countDown.wrapped = s.wrapped := by
  have hne : ¬ s.handle.remainingBytes = 0 := by
    intro hzero
    rw [hzero] at hpos
    exact absurd hpos (by decide)
  show (s.wrapped || decide (s.handle.remainingBytes = 0)) = s.wrapped
  rw [decide_eq_false hne, Bool.or_false]

lemma setWidth_dataSize (h : t.dataSize.toNat < 65536) : (t.dataSize.setWidth 16).toNat = t.dataSize.toNat := by
  rw [BitVec.toNat_setWidth]
  exact Nat.mod_eq_of_lt h

lemma dataSize_pos (h : t.dataSize ≠ 0) : 0 < t.dataSize.toNat := by
  apply Nat.pos_of_ne_zero
  intro hzero
  exact h (BitVec.eq_of_toNat_eq hzero)

end Facts

section Steps

lemma written_le_stream {h : Handle} (hhandled : Handled t h) : written t memory h <+: stream t memory := by
  have haddress : addressWords t <+: stream t memory := by
    rw [stream, List.append_assoc]
    exact List.prefix_append _ _
  have hdata : addressWords t ++ dataWords t memory <+: stream t memory := List.prefix_append _ _
  unfold written
  cases hstate : h.state with
  | sendCommand => exact (List.take_prefix _ _).trans haddress
  | issueReadCommand => exact List.nil_prefix
  | stop => exact hdata
  | waitForCompletion => exact List.prefix_refl _
  | idle => exact List.prefix_refl _
  | transferData =>
    cases hdirection : t.direction with
    | read => exact hdata
    | write =>
      refine List.IsPrefix.trans ?_ hdata
      have hsize := (hhandled.data hstate).1
      rw [dataWords_of_write memory hdirection, ← hsize, List.range_add, List.map_append, ← List.append_assoc]
      exact List.prefix_append _ _

lemma Streams.length_mtdr_le (h : Streams bus t memory s) : s.machine.mtdr.length ≤ (stream t memory).length := by
  rw [h.mtdr]
  exact (written_le_stream h.handle).length_le

lemma work_lt_of_wrote {s' : Sys} (n : Nat) (h' : Streams bus t memory s') (hpos : 0 < n)
    (hlength : s'.machine.mtdr.length = s.machine.mtdr.length + n) (hload : load s'.machine ≤ load s.machine + 257 * n)
    (hread : bytesRead s.handle ≤ bytesRead s'.handle) (hrank : rank s'.handle.state ≤ rank s.handle.state) :
    work t memory s' < work t memory s := by
  have hle := h'.length_mtdr_le
  unfold work
  omega

/-- A state that waits for a FIFO changes nothing. -/
lemma Executed.waits (h : Streams bus t memory s) (hcounts : Counts bus t s p) (hrun : p.stateComplete = false)
    (hrest : Rest t s) (hnot : ¬ Acts t s p) : Executed bus t memory s p (s, complete p) where
  streams := h
  counts := {
    running := hcounts.running
    tx := hcounts.tx
    rx := hcounts.rx
    txOfRead := hcounts.txOfRead
    stop := hcounts.stop
    wait := hcounts.wait
    done := fun hdone => absurd (hcounts.done hdone).1 (by rw [hrun]; exact Bool.false_ne_true)
    rest := fun _ => Or.inr hrest }
  work_le := le_refl _
  forward := by rintro ⟨⟩
  acts := fun hacts => absurd hacts hnot

lemma Executed.of_lt {x : Sys × Params} (h : Streams bus t memory x.1) (hcounts : Counts bus t x.1 x.2)
    (hlt : work t memory x.1 < work t memory s) : Executed bus t memory s p x where
  streams := h
  counts := hcounts
  work_le := le_of_lt hlt
  forward := fun _ => hlt
  acts := fun _ => Or.inl hlt

lemma Counts.notDone (h : Counts bus t s p) (hrun : p.stateComplete = false) : p.isDone = false := by
  by_contra hdone
  have hcomplete := (h.done (Bool.eq_true_of_not_eq_false hdone)).1
  rw [hrun] at hcomplete
  cases hcomplete

lemma bytesRead_sendCommand {h : Handle} (hstate : h.state = .sendCommand) : bytesRead h = 0 := by
  rw [bytesRead, hstate]
  split <;> rfl

/-- One more command has been written, the one with index `i`. -/
structure Commanded (bus : Bus) (t : Transfer) (memory : Nat → Byte) (s s' : Sys) (i : Nat) : Prop where
  noStart : t.noStart = false
  state : s'.handle.state = .sendCommand
  transfer : s'.handle.transfer = t
  buffer : s'.handle.commandBuffer = addressWords t
  count : i + 1 + s'.handle.remainingBytes.toNat = (addressWords t).length
  buf : s'.handle.buf = 2 * (i + 1)
  flow : Flow bus s'.machine 0
  mtdr : s'.machine.mtdr = (addressWords t).take (i + 1)
  memory : s'.machine.memory = memory
  length : s'.machine.mtdr.length = s.machine.mtdr.length + 1
  txFifo : s'.machine.txFifo.length ≤ s.machine.txFifo.length + 1
  rxFifo : s.machine.rxFifo <+: s'.machine.rxFifo
  load_le : load s'.machine ≤ load s.machine + 257
  notWrapped : s'.wrapped = false
  enabled : s'.irqEnabled = true
  txEnabled : s'.txIrqEnabled = true
  completions : s'.completions = 0

lemma Streams.commanded (h : Streams bus t memory s) (hstate : s.handle.state = .sendCommand)
    (hroom : s.machine.txFifo.length < bus.fifoSize) :
    ∃ i, Commanded bus t memory s ((s.write bus (sendval s.handle)).skip 2).countDown i := by
  obtain ⟨hnoStart, hbuffer, i, hbuf, hsum, hpos⟩ := h.handle.command hstate
  have hflow := h.flow
  have hmtdr := h.mtdr
  have hmemory := h.memory
  rw [bytesRead_sendCommand hstate] at hflow hmemory
  rw [filled_zero] at hmemory
  simp only [written, hstate, hbuf, Nat.mul_div_cancel_left i (show 0 < 2 by decide)] at hmtdr
  have hi : i < (addressWords t).length := by omega
  have hword : sendval s.handle = (addressWords t)[i] := by
    rw [sendval_eq hbuf, hbuffer]
    simp [List.getD, hi]
  have hwrote := writeMtdr_wrote bus (sendval s.handle) s.machine
  refine ⟨i, ?_⟩
  exact {
    noStart := hnoStart
    state := hstate
    transfer := h.handle.transfer
    buffer := hbuffer
    count := by
      show i + 1 + (s.handle.remainingBytes - 1).toNat = _
      rw [countDown_toNat hpos]
      omega
    buf := by
      show s.handle.buf + 2 = _
      omega
    flow := hflow.write _ hroom
    mtdr := by
      show (writeMtdr bus (sendval s.handle) s.machine).mtdr = _
      rw [hwrote.mtdr, hmtdr, hword, List.take_add_one, List.getElem?_eq_getElem hi]
      rfl
    memory := hwrote.memory.trans hmemory
    length := by
      show (writeMtdr bus (sendval s.handle) s.machine).mtdr.length = _
      rw [hwrote.mtdr, List.length_append]
      rfl
    txFifo := hwrote.txFifo
    rxFifo := hwrote.rxFifo
    load_le := hwrote.load_le
    notWrapped := (countDown_wrapped (s := (s.write bus (sendval s.handle)).skip 2) hpos).trans h.notWrapped
    enabled := h.enabled.trans (by rw [hstate]; rfl)
    txEnabled := h.txEnabled.trans (by rw [hstate]; rfl)
    completions := h.completions.trans (by rw [hstate]; rfl) }

/-- Once a read command has been taken out of the FIFO, only others are left in it. -/
lemma Flow.length_lt_of_started {m : Machine} {read : Nat} (h : Flow bus m read) {plain reads : List Word}
    (hmtdr : m.mtdr = plain ++ reads) (hplain : requested plain = 0) (hstarted : 0 < m.taken + m.reading) :
    m.txFifo.length < reads.length := by
  obtain ⟨sent, hsent, hasked, -⟩ := h.sent
  by_contra hnot
  have hlength := congrArg List.length (hsent.trans hmtdr)
  rw [List.length_append, List.length_append] at hlength
  have hsentFirst : sent <+: m.mtdr := by
    rw [← hsent]
    exact List.prefix_append _ _
  have hplainFirst : plain <+: m.mtdr := by
    rw [hmtdr]
    exact List.prefix_append _ _
  obtain ⟨rest, hrest⟩ := List.prefix_of_prefix_length_le hsentFirst hplainFirst (by omega)
  rw [← hrest, requested_append] at hplain
  omega

/-- The read commands find room, because the controller does not wait for the driver meanwhile. -/
lemma issueReadCommands_yields {plain : List Word} (reads ws : List Word) (h : Flow bus s.machine 0) (hfifo : 0 < bus.fifoSize)
    (hmtdr : s.machine.mtdr = plain ++ reads) (hplain : requested plain = 0)
    (hcount : reads.length + ws.length ≤ bus.fifoSize) :
    Yields (fun fuel => issueReadCommands bus fuel ws (s, p)) (fun x => ∃ m count,
      x = (s.setMachine m, { p with txCount := count }) ∧ Flow bus m 0 ∧ m.mtdr = s.machine.mtdr ++ ws ∧
        m.memory = s.machine.memory ∧ s.machine.rxFifo <+: m.rxFifo ∧ load m ≤ load s.machine + 257 * ws.length) := by
  induction ws generalizing s p reads with
  | nil =>
    exact Yields.pure ⟨s.machine, p.txCount, rfl, h, (List.append_nil _).symm, rfl, List.prefix_refl _, le_refl _⟩
  | cons w ws ih =>
    rw [List.length_cons] at hcount
    have hwait := poll_yields bus (fun m' => m'.txFifo.length ≠ bus.fifoSize)
      (fun m' => Flow bus m' 0 ∧ m'.mtdr = plain ++ reads) (m := s.machine)
      (fun m' ⟨hflow, hmtdr⟩ => ⟨hflow.advance, (advance_later bus m').mtdr.trans hmtdr⟩)
      (fun m' ⟨hflow, hmtdr⟩ => ⟨hflow.settle, (settle_later bus m').mtdr.trans hmtdr⟩)
      (fun m' ⟨hflow, hmtdr'⟩ hnot => ?_) ⟨h, hmtdr⟩
    · apply hwait.bind
      rintro m₁ ⟨hlater, ⟨hflow, hmtdr₁⟩, hready⟩
      have hroom : m₁.txFifo.length < bus.fifoSize :=
        lt_of_le_of_ne hflow.room (of_decide_eq_true hready)
      have hwrote := writeMtdr_wrote bus w m₁
      have hmtdr₂ : (writeMtdr bus w m₁).mtdr = plain ++ (reads ++ [w]) := by
        rw [hwrote.mtdr, hmtdr₁, List.append_assoc]
      have hrest := ih (s := (s.setMachine m₁).write bus w) (p := { p with txCount := m₁.txFifo.length })
        (reads ++ [w]) (hflow.write w hroom) hmtdr₂
        (by rw [List.length_append, List.length_singleton]; omega)
      apply hrest.mono
      rintro x ⟨m₂, count, rfl, hflow₂, hmtdr₃, hmemory₂, hrx₂, hload₂⟩
      refine ⟨m₂, count, rfl, hflow₂, ?_, ?_, ?_, ?_⟩
      · rw [hmtdr₃, hmtdr]
        show (writeMtdr bus w m₁).mtdr ++ ws = _
        rw [hmtdr₂, List.append_assoc, List.append_assoc, List.append_assoc]
        rfl
      · exact hmemory₂.trans (hwrote.memory.trans hlater.memory)
      · exact hlater.rxFifo.trans (hwrote.rxFifo.trans hrx₂)
      · have hload₁ := hlater.load_le
        have hload := hwrote.load_le
        have hload₂' : load m₂ ≤ load (writeMtdr bus w m₁) + 257 * ws.length := hload₂
        rw [List.length_cons]
        omega
    · have hfull : m'.txFifo.length = bus.fifoSize := not_not.mp (of_decide_eq_false hnot)
      refine Or.inr ⟨?_, ?_⟩
      · by_contra hreading
        have hless := hflow.length_lt_of_started hmtdr' hplain (by omega)
        omega
      · intro hempty
        rw [hempty, List.length_nil] at hfull
        omega

/-- What a run of the machine has before and after a command. -/
structure Running (bus : Bus) (s s' : Sys) (p : Params) : Prop where
  before : bytesRead s.handle = 0
  rank : rank s.handle.state = 2
  room : p.txCount + s'.machine.txFifo.length ≤ bus.fifoSize
  rx : p.rxCount ≤ s'.machine.rxFifo.length
  run : p.stateComplete = false
  notDone : p.isDone = false

/-- The command word is work done, whatever state comes next. -/
lemma Commanded.work_lt {s' s'' : Sys} {i : Nat} (h : Commanded bus t memory s s' i) (hr : Running bus s s' p)
    (hstreams : Streams bus t memory s'') (hmachine : s''.machine = s'.machine) (hrank : rank s''.handle.state ≤ 2) :
    work t memory s'' < work t memory s := by
  apply work_lt_of_wrote 1 hstreams Nat.one_pos
  · rw [hmachine]
    exact h.length
  · rw [hmachine]
    exact h.load_le
  · rw [hr.before]
    exact Nat.zero_le _
  · rw [hr.rank]
    exact hrank

lemma commanded_next {s' : Sys} {i : Nat} (h : Commanded bus t memory s s' i) (hr : Running bus s s' p)
    (hmore : s'.handle.remainingBytes ≠ 0) {p₀ : Params} : Executed bus t memory s p₀ (s', p) := by
  have hremaining : 0 < s'.handle.remainingBytes.toNat := by
    apply Nat.pos_of_ne_zero
    intro hzero
    exact hmore (BitVec.eq_of_toNat_eq hzero)
  have hstate := h.state
  have hread : bytesRead s'.handle = 0 := bytesRead_sendCommand hstate
  have hstreams : Streams bus t memory s' := {
    handle := {
      transfer := h.transfer
      command := fun _ => ⟨h.noStart, h.buffer, i + 1, h.buf, h.count, hremaining⟩
      issue := fun hf => by rw [hstate] at hf; cases hf
      data := fun hf => by rw [hstate] at hf; cases hf }
    flow := by rw [hread]; exact h.flow
    mtdr := by
      simp only [written, hstate, h.buf, Nat.mul_div_cancel_left (i + 1) (show 0 < 2 by decide)]
      exact h.mtdr
    memory := by rw [hread, filled_zero]; exact h.memory
    notWrapped := h.notWrapped
    enabled := by rw [h.enabled, hstate]; rfl
    txEnabled := by rw [h.txEnabled, hstate]; rfl
    completions := by rw [h.completions, hstate]; rfl }
  apply Executed.of_lt hstreams
  · exact {
      running := by rw [hstate]; decide
      tx := fun _ => hr.room
      rx := hr.rx
      txOfRead := fun hf => by rw [hstate] at hf; cases hf
      stop := fun hf => by rw [hstate] at hf; cases hf
      wait := fun hf => by rw [hstate] at hf; cases hf
      done := fun hdone => absurd (hr.notDone.symm.trans hdone) (by decide)
      rest := fun hcomplete => absurd (hr.run.symm.trans hcomplete) (by decide) }
  · apply h.work_lt hr hstreams rfl
    rw [hstate]
    exact le_refl 2

lemma commanded_empty {s' : Sys} {i : Nat} (h : Commanded bus t memory s s' i) (hr : Running bus s s' p)
    (hall : s'.machine.mtdr = addressWords t) (hsize : t.dataSize = 0) {p₀ : Params} :
    Executed bus t memory s p₀ (s'.setState .stop, p) := by
  have hempty := dataWords_of_empty memory hsize
  have hread : bytesRead (s'.setState .stop).handle = 0 := by
    show readSize s'.handle.transfer = 0
    rw [h.transfer, readSize, hsize]
    split <;> rfl
  have huses : usesTx t .stop = true := by simp [usesTx, hsize]
  have hstreams : Streams bus t memory (s'.setState .stop) := {
    handle := ⟨h.transfer, by rintro ⟨⟩, by rintro ⟨⟩, by rintro ⟨⟩⟩
    flow := by rw [hread]; exact h.flow
    mtdr := by
      show s'.machine.mtdr = addressWords t ++ dataWords t memory
      rw [hempty, List.append_nil, hall]
    memory := by rw [hread, filled_zero]; exact h.memory
    notWrapped := h.notWrapped
    enabled := h.enabled
    txEnabled := h.txEnabled.trans huses.symm
    completions := h.completions }
  apply Executed.of_lt hstreams
  · exact {
      running := by rintro ⟨⟩
      tx := fun _ => hr.room
      rx := hr.rx
      txOfRead := by rintro ⟨⟩
      stop := fun _ _ hne => absurd hsize hne
      wait := by rintro ⟨⟩
      done := fun hdone => absurd (hr.notDone.symm.trans hdone) (by decide)
      rest := fun hcomplete => absurd (hr.run.symm.trans hcomplete) (by decide) }
  · exact h.work_lt hr hstreams rfl (le_refl 2)

lemma handled_pointToData {s' : Sys} (hsize : t.dataSize.toNat < 65536) (hne : t.dataSize ≠ 0)
    (htransfer : s'.handle.transfer = t) : Handled t (s'.pointToData .transferData).handle ∧
      bytesRead (s'.pointToData .transferData).handle = 0 := by
  have hremaining : (s'.pointToData .transferData).handle.remainingBytes.toNat = t.dataSize.toNat := by
    show (s'.handle.transfer.dataSize.setWidth 16).toNat = _
    rw [htransfer, setWidth_dataSize hsize]
  refine ⟨⟨htransfer, by rintro ⟨⟩, by rintro ⟨⟩, fun _ => ?_⟩, ?_⟩
  · rw [hremaining]
    exact ⟨Nat.zero_add _, dataSize_pos hne⟩
  · rw [bytesRead]
    split <;> rfl

lemma commanded_write {s' : Sys} {i : Nat} (h : Commanded bus t memory s s' i) (hr : Running bus s s' p)
    (hall : s'.machine.mtdr = addressWords t) (hsize : t.dataSize.toNat < 65536) (hne : t.dataSize ≠ 0)
    (hdirection : t.direction = .write) {p₀ : Params} :
    Executed bus t memory s p₀ (s'.pointToData .transferData, p) := by
  obtain ⟨hhandled, hread⟩ := handled_pointToData hsize hne h.transfer
  have hstreams : Streams bus t memory (s'.pointToData .transferData) := {
    handle := hhandled
    flow := by rw [hread]; exact h.flow
    mtdr := by
      simp only [written, Sys.pointToData, hdirection, List.range_zero, List.map_nil, List.append_nil]
      exact hall
    memory := by rw [hread, filled_zero]; exact h.memory
    notWrapped := h.notWrapped
    enabled := h.enabled
    txEnabled := h.txEnabled.trans (by simp [usesTx, Sys.pointToData, hdirection])
    completions := h.completions }
  apply Executed.of_lt hstreams
  · exact {
      running := by rintro ⟨⟩
      tx := fun _ => hr.room
      rx := hr.rx
      txOfRead := fun _ hf => absurd (hdirection.symm.trans hf) (by decide)
      stop := by rintro ⟨⟩
      wait := by rintro ⟨⟩
      done := fun hdone => absurd (hr.notDone.symm.trans hdone) (by decide)
      rest := fun hcomplete => absurd (hr.run.symm.trans hcomplete) (by decide) }
  · exact h.work_lt hr hstreams rfl (le_refl 2)

lemma commanded_read {s' : Sys} {i : Nat} (hc : Countable bus.fifoSize t) (hfifo : 0 < bus.fifoSize)
    (h : Commanded bus t memory s s' i) (hr : Running bus s s' p) (hrxZero : p.rxCount = 0)
    (hall : s'.machine.mtdr = addressWords t) (hne : t.dataSize ≠ 0) (hdirection : t.direction = .read)
    {p₀ : Params} :
    Yields (fun fuel => issueReadCommands bus fuel (rxCommands t.dataSize.toNat t.dataSize.toNat)
      ((s'.pointToData .transferData).disableTxIrq, p)) (Executed bus t memory s p₀) := by
  obtain ⟨hhandled, hread⟩ := handled_pointToData hc.size hne h.transfer
  obtain ⟨ws, hws⟩ : ∃ ws, ws = rxCommands t.dataSize.toNat t.dataSize.toNat := ⟨_, rfl⟩
  rw [← hws]
  have hcount : ws.length ≤ bus.fifoSize := by
    have haccepted := hc.accepted hdirection
    rw [hws, length_rxCommands (le_refl _)]
    omega
  have hissued := issueReadCommands_yields (s := (s'.pointToData .transferData).disableTxIrq) (p := p) [] ws h.flow hfifo (by rw [List.append_nil]; exact hall) (requested_addressWords t)
    (by rw [List.length_nil]; omega)
  apply hissued.mono
  rintro x ⟨m, count, rfl, hflow, hmtdr, hmemory, hrx, hload⟩
  have hmtdrAll : m.mtdr = addressWords t ++ ws := hmtdr.trans (congrArg (· ++ ws) hall)
  have hstreams : Streams bus t memory (((s'.pointToData .transferData).disableTxIrq).setMachine m) := {
    handle := hhandled
    flow := by
      show Flow bus m (bytesRead (s'.pointToData .transferData).handle)
      rw [hread]
      exact hflow
    mtdr := by
      show m.mtdr = written t memory (s'.pointToData .transferData).handle
      simp only [written, Sys.pointToData, hdirection, dataWords_of_read memory hdirection, ← hws]
      exact hmtdrAll
    memory := by
      show m.memory = filled bus memory (bytesRead (s'.pointToData .transferData).handle)
      rw [hread, filled_zero]
      exact hmemory.trans h.memory
    notWrapped := h.notWrapped
    enabled := h.enabled
    txEnabled := by simp [usesTx, Sys.disableTxIrq, Sys.setMachine, Sys.pointToData, hdirection]
    completions := h.completions }
  apply Executed.of_lt hstreams
  · exact {
      running := by rintro ⟨⟩
      tx := fun hf => by
        rcases hf with hf | hf
        · exact absurd rfl hf
        · exact absurd (hdirection.symm.trans hf) (by decide)
      rx := by
        show p.rxCount ≤ m.rxFifo.length
        omega
      txOfRead := fun _ _ => Or.inl hrxZero
      stop := by rintro ⟨⟩
      wait := by rintro ⟨⟩
      done := fun hdone => absurd (hr.notDone.symm.trans hdone) (by decide)
      rest := fun hcomplete => absurd (hr.run.symm.trans hcomplete) (by decide) }
  · have hsplit := congrArg List.length hmtdr
    have hbefore : (s'.pointToData .transferData).disableTxIrq.machine.mtdr.length = s.machine.mtdr.length + 1 :=
      h.length
    have hloadBefore : load (s'.pointToData .transferData).disableTxIrq.machine ≤ load s.machine + 257 := h.load_le
    rw [List.length_append] at hsplit
    apply work_lt_of_wrote (1 + ws.length) hstreams (Nat.add_pos_left Nat.one_pos _)
    · show m.mtdr.length = _
      omega
    · show load m ≤ _
      omega
    · rw [hr.before]
      exact Nat.zero_le _
    · rw [hr.rank]
      exact le_refl 2

lemma sendCommandState_yields (hc : Countable bus.fifoSize t) (hfifo : 0 < bus.fifoSize)
    (h : Streams bus t memory s) (hcounts : Counts bus t s p) (hrun : p.stateComplete = false)
    (hstate : s.handle.state = .sendCommand) :
    Yields (fun fuel => sendCommandState bus fuel s p) (Executed bus t memory s p) := by
  unfold sendCommandState
  by_cases htx : p.txCount = 0
  · simp only [htx, if_true]
    apply Yields.pure
    apply Executed.waits h hcounts hrun
    · constructor
      · intro hf
        rw [hstate] at hf
        cases hf
      · intro hf
        rw [hstate] at hf
        cases hf
    · rw [Acts, hstate]
      exact not_not.mpr htx
  · simp only [htx, if_false]
    have hcount := hcounts.tx (Or.inl (by rw [hstate]; decide))
    obtain ⟨i, hcmd⟩ := h.commanded hstate (by omega)
    obtain ⟨s', hs'⟩ : ∃ s', s' = ((s.write bus (sendval s.handle)).skip 2).countDown := ⟨_, rfl⟩
    rw [← hs'] at hcmd ⊢
    have htxFifo := hcmd.txFifo
    have hr : Running bus s s' (useTxRoom p) := {
      before := bytesRead_sendCommand hstate
      rank := by rw [hstate]; rfl
      room := by
        show p.txCount - 1 + s'.machine.txFifo.length ≤ bus.fifoSize
        omega
      rx := le_trans hcounts.rx hcmd.rxFifo.length_le
      run := hrun
      notDone := hcounts.notDone hrun }
    by_cases hlast : s'.handle.remainingBytes = 0
    · simp only [if_pos hlast, chooseNext, hcmd.transfer]
      have hall : s'.machine.mtdr = addressWords t := by
        rw [hcmd.mtdr]
        apply List.take_of_length_le
        have hsum := hcmd.count
        rw [hlast] at hsum
        exact le_of_eq hsum.symm
      by_cases hsize : t.dataSize = 0
      · simp only [if_pos hsize]
        exact Yields.pure (commanded_empty hcmd hr hall hsize)
      · simp only [if_neg hsize]
        cases hdirection : t.direction with
        | write => exact Yields.pure (commanded_write hcmd hr hall hc.size hsize hdirection)
        | read =>
          have hquiet := h.flow.quiet (by
            rw [h.mtdr, bytesRead_sendCommand hstate, written, hstate]
            exact requested_plain (fun w hw => plain_addressWords t w (List.mem_of_mem_take hw)))
          have hrxZero : p.rxCount = 0 := by
            have hrx := hcounts.rx
            rw [hquiet.2.1, List.length_nil] at hrx
            omega
          exact commanded_read hc hfifo hcmd hr hrxZero hall hsize hdirection
    · simp only [if_neg hlast]
      exact Yields.pure (commanded_next hcmd hr hlast)

lemma rxCommands_of_few (hne : t.dataSize ≠ 0) (hfew : t.dataSize.toNat ≤ 256) :
    rxCommands t.dataSize.toNat t.dataSize.toNat = [rxCommand (t.dataSize - 1).toNat] := by
  have hpos := dataSize_pos hne
  have hsub : (t.dataSize - 1).toNat = t.dataSize.toNat - 1 := by bv_omega
  rw [hsub]
  obtain ⟨n, hn⟩ := Nat.exists_eq_succ_of_ne_zero (Nat.pos_iff_ne_zero.mp hpos)
  rw [hn, rxCommands, if_neg (Nat.succ_ne_zero n), if_neg (by omega)]

lemma issueReadCommandState_executed (hc : Countable bus.fifoSize t) (h : Streams bus t memory s)
    (hcounts : Counts bus t s p) (hrun : p.stateComplete = false) (hstate : s.handle.state = .issueReadCommand) :
    Executed bus t memory s p (issueReadCommandState bus s p) := by
  obtain ⟨hnoStart, hdirection, hbuf, hremaining⟩ := h.handle.issue hstate
  obtain ⟨hne, hfew⟩ := hc.noStart hnoStart
  unfold issueReadCommandState
  by_cases htx : p.txCount = 0
  · rw [if_pos htx]
    apply Executed.waits h hcounts hrun
    · constructor
      · intro hf
        rw [hstate] at hf
        cases hf
      · intro hf
        rw [hstate] at hf
        cases hf
    · rw [Acts, hstate]
      exact not_not.mpr htx
  · rw [if_neg htx, h.handle.transfer]
    have hcount := hcounts.tx (Or.inl (by rw [hstate]; decide))
    have hread : bytesRead s.handle = 0 := by
      rw [bytesRead, hstate]
      split <;> rfl
    have hmtdr := h.mtdr
    have hflow := h.flow
    have hmemory := h.memory
    rw [written, hstate] at hmtdr
    rw [hread] at hflow hmemory
    have hquiet := hflow.quiet (by rw [hmtdr]; rfl)
    obtain ⟨w, hw⟩ : ∃ w, w = rxCommand (t.dataSize - 1).toNat := ⟨_, rfl⟩
    rw [← hw]
    have hdata : addressWords t ++ dataWords t memory = [w] := by
      rw [addressWords_of_noStart hnoStart, dataWords_of_read memory hdirection,
        rxCommands_of_few hne (hfew hdirection), ← hw]
      rfl
    have hwrote := writeMtdr_wrote bus w s.machine
    dsimp only
    have htransfer : ((s.write bus w).setState .transferData).handle.transfer.direction = .read := by
      show s.handle.transfer.direction = .read
      rw [h.handle.transfer, hdirection]
    rw [htransfer]
    dsimp only
    have hread' : bytesRead ((s.write bus w).setState .transferData).disableTxIrq.handle = 0 := by
      rw [bytesRead]
      split
      · rfl
      · exact hbuf
    have hstreams : Streams bus t memory ((s.write bus w).setState .transferData).disableTxIrq := {
      handle := {
        transfer := h.handle.transfer
        command := by rintro ⟨⟩
        issue := by rintro ⟨⟩
        data := fun _ => by
          show s.handle.buf + s.handle.remainingBytes.toNat = _ ∧ 0 < s.handle.remainingBytes.toNat
          rw [hbuf, hremaining]
          exact ⟨Nat.zero_add _, dataSize_pos hne⟩ }
      flow := by
        rw [hread']
        exact hflow.write w (by omega)
      mtdr := by
        show (writeMtdr bus w s.machine).mtdr = match t.direction with
          | .write => addressWords t ++ (List.range s.handle.buf).map fun i => (memory i).setWidth 16
          | .read => addressWords t ++ dataWords t memory
        rw [hdirection]
        dsimp only
        rw [hdata, hwrote.mtdr, hmtdr]
        rfl
      memory := by
        rw [hread']
        exact hwrote.memory.trans hmemory
      notWrapped := h.notWrapped
      enabled := h.enabled.trans (by rw [hstate]; rfl)
      txEnabled := by simp [usesTx, Sys.disableTxIrq, Sys.setState, hdirection]
      completions := h.completions.trans (by rw [hstate]; rfl) }
    apply Executed.of_lt hstreams
    · exact {
        running := by rintro ⟨⟩
        tx := fun hf => by
          rcases hf with hf | hf
          · exact absurd rfl hf
          · exact absurd (hdirection.symm.trans hf) (by decide)
        rx := le_trans hcounts.rx hwrote.rxFifo.length_le
        txOfRead := fun _ _ => by
          have hrx := hcounts.rx
          rw [hquiet.2.1, List.length_nil] at hrx
          exact Or.inl (Nat.le_zero.mp hrx)
        stop := by rintro ⟨⟩
        wait := by rintro ⟨⟩
        done := fun hdone => absurd ((hcounts.notDone hrun).symm.trans hdone) (by decide)
        rest := fun hcomplete => absurd (hrun.symm.trans hcomplete) (by decide) }
    · apply work_lt_of_wrote 1 hstreams Nat.one_pos
      · show (writeMtdr bus w s.machine).mtdr.length = _
        rw [hwrote.mtdr, List.length_append]
        rfl
      · exact hwrote.load_le
      · rw [hread]
        exact Nat.zero_le _
      · rw [hstate]
        exact le_refl 2

end Steps

end McuxDrivers.Lpi2c
