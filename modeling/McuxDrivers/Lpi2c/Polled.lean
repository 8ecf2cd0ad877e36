import McuxDrivers.Lpi2c.Flow

/-!
# The blocking transfer

With room for its read commands, the blocking transfer writes its commands, its data or the read
commands, and the stop, and returns when all the bytes have been moved.
-/

namespace McuxDrivers.Lpi2c
open Lib

variable {bus : Bus} {m : Machine}

/-- A controller with nothing to do. -/
structure Fresh (m : Machine) : Prop where
  txFifo : m.txFifo = []
  reading : m.reading = 0
  rxFifo : m.rxFifo = []
  busBusy : m.busBusy = false
  taken : m.taken = 0
  mtdr : m.mtdr = []
  lost : m.lost = false

lemma Fresh.flow (h : Fresh m) (hstop : m.stopDetect = false) : Flow bus m 0 where
  lost := h.lost
  room := by
    rw [h.txFifo]
    exact Nat.zero_le _
  sent := by
    refine ⟨[], ?_, ?_, ?_⟩
    · rw [h.txFifo, h.mtdr]
      rfl
    · rw [h.taken, h.reading]
      rfl
    · rw [hstop]
      simp
  read_le := Nat.zero_le _
  held := by
    rw [h.rxFifo, h.taken]
    rfl

lemma Fresh.settle (h : Fresh m) : Fresh (settle bus m) ∧ (settle bus m).stopDetect = m.stopDetect := by
  have hstays : advance bus m = m := by
    rw [advance, if_neg (by rw [h.reading]; exact lt_irrefl 0), h.txFifo]
  have hiterate : (advance bus)^[bus.ticks m.now] m = m := Function.iterate_fixed hstays _
  rw [Lpi2c.settle, hiterate]
  exact ⟨{ h with }, rfl⟩

/-- The memory with the first bytes of the slave. -/
def filled (bus : Bus) (memory : Nat → Byte) (read : Nat) : Nat → Byte :=
  fun i => if i < read then bus.slave i else memory i

lemma filled_zero (bus : Bus) (memory : Nat → Byte) : filled bus memory 0 = memory := by
  funext i
  exact if_neg (Nat.not_lt_zero i)

lemma filled_succ (bus : Bus) (memory : Nat → Byte) (read : Nat) :
    Function.update (filled bus memory read) read (bus.slave read) = filled bus memory (read + 1) := by
  funext i
  by_cases hi : i = read
  · rw [hi, Function.update_self, filled, if_pos (Nat.lt_succ_self read)]
  · rw [Function.update_of_ne hi, filled, filled]
    by_cases hless : i < read
    · rw [if_pos hless, if_pos (Nat.lt_succ_of_lt hless)]
    · rw [if_neg hless, if_neg (by omega)]

namespace Flow

variable {read : Nat}

lemma length_txFifo_le (h : Flow bus m read) : m.txFifo.length ≤ m.mtdr.length := by
  obtain ⟨sent, hsent, -⟩ := h.sent
  rw [← hsent, List.length_append]
  exact Nat.le_add_left _ _

/-- With nothing left to read there will be room in the command FIFO. -/
lemma waitForTxReady (h : Flow bus m read) (hfifo : 0 < bus.fifoSize) (hall : requested m.mtdr = read) :
    Yields (fun fuel => waitForTxReady bus fuel m)
      (fun m' => Later m m' ∧ Flow bus m' read ∧ m'.txFifo.length < bus.fifoSize) := by
  have hyields := poll_yields bus (fun m' => bus.fifoSize - m'.txFifo.length ≠ 0)
    (fun m' => Flow bus m' read ∧ m'.mtdr = m.mtdr) (m := m)
    (fun m' ⟨hflow, hmtdr⟩ => ⟨hflow.advance, (advance_later bus m').mtdr.trans hmtdr⟩)
    (fun m' ⟨hflow, hmtdr⟩ => ⟨hflow.settle, (settle_later bus m').mtdr.trans hmtdr⟩)
    (fun m' ⟨hflow, hmtdr⟩ hnot => ?_) ⟨h, rfl⟩
  · apply hyields.mono
    rintro m' ⟨hlater, ⟨hflow, -⟩, hready⟩
    refine ⟨hlater, hflow, ?_⟩
    have hroom : bus.fifoSize - m'.txFifo.length ≠ 0 := of_decide_eq_true hready
    omega
  · apply hflow.canMove_of_quiet (by rw [hmtdr]; exact hall)
    intro hempty
    have hfull : ¬ bus.fifoSize - m'.txFifo.length ≠ 0 := of_decide_eq_false hnot
    rw [hempty, List.length_nil] at hfull
    omega

lemma sendCommands (h : Flow bus m 0) (hfifo : 0 < bus.fifoSize) {ws : List Word} (hplain : ∀ w ∈ ws, Plain w)
    (hall : requested m.mtdr = 0) :
    Yields (fun fuel => sendCommands bus fuel ws m)
      (fun m' => Flow bus m' 0 ∧ m'.mtdr = m.mtdr ++ ws ∧ m'.memory = m.memory) := by
  induction ws generalizing m with
  | nil => exact Yields.pure ⟨h, (List.append_nil _).symm, rfl⟩
  | cons w ws ih =>
    apply (h.waitForTxReady hfifo hall).bind
    rintro m₁ ⟨hlater, hflow, hroom⟩
    have hwrote := writeMtdr_wrote bus w m₁
    have hmtdr : (writeMtdr bus w m₁).mtdr = m.mtdr ++ [w] := by rw [hwrote.mtdr, hlater.mtdr]
    have hasked : requested (writeMtdr bus w m₁).mtdr = 0 := by
      rw [hmtdr, requested_append, hall, requested_plain]
      intro w' hw'
      rw [List.mem_singleton.mp hw']
      exact hplain w List.mem_cons_self
    apply (ih (hflow.write w hroom) (fun w' hw' => hplain w' (List.mem_cons_of_mem _ hw')) hasked).mono
    rintro m' ⟨hflow', hmtdr', hmemory'⟩
    refine ⟨hflow', ?_, ?_⟩
    · rw [hmtdr', hmtdr, List.append_assoc]
      rfl
    · rw [hmemory', hwrote.memory, hlater.memory]

lemma masterSend (h : Flow bus m 0) (hfifo : 0 < bus.fifoSize) (txSize offset : Nat) (hall : requested m.mtdr = 0) :
    Yields (fun fuel => masterSend bus fuel txSize offset m)
      (fun m' => Flow bus m' 0 ∧ m'.memory = m.memory ∧
        m'.mtdr = m.mtdr ++ (List.range' offset txSize).map fun i => (m.memory i).setWidth 16) := by
  induction txSize generalizing m offset with
  | zero => exact Yields.pure ⟨h, rfl, (List.append_nil _).symm⟩
  | succ txSize ih =>
    apply (h.waitForTxReady hfifo hall).bind
    rintro m₁ ⟨hlater, hflow, hroom⟩
    have hwrote := writeMtdr_wrote bus ((m₁.memory offset).setWidth 16) m₁
    have hmtdr := hwrote.mtdr
    rw [hlater.mtdr, hlater.memory] at hmtdr
    have hmemory := hwrote.memory.trans hlater.memory
    have hflow' := hflow.write ((m₁.memory offset).setWidth 16) hroom
    rw [hlater.memory] at hflow' hmemory
    have hasked : requested (writeMtdr bus ((m.memory offset).setWidth 16) m₁).mtdr = 0 := by
      rw [hmtdr, requested_append, hall, requested_plain]
      intro w hw
      rw [List.mem_singleton.mp hw]
      exact plain_byte _
    have hrest := ih hflow' (offset + 1) hasked
    rw [hlater.memory]
    apply hrest.mono
    rintro m' ⟨hflow'', hmemory'', hmtdr''⟩
    refine ⟨hflow'', hmemory''.trans hmemory, ?_⟩
    rw [hmtdr'', hmtdr, hmemory, List.append_assoc, List.range'_succ]
    rfl

/-- Words that are written without a look at the FIFO, but with room for them. -/
lemma writes (h : Flow bus m read) {ws : List Word} (hroom : m.txFifo.length + ws.length ≤ bus.fifoSize) :
    Flow bus (ws.foldl (fun m w => writeMtdr bus w m) m) read ∧
      (ws.foldl (fun m w => writeMtdr bus w m) m).mtdr = m.mtdr ++ ws ∧
      (ws.foldl (fun m w => writeMtdr bus w m) m).memory = m.memory := by
  induction ws generalizing m with
  | nil => exact ⟨h, (List.append_nil _).symm, rfl⟩
  | cons w ws ih =>
    have hwrote := writeMtdr_wrote bus w m
    have htx := hwrote.txFifo
    rw [List.length_cons] at hroom
    obtain ⟨hflow, hmtdr, hmemory⟩ := ih (h.write w (by omega)) (by omega)
    refine ⟨hflow, ?_, ?_⟩
    · rw [List.foldl_cons, hmtdr, hwrote.mtdr, List.append_assoc]
      rfl
    · rw [List.foldl_cons, hmemory, hwrote.memory]

lemma receiveData {offset : Nat} (h : Flow bus m offset) (hfifo : 0 < bus.fifoSize) (memory : Nat → Byte)
    (rxSize : Nat) (hall : requested m.mtdr = offset + rxSize) (hmemory : m.memory = filled bus memory offset) :
    Yields (fun fuel => receiveData bus fuel rxSize offset m)
      (fun m' => Flow bus m' (offset + rxSize) ∧ m'.mtdr = m.mtdr ∧ m'.memory = filled bus memory (offset + rxSize)) := by
  induction rxSize generalizing m offset with
  | zero => exact Yields.pure ⟨h, rfl, hmemory⟩
  | succ rxSize ih =>
    have hwait := poll_yields bus (fun m' => m'.rxFifo ≠ []) (fun m' => Flow bus m' offset ∧ m'.mtdr = m.mtdr) (m := m)
      (fun m' ⟨hflow, hmtdr⟩ => ⟨hflow.advance, (advance_later bus m').mtdr.trans hmtdr⟩)
      (fun m' ⟨hflow, hmtdr⟩ => ⟨hflow.settle, (settle_later bus m').mtdr.trans hmtdr⟩)
      (fun m' ⟨hflow, hmtdr⟩ hnot => by
        have hempty : m'.rxFifo = [] := not_not.mp (of_decide_eq_false hnot)
        exact hflow.canMove_of_missing hfifo (by rw [hmtdr, hall]; omega) hempty)
      ⟨h, rfl⟩
    apply hwait.bind
    rintro m₁ ⟨hlater, ⟨hflow, hmtdr⟩, hready⟩
    obtain ⟨hflow', hmemory', -⟩ := hflow.store offset (of_decide_eq_true hready)
    have hmtdr' : (storeByte offset m₁).mtdr = m.mtdr := by
      rw [storeByte]
      split <;> exact hmtdr
    rw [hlater.memory, hmemory, filled_succ] at hmemory'
    have hrest := ih hflow' (by rw [hmtdr', hall]; omega) hmemory'
    rw [show offset + 1 + rxSize = offset + (rxSize + 1) by omega] at hrest
    apply hrest.mono
    rintro m' ⟨hflow'', hmtdr'', hmemory''⟩
    exact ⟨hflow'', hmtdr''.trans hmtdr', hmemory''⟩

lemma masterStop (h : Flow bus m read) (hfifo : 0 < bus.fifoSize) (hall : requested m.mtdr = read) :
    Yields (fun fuel => masterStop bus fuel m)
      (fun m' => m'.mtdr = m.mtdr ++ [kStopCmd] ∧ m'.memory = m.memory ∧ m'.lost = false) := by
  apply (h.waitForTxReady hfifo hall).bind
  rintro m₁ ⟨hlater, hflow, hroom⟩
  have hwrote := writeMtdr_wrote bus kStopCmd m₁
  have hflow' := hflow.write kStopCmd hroom
  obtain ⟨m₂, hm₂⟩ : ∃ m₂, m₂ = writeMtdr bus kStopCmd m₁ := ⟨_, rfl⟩
  rw [← hm₂] at hwrote hflow' ⊢
  have hmtdr : m₂.mtdr = m.mtdr ++ [kStopCmd] := by rw [hwrote.mtdr, hlater.mtdr]
  have hwait := poll_yields bus (fun m' => m'.stopDetect && m'.txFifo.isEmpty)
    (fun m' => Flow bus m' read ∧ m'.mtdr = m₂.mtdr) (m := m₂)
    (fun m' ⟨hflow, hmtdr⟩ => ⟨hflow.advance, (advance_later bus m').mtdr.trans hmtdr⟩)
    (fun m' ⟨hflow, hmtdr⟩ => ⟨hflow.settle, (settle_later bus m').mtdr.trans hmtdr⟩)
    (fun m' ⟨hflow'', hmtdr''⟩ hnot => ?_) ⟨hflow', rfl⟩
  · apply hwait.map
    rintro m' ⟨hlater', ⟨hflow'', hmtdr''⟩, -⟩
    exact ⟨hmtdr''.trans hmtdr, hlater'.memory.trans (hwrote.memory.trans hlater.memory), hflow''.lost⟩
  · have hasked : requested m'.mtdr = read := by
      rw [hmtdr'', hmtdr, requested_append, hall]
      rfl
    apply hflow''.canMove_of_quiet hasked
    intro hempty
    -- the stop has been executed
    obtain ⟨sent, hsent, -, hstop⟩ := hflow''.sent
    rw [hempty, List.append_nil, hmtdr'', hmtdr] at hsent
    have hdetected : m'.stopDetect = true := by
      apply hstop.mp
      rw [hsent]
      exact ⟨kStopCmd, List.mem_append_right _ (List.mem_singleton_self _), by decide⟩
    rw [hdetected, hempty] at hnot
    exact absurd hnot (by decide)

end Flow

/-- The bytes that a transfer reads. -/
def readSize (t : Transfer) : Nat :=
  match t.direction with
  | .write => 0
  | .read => t.dataSize.toNat

/-- The words of the blocking transfer. -/
def blockingWords (t : Transfer) (memory : Nat → Byte) : List Word :=
  blockingCommands t ++ dataWords t memory ++ stopWords t

lemma plain_blockingCommands (t : Transfer) : ∀ w ∈ blockingCommands t, Plain w := by
  intro w hw
  rcases List.mem_append.mp hw with hw | hw
  · rcases List.mem_append.mp hw with hw | hw
    · split at hw
      · exact absurd hw List.not_mem_nil
      · rw [List.mem_singleton.mp hw]
        exact plain_startCommand t _
    · exact plain_subaddressBytes _ _ w hw
  · exact plain_repeatedStart t w hw

/-- The read commands fit into the FIFO behind the commands that the controller may not have executed yet. -/
def ReadFits (fifoSize : Nat) (t : Transfer) : Prop :=
  t.direction = .read → 256 < t.dataSize.toNat →
    (blockingCommands t).length + (t.dataSize.toNat + 255) / 256 ≤ fifoSize

lemma requested_dataWords (t : Transfer) (memory : Nat → Byte) : requested (dataWords t memory) = readSize t := by
  unfold dataWords readSize
  cases t.direction with
  | write => exact requested_plain (plain_memory memory _)
  | read => exact requested_rxCommands (le_refl _)

lemma transferData_yields {t : Transfer} (h : Flow bus m 0) (hfifo : 0 < bus.fifoSize) (hfits : ReadFits bus.fifoSize t)
    (hmtdr : m.mtdr = blockingCommands t) :
    Yields (fun fuel => transferData bus fuel t m)
      (fun m' => Flow bus m' (readSize t) ∧ m'.mtdr = blockingCommands t ++ dataWords t m.memory ∧
        m'.memory = filled bus m.memory (readSize t)) := by
  have hall : requested m.mtdr = 0 := by
    rw [hmtdr]
    exact requested_plain (plain_blockingCommands t)
  unfold transferData
  cases hdirection : t.direction with
  | write =>
    apply (h.masterSend hfifo t.dataSize.toNat 0 hall).mono
    rintro m' ⟨hflow, hmemory, hmtdr'⟩
    rw [readSize, hdirection, filled_zero, dataWords, hdirection, List.range_eq_range', ← hmtdr]
    exact ⟨hflow, hmtdr', hmemory⟩
  | read =>
    rw [readSize, hdirection, dataWords, hdirection]
    dsimp only
    by_cases hsize : t.dataSize.toNat = 0
    · rw [hsize]
      refine Yields.pure ⟨h, ?_, (filled_zero bus m.memory).symm⟩
      rw [hmtdr]
      exact (List.append_nil _).symm
    · simp only [masterReceive, ne_eq, hsize, not_false_eq_true, if_true]
      apply (h.waitForTxReady hfifo hall).bind
      rintro m₁ ⟨hlater, hflow, hroom⟩
      have hcount := length_rxCommands (le_refl t.dataSize.toNat)
      have hspace : m₁.txFifo.length + (rxCommands t.dataSize.toNat t.dataSize.toNat).length ≤ bus.fifoSize := by
        by_cases hmany : 256 < t.dataSize.toNat
        · have hle := hflow.length_txFifo_le
          have hfit := hfits hdirection hmany
          rw [hlater.mtdr, hmtdr] at hle
          omega
        · omega
      obtain ⟨hflow', hmtdr', hmemory'⟩ := hflow.writes hspace
      rw [hlater.mtdr] at hmtdr'
      rw [hlater.memory, ← filled_zero bus m.memory] at hmemory'
      have hasked := requested_append m.mtdr (rxCommands t.dataSize.toNat t.dataSize.toNat)
      rw [hall, requested_rxCommands (le_refl _), ← hmtdr'] at hasked
      have hreceived := hflow'.receiveData hfifo m.memory t.dataSize.toNat hasked hmemory'
      rw [Nat.zero_add] at hreceived
      apply hreceived.mono
      rintro m' ⟨hflow'', hmtdr'', hmemory''⟩
      exact ⟨hflow'', by rw [hmtdr'', hmtdr', hmtdr], hmemory''⟩

/-- What a blocking transfer has done when it returns. -/
theorem masterTransferBlocking_yields {t : Transfer} (h : Fresh m) (hfifo : 0 < bus.fifoSize)
    (haccepted : tooLong bus t = false) (hfits : ReadFits bus.fifoSize t) :
    Yields (fun fuel => masterTransferBlocking bus fuel t m)
      (fun (m', status) => status = .success ∧ m'.mtdr = blockingWords t m.memory ∧ m'.lost = false ∧
        m'.memory = filled bus m.memory (readSize t)) := by
  obtain ⟨hsettled, -⟩ : Fresh (settle bus m) ∧ (settle bus m).stopDetect = m.stopDetect := h.settle
  have hmemory := (settle_later bus m).memory
  unfold masterTransferBlocking
  simp only [haccepted, Bool.false_eq_true, if_false, hsettled.busBusy]
  have hcleared : Fresh (clearStopDetect (settle bus m)) := { hsettled with }
  have hflow : Flow bus (clearStopDetect (settle bus m)) 0 := hcleared.flow rfl
  have hasked : requested (clearStopDetect (settle bus m)).mtdr = 0 := by
    rw [hcleared.mtdr]
    rfl
  apply (hflow.sendCommands hfifo (plain_blockingCommands t) hasked).bind
  rintro m₁ ⟨hflow₁, hmtdr₁, hmemory₁⟩
  rw [hcleared.mtdr, List.nil_append] at hmtdr₁
  have hmemory₁' : m₁.memory = m.memory := hmemory₁.trans hmemory
  apply (transferData_yields hflow₁ hfifo hfits hmtdr₁).bind
  rintro m₂ ⟨hflow₂, hmtdr₂, hmemory₂⟩
  rw [hmemory₁'] at hmtdr₂ hmemory₂
  rw [blockingWords, stopWords]
  cases t.noStop with
  | true =>
    refine Yields.pure ⟨rfl, ?_, hflow₂.lost, hmemory₂⟩
    rw [if_pos rfl, List.append_nil]
    exact hmtdr₂
  | false =>
    have hall : requested m₂.mtdr = readSize t := by
      rw [hmtdr₂, requested_append, requested_plain (plain_blockingCommands t), requested_dataWords, Nat.zero_add]
    apply (hflow₂.masterStop hfifo hall).map
    rintro m' ⟨hmtdr', hmemory', hlost⟩
    exact ⟨rfl, by rw [hmtdr', hmtdr₂]; rfl, hlost, hmemory'.trans hmemory₂⟩

end McuxDrivers.Lpi2c
