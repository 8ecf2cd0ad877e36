import McuxDrivers.I3c.SlaveTransfer

/-!
# The counts of the I3C slave

The slave keeps to the buffers that it is given in every run. Its completion events count what has moved through the current
buffer as long as the shared counter and the sticky transmit flag belong to it.
-/

namespace McuxDrivers.I3c.Slave
open McuxDrivers.Lib

/-- Every access has been to the buffer that was supplied for it. -/
def Inside (s : Sys) : Prop :=
  ∀ access ∈ s.log.accesses, ∃ b, access.2 = some b ∧ b.Holds access.1

/-- A report counts no more than has moved, and what has been received alone exactly. -/
def Report.Truthful (r : Report) : Prop :=
  r.count.toNat ≤ r.moved ∧ (r.pureReceive = true → r.count.toNat = r.moved)

instance (r : Report) : Decidable r.Truthful := inferInstanceAs (Decidable (_ ∧ _))

/-- An interrupt after which the counter and the transmit flag belong to the current buffer. -/
structure Orderly (s : Sys) (e : Irq) : Prop where
  /-- An error, which reports zero, does not end a pure receive. -/
  error : e.errors = true → s.handle.transfer.rxData = none ∨ s.handle.wasTransmit = true
  /-- A transmit, which sets the flag, finds data in a new buffer or in the one that was used last. -/
  transmit : e.errors = false → s.TxPending e →
    if e.start = true ∨ s.handle.transfer.TxOut then e.txSupply ≠ none else s.log.current = some .transmit
  /-- So does a receive; only the first of a transfer may be declined. -/
  receive : e.errors = false → s.RxPending e →
    if s.handle.transfer.RxOut then e.rxSupply ≠ none ∨ (¬ s.TxPending e ∧ s.log.current = none)
    else ¬ s.TxPending e ∧ s.log.current = some .receive
  /-- A transfer that ends without any request finds no count of the one before it. -/
  stop : e.errors = false → e.stop = true → s.handle.isBusy = true ∨ e.receivedCCC = true ∨ e.matched = true →
    s.TxPending e ∨ s.RxPending e ∨ s.log.current ≠ none ∨ s.handle.transferredCount = 0

set_option synthInstance.maxSize 400 in
instance (s : Sys) (e : Irq) : Decidable (Orderly s e) :=
  decidable_of_iff
    ((e.errors = true → s.handle.transfer.rxData = none ∨ s.handle.wasTransmit = true) ∧
      (e.errors = false → s.TxPending e →
        if e.start = true ∨ s.handle.transfer.TxOut then e.txSupply ≠ none else s.log.current = some .transmit) ∧
      (e.errors = false → s.RxPending e →
        if s.handle.transfer.RxOut then e.rxSupply ≠ none ∨ (¬ s.TxPending e ∧ s.log.current = none)
        else ¬ s.TxPending e ∧ s.log.current = some .receive) ∧
      (e.errors = false → e.stop = true → s.handle.isBusy = true ∨ e.receivedCCC = true ∨ e.matched = true →
        s.TxPending e ∨ s.RxPending e ∨ s.log.current ≠ none ∨ s.handle.transferredCount = 0))
    ⟨fun ⟨herror, htransmit, hreceive, hstop⟩ => ⟨herror, htransmit, hreceive, hstop⟩,
      fun h => ⟨h.error, h.transmit, h.receive, h.stop⟩⟩

/-- Bytes of the bus come at any time. -/
def OrderlyEvent (s : Sys) : Event → Prop
  | .irq e => Orderly s e
  | .received _ | .sent => True

instance (s : Sys) : (event : Event) → Decidable (OrderlyEvent s event)
  | .irq e => inferInstanceAs (Decidable (Orderly s e))
  | .received _ | .sent => isTrue trivial

section Buffers

/-- The data pointers and sizes stay in the buffers. -/
structure Buffers (s : Sys) : Prop where
  tx : ∀ a, s.handle.transfer.txData = some a → ∃ b, s.log.txBuffer = some b ∧ a = b.base + s.log.txMoved ∧
    s.log.txMoved + s.handle.transfer.txDataSize.toNat ≤ b.size.toNat
  rx : ∀ a, s.handle.transfer.rxData = some a → ∃ b, s.log.rxBuffer = some b ∧ a = b.base + s.log.rxMoved ∧
    s.log.rxMoved + s.handle.transfer.rxDataSize.toNat ≤ b.size.toNat
  inside : Inside s
  count : s.handle.transfer.transferredCount = 0

variable {s : Sys} {e : Irq}

lemma toNat_sub_one {n : BitVec 32} (hn : n ≠ 0) : (n - 1).toNat + 1 = n.toNat := by
  have hpos : n.toNat ≠ 0 := fun h => hn (BitVec.eq_of_toNat_eq h)
  rw [BitVec.toNat_sub]
  have hlt := n.isLt
  have hone : (1 : BitVec 32).toNat = 1 := rfl
  omega

/-- What a statement keeps, it keeps where it is conditional. -/
lemma ite_keeps {P : Sys → Prop} {p : Prop} [Decidable p] {s s' : Sys} (h' : P s') (h : P s) :
    P (if p then s' else s) := by
  split_ifs
  · exact h'
  · exact h

lemma Buffers.busStart (h : Buffers s) : Buffers s.handleBusStart where
  tx a ha := by
    obtain ⟨b, hb, heq, hle⟩ := h.tx a ha
    exact ⟨b, hb, heq, Nat.le_trans (Nat.add_le_add_left (Nat.zero_le _) _) hle⟩
  rx := h.rx
  inside := h.inside
  count := h.count

lemma Buffers.setBusy (h : Buffers s) : Buffers s.setBusy :=
  ⟨h.tx, h.rx, h.inside, h.count⟩

lemma Buffers.requestTx (h : Buffers s) (e : Irq) : Buffers (s.requestTx e) := by
  have hbusy : Buffers (if e.hdrMode then s.setBusy else s) := ite_keeps h.setBusy h
  unfold Sys.requestTx
  cases hsupply : e.txSupply with
  | none => exact ⟨hbusy.tx, hbusy.rx, hbusy.inside, hbusy.count⟩
  | some b =>
    refine ⟨?_, hbusy.rx, hbusy.inside, hbusy.count⟩
    intro a ha
    obtain rfl := Option.some.inj ha
    exact ⟨b, rfl, rfl, Nat.le_of_eq (Nat.zero_add _)⟩

lemma Buffers.requestRx (h : Buffers s) (e : Irq) : Buffers (s.requestRx e) := by
  have hbusy : Buffers (if e.hdrMode then s.setBusy else s) := ite_keeps h.setBusy h
  unfold Sys.requestRx
  cases hsupply : e.rxSupply with
  | none => exact ⟨hbusy.tx, hbusy.rx, hbusy.inside, hbusy.count⟩
  | some b =>
    refine ⟨hbusy.tx, ?_, hbusy.inside, hbusy.count⟩
    intro a ha
    obtain rfl := Option.some.inj ha
    exact ⟨b, rfl, rfl, Nat.le_of_eq (Nat.zero_add _)⟩

lemma Buffers.txByte (h : Buffers s) {address : Nat} (hdata : s.handle.transfer.txData = some address)
    (hsize : s.handle.transfer.txDataSize ≠ 0) : Buffers (s.txByte address) := by
  obtain ⟨b, hb, heq, hle⟩ := h.tx address hdata
  have hsub := toNat_sub_one hsize
  refine ⟨?_, h.rx, ?_, h.count⟩
  · intro a ha
    obtain rfl := Option.some.inj ha
    refine ⟨b, hb, ?_, ?_⟩
    · change address + 1 = b.base + (s.log.txMoved + 1)
      omega
    · change s.log.txMoved + 1 + (s.handle.transfer.txDataSize - 1).toNat ≤ b.size.toNat
      omega
  · intro access haccess
    rcases List.mem_append.mp haccess with hbefore | hnow
    · exact h.inside access hbefore
    · rw [List.mem_singleton.mp hnow]
      refine ⟨b, hb, ?_, ?_⟩
      · change b.base ≤ address
        omega
      · change address < b.base + b.size.toNat
        omega

lemma Buffers.rxByte (h : Buffers s) {address : Nat} (hdata : s.handle.transfer.rxData = some address)
    (hsize : s.handle.transfer.rxDataSize ≠ 0) (byte : BitVec 8) (rest : List (BitVec 8)) :
    Buffers (s.rxByte address byte rest) := by
  obtain ⟨b, hb, heq, hle⟩ := h.rx address hdata
  have hsub := toNat_sub_one hsize
  refine ⟨h.tx, ?_, ?_, h.count⟩
  · intro a ha
    obtain rfl := Option.some.inj ha
    refine ⟨b, hb, ?_, ?_⟩
    · change address + 1 = b.base + (s.log.rxMoved + 1)
      omega
    · change s.log.rxMoved + 1 + (s.handle.transfer.rxDataSize - 1).toNat ≤ b.size.toNat
      omega
  · intro access haccess
    rcases List.mem_append.mp haccess with hbefore | hnow
    · exact h.inside access hbefore
    · rw [List.mem_singleton.mp hnow]
      refine ⟨b, hb, ?_, ?_⟩
      · change b.base ≤ address
        omega
      · change address < b.base + b.size.toNat
        omega

lemma Buffers.txLoop (h : Buffers s) (txCount : Nat) : Buffers (s.txLoop txCount) := by
  induction txCount generalizing s with
  | zero => exact h
  | succ txCount ih =>
    rw [Sys.txLoop]
    split
    · exact h
    next address hdata =>
      split
      next hsize => exact ih (h.txByte hdata hsize)
      next => exact h

lemma Buffers.rxLoop (h : Buffers s) (fifo : List (BitVec 8)) : Buffers (s.rxLoop fifo) := by
  induction fifo generalizing s with
  | nil => exact h
  | cons byte rest ih =>
    rw [Sys.rxLoop]
    split
    · exact h
    next address hdata =>
      split
      next hsize => exact ih (h.rxByte hdata hsize byte rest)
      next => exact h

lemma Buffers.handleTxReady (h : Buffers s) (e : Irq) : Buffers (s.handleTxReady e) := by
  have hflag : Buffers { s with handle := { s.handle with wasTransmit := true } } := ⟨h.tx, h.rx, h.inside, h.count⟩
  unfold Sys.handleTxReady
  dsimp only
  split_ifs
  · exact ⟨(hflag.requestTx e).tx, (hflag.requestTx e).rx, (hflag.requestTx e).inside, (hflag.requestTx e).count⟩
  · exact (hflag.requestTx e).txLoop _
  · exact hflag.txLoop _

lemma Buffers.handleRxReady (h : Buffers s) (e : Irq) : Buffers (s.handleRxReady e) := by
  unfold Sys.handleRxReady
  dsimp only
  split_ifs
  · exact (h.requestRx e).rxLoop _
  · exact h.rxLoop _

lemma Buffers.handleError (h : Buffers s) : Buffers s.handleError :=
  ⟨h.tx, h.rx, h.inside, h.count⟩

lemma Buffers.handleBusStop (h : Buffers s) : Buffers s.handleBusStop := by
  have hflushed : Buffers { s with txEnabled := false, txFifo := [], rxFifo := [] } := ⟨h.tx, h.rx, h.inside, h.count⟩
  apply ite_keeps _ hflushed
  constructor
  · intro a ha
    cases ha
  · intro a ha
    cases ha
  · exact h.inside
  · rfl

lemma Buffers.handleAddress (h : Buffers s) (e : Irq) : Buffers (s.handleAddress e) := by
  have hstart : Buffers (if e.start then s.handleBusStart else s) := ite_keeps h.busStart h
  exact ite_keeps hstart.setBusy hstart

lemma Buffers.handleBytes (h : Buffers s) (e : Irq) (txPending rxPending : Prop) [Decidable txPending]
    [Decidable rxPending] : Buffers (s.handleBytes e txPending rxPending) := by
  have htx : Buffers (if txPending then s.handleTxReady e else s) := ite_keeps (h.handleTxReady e) h
  exact ite_keeps (htx.handleRxReady e) htx

/-- Every step keeps to the buffers. -/
lemma Buffers.step (h : Buffers s) (event : Event) : Buffers (step s event) := by
  cases event with
  | received b =>
    have hmore : Buffers { s with rxFifo := s.rxFifo ++ [b] } := ⟨h.tx, h.rx, h.inside, h.count⟩
    exact ite_keeps hmore h
  | sent => exact ⟨h.tx, h.rx, h.inside, h.count⟩
  | irq e =>
    have hbytes := (h.handleAddress e).handleBytes e (s.TxPending e) (s.RxPending e)
    exact ite_keeps h.handleError (ite_keeps hbytes.handleBusStop hbytes)

lemma Buffers.created (txFifoSize rxFifoSize : Nat) (memory : Nat → BitVec 8) :
    Buffers (created txFifoSize rxFifoSize memory) where
  tx a ha := by cases ha
  rx a ha := by cases ha
  inside access haccess := by cases haccess
  count := rfl

end Buffers

section Counts

/-- The counter belongs to the current buffer, which has been used, and the transmit flag to bytes that were transmitted. -/
structure Counts (s : Sys) : Prop where
  moved : s.log.current ≠ none → s.handle.transferredCount.toNat = s.moved ∧ 1 ≤ s.moved
  idle : s.log.current = none →
    s.handle.transfer.txData = none ∧ s.handle.transfer.rxData = none ∧ s.handle.wasTransmit = false
  receiving : s.log.current = some .receive → s.handle.transfer.rxData ≠ none
  sent : s.handle.wasTransmit = true → s.log.transmitted = true
  truthful : ∀ r ∈ s.log.reports, r.Truthful

/-- What the transmit leaves alone. -/
structure TxFrame (s s' : Sys) : Prop where
  rxData : s'.handle.transfer.rxData = s.handle.transfer.rxData
  rxDataSize : s'.handle.transfer.rxDataSize = s.handle.transfer.rxDataSize
  rxFifo : s'.rxFifo = s.rxFifo
  reports : s'.log.reports = s.log.reports

/-- Bytes are transmitted from the current buffer. -/
structure Transmitting (s : Sys) : Prop where
  current : s.log.current = some .transmit
  count : s.handle.transferredCount.toNat = s.log.txMoved

/-- Bytes are received into the current buffer. -/
structure Receiving (s : Sys) : Prop where
  current : s.log.current = some .receive
  data : s.handle.transfer.rxData ≠ none
  count : s.handle.transferredCount.toNat = s.log.rxMoved

variable {s : Sys} {e : Irq}

lemma toNat_add_one {n : BitVec 32} (hn : n.toNat + 1 < 2 ^ 32) : (n + 1).toNat = n.toNat + 1 := by
  rw [BitVec.toNat_add]
  exact Nat.mod_eq_of_lt hn

lemma Buffers.txMoved_lt (h : Buffers s) {address : Nat} (hdata : s.handle.transfer.txData = some address)
    (hsize : s.handle.transfer.txDataSize ≠ 0) : s.log.txMoved + 1 < 2 ^ 32 := by
  obtain ⟨b, -, -, hle⟩ := h.tx address hdata
  have hsub := toNat_sub_one hsize
  have hlt := b.size.isLt
  omega

lemma Buffers.rxMoved_lt (h : Buffers s) {address : Nat} (hdata : s.handle.transfer.rxData = some address)
    (hsize : s.handle.transfer.rxDataSize ≠ 0) : s.log.rxMoved + 1 < 2 ^ 32 := by
  obtain ⟨b, -, -, hle⟩ := h.rx address hdata
  have hsub := toNat_sub_one hsize
  have hlt := b.size.isLt
  omega

lemma Transmitting.txByte (h : Transmitting s) (hb : Buffers s) {address : Nat}
    (hdata : s.handle.transfer.txData = some address) (hsize : s.handle.transfer.txDataSize ≠ 0) :
    Transmitting (s.txByte address) where
  current := rfl
  count := by
    change (s.handle.transferredCount + 1).toNat = s.log.txMoved + 1
    rw [toNat_add_one, h.count]
    rw [h.count]
    exact hb.txMoved_lt hdata hsize

lemma Receiving.rxByte (h : Receiving s) (hb : Buffers s) {address : Nat}
    (hdata : s.handle.transfer.rxData = some address) (hsize : s.handle.transfer.rxDataSize ≠ 0) (byte : BitVec 8)
    (rest : List (BitVec 8)) : Receiving (s.rxByte address byte rest) where
  current := rfl
  data := Option.some_ne_none _
  count := by
    change (s.handle.transferredCount + 1).toNat = s.log.rxMoved + 1
    rw [toNat_add_one, h.count]
    rw [h.count]
    exact hb.rxMoved_lt hdata hsize

lemma txLoop_frame (txCount : Nat) (s : Sys) : TxFrame s (s.txLoop txCount) := by
  induction txCount generalizing s with
  | zero => exact ⟨rfl, rfl, rfl, rfl⟩
  | succ txCount ih =>
    rw [Sys.txLoop]
    split
    · exact ⟨rfl, rfl, rfl, rfl⟩
    next address hdata =>
      split
      · have hrest := ih (s.txByte address)
        exact ⟨hrest.rxData, hrest.rxDataSize, hrest.rxFifo, hrest.reports⟩
      · exact ⟨rfl, rfl, rfl, rfl⟩

/-- The loop goes on with the buffer. -/
lemma Transmitting.txLoop (h : Transmitting s) (hb : Buffers s) (txCount : Nat) :
    Transmitting (s.txLoop txCount) ∧ s.log.txMoved ≤ (s.txLoop txCount).log.txMoved ∧
      (s.log.transmitted = true → (s.txLoop txCount).log.transmitted = true) := by
  induction txCount generalizing s with
  | zero => exact ⟨h, le_refl _, id⟩
  | succ txCount ih =>
    rw [Sys.txLoop]
    split
    · exact ⟨h, le_refl _, id⟩
    next address hdata =>
      split
      next hsize =>
        obtain ⟨hloop, hle, hsent⟩ := ih (h.txByte hb hdata hsize) (hb.txByte hdata hsize)
        exact ⟨hloop, Nat.le_trans (Nat.le_succ _) hle, fun _ => hsent rfl⟩
      next => exact ⟨h, le_refl _, id⟩

/-- With data and room, at least one byte is transmitted. -/
lemma Transmitting.txLoop_succ (h : Transmitting s) (hb : Buffers s) (hdata : ¬ s.handle.transfer.TxOut) (txCount : Nat) :
    Transmitting (s.txLoop (txCount + 1)) ∧ 1 ≤ (s.txLoop (txCount + 1)).log.txMoved ∧
      (s.txLoop (txCount + 1)).log.transmitted = true := by
  obtain ⟨hsome, hsize⟩ := not_or.mp hdata
  obtain ⟨address, haddress⟩ := Option.ne_none_iff_exists'.mp hsome
  have hloop : s.txLoop (txCount + 1) = (s.txByte address).txLoop txCount := by
    rw [Sys.txLoop, haddress]
    exact if_pos hsize
  rw [hloop]
  obtain ⟨htransmitting, hle, hsent⟩ := (h.txByte hb haddress hsize).txLoop (hb.txByte haddress hsize) txCount
  exact ⟨htransmitting, Nat.le_trans (Nat.le_add_left 1 s.log.txMoved) hle, hsent rfl⟩

/-- What the receive leaves alone. -/
structure RxFrame (s s' : Sys) : Prop where
  wasTransmit : s'.handle.wasTransmit = s.handle.wasTransmit
  transmitted : s'.log.transmitted = s.log.transmitted
  reports : s'.log.reports = s.log.reports

lemma rxLoop_frame (fifo : List (BitVec 8)) (s : Sys) : RxFrame s (s.rxLoop fifo) := by
  induction fifo generalizing s with
  | nil => exact ⟨rfl, rfl, rfl⟩
  | cons byte rest ih =>
    rw [Sys.rxLoop]
    split
    · exact ⟨rfl, rfl, rfl⟩
    next address hdata =>
      split
      · have hrest := ih (s.rxByte address byte rest)
        exact ⟨hrest.wasTransmit, hrest.transmitted, hrest.reports⟩
      · exact ⟨rfl, rfl, rfl⟩

lemma Receiving.rxLoop (h : Receiving s) (hb : Buffers s) (fifo : List (BitVec 8)) :
    Receiving (s.rxLoop fifo) ∧ s.log.rxMoved ≤ (s.rxLoop fifo).log.rxMoved := by
  induction fifo generalizing s with
  | nil => exact ⟨h, le_refl _⟩
  | cons byte rest ih =>
    rw [Sys.rxLoop]
    split
    · exact ⟨h, le_refl _⟩
    next address hdata =>
      split
      next hsize =>
        obtain ⟨hloop, hle⟩ := ih (h.rxByte hb hdata hsize byte rest) (hb.rxByte hdata hsize byte rest)
        exact ⟨hloop, Nat.le_trans (Nat.le_succ _) hle⟩
      next => exact ⟨h, le_refl _⟩

/-- With room and a byte, at least one byte is received. -/
lemma Receiving.rxLoop_cons (h : Receiving s) (hb : Buffers s) (hroom : ¬ s.handle.transfer.RxOut) {fifo : List (BitVec 8)}
    (hfifo : fifo ≠ []) : Receiving (s.rxLoop fifo) ∧ 1 ≤ (s.rxLoop fifo).log.rxMoved := by
  obtain ⟨hsome, hsize⟩ := not_or.mp hroom
  obtain ⟨address, haddress⟩ := Option.ne_none_iff_exists'.mp hsome
  obtain ⟨byte, rest, rfl⟩ := List.exists_cons_of_ne_nil hfifo
  have hloop : s.rxLoop (byte :: rest) = (s.rxByte address byte rest).rxLoop rest := by
    rw [Sys.rxLoop, haddress]
    exact if_pos hsize
  rw [hloop]
  obtain ⟨hreceiving, hle⟩ :=
    (h.rxByte hb haddress hsize byte rest).rxLoop (hb.rxByte haddress hsize byte rest) rest
  exact ⟨hreceiving, Nat.le_trans (Nat.le_add_left 1 s.log.rxMoved) hle⟩

lemma Transmitting.counts {s' : Sys} (h : Transmitting s') (hused : 1 ≤ s'.log.txMoved)
    (hsent : s'.log.transmitted = true) (htruthful : ∀ r ∈ s'.log.reports, r.Truthful) : Counts s' where
  moved _ := by
    unfold Sys.moved
    rw [h.current]
    exact ⟨h.count, hused⟩
  idle hnone := by
    rw [h.current] at hnone
    cases hnone
  receiving hreceive := by
    rw [h.current] at hreceive
    cases hreceive
  sent _ := hsent
  truthful := htruthful

lemma Receiving.counts {s' : Sys} (h : Receiving s') (hused : 1 ≤ s'.log.rxMoved)
    (hsent : s'.handle.wasTransmit = true → s'.log.transmitted = true) (htruthful : ∀ r ∈ s'.log.reports, r.Truthful) :
    Counts s' where
  moved _ := by
    unfold Sys.moved
    rw [h.current]
    exact ⟨h.count, hused⟩
  idle hnone := by
    rw [h.current] at hnone
    cases hnone
  receiving _ := h.data
  sent := hsent
  truthful := htruthful

lemma requestTx_frame (e : Irq) (s : Sys) : TxFrame s (s.requestTx e) := by
  unfold Sys.requestTx
  cases e.txSupply <;> cases e.hdrMode <;> exact ⟨rfl, rfl, rfl, rfl⟩

lemma requestRx_frame (e : Irq) (s : Sys) : RxFrame s (s.requestRx e) := by
  unfold Sys.requestRx
  cases e.rxSupply <;> cases e.hdrMode <;> exact ⟨rfl, rfl, rfl⟩

/-- A new buffer to transmit. -/
lemma requestTx_supplied (hsupply : e.txSupply ≠ none) (s : Sys) :
    Transmitting (s.requestTx e) ∧ ¬ (s.requestTx e).handle.transfer.TxOut := by
  obtain ⟨b, hb⟩ := Option.ne_none_iff_exists'.mp hsupply
  unfold Sys.requestTx
  rw [hb]
  refine ⟨⟨rfl, rfl⟩, not_or.mpr ⟨Option.some_ne_none _, b.size_ne⟩⟩

/-- A new buffer for what is received. -/
lemma requestRx_supplied (hsupply : e.rxSupply ≠ none) (s : Sys) :
    Receiving (s.requestRx e) ∧ ¬ (s.requestRx e).handle.transfer.RxOut ∧ (s.requestRx e).rxFifo = s.rxFifo := by
  obtain ⟨b, hb⟩ := Option.ne_none_iff_exists'.mp hsupply
  unfold Sys.requestRx
  rw [hb]
  refine ⟨⟨rfl, Option.some_ne_none _, rfl⟩, not_or.mpr ⟨Option.some_ne_none _, b.size_ne⟩, ?_⟩
  cases e.hdrMode <;> rfl

/-- A transmit with room and data leaves the counter to its buffer. -/
lemma Counts.handleTxReady (hc : Counts s) (hb : Buffers s) (hroom : s.txFifo.length < s.handle.txFifoSize)
    (hdata : if s.handle.transfer.TxOut then e.txSupply ≠ none else s.log.current = some .transmit) :
    Counts (s.handleTxReady e) ∧ (s.handleTxReady e).log.current ≠ none ∧ TxFrame s (s.handleTxReady e) := by
  obtain ⟨txCount, htxCount⟩ := Nat.exists_eq_add_of_lt hroom
  have hcount : s.handle.txFifoSize - s.txFifo.length = txCount + 1 := by omega
  obtain ⟨s₁, hs₁⟩ : ∃ s₁ : Sys, s₁ = { s with handle := { s.handle with wasTransmit := true } } := ⟨_, rfl⟩
  have hb₁ : Buffers s₁ := by
    rw [hs₁]
    exact ⟨hb.tx, hb.rx, hb.inside, hb.count⟩
  have hframe₁ : TxFrame s s₁ := by
    rw [hs₁]
    exact ⟨rfl, rfl, rfl, rfl⟩
  have hhandler : s.handleTxReady e =
      (if (if s₁.handle.transfer.TxOut then s₁.requestTx e else s₁).handle.transfer.TxOut then
        { (if s₁.handle.transfer.TxOut then s₁.requestTx e else s₁) with txEnabled := false }
      else (if s₁.handle.transfer.TxOut then s₁.requestTx e else s₁).txLoop (txCount + 1)) := by
    rw [hs₁, ← hcount]
    rfl
  -- the state in which the loop starts
  obtain ⟨s₂, hrun, hb₂, htransmitting, hready, hframe₂⟩ : ∃ s₂, s.handleTxReady e = s₂.txLoop (txCount + 1) ∧
      Buffers s₂ ∧ Transmitting s₂ ∧ ¬ s₂.handle.transfer.TxOut ∧ TxFrame s₁ s₂ := by
    by_cases hout : s.handle.transfer.TxOut
    · rw [if_pos hout] at hdata
      obtain ⟨htransmitting, hready⟩ := requestTx_supplied hdata s₁
      refine ⟨s₁.requestTx e, ?_, hb₁.requestTx e, htransmitting, hready, requestTx_frame e s₁⟩
      have hout₁ : s₁.handle.transfer.TxOut := by
        rw [hs₁]
        exact hout
      rw [hhandler, if_pos hout₁, if_neg hready]
    · rw [if_neg hout] at hdata
      have hready : ¬ s₁.handle.transfer.TxOut := by
        rw [hs₁]
        exact hout
      have hmoved := (hc.moved (by rw [hdata]; exact Option.some_ne_none _)).1
      have htransmitting : Transmitting s₁ := by
        rw [hs₁]
        refine ⟨hdata, ?_⟩
        rw [Sys.moved, hdata] at hmoved
        exact hmoved
      refine ⟨s₁, ?_, hb₁, htransmitting, hready, ⟨rfl, rfl, rfl, rfl⟩⟩
      rw [hhandler, if_neg hready, if_neg hready]
  obtain ⟨hloop, hused, hsent⟩ := htransmitting.txLoop_succ hb₂ hready txCount
  have hframe₃ := txLoop_frame (txCount + 1) s₂
  rw [hrun]
  refine ⟨hloop.counts hused hsent ?_, ?_, ?_⟩
  · rw [hframe₃.reports, hframe₂.reports, hframe₁.reports]
    exact hc.truthful
  · rw [hloop.current]
    exact Option.some_ne_none _
  · exact ⟨hframe₃.rxData.trans (hframe₂.rxData.trans hframe₁.rxData),
      hframe₃.rxDataSize.trans (hframe₂.rxDataSize.trans hframe₁.rxDataSize),
      hframe₃.rxFifo.trans (hframe₂.rxFifo.trans hframe₁.rxFifo),
      hframe₃.reports.trans (hframe₂.reports.trans hframe₁.reports)⟩

/-- A receive leaves the counter to its buffer, or to no buffer and at zero. -/
lemma Counts.handleRxReady (hc : Counts s) (hb : Buffers s) (hfifo : s.rxFifo ≠ [])
    (hroom : if s.handle.transfer.RxOut then e.rxSupply ≠ none ∨ s.log.current = none
      else s.log.current = some .receive) :
    Counts (s.handleRxReady e) ∧
      ((s.handleRxReady e).log.current ≠ none ∨ (s.handleRxReady e).handle.transferredCount = 0) := by
  have hused (s₁ : Sys) (hb₁ : Buffers s₁) (hreceiving : Receiving s₁) (hready : ¬ s₁.handle.transfer.RxOut)
      (hframe : RxFrame s s₁) (hrun : s.handleRxReady e = s₁.rxLoop s.rxFifo) :
      Counts (s.handleRxReady e) ∧
        ((s.handleRxReady e).log.current ≠ none ∨ (s.handleRxReady e).handle.transferredCount = 0) := by
    obtain ⟨hloop, hmoved⟩ := hreceiving.rxLoop_cons hb₁ hready hfifo
    have hframe' := rxLoop_frame s.rxFifo s₁
    rw [hrun]
    refine ⟨hloop.counts hmoved ?_ ?_, Or.inl ?_⟩
    · rw [hframe'.wasTransmit, hframe.wasTransmit, hframe'.transmitted, hframe.transmitted]
      exact hc.sent
    · rw [hframe'.reports, hframe.reports]
      exact hc.truthful
    · rw [hloop.current]
      exact Option.some_ne_none _
  by_cases hout : s.handle.transfer.RxOut
  · rw [if_pos hout] at hroom
    have hrun : s.handleRxReady e = (s.requestRx e).rxLoop (s.requestRx e).rxFifo := by
      unfold Sys.handleRxReady
      dsimp only
      rw [if_pos hout]
    by_cases hsupply : e.rxSupply = none
    · -- the callback declines, and there is no buffer
      have hnone : s.log.current = none := hroom.resolve_left (not_not.mpr hsupply)
      obtain ⟨htxData, hrxData, hflag⟩ := hc.idle hnone
      have hlog : (s.requestRx e).log = s.log := by
        unfold Sys.requestRx
        rw [hsupply]
        cases e.hdrMode <;> rfl
      have htransfer : (s.requestRx e).handle.transfer = s.handle.transfer := by
        unfold Sys.requestRx
        rw [hsupply]
        cases e.hdrMode <;> rfl
      have hstays (fifo : List (BitVec 8)) : (s.requestRx e).rxLoop fifo = s.requestRx e := by
        cases fifo with
        | nil => rfl
        | cons b rest => rw [Sys.rxLoop, htransfer, hrxData]
      have hframe := requestRx_frame e s
      rw [hrun, hstays]
      refine ⟨⟨?_, ?_, ?_, ?_, ?_⟩, Or.inr rfl⟩
      · intro hsome
        rw [hlog] at hsome
        exact absurd hnone hsome
      · intro _
        rw [htransfer, hframe.wasTransmit]
        exact ⟨htxData, hrxData, hflag⟩
      · intro hreceive
        rw [hlog, hnone] at hreceive
        cases hreceive
      · rw [hframe.wasTransmit, hframe.transmitted]
        exact hc.sent
      · rw [hframe.reports]
        exact hc.truthful
    · obtain ⟨hreceiving, hready, hsame⟩ := requestRx_supplied hsupply s
      rw [hsame] at hrun
      exact hused _ (hb.requestRx e) hreceiving hready (requestRx_frame e s) hrun
  · rw [if_neg hout] at hroom
    have hmoved := (hc.moved (by rw [hroom]; exact Option.some_ne_none _)).1
    rw [Sys.moved, hroom] at hmoved
    apply hused s hb ⟨hroom, hc.receiving hroom, hmoved⟩ hout ⟨rfl, rfl, rfl⟩
    unfold Sys.handleRxReady
    dsimp only
    rw [if_neg hout]

lemma handleAddress_log (e : Irq) (s : Sys) : (s.handleAddress e).log = s.log := by
  unfold Sys.handleAddress
  split_ifs <;> rfl

lemma handleAddress_transfer (e : Irq) (s : Sys) : (s.handleAddress e).handle.transfer =
    if e.start then { s.handle.transfer with txDataSize := 0 } else s.handle.transfer := by
  unfold Sys.handleAddress
  split_ifs <;> rfl

lemma handleAddress_handle (e : Irq) (s : Sys) :
    (s.handleAddress e).handle.wasTransmit = s.handle.wasTransmit ∧
      (s.handleAddress e).handle.transferredCount = s.handle.transferredCount ∧
      (s.handleAddress e).rxFifo = s.rxFifo := by
  unfold Sys.handleAddress
  split_ifs <;> exact ⟨rfl, rfl, rfl⟩

lemma handleAddress_isBusy (e : Irq) (s : Sys) : (s.handleAddress e).handle.isBusy = true ↔
    s.handle.isBusy = true ∨ e.receivedCCC = true ∨ e.matched = true := by
  unfold Sys.handleAddress
  split_ifs with _ hbusy hbusy
  · exact iff_of_true rfl (Or.inr hbusy)
  · rw [or_iff_left hbusy]
    rfl
  · exact iff_of_true rfl (Or.inr hbusy)
  · rw [or_iff_left hbusy]

lemma handleAddress_room (e : Irq) {s : Sys} (hroom : s.txFifo.length < s.handle.txFifoSize) :
    (s.handleAddress e).txFifo.length < (s.handleAddress e).handle.txFifoSize := by
  unfold Sys.handleAddress
  split_ifs
  · exact Nat.lt_of_le_of_lt (Nat.zero_le _) hroom
  · exact Nat.lt_of_le_of_lt (Nat.zero_le _) hroom
  · exact hroom
  · exact hroom

lemma handleAddress_txOut (e : Irq) (s : Sys) :
    (s.handleAddress e).handle.transfer.TxOut ↔ e.start = true ∨ s.handle.transfer.TxOut := by
  rw [handleAddress_transfer]
  split_ifs with hstart
  · exact iff_of_true (Or.inr rfl) (Or.inl hstart)
  · rw [or_iff_right hstart]

lemma handleAddress_rx (e : Irq) (s : Sys) :
    (s.handleAddress e).handle.transfer.rxData = s.handle.transfer.rxData ∧
      (s.handleAddress e).handle.transfer.rxDataSize = s.handle.transfer.rxDataSize := by
  rw [handleAddress_transfer]
  split_ifs <;> exact ⟨rfl, rfl⟩

lemma Counts.handleAddress (hc : Counts s) (e : Irq) : Counts (s.handleAddress e) := by
  obtain ⟨hflag, hcount, -⟩ := handleAddress_handle e s
  have hrx := (handleAddress_rx e s).1
  constructor
  · unfold Sys.moved
    rw [handleAddress_log, hcount]
    exact hc.moved
  · rw [handleAddress_log, hflag, hrx, handleAddress_transfer]
    intro hnone
    obtain ⟨htx, hrest⟩ := hc.idle hnone
    refine ⟨?_, hrest⟩
    split_ifs
    · exact htx
    · exact htx
  · rw [handleAddress_log, hrx]
    exact hc.receiving
  · rw [handleAddress_log, hflag]
    exact hc.sent
  · rw [handleAddress_log]
    exact hc.truthful

/-- The bytes of an orderly interrupt leave the counter to a buffer, or at zero. -/
lemma Counts.handleBytes (hc : Counts s) (hb : Buffers s) (horderly : Orderly s e) (herrors : e.errors = false) :
    Counts ((s.handleAddress e).handleBytes e (s.TxPending e) (s.RxPending e)) ∧
      (s.TxPending e ∨ s.RxPending e →
        ((s.handleAddress e).handleBytes e (s.TxPending e) (s.RxPending e)).log.current ≠ none ∨
          ((s.handleAddress e).handleBytes e (s.TxPending e) (s.RxPending e)).handle.transferredCount = 0) := by
  have hc₁ := hc.handleAddress e
  have hb₁ := hb.handleAddress e
  have hlog := handleAddress_log e s
  obtain ⟨-, -, hrxFifo⟩ := handleAddress_handle e s
  obtain ⟨hrxData, hrxDataSize⟩ := handleAddress_rx e s
  have hreceive := horderly.receive herrors
  unfold Sys.handleBytes
  dsimp only
  by_cases htx : s.TxPending e
  · have hdata : if (s.handleAddress e).handle.transfer.TxOut then e.txSupply ≠ none
        else (s.handleAddress e).log.current = some .transmit := by
      rw [if_congr (handleAddress_txOut e s) rfl rfl, hlog]
      exact horderly.transmit herrors htx
    obtain ⟨hc₂, hcurrent, hframe⟩ := hc₁.handleTxReady hb₁ (handleAddress_room e htx.2.1) hdata
    have hb₂ := hb₁.handleTxReady e
    rw [if_pos htx]
    by_cases hrx : s.RxPending e
    · have hout : s.handle.transfer.RxOut := by
        by_contra hnot
        have h := hreceive hrx
        rw [if_neg hnot] at h
        exact h.1 htx
      have hsupply : e.rxSupply ≠ none := by
        have h := hreceive hrx
        rw [if_pos hout] at h
        exact h.resolve_right (fun hnot => hnot.1 htx)
      have hout₂ : ((s.handleAddress e).handleTxReady e).handle.transfer.RxOut := by
        unfold Transfer.RxOut
        rw [hframe.rxData, hframe.rxDataSize, hrxData, hrxDataSize]
        exact hout
      have hfifo : ((s.handleAddress e).handleTxReady e).rxFifo ≠ [] := by
        rw [hframe.rxFifo, hrxFifo]
        exact hrx.2
      rw [if_pos hrx]
      obtain ⟨hc₃, hafter⟩ := hc₂.handleRxReady (e := e) hb₂ hfifo (by
        rw [if_pos hout₂]
        exact Or.inl hsupply)
      exact ⟨hc₃, fun _ => hafter⟩
    · rw [if_neg hrx]
      exact ⟨hc₂, fun _ => Or.inl hcurrent⟩
  · rw [if_neg htx]
    by_cases hrx : s.RxPending e
    · have hroom : if (s.handleAddress e).handle.transfer.RxOut then
          e.rxSupply ≠ none ∨ (s.handleAddress e).log.current = none
          else (s.handleAddress e).log.current = some .receive := by
        have h := hreceive hrx
        have hiff : (s.handleAddress e).handle.transfer.RxOut ↔ s.handle.transfer.RxOut := by
          unfold Transfer.RxOut
          rw [hrxData, hrxDataSize]
        rw [if_congr hiff rfl rfl, hlog]
        split_ifs with hout
        · rw [if_pos hout] at h
          exact h.imp_right And.right
        · rw [if_neg hout] at h
          exact h.2
      rw [if_pos hrx]
      obtain ⟨hc₂, hafter⟩ := hc₁.handleRxReady (e := e) hb₁ (by rw [hrxFifo]; exact hrx.2) hroom
      exact ⟨hc₂, fun _ => hafter⟩
    · rw [if_neg hrx]
      exact ⟨hc₁, fun hpending => absurd hpending (not_or.mpr ⟨htx, hrx⟩)⟩

/-- A truthful completion. -/
lemma Counts.complete (hc : Counts s) (hcount : s.log.current ≠ none ∨ s.handle.transferredCount = 0) :
    Counts s.complete where
  moved hsome := absurd rfl hsome
  idle _ := ⟨rfl, rfl, rfl⟩
  receiving hreceive := by cases hreceive
  sent hsent := by cases hsent
  truthful r hr := by
    rcases List.mem_append.mp hr with hbefore | hnow
    · exact hc.truthful r hbefore
    · rw [List.mem_singleton.mp hnow]
      by_cases hnone : s.log.current = none
      · have hzero := hcount.resolve_left (not_not.mpr hnone)
        obtain ⟨-, -, hflag⟩ := hc.idle hnone
        simp [Report.Truthful, hflag, hzero, Sys.pureReceive, hnone]
      · obtain ⟨hmoved, hused⟩ := hc.moved hnone
        by_cases hflag : s.handle.wasTransmit = true
        · have hpure : s.pureReceive = false := by simp [Sys.pureReceive, hc.sent hflag]
          have hne : s.handle.transferredCount ≠ 0 := by
            intro hzero
            rw [hzero] at hmoved
            change 0 = s.moved at hmoved
            omega
          have hsub := toNat_sub_one hne
          rw [if_pos hflag]
          refine ⟨?_, ?_⟩
          · change (s.handle.transferredCount - 1).toNat ≤ s.moved
            omega
          · intro htrue
            change s.pureReceive = true at htrue
            rw [hpure] at htrue
            cases htrue
        · rw [if_neg hflag]
          exact ⟨Nat.le_of_eq hmoved, fun _ => hmoved⟩

lemma Counts.handleBusStop (hc : Counts s)
    (hcount : s.handle.isBusy = true → s.log.current ≠ none ∨ s.handle.transferredCount = 0) : Counts s.handleBusStop := by
  have hflushed : Counts { s with txEnabled := false, txFifo := [], rxFifo := [] } :=
    ⟨hc.moved, hc.idle, hc.receiving, hc.sent, hc.truthful⟩
  unfold Sys.handleBusStop
  dsimp only
  split_ifs with hbusy
  · exact hflushed.complete (hcount hbusy)
  · exact hflushed

/-- The report of an error is zero, which is no pure receive's count. -/
lemma Counts.handleError (hc : Counts s) (hb : Buffers s)
    (hnot : s.handle.transfer.rxData = none ∨ s.handle.wasTransmit = true) : Counts s.handleError where
  moved := hc.moved
  idle := hc.idle
  receiving := hc.receiving
  sent := hc.sent
  truthful r hr := by
    rcases List.mem_append.mp hr with hbefore | hnow
    · exact hc.truthful r hbefore
    · have hpure : s.pureReceive = false := by
        by_cases hreceive : s.log.current = some .receive
        · have hflag := hnot.resolve_left (hc.receiving hreceive)
          simp [Sys.pureReceive, hc.sent hflag]
        · simp [Sys.pureReceive, hreceive]
      rw [List.mem_singleton.mp hnow]
      change Report.Truthful ⟨_, _, s.pureReceive⟩
      simp [Report.Truthful, hb.count, hpure]

/-- An orderly step. -/
lemma Counts.step (hc : Counts s) (hb : Buffers s) (event : Event) (horderly : OrderlyEvent s event) :
    Counts (step s event) := by
  cases event with
  | received b =>
    have hmore : Counts { s with rxFifo := s.rxFifo ++ [b] } :=
      ⟨hc.moved, hc.idle, hc.receiving, hc.sent, hc.truthful⟩
    exact ite_keeps hmore hc
  | sent => exact ⟨hc.moved, hc.idle, hc.receiving, hc.sent, hc.truthful⟩
  | irq e =>
    have horderly' : Orderly s e := horderly
    unfold Slave.step Sys.handleIRQ
    dsimp only
    cases herrors : e.errors with
    | true => exact hc.handleError hb (horderly'.error herrors)
    | false =>
      obtain ⟨hbytes, hpending⟩ := hc.handleBytes hb horderly' herrors
      rw [if_neg Bool.false_ne_true]
      split_ifs with hstop
      · apply hbytes.handleBusStop
        intro hbusy
        by_cases hnone : s.TxPending e ∨ s.RxPending e
        · exact hpending hnone
        · obtain ⟨htx, hrx⟩ := not_or.mp hnone
          have hsame : (s.handleAddress e).handleBytes e (s.TxPending e) (s.RxPending e) = s.handleAddress e := by
            unfold Sys.handleBytes
            dsimp only
            rw [if_neg htx, if_neg hrx]
          rw [hsame] at hbusy ⊢
          rw [handleAddress_log, (handleAddress_handle e s).2.1]
          have hrest := horderly'.stop herrors hstop ((handleAddress_isBusy e s).mp hbusy)
          exact (hrest.resolve_left htx).resolve_left hrx
      · exact hbytes

lemma Counts.created (txFifoSize rxFifoSize : Nat) (memory : Nat → BitVec 8) :
    Counts (created txFifoSize rxFifoSize memory) where
  moved hsome := absurd rfl hsome
  idle _ := ⟨rfl, rfl, rfl⟩
  receiving hreceive := by cases hreceive
  sent hsent := by cases hsent
  truthful r hr := by cases hr

end Counts

end McuxDrivers.I3c.Slave
