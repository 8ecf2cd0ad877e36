import McuxDrivers.Lpuart.Interrupts

/-!
# The progress of a send

`LPUART_TransferGetSendCount` takes everything in the transmit FIFO for characters of the current
transfer. After an abort the FIFO still holds characters of an earlier one.
-/

namespace McuxDrivers.Lpuart
open McuxDrivers.Lib

/-- A send request. The driver asserts that it sends something; its size is a `size_t`. -/
structure SendXfer where
  txData : List Nat
  pos : 0 < txData.length
  lt : txData.length < 2 ^ 32

inductive SendStatus
  | success
  | txBusy
  | noTransferInProgress
  deriving DecidableEq, Repr

/-- The driver and the transmitter: `shifted` of the characters that were written to the FIFO have left
it. The current transfer's characters come after the first `start`. -/
structure Line where
  sys : Sys
  txDataSizeAll : Nat
  shifted : Nat
  start : Nat

/-- `TXCOUNT`. -/
def Line.txCount (l : Line) : Nat :=
  l.sys.txSent.length - l.shifted

/-- The room in the FIFO as the driver computes it, in 8 bits. -/
def Line.txRoom (fifoSize : Nat) (l : Line) : Nat :=
  (fifoSize % 2 ^ 8 + 2 ^ 8 - l.txCount % 2 ^ 8) % 2 ^ 8

/-- The transmission is complete only when the FIFO is empty. -/
def Line.statusFlags (l : Line) (status : Flags) : Flags :=
  { status with transmissionComplete := status.transmissionComplete && decide (l.txCount = 0) }

/-- How many characters of the current transfer have left the FIFO. -/
def Line.left (l : Line) : Nat :=
  l.shifted - l.start

def transferSendNonBlocking (l : Line) (xfer : SendXfer) : SendStatus × Line :=
  if l.sys.handle.txState = .busy then (.txBusy, l)
  else (.success, { l with
    sys := { l.sys with
      handle := { l.sys.handle with txData := xfer.txData, txState := .busy }
      ctrl := { l.sys.ctrl with tie := true } }
    txDataSizeAll := xfer.txData.length
    start := l.sys.txSent.length })

def transferAbortSend (l : Line) : Line :=
  { l with sys := { l.sys with
      handle := { l.sys.handle with txData := [], txState := .idle }
      ctrl := { l.sys.ctrl with tie := false, tcie := false } } }

/-- `LPUART_TransferGetSendCount`, with `*count`. -/
def transferGetSendCount (l : Line) : SendStatus × Option Nat :=
  if l.sys.handle.txState = .idle then (.noTransferInProgress, none)
  else (.success, some (wsub32 (wsub32 l.txDataSizeAll l.sys.handle.txData.length) l.txCount))

/-- The calls of a send, and the shifter, which takes a character from the FIFO. -/
inductive SendEvent
  | sendNonBlocking (xfer : SendXfer)
  | abortSend
  | shift
  | handleIRQ (status : Flags)

def sendStep (fifoSize : Nat) (l : Line) : SendEvent → Line
  | .sendNonBlocking xfer => (transferSendNonBlocking l xfer).2
  | .abortSend => transferAbortSend l
  | .shift => if l.txCount = 0 then l else { l with shifted := l.shifted + 1 }
  | .handleIRQ status => { l with sys := transferHandleIRQ l.sys (l.statusFlags status) (l.txRoom fifoSize) }

/-- A count that is reported is the progress of the current transfer. -/
def CountSound (l : Line) : Prop :=
  ∀ count, transferGetSendCount l = (.success, some count) → count ≤ l.txDataSizeAll ∧ count = l.left

/-- A transfer that is accepted finds the FIFO empty. -/
def FindsFifoEmpty (l : Line) : SendEvent → Prop
  | .sendNonBlocking _ => l.sys.handle.txState = .busy ∨ l.txCount = 0
  | _ => True

/-- A transmitter that is set up, with an empty FIFO. -/
structure Fresh (l : Line) : Prop where
  txState : l.sys.handle.txState = .idle
  tie : l.sys.ctrl.tie = false
  tcie : l.sys.ctrl.tcie = false
  shifted : l.shifted = l.sys.txSent.length

/-- What a send is about. -/
structure SendPart where
  txData : List Nat
  txState : TransferState
  txSent : List Nat
  tie : Bool
  tcie : Bool

def sendPart (s : Sys) : SendPart :=
  ⟨s.handle.txData, s.handle.txState, s.txSent, s.ctrl.tie, s.ctrl.tcie⟩

section Reception

@[simp]
lemma invokeCallback_txSent (s : Sys) (status : Status) : (invokeCallback s status).txSent = s.txSent := by
  unfold invokeCallback
  split <;> rfl

@[simp]
lemma sendPart_invokeCallback (s : Sys) (status : Status) : sendPart (invokeCallback s status) = sendPart s := by
  simp [sendPart]

lemma sendPart_copyFromRing (ringBuffer : Nat → Nat) (n : Nat) (s : Sys) :
    sendPart (copyFromRing ringBuffer n s) = sendPart s := by
  induction n generalizing s with
  | zero => rfl
  | succ n ih =>
    rw [copyFromRing, ih]
    rfl

lemma sendPart_transferReceiveNonBlocking (s : Sys) (xfer : Xfer) :
    sendPart (transferReceiveNonBlocking s xfer).2 = sendPart s := by
  unfold transferReceiveNonBlocking
  split
  · rfl
  · split
    next ringBuffer hring =>
      have hcopied := sendPart_copyFromRing ringBuffer (min xfer.dataSize (transferGetRxRingBufferLength s.handle))
        { s with ctrl := { s.ctrl with rie := false, orie := false } }
      by_cases hmore : xfer.dataSize - min xfer.dataSize (transferGetRxRingBufferLength s.handle) = 0
      · simp only [hmore, ne_eq, not_true_eq_false, if_false, if_true, sendPart_invokeCallback]
        exact hcopied
      · simp only [hmore, ne_eq, not_false_eq_true, if_true, if_false]
        exact hcopied
    · rfl

lemma sendPart_rxIdleCallback (s : Sys) : sendPart (rxIdleCallback s) = sendPart s := by
  unfold rxIdleCallback
  split
  · split
    · exact sendPart_invokeCallback s _
    · exact sendPart_invokeCallback s _
    · rw [sendPart_transferReceiveNonBlocking]
      exact sendPart_invokeCallback s _
  · rfl

lemma sendPart_serveRequest (fuel count : Nat) (s : Sys) :
    sendPart (serveRequest fuel count s).2 = sendPart s := by
  induction fuel generalizing count s with
  | zero => rfl
  | succ fuel ih =>
    rw [serveRequest]
    split
    · rw [ih, serveRound]
      dsimp only
      split
      · rw [sendPart_rxIdleCallback]
        rfl
      · rfl
    · rfl

lemma sendPart_fillRing (count : Nat) (s : Sys) : sendPart (fillRing count s) = sendPart s := by
  induction count generalizing s with
  | zero => rfl
  | succ count ih =>
    rw [fillRing]
    split
    next ringBuffer hring =>
      rw [ih, storeToRing]
      by_cases hfull : transferIsRxRingBufferFull s.handle
      · simp [sendPart, hfull]
      · simp [sendPart, hfull]
    · rfl

lemma sendPart_transferHandleIDLEReady (s : Sys) : sendPart (transferHandleIDLEReady s) = sendPart s := by
  have hserve := sendPart_serveRequest (rxCount s) (rxCount s) s
  unfold transferHandleIDLEReady
  dsimp only
  split
  · exact hserve
  · rw [sendPart_invokeCallback]
    exact hserve

lemma sendPart_transferHandleReceiveDataFull (s : Sys) :
    sendPart (transferHandleReceiveDataFull s) = sendPart s := by
  have hserve := sendPart_serveRequest (rxCount s) (rxCount s) s
  unfold transferHandleReceiveDataFull
  dsimp only
  split
  · rw [sendPart_fillRing]
    exact hserve
  · split
    · exact hserve
    · exact hserve

end Reception

section Handler

/-- What the data-empty handler does to a send. -/
def SendPart.dataEmpty (room : Nat) (p : SendPart) : SendPart :=
  if p.txData ≠ [] ∧ room ≠ 0 then
    { p with
      txSent := p.txSent ++ p.txData.take room
      txData := p.txData.drop room
      tie := if p.txData.drop room = [] then false else p.tie
      tcie := if p.txData.drop room = [] then true else p.tcie }
  else p

def SendPart.complete (p : SendPart) : SendPart :=
  { p with txState := .idle, tcie := false }

lemma sendPart_transferHandleSendDataEmpty (s : Sys) (room : Nat) :
    sendPart (transferHandleSendDataEmpty s room) = (sendPart s).dataEmpty room := by
  have hmodel : (sendPart s).dataEmpty room =
      if s.handle.txData ≠ [] ∧ room ≠ 0 then
        { txData := s.handle.txData.drop room
          txState := s.handle.txState
          txSent := s.txSent ++ s.handle.txData.take room
          tie := if s.handle.txData.drop room = [] then false else s.ctrl.tie
          tcie := if s.handle.txData.drop room = [] then true else s.ctrl.tcie }
      else sendPart s := rfl
  rw [hmodel]
  unfold transferHandleSendDataEmpty
  dsimp only
  split
  · split
    · rfl
    · rfl
  · rfl

/-- The state after the receive side of the interrupt handler. -/
def afterReceive (s : Sys) (status : Flags) : Sys :=
  let s' := afterOverrun s status
  let s' := if status.idleLine ∧ s.ctrl.ilie then transferHandleIDLEReady s' else s'
  if status.rxDataRegFull ∧ s.ctrl.rie then transferHandleReceiveDataFull s' else s'

lemma sendPart_afterReceive (s : Sys) (status : Flags) : sendPart (afterReceive s status) = sendPart s := by
  have hoverrun : sendPart (afterOverrun s status) = sendPart s := by
    unfold afterOverrun
    split
    · exact sendPart_invokeCallback s _
    · rfl
  have hidle : sendPart (if status.idleLine ∧ s.ctrl.ilie then transferHandleIDLEReady (afterOverrun s status)
      else afterOverrun s status) = sendPart s := by
    split
    · rw [sendPart_transferHandleIDLEReady, hoverrun]
    · exact hoverrun
  unfold afterReceive
  dsimp only
  split
  · rw [sendPart_transferHandleReceiveDataFull, hidle]
  · exact hidle

lemma sendPart_transferHandleIRQ (s : Sys) (status : Flags) (room : Nat) :
    sendPart (transferHandleIRQ s status room) =
      let p := if status.txDataRegEmpty ∧ s.ctrl.tie then (sendPart s).dataEmpty room else sendPart s
      if status.transmissionComplete ∧ s.ctrl.tcie then p.complete else p := by
  have hempty : sendPart (if status.txDataRegEmpty ∧ s.ctrl.tie then transferHandleSendDataEmpty (afterReceive s status) room
      else afterReceive s status) =
      if status.txDataRegEmpty ∧ s.ctrl.tie then (sendPart s).dataEmpty room else sendPart s := by
    split
    · rw [sendPart_transferHandleSendDataEmpty, sendPart_afterReceive]
    · exact sendPart_afterReceive s status
  show sendPart (if status.transmissionComplete ∧ s.ctrl.tcie then transferHandleTransmissionComplete _ else _) = _
  dsimp only
  rw [← hempty]
  split
  · rw [transferHandleTransmissionComplete, sendPart_invokeCallback]
    rfl
  · rfl

lemma SendPart.dataEmpty_moves (p : SendPart) (room : Nat) :
    ∃ n, n ≤ room ∧ (p.dataEmpty room).txSent = p.txSent ++ p.txData.take n ∧
      (p.dataEmpty room).txData = p.txData.drop n ∧ (p.dataEmpty room).txState = p.txState := by
  unfold dataEmpty
  split
  · exact ⟨room, le_refl room, rfl, rfl, rfl⟩
  · exact ⟨0, Nat.zero_le room, (List.append_nil _).symm, rfl, rfl⟩

/-- An interrupt moves characters to the FIFO, as many as there is room for. -/
lemma transferHandleIRQ_moves (s : Sys) (status : Flags) (room : Nat) :
    ∃ n, n ≤ room ∧ (transferHandleIRQ s status room).txSent = s.txSent ++ s.handle.txData.take n ∧
      (transferHandleIRQ s status room).handle.txData = s.handle.txData.drop n ∧
      ((transferHandleIRQ s status room).handle.txState = .busy → s.handle.txState = .busy) := by
  obtain ⟨p, hp⟩ : ∃ p, p = if status.txDataRegEmpty ∧ s.ctrl.tie then (sendPart s).dataEmpty room else sendPart s :=
    ⟨_, rfl⟩
  have hpart : sendPart (transferHandleIRQ s status room) =
      if status.transmissionComplete ∧ s.ctrl.tcie then p.complete else p := by
    rw [sendPart_transferHandleIRQ, ← hp]
  obtain ⟨n, hn, hsent, hdata, hstate⟩ : ∃ n, n ≤ room ∧ p.txSent = s.txSent ++ s.handle.txData.take n ∧
      p.txData = s.handle.txData.drop n ∧ p.txState = s.handle.txState := by
    rw [hp]
    split
    · exact (sendPart s).dataEmpty_moves room
    · exact ⟨0, Nat.zero_le room, (List.append_nil _).symm, rfl, rfl⟩
  have hsent' := congrArg SendPart.txSent hpart
  have hdata' := congrArg SendPart.txData hpart
  have hstate' := congrArg SendPart.txState hpart
  refine ⟨n, hn, ?_, ?_, fun hbusy => ?_⟩
  · rw [← hsent]
    refine hsent'.trans ?_
    split <;> rfl
  · rw [← hdata]
    refine hdata'.trans ?_
    split <;> rfl
  · rw [← hstate]
    have hp' := hstate'.symm.trans hbusy
    split at hp'
    · nomatch hp'
    · exact hp'

end Handler

section Progress

variable {fifoSize : Nat} {l : Line}

/-- What every run keeps while the sends that are accepted find the FIFO empty. -/
structure Sending (fifoSize : Nat) (l : Line) : Prop where
  shifted_le : l.shifted ≤ l.sys.txSent.length
  fits : l.txCount ≤ fifoSize
  written : l.sys.handle.txState = .busy → l.start + l.txDataSizeAll = l.sys.txSent.length + l.sys.handle.txData.length
  lt : l.sys.handle.txState = .busy → l.txDataSizeAll < 2 ^ 32
  own : l.sys.handle.txState = .busy → l.start ≤ l.shifted

lemma Fresh.sending (h : Fresh l) : Sending fifoSize l where
  shifted_le := h.shifted.le
  fits := by
    rw [Line.txCount, h.shifted, Nat.sub_self]
    exact Nat.zero_le fifoSize
  written hbusy := nomatch h.txState.symm.trans hbusy
  lt hbusy := nomatch h.txState.symm.trans hbusy
  own hbusy := nomatch h.txState.symm.trans hbusy

/-- The three terms of the count are what was asked, what waits and what the FIFO holds. -/
lemma Sending.countSound (h : Sending fifoSize l) : CountSound l := by
  intro count hcount
  unfold transferGetSendCount at hcount
  split at hcount
  · nomatch hcount
  next hstate =>
    have hbusy : l.sys.handle.txState = .busy := by
      cases hcase : l.sys.handle.txState with
      | idle => exact absurd hcase hstate
      | busy => rfl
    have hshifted := h.shifted_le
    have hwritten := h.written hbusy
    have hown := h.own hbusy
    have hwrap : wsub32 (wsub32 l.txDataSizeAll l.sys.handle.txData.length) l.txCount =
        l.txDataSizeAll - l.sys.handle.txData.length - l.txCount :=
      wsub32_wsub32_of_le (by rw [Line.txCount]; omega)
    obtain rfl : wsub32 (wsub32 l.txDataSizeAll l.sys.handle.txData.length) l.txCount = count :=
      Option.some.inj (Prod.mk.inj hcount).2
    rw [hwrap, Line.txCount, Line.left]
    omega

/-- A transfer that is accepted too early is counted wrongly at once. -/
lemma Sending.not_countSound (h : Sending fifoSize l) (hsize : fifoSize < 2 ^ 8) {xfer : SendXfer}
    (hbad : ¬ FindsFifoEmpty l (.sendNonBlocking xfer)) :
    ¬ CountSound (sendStep fifoSize l (.sendNonBlocking xfer)) := by
  obtain ⟨hidle, hcount⟩ := not_or.mp hbad
  have hstep : sendStep fifoSize l (.sendNonBlocking xfer) = (transferSendNonBlocking l xfer).2 := rfl
  rw [hstep, transferSendNonBlocking, if_neg hidle]
  intro hsound
  have hfits := h.fits
  have hpos : 0 < l.txCount := Nat.pos_of_ne_zero hcount
  have hwrap : wsub32 (wsub32 xfer.txData.length xfer.txData.length) l.txCount = 2 ^ 32 - l.txCount := by
    rw [wsub32_of_le (le_refl _), Nat.sub_self, wsub32, if_neg (by omega), Nat.sub_zero]
  obtain ⟨-, hleft⟩ := hsound _ rfl
  have hnone : l.shifted - l.sys.txSent.length = 0 := by
    have := h.shifted_le
    omega
  rw [Line.left, hnone] at hleft
  have hzero : wsub32 (wsub32 xfer.txData.length xfer.txData.length) l.txCount = 0 := hleft
  omega

lemma Sending.txRoom (h : Sending fifoSize l) (hsize : fifoSize < 2 ^ 8) : l.txRoom fifoSize = fifoSize - l.txCount := by
  have hfits := h.fits
  rw [Line.txRoom]
  omega

lemma Sending.handleIRQ (h : Sending fifoSize l) (hsize : fifoSize < 2 ^ 8) (status : Flags) :
    Sending fifoSize (sendStep fifoSize l (.handleIRQ status)) := by
  obtain ⟨n, hn, hsent, hdata, hstate⟩ := transferHandleIRQ_moves l.sys (l.statusFlags status) (l.txRoom fifoSize)
  rw [h.txRoom hsize] at hn
  have hshifted := h.shifted_le
  have hfits := h.fits
  have hlength : (sendStep fifoSize l (.handleIRQ status)).sys.txSent.length =
      l.sys.txSent.length + min n l.sys.handle.txData.length := by
    refine (congrArg List.length hsent).trans ?_
    rw [List.length_append, List.length_take]
  have hrest : (sendStep fifoSize l (.handleIRQ status)).sys.handle.txData.length =
      l.sys.handle.txData.length - n := by
    refine (congrArg List.length hdata).trans ?_
    rw [List.length_drop]
  have hcount : (sendStep fifoSize l (.handleIRQ status)).txCount =
      l.sys.txSent.length + min n l.sys.handle.txData.length - l.shifted := by
    rw [Line.txCount, hlength]
    rfl
  exact {
    shifted_le := by
      rw [hlength]
      show l.shifted ≤ _
      omega
    fits := by
      rw [hcount]
      rw [Line.txCount] at hfits hn
      omega
    written := by
      intro hbusy
      have hwritten := h.written (hstate hbusy)
      rw [hlength, hrest]
      show l.start + l.txDataSizeAll = _
      omega
    lt := fun hbusy => h.lt (hstate hbusy)
    own := fun hbusy => h.own (hstate hbusy) }

lemma Sending.shift (h : Sending fifoSize l) : Sending fifoSize (sendStep fifoSize l .shift) := by
  have hshifted := h.shifted_le
  have hfits := h.fits
  unfold sendStep
  dsimp only
  split
  · exact h
  next hcount =>
    rw [Line.txCount] at hcount hfits
    exact {
      shifted_le := by
        show l.shifted + 1 ≤ l.sys.txSent.length
        omega
      fits := by
        show l.sys.txSent.length - (l.shifted + 1) ≤ fifoSize
        omega
      written := h.written
      lt := h.lt
      own := fun hbusy => Nat.le_succ_of_le (h.own hbusy) }

/-- A transfer that is accepted in time starts behind what has left the FIFO. -/
lemma Sending.sendNonBlocking (h : Sending fifoSize l) {xfer : SendXfer} (hok : FindsFifoEmpty l (.sendNonBlocking xfer)) :
    Sending fifoSize (sendStep fifoSize l (.sendNonBlocking xfer)) := by
  have hshifted := h.shifted_le
  show Sending fifoSize (transferSendNonBlocking l xfer).2
  unfold transferSendNonBlocking
  split
  · exact h
  next hidle =>
    have hempty := hok.resolve_left hidle
    rw [Line.txCount] at hempty
    exact {
      shifted_le := hshifted
      fits := h.fits
      written := fun _ => rfl
      lt := fun _ => xfer.lt
      own := fun _ => by
        show l.sys.txSent.length ≤ l.shifted
        omega }

lemma Sending.step (h : Sending fifoSize l) (hsize : fifoSize < 2 ^ 8) (e : SendEvent) (hok : FindsFifoEmpty l e) :
    Sending fifoSize (sendStep fifoSize l e) := by
  cases e with
  | sendNonBlocking xfer => exact h.sendNonBlocking hok
  | abortSend => exact ⟨h.shifted_le, h.fits, nofun, nofun, nofun⟩
  | shift => exact h.shift
  | handleIRQ status => exact h.handleIRQ hsize status

end Progress

/-- The counts of a run are sound exactly when no transfer is accepted while the FIFO holds characters. -/
theorem countSound_iff (fifoSize : Nat) (hsize : fifoSize < 2 ^ 8) (l : Line) (hfresh : Fresh l) (events : List SendEvent) :
    (∀ n, CountSound ((events.take n).foldl (sendStep fifoSize) l)) ↔
      EachStep (sendStep fifoSize) FindsFifoEmpty l events := by
  have hrun (l : Line) (h : Sending fifoSize l) : (∀ n, CountSound ((events.take n).foldl (sendStep fifoSize) l)) ↔
      EachStep (sendStep fifoSize) FindsFifoEmpty l events := by
    induction events generalizing l with
    | nil =>
      refine iff_of_true (fun n => ?_) trivial
      rw [List.take_nil]
      exact h.countSound
    | cons e events ih =>
      constructor
      · intro hsound
        have hok : FindsFifoEmpty l e := by
          by_contra hbad
          cases e with
          | sendNonBlocking xfer => exact h.not_countSound hsize hbad (hsound 1)
          | _ => exact hbad trivial
        exact ⟨hok, (ih _ (h.step hsize e hok)).mp fun n => hsound (n + 1)⟩
      · rintro ⟨hok, hrest⟩ n
        cases n with
        | zero => exact h.countSound
        | succ n => exact (ih _ (h.step hsize e hok)).mpr hrest n
  exact hrun l hfresh.sending

/-- A transfer of one character. -/
def oneChar : SendXfer :=
  ⟨[0x55], by decide, by decide⟩

def freshLine : Line :=
  ⟨reset [], 0, 0, 0⟩

lemma freshLine_fresh : Fresh freshLine :=
  ⟨rfl, rfl, rfl, rfl⟩

def txEmptyFlags : Flags :=
  ⟨false, false, false, true, false⟩

theorem countSound_one :
    CountSound ([SendEvent.sendNonBlocking oneChar, .handleIRQ txEmptyFlags].foldl (sendStep 4) freshLine) :=
  (countSound_iff 4 (by decide) freshLine freshLine_fresh [.sendNonBlocking oneChar, .handleIRQ txEmptyFlags]).mpr
    ⟨Or.inr rfl, trivial, trivial⟩ 2

/-- One character is aborted in the FIFO; the next transfer has then sent 2 ^ 32 - 1 characters. -/
theorem not_countSound : ¬ ∀ (fifoSize : Nat) (l : Line) (events : List SendEvent), 0 < fifoSize → fifoSize < 2 ^ 8 →
    Fresh l → CountSound (events.foldl (sendStep fifoSize) l) := by
  intro h
  have hsound := h 4 freshLine [.sendNonBlocking oneChar, .handleIRQ txEmptyFlags, .abortSend, .sendNonBlocking oneChar]
    (by decide) (by decide) freshLine_fresh (2 ^ 32 - 1) rfl
  exact absurd hsound.1 (by decide)

section Completion

variable {fifoSize : Nat} {l : Line}

/-- A transfer that is not aborted ends with the FIFO empty: its interrupts are enabled one after the other. -/
structure Completing (l : Line) : Prop where
  idle : l.sys.handle.txState = .idle → l.sys.ctrl.tie = false ∧ l.sys.ctrl.tcie = false ∧ l.txCount = 0
  busy : l.sys.handle.txState = .busy → l.sys.ctrl.tcie = !l.sys.ctrl.tie

lemma Fresh.completing (h : Fresh l) : Completing l where
  idle _ := ⟨h.tie, h.tcie, by rw [Line.txCount, h.shifted, Nat.sub_self]⟩
  busy hbusy := nomatch h.txState.symm.trans hbusy

lemma Completing.findsFifoEmpty (h : Completing l) (e : SendEvent) : FindsFifoEmpty l e := by
  cases e with
  | sendNonBlocking xfer =>
    cases hstate : l.sys.handle.txState with
    | idle => exact Or.inr (h.idle hstate).2.2
    | busy => exact Or.inl hstate
  | _ => trivial

lemma SendPart.dataEmpty_tcie {p : SendPart} (room : Nat) (h : p.tcie = !p.tie) :
    (p.dataEmpty room).tcie = !(p.dataEmpty room).tie := by
  unfold dataEmpty
  split
  · by_cases hall : p.txData.drop room = []
    · simp [hall]
    · simp [hall, h]
  · exact h

lemma Completing.handleIRQ (h : Completing l) (status : Flags) :
    Completing (sendStep fifoSize l (.handleIRQ status)) := by
  have hpart := sendPart_transferHandleIRQ l.sys (l.statusFlags status) (l.txRoom fifoSize)
  dsimp only at hpart
  by_cases hcomplete : (l.statusFlags status).transmissionComplete ∧ l.sys.ctrl.tcie
  · have hempty : l.txCount = 0 := of_decide_eq_true (Bool.and_eq_true_iff.mp hcomplete.1).2
    have htie : l.sys.ctrl.tie = false := by
      cases hstate : l.sys.handle.txState with
      | idle => exact (h.idle hstate).1
      | busy =>
        have hcases := h.busy hstate
        rw [hcomplete.2] at hcases
        exact Bool.not_eq_true' _ ▸ hcases.symm
    rw [if_pos hcomplete, if_neg (by simp [htie])] at hpart
    have hsent : (sendStep fifoSize l (.handleIRQ status)).sys.txSent = l.sys.txSent := congrArg SendPart.txSent hpart
    have hstate : (sendStep fifoSize l (.handleIRQ status)).sys.handle.txState = .idle :=
      congrArg SendPart.txState hpart
    refine ⟨fun _ => ⟨?_, congrArg SendPart.tcie hpart, ?_⟩, fun hbusy => nomatch hstate.symm.trans hbusy⟩
    · exact (congrArg SendPart.tie hpart).trans htie
    · rw [Line.txCount, hsent]
      exact hempty
  · rw [if_neg hcomplete] at hpart
    by_cases hdata : (l.statusFlags status).txDataRegEmpty ∧ l.sys.ctrl.tie
    · have hbusy : l.sys.handle.txState = .busy := by
        cases hstate : l.sys.handle.txState with
        | idle => exact absurd hdata.2 (by simp [(h.idle hstate).1])
        | busy => rfl
      rw [if_pos hdata] at hpart
      have hstate : (sendStep fifoSize l (.handleIRQ status)).sys.handle.txState = .busy := by
        obtain ⟨-, -, -, -, hsame⟩ := (sendPart l.sys).dataEmpty_moves (l.txRoom fifoSize)
        exact (congrArg SendPart.txState hpart).trans (hsame.trans hbusy)
      refine ⟨fun hidle => (nomatch hstate.symm.trans hidle), fun _ => ?_⟩
      have htcie := (sendPart l.sys).dataEmpty_tcie (l.txRoom fifoSize) (h.busy hbusy)
      exact (congrArg SendPart.tcie hpart).trans (htcie.trans (congrArg (!SendPart.tie ·) hpart.symm))
    · rw [if_neg hdata] at hpart
      have hsent : (sendStep fifoSize l (.handleIRQ status)).sys.txSent = l.sys.txSent := congrArg SendPart.txSent hpart
      have hstate : (sendStep fifoSize l (.handleIRQ status)).sys.handle.txState = l.sys.handle.txState :=
        congrArg SendPart.txState hpart
      have htie : (sendStep fifoSize l (.handleIRQ status)).sys.ctrl.tie = l.sys.ctrl.tie := congrArg SendPart.tie hpart
      have htcie : (sendStep fifoSize l (.handleIRQ status)).sys.ctrl.tcie = l.sys.ctrl.tcie :=
        congrArg SendPart.tcie hpart
      refine ⟨fun hidle => ?_, fun hbusy => ?_⟩
      · rw [htie, htcie, Line.txCount, hsent]
        exact h.idle (hstate.symm.trans hidle)
      · rw [htie, htcie]
        exact h.busy (hstate.symm.trans hbusy)

lemma Completing.step (h : Completing l) {e : SendEvent} (hok : e ≠ .abortSend) :
    Completing (sendStep fifoSize l e) := by
  cases e with
  | sendNonBlocking xfer =>
    show Completing (transferSendNonBlocking l xfer).2
    unfold transferSendNonBlocking
    split
    · exact h
    next hidle =>
      have hstate : l.sys.handle.txState = .idle := by
        cases hcase : l.sys.handle.txState with
        | idle => rfl
        | busy => exact absurd hcase hidle
      exact ⟨nofun, fun _ => (h.idle hstate).2.1⟩
  | abortSend => exact absurd rfl hok
  | shift =>
    unfold sendStep
    dsimp only
    split
    · exact h
    next hcount =>
      exact ⟨fun hidle => absurd (h.idle hidle).2.2 hcount, h.busy⟩
  | handleIRQ status => exact h.handleIRQ status

end Completion

/-- Only an abort leaves characters to a later transfer. -/
theorem findsFifoEmpty_of_no_abort (fifoSize : Nat) {l : Line} (hfresh : Fresh l) (events : List SendEvent)
    (hno : ∀ e ∈ events, e ≠ .abortSend) : EachStep (sendStep fifoSize) FindsFifoEmpty l events := by
  have hrun (l : Line) (h : Completing l) : EachStep (sendStep fifoSize) FindsFifoEmpty l events := by
    induction events generalizing l with
    | nil => trivial
    | cons e events ih =>
      have hrest := ih (fun e' he' => hno e' (List.mem_cons_of_mem e he'))
      exact ⟨h.findsFifoEmpty e, hrest _ (h.step (hno e List.mem_cons_self))⟩
  exact hrun l hfresh.completing

end McuxDrivers.Lpuart
