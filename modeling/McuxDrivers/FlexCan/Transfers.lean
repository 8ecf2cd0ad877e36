import McuxDrivers.FlexCan.MailboxRuns

/-!
# Transfers with interrupts

The non-blocking transfers of message buffers with a flexible data rate: the calls that start and abort them and the data
part of `FLEXCAN_TransferHandleIRQ`. The handler clears the flag of a buffer in a step of its own, before which the
controller may act again. The instance raises no error, wake-up or FIFO flags.
-/

namespace McuxDrivers.FlexCan.Transfers
open McuxDrivers.Lib

inductive Status where
  | success
  | fail
  | rxOverflow
  | rxIdle
  | rxBusy
  | rxRemote
  | txIdle
  | txBusy
  | txSwitchToRx
  | unHandled
deriving DecidableEq

/-- `_flexcan_state`. -/
inductive MbState where
  | idle
  | rxData
  | rxRemote
  | txData
  | txRemote
deriving DecidableEq

/-- `FLEXCAN_ReadFDRxMb`: the status, and the frame and its time stamp if there is one. -/
def readFDRxMb (L : CsLayout) (s : MbSize) (mbIdx : Nat) (mem : Nat → BitVec 32) :
    Status × Option (FdFrame × BitVec 16) :=
  let cs := mem (s.mailboxOffset mbIdx)
  let code := L.code.get cs
  if code = rxMbFull ∨ code = rxMbOverrun then
    (if code = rxMbFull then .success else .rxOverflow,
      some (shownFrame L s mbIdx mem, (L.timestamp.get cs).setWidth 16))
  else (.fail, none)

/-- All writes of a call. -/
def applyWrites (mem : Nat → BitVec 32) (writes : List Write) : Nat → BitVec 32 :=
  writes.foldl (fun mem w => Function.update mem w.1 w.2) mem

/-- What the registers and the handle hold for a message buffer, and what has happened to it. A buffer of the application is
a number. -/
structure Box where
  imask : Bool
  iflag : Bool
  mbState : MbState
  mbFDFrameBuf : Option Nat
  timestamp : BitVec 16
  /-- The frames that the bus has seen. -/
  sent : List FdFrame
  /-- The frames that the controller has stored. -/
  received : List FdFrame
  /-- The frame of the transfer in progress. -/
  sending : Option FdFrame
  /-- The frames whose transfers have ended with `kStatus_FLEXCAN_TxIdle`. -/
  reported : List FdFrame
  /-- The buffers of the accepted calls that receive. -/
  requested : List Nat
  /-- The buffers that were filled, with the frames. -/
  delivered : List (Nat × FdFrame)

structure System where
  mem : Nat → BitVec 32
  box : Nat → Box
  /-- The message buffer whose flag the handler has still to clear, and the status for the callback. -/
  handling : Option (Nat × Status)
  callbacks : List (Status × Nat)

namespace System

def update (t : System) (mbIdx : Nat) (b : Box) : System :=
  { t with box := Function.update t.box mbIdx b }

section Calls

variable (L : CsLayout) (s : MbSize)

/-- `FLEXCAN_TransferFDSendNonBlocking`. -/
def sendNonBlocking (t : System) (mbIdx : Nat) (f : FdFrame) : Status × System :=
  let b := t.box mbIdx
  if b.mbState = .idle then
    match writeFDTxMb L s mbIdx (t.mem (s.mailboxOffset mbIdx)) f with
    | some writes =>
      (.success, { t with mem := applyWrites t.mem writes }.update mbIdx
        { b with mbState := .txData, imask := true, sending := some f })
    | none => (.fail, t.update mbIdx { b with mbState := .idle })
  else (.txBusy, t)

/-- `FLEXCAN_TransferFDReceiveNonBlocking`. -/
def receiveNonBlocking (t : System) (mbIdx buffer : Nat) : Status × System :=
  let b := t.box mbIdx
  if b.mbState = .idle then
    (.success, t.update mbIdx { b with
      mbState := .rxData
      mbFDFrameBuf := some buffer
      imask := true
      requested := b.requested ++ [buffer] })
  else (.rxBusy, t)

/-- `FLEXCAN_TransferFDAbortSend`. -/
def abortSend (t : System) (mbIdx : Nat) : System :=
  let stamp := (L.timestamp.get (t.mem (s.mailboxOffset mbIdx))).setWidth 16
  { t with mem := applyWrites t.mem (setFDTxMbConfig L s mbIdx true) }.update mbIdx
    { t.box mbIdx with imask := false, timestamp := stamp, mbState := .idle, sending := none }

/-- `FLEXCAN_TransferFDAbortReceive`. -/
def abortReceive (t : System) (mbIdx : Nat) : System :=
  t.update mbIdx { t.box mbIdx with imask := false, mbFDFrameBuf := none, mbState := .idle }

/-- The case of received data in `FLEXCAN_SubHandlerForMB`. -/
def handleRxData (t : System) (mbIdx : Nat) : Status × System :=
  let b := t.box mbIdx
  match readFDRxMb L s mbIdx t.mem, b.mbFDFrameBuf with
  | (status, some (f, stamp)), some buffer =>
    (if status = .success then .rxIdle else status,
      (t.update mbIdx { b with timestamp := stamp, delivered := b.delivered ++ [(buffer, f)] }).abortReceive mbIdx)
  | (status, _), _ => (status, t.abortReceive mbIdx)

/-- `FLEXCAN_SubHandlerForMB`. -/
def subHandlerForMB (t : System) (mbIdx : Nat) : Status × System :=
  let b := t.box mbIdx
  match b.mbState with
  | .rxData => t.handleRxData L s mbIdx
  | .rxRemote => (.rxRemote, t.abortReceive mbIdx)
  | .txData =>
    (.txIdle, (t.update mbIdx { b with reported := b.reported ++ b.sending.toList }).abortSend L s mbIdx)
  | .txRemote => (.txSwitchToRx, t.update mbIdx { b with mbState := .rxRemote })
  | .idle => (.unHandled, t)

/-- The lowest of the bits `j, ..., j + count - 1` that is set. -/
def lowestBit (flag : Nat → Bool) : Nat → Nat → Option Nat
  | 0, _ => none
  | count + 1, j => if flag j then some j else lowestBit flag count (j + 1)

/-- The bits of word `i` that `FLEXCAN_SubHandlerForDataTransfered` looks at for `mbCount` buffers. -/
def wordBits (mbCount i : Nat) : Nat :=
  min (mbCount - 32 * i) 32

/-- The `result` of the words `0, ..., words - 1`: the loop over the words goes on after the lowest flag of a word is
found. -/
def chooseResult (flag : Nat → Bool) (mbCount : Nat) : Nat → Option Nat
  | 0 => none
  | i + 1 =>
    match lowestBit flag (wordBits mbCount i) (32 * i) with
    | some result => some result
    | none => chooseResult flag mbCount i

/-- A turn of the loop of `FLEXCAN_TransferHandleIRQ`, until the flag of the buffer is cleared. -/
def handleIRQ (mbCount : Nat) (t : System) : System :=
  match chooseResult (fun j => (t.box j).imask && (t.box j).iflag) mbCount ((mbCount - 1) / 32 + 1) with
  | some result =>
    let r := t.subHandlerForMB L s result
    { r.2 with handling := some (result, r.1) }
  | none => { t with callbacks := t.callbacks ++ [(.unHandled, 0xFF)] }

/-- The rest of the turn: the flag and the callback. -/
def acknowledge (t : System) : System :=
  match t.handling with
  | some (result, status) =>
    { t with handling := none, callbacks := t.callbacks ++ [(status, result)] }.update result
      { t.box result with iflag := false }
  | none => t

end Calls

end System

inductive Event where
  | send (mbIdx : Nat) (f : FdFrame)
  | receive (mbIdx buffer : Nat)
  | abortSend (mbIdx : Nat)
  | abortReceive (mbIdx : Nat)
  | listen (mbIdx : Nat) (config : Option (BitVec 29 × Bool))
  | interrupt
  | acknowledge
  /-- The controller has sent the frame. -/
  | transmit (mbIdx : Nat) (cs : BitVec 32)
  /-- The controller stores a received frame. -/
  | store (mbIdx : Nat) (content : Nat → BitVec 32)

section Steps

variable (L : CsLayout) (s : MbSize) (mbCount : Nat) (tx : Nat → Bool)

/-- A message buffer that the controller stores frames in. -/
def Listening (mem : Nat → BitVec 32) (mbIdx : Nat) : Prop :=
  L.code.get (mem (s.mailboxOffset mbIdx)) = rxMbEmpty ∨ L.code.get (mem (s.mailboxOffset mbIdx)) = rxMbFull ∨
    L.code.get (mem (s.mailboxOffset mbIdx)) = rxMbOverrun

instance (mem : Nat → BitVec 32) (mbIdx : Nat) : Decidable (Listening L s mem mbIdx) :=
  inferInstanceAs (Decidable (_ ∨ _))

/-- The application uses the buffers of `tx` for sending and makes no call while the handler runs. -/
def step (t : System) : Event → System
  | .send mbIdx f => if tx mbIdx ∧ t.handling = none then (t.sendNonBlocking L s mbIdx f).2 else t
  | .receive mbIdx buffer =>
    if ¬ tx mbIdx ∧ t.handling = none then (t.receiveNonBlocking mbIdx buffer).2 else t
  | .abortSend mbIdx => if tx mbIdx ∧ t.handling = none then t.abortSend L s mbIdx else t
  | .abortReceive mbIdx => if ¬ tx mbIdx ∧ t.handling = none then t.abortReceive mbIdx else t
  | .listen mbIdx config =>
    if ¬ tx mbIdx ∧ t.handling = none then
      { t with mem := applyWrites t.mem (setFDRxMbConfig L s mbIdx config) }
    else t
  | .interrupt => if t.handling = none then t.handleIRQ L s mbCount else t
  | .acknowledge => t.acknowledge
  | .transmit mbIdx cs =>
    if tx mbIdx ∧ L.code.get (t.mem (s.mailboxOffset mbIdx)) = txMbDataOrRemote ∧ L.code.get cs = txMbInactive then
      { t with mem := Function.update t.mem (s.mailboxOffset mbIdx) cs }.update mbIdx
        { t.box mbIdx with iflag := true, sent := (t.box mbIdx).sent ++ [shownFrame L s mbIdx t.mem] }
    else t
  | .store mbIdx content =>
    if ¬ tx mbIdx ∧ Listening L s t.mem mbIdx ∧
        (L.code.get (content (s.mailboxOffset mbIdx)) = rxMbFull ∨
          L.code.get (content (s.mailboxOffset mbIdx)) = rxMbOverrun) then
      { t with mem := fun a => if s.InMailbox mbIdx a then content a else t.mem a }.update mbIdx
        { t.box mbIdx with iflag := true, received := (t.box mbIdx).received ++ [shownFrame L s mbIdx content] }
    else t

end Steps

/-- Before the first call. -/
def System.start (mem : Nat → BitVec 32) : System where
  mem := mem
  box := fun _ =>
    { imask := false, iflag := false, mbState := .idle, mbFDFrameBuf := none, timestamp := 0, sent := [],
      received := [], sending := none, reported := [], requested := [], delivered := [] }
  handling := none
  callbacks := []

end McuxDrivers.FlexCan.Transfers
