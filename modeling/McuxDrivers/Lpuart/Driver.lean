import McuxDrivers.Lib.Ring
import McuxDrivers.Lib.Countdown

/-!
# The LPUART interrupt transfers

The interrupt-driven transfers of `fsl_lpuart.c` on an instance with FIFOs and without 7-bit data.
Each definition has the name of its C function. The hardware is the control register's interrupt
enables and the receive FIFO; a user's buffers are the sequence of what was written to them.
-/

namespace McuxDrivers.Lpuart
open McuxDrivers.Lib

/-- The `status_t` values returned and passed to the callback. -/
inductive Status
  | success
  | rxBusy
  | rxIdle
  | txIdle
  | rxRingBufferOverrun
  | rxHardwareOverrun
  | idleLineDetected
  deriving DecidableEq, Repr

inductive TransferState
  | idle
  | busy
  deriving DecidableEq, Repr

/-- A receive request. The driver asserts that it asks for something. -/
structure Xfer where
  dataSize : Nat
  dataSize_pos : 0 < dataSize

/-- `lpuart_handle_t`. The ring buffer is the memory behind the pointer, `none` for `NULL`; the
receive pointer is not kept, the data written through it is. -/
structure Handle where
  txData : List Nat
  txState : TransferState
  rxDataSize : Nat
  rxDataSizeAll : Nat
  rxRingBuffer : Option (Nat → Nat)
  rxRingBufferSize : Nat
  rxRingBufferHead : Nat
  rxRingBufferTail : Nat
  rxState : TransferState
  callback : Bool
  is16bitData : Bool

/-- The interrupt enables in `CTRL`. -/
structure Ctrl where
  rie : Bool
  orie : Bool
  ilie : Bool
  tie : Bool
  tcie : Bool
  deriving DecidableEq, Repr

/-- The status flags an interrupt finds. -/
structure Flags where
  rxOverrun : Bool
  idleLine : Bool
  rxDataRegFull : Bool
  txDataRegEmpty : Bool
  transmissionComplete : Bool
  deriving DecidableEq, Repr

/-- The driver, the peripheral and the user: `handed` is the data written to the buffers of the
user's requests, `onRxIdle` the requests the user's callback is going to make when a request is
completed from the interrupt handler, `callbacks` the callback invocations so far. -/
structure Sys where
  handle : Handle
  ctrl : Ctrl
  rxFifo : List Nat
  txSent : List Nat
  handed : List Nat
  onRxIdle : List (Option Xfer)
  callbacks : List Status

/-- The system before a handle is created. -/
def reset (onRxIdle : List (Option Xfer)) : Sys :=
  { handle := {
      txData := [], txState := .idle, rxDataSize := 0, rxDataSizeAll := 0, rxRingBuffer := none,
      rxRingBufferSize := 0, rxRingBufferHead := 0, rxRingBufferTail := 0, rxState := .idle,
      callback := false, is16bitData := false }
    ctrl := ⟨false, false, false, false, false⟩
    rxFifo := []
    txSent := []
    handed := []
    onRxIdle := onRxIdle
    callbacks := [] }

def transferGetRxRingBufferLength (h : Handle) : Nat :=
  if h.rxRingBufferTail > h.rxRingBufferHead then
    h.rxRingBufferHead + h.rxRingBufferSize - h.rxRingBufferTail
  else h.rxRingBufferHead - h.rxRingBufferTail

def transferIsRxRingBufferFull (h : Handle) : Bool :=
  transferGetRxRingBufferLength h = wsub32 h.rxRingBufferSize 1

/-- The increment of a 16-bit ring index, which wraps to 0 at the ring size. -/
def advance (size i : Nat) : Nat :=
  if i + 1 = size then 0 else (i + 1) % 2 ^ 16

/-- What is kept of a character: 8 bits, or 10 with 16-bit data. -/
def received (h : Handle) (c : Nat) : Nat :=
  if h.is16bitData then c % 2 ^ 10 else c % 2 ^ 8

/-- `LPUART_ReadNonBlocking` and `LPUART_ReadNonBlocking16bit`: `length` reads of `DATA`, stored to the
user's buffer. -/
def readNonBlocking (s : Sys) (length : Nat) : Sys :=
  { s with
    rxFifo := s.rxFifo.drop length
    handed := s.handed ++ (s.rxFifo.take length).map (received s.handle) }

def invokeCallback (s : Sys) (status : Status) : Sys :=
  if s.handle.callback then { s with callbacks := s.callbacks ++ [status] } else s

def transferCreateHandle (s : Sys) (callback : Bool) : Sys :=
  { s with handle := {
      txData := [], txState := .idle, rxDataSize := 0, rxDataSizeAll := 0, rxRingBuffer := none,
      rxRingBufferSize := 0, rxRingBufferHead := 0, rxRingBufferTail := 0, rxState := .idle,
      callback := callback, is16bitData := false } }

def transferEnable16Bit (s : Sys) (enable : Bool) : Sys :=
  { s with handle := { s.handle with is16bitData := enable } }

def transferStartRingBuffer (s : Sys) (ringBuffer : Nat → Nat) (ringBufferSize : Nat) : Sys :=
  { s with
    handle := { s.handle with
      rxRingBuffer := some ringBuffer
      rxRingBufferSize := if s.handle.is16bitData then ringBufferSize / 2 else ringBufferSize
      rxRingBufferHead := 0
      rxRingBufferTail := 0 }
    ctrl := { s.ctrl with rie := true, orie := true } }

def transferStopRingBuffer (s : Sys) : Sys :=
  { s with
    handle := { s.handle with
      rxRingBuffer := none, rxRingBufferSize := 0, rxRingBufferHead := 0, rxRingBufferTail := 0 }
    ctrl := if s.handle.rxState = .idle then { s.ctrl with rie := false, orie := false } else s.ctrl }

/-- The loop that copies `n` characters from the ring buffer to the user's buffer. -/
def copyFromRing (ringBuffer : Nat → Nat) : Nat → Sys → Sys
  | 0, s => s
  | n + 1, s =>
    copyFromRing ringBuffer n { s with
      handed := s.handed ++ [ringBuffer s.handle.rxRingBufferTail]
      handle := { s.handle with
        rxRingBufferTail := advance s.handle.rxRingBufferSize s.handle.rxRingBufferTail } }

/-- The request is saved in the handle; `all` is its size as a whole. -/
def saveRequest (s : Sys) (bytesToReceive all : Nat) : Sys :=
  { s with handle := { s.handle with
      rxDataSize := bytesToReceive, rxDataSizeAll := all, rxState := .busy } }

/-- `LPUART_TransferReceiveNonBlocking`, with `*receivedBytes`. A request its callback makes is a call
that follows. -/
def transferReceiveNonBlocking (s : Sys) (xfer : Xfer) : (Status × Nat) × Sys :=
  if s.handle.rxState = .busy then ((.rxBusy, 0), s)
  else
    match s.handle.rxRingBuffer with
    | some ringBuffer =>
      let s := { s with ctrl := { s.ctrl with rie := false, orie := false } }
      let bytesToCopy := min xfer.dataSize (transferGetRxRingBufferLength s.handle)
      let bytesToReceive := xfer.dataSize - bytesToCopy
      let s := copyFromRing ringBuffer bytesToCopy s
      let s := if bytesToReceive ≠ 0 then saveRequest s bytesToReceive xfer.dataSize else s
      let s := { s with ctrl := { s.ctrl with rie := true, orie := true } }
      let s := if bytesToReceive = 0 then invokeCallback s .rxIdle else s
      ((.success, bytesToCopy), s)
    | none =>
      let s := saveRequest s xfer.dataSize xfer.dataSize
      ((.success, 0), { s with ctrl := { s.ctrl with rie := true, ilie := true, orie := true } })

def transferAbortReceive (s : Sys) : Sys :=
  { s with
    handle := { s.handle with rxDataSize := 0, rxState := .idle }
    ctrl := if s.handle.rxRingBuffer.isNone then { s.ctrl with rie := false, ilie := false, orie := false }
      else s.ctrl }

/-- The `kStatus_LPUART_RxIdle` callback from the interrupt handler, which may make the next request. -/
def rxIdleCallback (s : Sys) : Sys :=
  if s.handle.callback then
    match s.onRxIdle with
    | [] => invokeCallback s .rxIdle
    | none :: rest => { invokeCallback s .rxIdle with onRxIdle := rest }
    | some xfer :: rest => (transferReceiveNonBlocking { invokeCallback s .rxIdle with onRxIdle := rest } xfer).2
  else s

/-- The body of the loop below: `tempCount` characters for the pending request. -/
def serveRound (s : Sys) (tempCount : Nat) : Sys :=
  let s := readNonBlocking s tempCount
  let s := { s with handle := { s.handle with rxDataSize := s.handle.rxDataSize - tempCount } }
  if s.handle.rxDataSize = 0 then rxIdleCallback { s with handle := { s.handle with rxState := .idle } }
  else s

/-- The loop `while ((0U != handle->rxDataSize) && (0U != count))` of both receive handlers. Every
round takes at least one character, so `count` rounds are enough. -/
def serveRequest : Nat → Nat → Sys → Nat × Sys
  | 0, count, s => (count, s)
  | fuel + 1, count, s =>
    if s.handle.rxDataSize ≠ 0 ∧ count ≠ 0 then
      let tempCount := min s.handle.rxDataSize count
      serveRequest fuel (count - tempCount) (serveRound s tempCount)
    else (count, s)

/-- `RXCOUNT` as an 8-bit number. -/
def rxCount (s : Sys) : Nat :=
  s.rxFifo.length % 2 ^ 8

def disableRxInterrupts (s : Sys) : Sys :=
  { s with ctrl := { s.ctrl with rie := false, ilie := false, orie := false } }

def transferHandleIDLEReady (s : Sys) : Sys :=
  let (_, s) := serveRequest (rxCount s) (rxCount s) s
  if s.handle.rxDataSize = 0 then disableRxInterrupts s else invokeCallback s .idleLineDetected

/-- One character for the ring buffer. When the ring is full, still after the callback, the oldest
character is overridden. -/
def storeToRing (ringBuffer : Nat → Nat) (s : Sys) : Sys :=
  let s := if transferIsRxRingBufferFull s.handle then invokeCallback s .rxRingBufferOverrun else s
  let h := if transferIsRxRingBufferFull s.handle then
      { s.handle with rxRingBufferTail := advance s.handle.rxRingBufferSize s.handle.rxRingBufferTail }
    else s.handle
  { s with
    rxFifo := s.rxFifo.drop 1
    handle := { h with
      rxRingBuffer := some (Function.update ringBuffer h.rxRingBufferHead (received h (s.rxFifo.headD 0)))
      rxRingBufferHead := advance h.rxRingBufferSize h.rxRingBufferHead } }

/-- The loop `while (0U != count)` over the characters no request waits for. -/
def fillRing : Nat → Sys → Sys
  | 0, s => s
  | count + 1, s =>
    match s.handle.rxRingBuffer with
    | some ringBuffer => fillRing count (storeToRing ringBuffer s)
    | none => s

def transferHandleReceiveDataFull (s : Sys) : Sys :=
  let (count, s) := serveRequest (rxCount s) (rxCount s) s
  if s.handle.rxRingBuffer.isSome then fillRing count s
  else if s.handle.rxDataSize = 0 then disableRxInterrupts s
  else s

/-- `LPUART_TransferHandleSendDataEmpty` with room for `count` characters in the transmit FIFO. A round
of its loop leaves either no data or no room, so there is at most one. -/
def transferHandleSendDataEmpty (s : Sys) (count : Nat) : Sys :=
  if s.handle.txData ≠ [] ∧ count ≠ 0 then
    let s := { s with
      txSent := s.txSent ++ s.handle.txData.take count
      handle := { s.handle with txData := s.handle.txData.drop count } }
    if s.handle.txData = [] then { s with ctrl := { s.ctrl with tie := false, tcie := true } } else s
  else s

def transferHandleTransmissionComplete (s : Sys) : Sys :=
  invokeCallback { s with
    handle := { s.handle with txState := .idle }
    ctrl := { s.ctrl with tcie := false } } .txIdle

/-- `LPUART_TransferHandleIRQ`, with the flags it finds and the room in the transmit FIFO. The enables
are read once, before any handler runs. -/
def transferHandleIRQ (s : Sys) (status : Flags) (txRoom : Nat) : Sys :=
  let enabled := s.ctrl
  let s := if status.rxOverrun then invokeCallback s .rxHardwareOverrun else s
  let s := if status.idleLine ∧ enabled.ilie then transferHandleIDLEReady s else s
  let s := if status.rxDataRegFull ∧ enabled.rie then transferHandleReceiveDataFull s else s
  let s := if status.txDataRegEmpty ∧ enabled.tie then transferHandleSendDataEmpty s txRoom else s
  if status.transmissionComplete ∧ enabled.tcie then transferHandleTransmissionComplete s else s

end McuxDrivers.Lpuart
