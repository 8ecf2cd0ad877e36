import Mathlib.Data.BitVec
import Mathlib.Data.List.Basic

/-!
# Smart card transfers on EMVSIM

`fsl_smartcard_emvsim.c` with the transmitter as a FIFO and a shift register and the receiver as a
FIFO. The state has the registers and the fields of the context that the functions read; the wait
times, the baud rate and the guard time of a start do not appear. The transfer callback is registered
and does not call the driver.

The last fields of `Sys` are no data of the driver. They count the accepted starts and the callbacks,
and record what breaks the promise of a transfer: an access to a buffer that is not one of the
transfer in progress, and a transmission reported before it is over.
-/

namespace McuxDrivers.Smartcard

abbrev Byte := BitVec 8

inductive Direction
  | transmit
  | receive
  deriving DecidableEq, Repr

inductive Transport
  | t0
  | t1
  deriving DecidableEq, Repr

/-- `smartcard_transfer_state_t`. -/
inductive TransferState
  | idle
  | waitingForTS
  | invalidTSDetected
  | receiving
  | transmitting
  deriving DecidableEq, Repr

inductive Status
  | success
  | txBusy
  | rxBusy
  | noTransferInProgress
  deriving DecidableEq, Repr

/-- `smartcard_control_t`. -/
inductive Control
  | enableADT
  | disableADT
  | enableGTV
  | disableGTV
  | resetWWT
  | enableWWT
  | disableWWT
  | resetCWT
  | enableCWT
  | disableCWT
  | resetBWT
  | enableBWT
  | disableBWT
  | enableInitDetect
  | enableAnack
  | disableAnack
  | configureBaudrate
  | setupATRMode
  | setupT0Mode
  | setupT1Mode
  | enableReceiverMode
  | disableReceiverMode
  | enableTransmitterMode
  | disableTransmitterMode
  | resetWaitTimeMultiplier
  deriving DecidableEq, Repr

/-- The flags of the context that tell the application what happened. -/
structure Events where
  initCharTimerExpired : Bool
  adtExpired : Bool
  wwtExpired : Bool
  cwtExpired : Bool
  bwtExpired : Bool
  rxtCrossed : Bool
  txtCrossed : Bool
  parityError : Bool
  abortTransfer : Bool
  deriving DecidableEq, Repr

/-- `INT_MASK`: a source is masked when its bit is set. -/
structure IntMask where
  gpcnt0 : Bool
  gpcnt1 : Bool
  cwtErr : Bool
  bwtErr : Bool
  rxData : Bool
  rdt : Bool
  etc : Bool
  tdt : Bool
  deriving DecidableEq, Repr

/-- The flags of `TX_STATUS` and `RX_STATUS` that are set by the controller and cleared by the
driver. -/
structure Flags where
  gpcnt0To : Bool
  gpcnt1To : Bool
  tnte : Bool
  etcf : Bool
  pef : Bool
  rte : Bool
  cwtErr : Bool
  bwtErr : Bool
  rxData : Bool
  /-- The card was inserted or removed, `SPDIF` with `SPDIM`. -/
  presence : Bool
  deriving DecidableEq, Repr

structure Sys where
  -- the context; `xBuff` is an offset into the buffer of the last transfer
  buffer : List Byte
  xBuff : Nat
  xSize : Nat
  xIsBusy : Bool
  direction : Direction
  tType : Transport
  transferState : TransferState
  wtxRequested : Bool
  gtn : Nat
  convention : Bool
  events : Events
  -- the registers
  intMask : IntMask
  flags : Flags
  xmtEn : Bool
  rcvEn : Bool
  icm : Bool
  ic : Bool
  txGetu : Nat
  tdt : Nat
  rdt : Nat
  txFifo : List Byte
  shift : Option Byte
  rxFifo : List Byte
  -- the records about the transfers
  starts : Nat
  inProgress : Bool
  answers : Nat
  /-- The callbacks while no transfer is in progress. -/
  unsolicited : Nat
  /-- What has been shifted out, and what has arrived, since the start. -/
  wire : List Byte
  arrived : List Byte
  strayAccess : Bool
  premature : Bool
  deriving DecidableEq, Repr

/-- Why a transfer is reported. -/
inductive Cause
  | sent
  | received
  | aborted
  | nacked
  deriving DecidableEq, Repr

namespace Sys

/-- The transfer callback. -/
def report (cause : Cause) (s : Sys) : Sys :=
  if s.inProgress then
    { s with
      inProgress := false
      answers := s.answers + 1
      premature := s.premature ||
        (s.direction = .transmit && cause ≠ .aborted && cause ≠ .nacked && s.wire ≠ s.buffer) }
  else { s with unsolicited := s.unsolicited + 1 }

/-- The transmitter is disabled and nothing is left to send. -/
def stopSend (s : Sys) : Sys :=
  { s with
    intMask := { s.intMask with etc := true, tdt := true }
    xmtEn := false
    flags := { s.flags with rxData := false }
    rcvEn := true
    xIsBusy := false
    transferState := .idle
    xSize := 0 }

/-- `smartcard_emvsim_CompleteSendData`. -/
def completeSendData (cause : Cause) (s : Sys) : Sys :=
  report cause s.stopSend

/-- One byte of the receive FIFO goes to the buffer. -/
def storeByte (s : Sys) : Sys :=
  match s.rxFifo with
  | [] => s
  | b :: rest =>
    { s with
      buffer := s.buffer.set s.xBuff b
      xBuff := s.xBuff + 1
      xSize := s.xSize - 1
      rxFifo := rest
      strayAccess := s.strayAccess || !s.inProgress || s.direction = .transmit }

/-- `while (RX_CNT != 0 && xSize > 0)`. Each round takes a byte, so `xSize` rounds are enough. -/
def storeBytes : Nat → Sys → Sys
  | 0, s => s
  | n + 1, s => if s.rxFifo ≠ [] ∧ s.xSize > 0 then storeBytes n s.storeByte else s

def maskReceive (s : Sys) : Sys :=
  { s with intMask := { s.intMask with rdt := true, rxData := true } }

def release (s : Sys) : Sys :=
  { s with xIsBusy := false }

/-- `smartcard_emvsim_CompleteReceiveData`. -/
def completeReceiveData (cause : Cause) (s : Sys) : Sys :=
  report cause (storeBytes s.xSize s.maskReceive).release

/-- `smartcard_emvsim_StartSendData`; flushing the transmitter empties its shift register too. -/
def startSendData (s : Sys) : Sys :=
  { s with
    txGetu := s.gtn
    flags := { s.flags with gpcnt1To := false }
    intMask := { s.intMask with gpcnt1 := true, tdt := false }
    transferState := .transmitting
    xIsBusy := true
    txFifo := []
    shift := none
    xmtEn := true
    rcvEn := false
    tdt := 0 }

/-- `smartcard_emvsim_StartReceiveData`. -/
def startReceiveData (rxFifoThreshold : Nat) (s : Sys) : Sys :=
  { s with
    xIsBusy := true
    xmtEn := false
    rcvEn := true
    rdt := if s.xSize < rxFifoThreshold then s.xSize else rxFifoThreshold
    intMask := { s.intMask with
      bwtErr := false, rdt := false, rxData := if s.tType = .t1 then false else s.intMask.rxData } }

/-- `SMARTCARD_EMVSIM_GetTransferRemainingBytes`. -/
def getTransferRemainingBytes (s : Sys) : Nat :=
  if s.xIsBusy then if s.direction = .transmit then s.xSize + s.txFifo.length else s.xSize else 0

/-- The buffer of an accepted transfer in the context, and in the records. -/
def begin (data : List Byte) (s : Sys) : Sys :=
  { s with
    events := { s.events with rxtCrossed := false, txtCrossed := false, parityError := false }
    buffer := data
    xBuff := 0
    xSize := data.length
    starts := s.starts + 1
    inProgress := true
    wire := []
    arrived := s.rxFifo }

/-- `SMARTCARD_EMVSIM_TransferNonBlocking`, with `xfer->size` bytes at `xfer->buff`. A start without
bytes is accepted, too. -/
def transferNonBlocking (rxFifoThreshold : Nat) (direction : Direction) (data : List Byte) (s : Sys) :
    Sys × Status :=
  if data.length = 0 then ({ s with starts := s.starts + 1 }, .success)
  else if s.getTransferRemainingBytes ≠ 0 then
    if s.direction = .receive then (s, .rxBusy) else (s, .txBusy)
  else
    match direction with
    | .receive =>
      ({ s.begin data with direction := .receive, transferState := .receiving }.startReceiveData
        rxFifoThreshold, .success)
    | .transmit =>
      ({ s.begin data with direction := .transmit, transferState := .transmitting }.startSendData, .success)

def noteAbort (s : Sys) : Sys :=
  { s with events := { s.events with abortTransfer := true } }

/-- `SMARTCARD_EMVSIM_AbortTransfer`. -/
def abortTransfer (s : Sys) : Sys × Status :=
  if s.xIsBusy = false then (s.noteAbort, .noTransferInProgress)
  else
    match s.direction with
    | .receive => (s.noteAbort.completeReceiveData .aborted, .success)
    | .transmit => (s.noteAbort.completeSendData .aborted, .success)

/-- `smartcard_emvsim_SetTransferType`. -/
def setupATRMode (txFifoEntryCount : Nat) (s : Sys) : Sys :=
  { s with
    rcvEn := false
    gtn := 0
    txGetu := 0
    rdt := 1
    tdt := txFifoEntryCount - 1
    flags := { s.flags with pef := false, rte := false, cwtErr := false, bwtErr := false, rxData := false }
    tType := .t0 }

def setupT0Mode (txFifoEntryCount : Nat) (s : Sys) : Sys :=
  let gtn := if s.gtn = 0xFF then 0 else s.gtn
  { s with
    rcvEn := false
    icm := false
    gtn := gtn
    txGetu := gtn
    rdt := 1
    tdt := txFifoEntryCount - 1
    tType := .t0 }

def setupT1Mode (txFifoEntryCount : Nat) (s : Sys) : Sys :=
  { s with txGetu := s.gtn, rdt := 1, tdt := txFifoEntryCount - 1, tType := .t1 }

/-- `SMARTCARD_EMVSIM_Control`. -/
def control (txFifoEntryCount : Nat) (c : Control) (param : Nat) (s : Sys) : Sys :=
  match c with
  | .disableADT =>
    { s with
      rcvEn := false
      flags := { s.flags with gpcnt1To := false }
      intMask := { s.intMask with gpcnt1 := true } }
  | .enableWWT => { s with intMask := { s.intMask with cwtErr := false, bwtErr := false } }
  | .disableWWT => { s with intMask := { s.intMask with cwtErr := true, bwtErr := true } }
  | .enableCWT => { s with intMask := { s.intMask with cwtErr := false } }
  | .disableCWT => { s with intMask := { s.intMask with cwtErr := true } }
  | .enableBWT => { s with intMask := { s.intMask with bwtErr := false } }
  | .disableBWT => { s with intMask := { s.intMask with bwtErr := true } }
  | .enableInitDetect =>
    { s with
      flags := { s.flags with pef := false, rte := false, cwtErr := false, bwtErr := false, rxData := false }
      transferState := .waitingForTS
      icm := true
      rcvEn := true }
  | .setupATRMode => s.setupATRMode txFifoEntryCount
  | .setupT0Mode => s.setupT0Mode txFifoEntryCount
  | .setupT1Mode => s.setupT1Mode txFifoEntryCount
  | .enableReceiverMode =>
    { s with rcvEn := true, rdt := 1, intMask := { s.intMask with rdt := false } }
  | .disableReceiverMode => { s with rcvEn := false }
  | .enableTransmitterMode => { s with xmtEn := true }
  | .disableTransmitterMode => { s with xmtEn := false }
  | .resetWaitTimeMultiplier => { s with wtxRequested := param > 1 }
  -- only registers and timers that no function reads
  | .enableADT | .enableGTV | .disableGTV | .resetWWT | .resetCWT | .resetBWT | .enableAnack | .disableAnack
  | .configureBaudrate => s

/-! `SMARTCARD_EMVSIM_IRQHandler`, one definition for each interrupt cause. -/

def gpcnt0Served (s : Sys) : Bool :=
  !s.intMask.gpcnt0 && s.flags.gpcnt0To

def gpcnt1Served (s : Sys) : Bool :=
  !s.intMask.gpcnt1 && s.flags.gpcnt1To

def cwtServed (s : Sys) : Bool :=
  !s.intMask.cwtErr && s.flags.cwtErr

def bwtServed (s : Sys) : Bool :=
  !s.intMask.bwtErr && s.flags.bwtErr

/-- `RDTF` is set when the FIFO holds as many bytes as the threshold. -/
def rdtServed (s : Sys) : Bool :=
  !s.intMask.rdt && s.rdt ≤ s.rxFifo.length

def etcServed (s : Sys) : Bool :=
  !s.intMask.etc && s.flags.etcf

/-- `TDTF` is set when the FIFO holds no more bytes than the threshold. -/
def tdtServed (s : Sys) : Bool :=
  !s.intMask.tdt && s.txFifo.length ≤ s.tdt

def noteInitCharTimer (s : Sys) : Sys :=
  { s with
    events := { s.events with initCharTimerExpired := true }
    intMask := { s.intMask with gpcnt0 := true }
    flags := { s.flags with gpcnt0To := false }
    rcvEn := true
    transferState := .idle }

/-- The timer for the initial character has expired. -/
def serveGpcnt0 (s : Sys) : Sys :=
  s.noteInitCharTimer.completeReceiveData .received

def noteAdt (s : Sys) : Sys :=
  { s with
    intMask := { s.intMask with gpcnt1 := true }
    flags := { s.flags with gpcnt1To := false }
    events := { s.events with adtExpired := true } }

/-- The timer for the answer to reset has expired. -/
def serveGpcnt1 (s : Sys) : Sys :=
  s.noteAdt.completeReceiveData .received

def checkParity (s : Sys) : Sys :=
  if s.flags.pef then
    { s with events := { s.events with parityError := true }, flags := { s.flags with pef := false } }
  else s

def noteTxNack (s : Sys) : Sys :=
  { s with events := { s.events with txtCrossed := true }, flags := { s.flags with tnte := false } }

/-- The transmitter was refused too often. -/
def serveTxNack (s : Sys) : Sys :=
  s.noteTxNack.completeSendData .nacked

/-- `if (xIsBusy) smartcard_emvsim_CompleteReceiveData`. -/
def unblock (s : Sys) : Sys :=
  if s.xIsBusy then s.completeReceiveData .received else s

def noteRxNack (s : Sys) : Sys :=
  { s with events := { s.events with rxtCrossed := true }, flags := { s.flags with rte := false } }

def checkRxNack (s : Sys) : Sys :=
  if s.flags.rte then s.noteRxNack.unblock else s

def noteCwt (s : Sys) : Sys :=
  { s with
    intMask := { s.intMask with cwtErr := true }
    flags := { s.flags with cwtErr := false }
    transferState := .idle
    events := if s.tType = .t0 then { s.events with wwtExpired := true }
      else { s.events with cwtExpired := true } }

def checkCwt (s : Sys) : Sys :=
  if s.cwtServed then s.noteCwt.unblock else s

/-- A requested extension of the wait time is taken back, too. -/
def noteBwt (s : Sys) : Sys :=
  { s with
    intMask := { s.intMask with bwtErr := true }
    flags := { s.flags with bwtErr := false }
    events := if s.tType = .t0 then { s.events with wwtExpired := true }
      else { s.events with bwtExpired := true }
    wtxRequested := false }

def checkBwt (s : Sys) : Sys :=
  if s.bwtServed then s.noteBwt.unblock else s

/-- The first byte of a block ends the block wait time and starts the character wait time. -/
def checkRxData (s : Sys) : Sys :=
  if !s.intMask.rxData && s.flags.rxData then
    let s := if s.tType = .t1 ∧ s.xSize > 0 ∧ s.intMask.bwtErr = false then
      { s with
        events := { s.events with cwtExpired := false }
        flags := { s.flags with cwtErr := false }
        intMask := { s.intMask with cwtErr := false, bwtErr := true } }
      else s
    { s with intMask := { s.intMask with rxData := true } }
  else s

/-- The initial character is read, and tells whether it was a valid one. -/
def takeTS (s : Sys) : Sys :=
  let s := { s with rxFifo := s.rxFifo.tail }
  if s.icm then
    { s with transferState := .invalidTSDetected, intMask := { s.intMask with gpcnt0 := true } }
  else
    { s with
      transferState := .receiving
      convention := s.ic
      intMask := { s.intMask with gpcnt1 := false, gpcnt0 := true } }

/-- The initial character has arrived. -/
def serveTS (s : Sys) : Sys :=
  s.takeTS.completeReceiveData .received

/-- The receive threshold is reached. -/
def checkRdt (rxFifoThreshold : Nat) (s : Sys) : Sys :=
  if s.rdtServed then
    let s := storeBytes s.xSize s
    if s.xSize = 0 then s.completeReceiveData .received
    else if s.xSize < rxFifoThreshold then { s with rdt := s.xSize }
    else s
  else s

def checkEtc (s : Sys) : Sys :=
  if s.etcServed then s.completeSendData .sent else s

/-- One byte of the buffer goes to the transmit FIFO. -/
def sendByte (s : Sys) : Sys :=
  { s with
    txFifo := s.txFifo ++ [s.buffer.getD s.xBuff 0]
    xBuff := s.xBuff + 1
    xSize := s.xSize - 1
    strayAccess := s.strayAccess || !s.inProgress || s.direction = .receive }

/-- `while (txFifoEntryCount - TX_CNT > 0u && xSize > getu_tail)`; the unsigned comparison holds
whenever the two numbers differ. -/
def sendBytes (txFifoEntryCount getuTail : Nat) : Nat → Sys → Sys
  | 0, s => s
  | n + 1, s =>
    if s.txFifo.length ≠ txFifoEntryCount ∧ s.xSize > getuTail then
      sendBytes txFifoEntryCount getuTail n s.sendByte
    else s

/-- The last byte is in the FIFO: the end of the transmission is awaited. Writing back `TX_STATUS`
clears every flag that is set in it. -/
def awaitEtc (s : Sys) : Sys :=
  { s with
    intMask := { s.intMask with tdt := true, etc := false }
    flags := { s.flags with etcf := false, tnte := false, gpcnt0To := false, gpcnt1To := false } }

/-- The transmit FIFO is empty. -/
def checkTdt (txFifoEntryCount : Nat) (s : Sys) : Sys :=
  if s.tdtServed then
    let s := if s.xSize = 0 then s.completeSendData .sent else s
    if s.xSize = 1 then { s with txGetu := 0 }.sendByte.awaitEtc
    else
      let s := sendBytes txFifoEntryCount (if s.txGetu > 0 then 1 else 0) s.xSize s
      if s.xSize = 0 then s.awaitEtc else s
  else s

/-- `SMARTCARD_EMVSIM_IRQHandler`. -/
def irqHandler (txFifoEntryCount rxFifoThreshold : Nat) (s : Sys) : Sys :=
  if s.flags.presence then { s with flags := { s.flags with presence := false } }
  else if s.gpcnt0Served then s.serveGpcnt0
  else if s.gpcnt1Served then s.serveGpcnt1
  else
    let s := s.checkParity
    if s.flags.tnte then s.serveTxNack
    else
      let s := s.checkRxNack.checkCwt.checkBwt.checkRxData
      if s.rdtServed ∧ s.transferState = .waitingForTS then s.serveTS
      else ((s.checkRdt rxFifoThreshold).checkEtc).checkTdt txFifoEntryCount

end Sys

/-- The flags that the controller raises by itself. -/
inductive Flag
  | gpcnt0To
  | gpcnt1To
  | tnte
  | pef
  | rte
  | cwtErr
  | bwtErr
  | presence
  deriving DecidableEq, Repr

inductive Event
  | transfer (direction : Direction) (data : List Byte)
  | abort
  | control (c : Control) (param : Nat)
  | irq
  -- the hardware
  | load
  | shiftOut
  | arrive (b : Byte)
  | initialCharacter (icm ic : Bool)
  | raise (f : Flag)
  deriving DecidableEq, Repr

namespace Sys

/-- The next byte of the FIFO enters the shift register. -/
def load (s : Sys) : Sys :=
  match s.txFifo with
  | [] => s
  | b :: rest => if s.xmtEn ∧ s.shift = none then { s with txFifo := rest, shift := some b } else s

/-- The byte in the shift register has been sent; `ETCF` is set when no other follows. -/
def shiftOut (s : Sys) : Sys :=
  match s.shift with
  | none => s
  | some b =>
    { s with
      shift := none
      wire := s.wire ++ [b]
      flags := { s.flags with etcf := s.flags.etcf || s.txFifo = [] } }

def arrive (b : Byte) (s : Sys) : Sys :=
  if s.rcvEn then
    { s with rxFifo := s.rxFifo ++ [b], arrived := s.arrived ++ [b], flags := { s.flags with rxData := true } }
  else s

def raise (f : Flag) (s : Sys) : Sys :=
  { s with
    flags := match f with
      | .gpcnt0To => { s.flags with gpcnt0To := true }
      | .gpcnt1To => { s.flags with gpcnt1To := true }
      | .tnte => { s.flags with tnte := true }
      | .pef => { s.flags with pef := true }
      | .rte => { s.flags with rte := true }
      | .cwtErr => { s.flags with cwtErr := true }
      | .bwtErr => { s.flags with bwtErr := true }
      | .presence => { s.flags with presence := true } }

/-- One call, hardware step or run of the handler. -/
def step (txFifoEntryCount rxFifoThreshold : Nat) (s : Sys) : Event → Sys
  | .transfer direction data => (s.transferNonBlocking rxFifoThreshold direction data).1
  | .abort => s.abortTransfer.1
  | .control c param => s.control txFifoEntryCount c param
  | .irq => s.irqHandler txFifoEntryCount rxFifoThreshold
  | .load => s.load
  | .shiftOut => s.shiftOut
  | .arrive b => s.arrive b
  | .initialCharacter icm ic => { s with icm := icm, ic := ic }
  | .raise f => s.raise f

end Sys

end McuxDrivers.Smartcard
