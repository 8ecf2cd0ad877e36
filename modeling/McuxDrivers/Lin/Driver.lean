import Mathlib.Algebra.Group.Nat.Defs
import Mathlib.Logic.Function.Basic

/-!
# The LIN driver

The state of a LIN node (`lin_state_t`, the parts of `lin_user_config_t` and the static variables that the driver
reads, and the registers it depends on) and the functions of the driver. The callback is a passive one: it leaves
the state alone, and `reports` lists the events that it has been called for.
-/

namespace McuxDrivers.Lin

/-- `lin_event_id_t`. -/
inductive EventId where
  | noEvent
  | wakeupSignal
  | baudrateAdjusted
  | recvBreakFieldOk
  | syncOk
  | syncError
  | pidOk
  | pidError
  | frameError
  | readbackError
  | checksumError
  | txCompleted
  | rxCompleted
  | noDataTimeout
  | busActivityTimeout
  | timeoutError
  | lastResponseShortError
deriving DecidableEq

/-- `lin_node_state_t`. -/
inductive NodeState where
  | uninit
  | sleepMode
  | idle
  | sendBreakField
  | recvSync
  | sendPid
  | recvPid
  | recvData
  | recvDataCompleted
  | sendData
  | sendDataCompleted
deriving DecidableEq

/-- The codes of `lin_status_t` that the modelled functions return. -/
inductive Status where
  | success
  | error
  | busBusy
deriving DecidableEq

structure Node where
  txBuff : Nat
  rxBuff : Nat
  cntByte : Nat
  txSize : Nat
  rxSize : Nat
  checkSum : UInt8
  isTxBusy : Bool
  isRxBusy : Bool
  isBusBusy : Bool
  isTxBlocking : Bool
  isRxBlocking : Bool
  /-- Whether `Callback` is not `NULL`. -/
  callback : Bool
  currentId : UInt8
  currentPid : UInt8
  currentEventId : EventId
  currentNodeState : NodeState
  timeoutCounter : Nat
  timeoutCounterFlag : Bool
  baudrateEvalEnable : Bool
  fallingEdgeInterruptCount : Nat
  txCompleted : Bool
  rxCompleted : Bool
  /-- `nodeFunction`. -/
  master : Bool
  autobaudEnable : Bool
  baudRate : Nat
  /-- Whether `timerGetTimeIntervalCallback` is not `NULL`. -/
  timerCallback : Bool
  previousTwoBitTimeLength : Nat
  wakeupSignal : Nat
  countMeasure : Nat
  timeMeasure : Nat
  rxDataPolarity : Bool
  /-- `RXEDGIE`. -/
  activeEdgeInt : Bool
  memory : Nat → UInt8
  /-- The bytes written to the data register. -/
  written : List UInt8
  reports : List EventId

namespace Node

/-- The call of `Callback`. -/
def report (n : Node) : Node :=
  if n.callback then { n with reports := n.reports ++ [n.currentEventId] } else n

/-- `LIN_LPUART_WriteByte`. -/
def writeByte (n : Node) (b : UInt8) : Node :=
  { n with written := n.written ++ [b] }

/-- `LIN_LPUART_GotoIdleState`, which `LIN_IgnoreResponse` calls too. -/
def gotoIdleState (n : Node) : Node :=
  { n with rxDataPolarity := false, activeEdgeInt := false, currentNodeState := .idle }

/-- `LIN_SetTimeoutCounter`. -/
def setTimeoutCounter (n : Node) (timeoutValue : Nat) : Node :=
  { n with timeoutCounterFlag := false, timeoutCounter := timeoutValue }

end Node

/-- `LIN_MakeChecksumByte`, for the bytes of the buffer. -/
def makeChecksumByte (buffer : List UInt8) (pid : UInt8) : UInt8 :=
  let checksum := if pid ≠ 0x3C ∧ pid ≠ 0x7D then pid.toNat else 0
  let checksum := buffer.foldl (fun sum b =>
    let sum := sum + b.toNat
    if sum > 0xFF then sum - 0xFF else sum) checksum
  ~~~ UInt8.ofNat checksum

/-- `BIT`. -/
def bit (a : UInt8) (b : UInt8) : UInt8 :=
  (a >>> b) &&& 1

/-- The parity bits of `LIN_ProcessParity`. -/
def parity (pid : UInt8) : UInt8 :=
  ((bit pid 0 ^^^ bit pid 1 ^^^ bit pid 2 ^^^ bit pid 4) <<< 6) |||
    ((~~~ (bit pid 1 ^^^ bit pid 3 ^^^ bit pid 4 ^^^ bit pid 5)) <<< 7)

/-- `LIN_ProcessParity` with `CHECK_PARITY`. -/
def checkParity (pid : UInt8) : UInt8 :=
  if pid &&& 0xC0 ≠ parity pid then 0xFF else pid &&& 0x3F

/-- `LIN_ProcessParity` with `MAKE_PARITY`. -/
def makeParity (id : UInt8) : UInt8 :=
  id ||| parity id

/-- `size` bytes of the memory from an address on. -/
def readBytes (memory : Nat → UInt8) (address size : Nat) : List UInt8 :=
  (List.range size).map fun i => memory (address + i)

namespace Node

/-- `LIN_LPUART_SendFrameData`. -/
def sendFrameData (n : Node) (txBuff txSize : Nat) : Node × Status :=
  if 8 < txSize ∨ txSize = 0 ∨ n.currentNodeState = .sleepMode then (n, .error)
  else if n.isBusBusy then (n, .busBusy)
  else
    let n := { n with
      checkSum := makeChecksumByte (readBytes n.memory txBuff txSize) n.currentPid
      txBuff := txBuff
      txSize := txSize + 1
      cntByte := 0
      currentNodeState := .sendData
      currentEventId := .noEvent
      isBusBusy := true
      isTxBusy := true }
    (n.writeByte (n.memory n.txBuff), .success)

/-- `LIN_LPUART_SendFrameDataBlocking`. -/
def sendFrameDataBlocking (n : Node) (txBuff txSize timeoutMSec : Nat) : Node × Status :=
  if 8 < txSize ∨ txSize = 0 ∨ n.currentNodeState = .sleepMode then (n, .error)
  else if n.isBusBusy then (n, .busBusy)
  else
    let n := { n with
      checkSum := makeChecksumByte (readBytes n.memory txBuff txSize) n.currentPid
      txBuff := txBuff
      txSize := txSize + 1
      cntByte := 0
      currentEventId := .noEvent
      isBusBusy := true
      isTxBusy := true
      isTxBlocking := true
      txCompleted := false }
    let n := n.setTimeoutCounter timeoutMSec
    let n := { n with currentNodeState := .sendData }
    (n.writeByte (n.memory n.txBuff), .success)

/-- `LIN_LPUART_RecvFrmData`. -/
def recvFrmData (n : Node) (rxBuff rxSize : Nat) : Node × Status :=
  if 8 < rxSize ∨ rxSize = 0 ∨ n.currentNodeState = .sleepMode then (n, .error)
  else if n.isBusBusy then (n, .busBusy)
  else
    ({ n with
      rxBuff := rxBuff
      rxSize := rxSize + 1
      cntByte := 0
      currentNodeState := .recvData
      currentEventId := .noEvent
      isBusBusy := true
      isRxBusy := true
      isRxBlocking := false }, .success)

/-- `LIN_LPUART_RecvFrmDataBlocking`. -/
def recvFrmDataBlocking (n : Node) (rxBuff rxSize timeoutMSec : Nat) : Node × Status :=
  if 8 < rxSize ∨ rxSize = 0 ∨ n.currentNodeState = .sleepMode then (n, .error)
  else if n.isBusBusy then (n, .busBusy)
  else
    let n := { n with
      rxBuff := rxBuff
      rxSize := rxSize + 1
      cntByte := 0
      currentNodeState := .recvData
      currentEventId := .noEvent
      isBusBusy := true
      isRxBusy := true
      isRxBlocking := true
      rxCompleted := false }
    (n.setTimeoutCounter timeoutMSec, .success)

/-- `LIN_LPUART_MasterSendHeader`. The break character is not a byte of the data register. -/
def masterSendHeader (n : Node) (id : UInt8) : Node × Status :=
  if n.master = false ∨ 0x3F < id ∨ n.currentNodeState = .sleepMode then (n, .error)
  else if n.isBusBusy then (n, .busBusy)
  else
    ({ n with
      currentId := id
      currentPid := makeParity id
      currentNodeState := .sendBreakField
      currentEventId := .noEvent
      isBusBusy := true }, .success)

/-- `LIN_LPUART_AbortTransferData`. -/
def abortTransferData (n : Node) : Node :=
  if n.isBusBusy then
    { n.gotoIdleState with isTxBusy := false, isRxBusy := false, isBusBusy := false }
  else n

/-- `LIN_TimeoutService`. -/
def timeoutService (n : Node) : Node :=
  match n.currentNodeState with
  | .sendData =>
    if n.timeoutCounter = 0 then
      let n := { n with timeoutCounterFlag := true }.report
      let n := if n.isTxBlocking = false then
        { n with isBusBusy := false, isTxBusy := false, txCompleted := true } else n
      n.gotoIdleState
    else { n with timeoutCounter := n.timeoutCounter - 1 }
  | .recvData =>
    if n.timeoutCounter = 0 then
      let n := { n with timeoutCounterFlag := true }.report
      let n := if n.isRxBlocking = false then
        { n with isBusBusy := false, isRxBusy := false, rxCompleted := true } else n
      n.gotoIdleState
    else { n with timeoutCounter := n.timeoutCounter - 1 }
  | _ => n

/-- `LIN_LPUART_ProcessBreakDetect`. -/
def processBreakDetect (n : Node) : Node :=
  if n.currentNodeState = .sleepMode then n.gotoIdleState
  else
    let n := { n with isBusBusy := true }
    if n.master then
      if n.currentNodeState = .sendBreakField then { n with currentNodeState := .sendPid }.writeByte 0x55
      else n
    else
      let n := if n.currentNodeState = .recvData ∨ n.currentNodeState = .sendData then
        { n with currentEventId := .lastResponseShortError }.report else n
      let n := { n with currentEventId := .recvBreakFieldOk }.report
      { n with currentNodeState := .recvSync }

/-- `LIN_LPUART_CheckWakeupSignal`, with the length that the timer callback gives. -/
def checkWakeupSignal (n : Node) (wakeupSignalLength : Nat) : Node :=
  if n.rxDataPolarity = false then
    if n.timerCallback then { n with rxDataPolarity := true } else n
  else
    let n := { n with rxDataPolarity := false }
    if wakeupSignalLength ≥ 150000 ∧ wakeupSignalLength ≤ 5000000 then
      { n with currentEventId := .wakeupSignal }.report.gotoIdleState
    else n

/-- `LIN_LPUART_ProcessFrameHeader`. -/
def processFrameHeader (n : Node) (tmpByte : UInt8) : Node :=
  match n.currentNodeState with
  | .recvSync =>
    if tmpByte = 0x55 then { n with currentEventId := .syncOk, currentNodeState := .recvPid }
    else { { n with currentEventId := .syncError }.report with isBusBusy := false }.gotoIdleState
  | .sendPid =>
    if tmpByte = 0x55 then { n with currentNodeState := .recvPid }.writeByte n.currentPid
    else { n with currentEventId := .syncError, isBusBusy := false, currentNodeState := .idle }.report
  | .recvPid =>
    if n.master then
      if tmpByte = n.currentPid then { n with currentEventId := .pidOk, isBusBusy := false }.report
      else { n with currentEventId := .pidError, isBusBusy := false, currentNodeState := .idle }.report
    else
      let n := { n with currentId := checkParity tmpByte, currentPid := tmpByte }
      if n.currentId ≠ (0xFF : UInt8) then { n with currentEventId := .pidOk, isBusBusy := false }.report
      else { { n with currentEventId := .pidError }.report with isBusBusy := false }.gotoIdleState
  | _ => n

/-- The first part of `LIN_LPUART_ProcessReceiveFrameData`: a byte goes to the buffer, the last one is the checksum. -/
def storeByte (n : Node) (tmpByte : UInt8) : Node :=
  let n := if n.rxSize > n.cntByte + 1 then
    { n with memory := Function.update n.memory n.rxBuff tmpByte, rxBuff := n.rxBuff + 1 }
  else { n with checkSum := tmpByte }
  { n with cntByte := (n.cntByte + 1) % 256 }

/-- Its second part, when the checksum has arrived. -/
def completeReception (n : Node) : Node :=
  let n := { n with rxBuff := n.rxBuff - (n.rxSize - 1), currentNodeState := .recvDataCompleted }
  if makeChecksumByte (readBytes n.memory n.rxBuff (n.rxSize - 1)) n.currentPid = n.checkSum then
    let n := { n with currentEventId := .rxCompleted }.report
    let n := if n.isRxBlocking then { n with rxCompleted := true } else n
    let n := { n with isBusBusy := false, isRxBusy := false }
    if n.currentNodeState ≠ .sleepMode then n.gotoIdleState else n
  else
    let n := { n with currentEventId := .checksumError }.report
    { n with isBusBusy := false, isRxBusy := false }.gotoIdleState

/-- `LIN_LPUART_ProcessReceiveFrameData`. -/
def processReceiveFrameData (n : Node) (tmpByte : UInt8) : Node :=
  let n := n.storeByte tmpByte
  if n.cntByte = n.rxSize then n.completeReception else n

/-- What `LIN_LPUART_ProcessSendFrameData` does after a readback error. -/
def readbackError (n : Node) : Node :=
  let n := { n with currentEventId := .readbackError }.report
  if n.isTxBlocking = false then { n with isBusBusy := false, isTxBusy := false }.gotoIdleState else n

/-- Its second part, with `sendFlag`: the next byte or the end of the transfer. -/
def sendNext (n : Node) : Node :=
  if n.cntByte < n.txSize then
    if n.txSize - n.cntByte = 1 then n.writeByte n.checkSum
    else n.writeByte (n.memory n.txBuff)
  else
    let n := { n with currentEventId := .txCompleted, currentNodeState := .sendDataCompleted }.report
    let n := if n.isTxBlocking then { n with txCompleted := true } else n
    { n with isBusBusy := false, isTxBusy := false }.gotoIdleState

/-- `LIN_LPUART_ProcessSendFrameData`. `txEmpty` is the flag for an empty transmit register. -/
def processSendFrameData (n : Node) (txEmpty : Bool) (tmpByte : UInt8) : Node :=
  if txEmpty = false then n.readbackError
  else
    let tmpSize := (n.txSize + 256 - n.cntByte) % 256
    let tmpCheckSumAndSize := tmpSize = 1 ∧ n.checkSum ≠ tmpByte
    let tmpBuffAndSize := n.memory n.txBuff ≠ tmpByte ∧ tmpSize ≠ 1
    if tmpBuffAndSize ∨ tmpCheckSumAndSize then n.readbackError
    else { n with txBuff := n.txBuff + 1, cntByte := (n.cntByte + 1) % 256 }.sendNext

/-- `LIN_LPUART_ProcessFrame`. -/
def processFrame (n : Node) (txEmpty : Bool) (tmpByte : UInt8) : Node :=
  match n.currentNodeState with
  | .recvSync | .sendPid | .recvPid => n.processFrameHeader tmpByte
  | .recvData => n.processReceiveFrameData tmpByte
  | .sendData => n.processSendFrameData txEmpty tmpByte
  | _ => n

end Node

/-- What an interrupt finds in the registers, with the interval that the timer callback gives. -/
structure Irq where
  linBreak : Bool
  rxActiveEdge : Bool
  framingError : Bool
  rxDataRegFull : Bool
  txDataRegEmpty : Bool
  data : UInt8
  interval : Nat

namespace Node

/-- The branch of the interrupt handler for a framing error. -/
def framingError (n : Node) : Node :=
  let n := { n with currentEventId := .frameError }
  let n := if n.currentNodeState = .sendData then n.report else n
  let n := if n.isRxBlocking = false ∧ n.currentNodeState = .recvData then n.report else n
  { n with isBusBusy := false }.gotoIdleState

/-- `LIN_LPUART_IRQHandler`. -/
def irqHandler (n : Node) (irq : Irq) : Node :=
  if irq.linBreak then n.processBreakDetect
  else if irq.rxActiveEdge ∧ n.activeEdgeInt then
    if n.currentNodeState = .sleepMode then n.checkWakeupSignal irq.interval else n
  else if irq.framingError then n.framingError
  else if irq.rxDataRegFull then n.processFrame irq.txDataRegEmpty irq.data
  else n

end Node

/-- `BIT_DURATION_MIN`, in nanoseconds, for a baud rate in hundreds. -/
def bitDurationMin (rate : Nat) : Nat :=
  100000 * (100 - 2) / rate

/-- `BIT_DURATION_MAX`. -/
def bitDurationMax (rate : Nat) : Nat :=
  100000 * (100 + 2) / rate

/-- Whether two bits of this length fit to a baud rate. -/
def fitsBaudrate (rate twoBitTimeLength : Nat) : Prop :=
  twoBitTimeLength ≥ 2 * bitDurationMin rate ∧ twoBitTimeLength ≤ 2 * bitDurationMax rate

instance (rate twoBitTimeLength : Nat) : Decidable (fitsBaudrate rate twoBitTimeLength) :=
  inferInstanceAs (Decidable (_ ∧ _))

/-- The `MasterBaudrate` of `LIN_LPUART_AutobaudTimerValEval`. -/
def masterBaudrate (twoBitTimeLength : Nat) : Nat :=
  if fitsBaudrate 192 twoBitTimeLength then 19200
  else if fitsBaudrate 144 twoBitTimeLength then 14400
  else if fitsBaudrate 96 twoBitTimeLength then 9600
  else if fitsBaudrate 48 twoBitTimeLength then 4800
  else if fitsBaudrate 24 twoBitTimeLength then 2400
  else 0

/-- The first test of `LIN_LPUART_EvalTwoBitTimeLength`: the length lies between the ranges of the baud rates. -/
def outOfRange (t : Nat) : Prop :=
  t < 2 * bitDurationMin 192 ∨
    (t > 2 * bitDurationMax 192 ∧ t < 2 * bitDurationMin 144) ∨
    (t > 2 * bitDurationMax 144 ∧ t < 2 * bitDurationMin 96) ∨
    (t > 2 * bitDurationMax 96 ∧ t < 2 * bitDurationMin 48) ∨
    (t > 2 * bitDurationMax 48 ∧ t < 2 * bitDurationMin 24) ∨
    t > 2 * bitDurationMax 24

instance (t : Nat) : Decidable (outOfRange t) :=
  inferInstanceAs (Decidable (_ ∨ _))

/-- The second test: the length differs too much from the previous one. -/
def unsynchronised (previous t : Nat) : Prop :=
  t < (100 - 14) * (previous / 100) % 2 ^ 32 ∨ t > (100 + 14) * (previous / 100) % 2 ^ 32

instance (previous t : Nat) : Decidable (unsynchronised previous t) :=
  inferInstanceAs (Decidable (_ ∨ _))

namespace Node

/-- The end of a measurement that fails. -/
def cancelCapturing (n : Node) : Node :=
  { n.gotoIdleState with fallingEdgeInterruptCount := 0 }

/-- `LIN_LPUART_EvalTwoBitTimeLength`. -/
def evalTwoBitTimeLength (n : Node) (twoBitTimeLength : Nat) : Node :=
  let n := if n.fallingEdgeInterruptCount < 5 ∧ n.fallingEdgeInterruptCount > 0 then
      let n := if outOfRange twoBitTimeLength then n.cancelCapturing
        else if n.fallingEdgeInterruptCount > 1 ∧ unsynchronised n.previousTwoBitTimeLength twoBitTimeLength then
          n.cancelCapturing
        else n
      { n with previousTwoBitTimeLength := twoBitTimeLength }
    else n
  { n with fallingEdgeInterruptCount := (n.fallingEdgeInterruptCount + 1) % 256 }

/-- `LIN_LPUART_AutobaudTimerValEval`. -/
def autobaudTimerValEval (n : Node) (twoBitTimeLength : Nat) : Node :=
  if n.currentNodeState = .recvSync then
    let n := n.evalTwoBitTimeLength twoBitTimeLength
    if n.fallingEdgeInterruptCount > 4 then
      let rate := masterBaudrate twoBitTimeLength
      if rate ≠ 0 then
        let n := if n.baudRate ≠ rate then
          { n with baudRate := rate, wakeupSignal := if rate > 10000 then 0x80 else 0xF8 } else n
        let n := { n with currentEventId := .baudrateAdjusted, baudrateEvalEnable := false }.report
        { n with currentNodeState := .recvPid, currentEventId := .syncOk }
      else n.cancelCapturing
    else n
  else n

/-- `LIN_LPUART_AutoBaudCapture`, with the interval that the timer callback gives. -/
def autoBaudCapture (n : Node) (tmpTime : Nat) : Node × Status :=
  if n.baudrateEvalEnable then
    if n.timeMeasure > 0xFFFFFFFF - tmpTime then (n, .error)
    else
      let n := { n with timeMeasure := n.timeMeasure + tmpTime, countMeasure := (n.countMeasure + 1) % 256 }
      if n.countMeasure > 1 then
        match n.currentNodeState with
        | .sleepMode =>
          if tmpTime ≥ 150000 ∧ tmpTime ≤ 5000000 then
            ({ { n with currentEventId := .wakeupSignal }.report.gotoIdleState with countMeasure := 0 }, .busBusy)
          else ({ n with countMeasure := 0 }, .error)
        | .idle =>
          if tmpTime ≥ 13 * bitDurationMin 192 then
            let n := { n with isBusBusy := true, currentEventId := .recvBreakFieldOk }.report
            ({ n with currentNodeState := .recvSync, fallingEdgeInterruptCount := 0, countMeasure := 1 }, .busBusy)
          else ({ n with countMeasure := 0 }, .error)
        | _ =>
          let n := n.autobaudTimerValEval n.timeMeasure
          let n := { n with countMeasure := 0, timeMeasure := 0 }
          (n, if n.currentNodeState = .idle then .error else .busBusy)
      else (n, .busBusy)
  else
    let n := if n.fallingEdgeInterruptCount > 4 then { n with fallingEdgeInterruptCount := 0 } else n
    (n, .success)

/-- What `LIN_LPUART_Init` leaves of a state structure, when it succeeds. -/
def init (n : Node) : Node :=
  let n := if n.autobaudEnable ∧ n.master = false then
    { n with
      baudRate := 19200
      fallingEdgeInterruptCount := 0
      baudrateEvalEnable := true
      previousTwoBitTimeLength := 0
      countMeasure := 0
      timeMeasure := 0 } else n
  { n with
    currentNodeState := .idle
    isTxBusy := false
    isRxBusy := false
    isBusBusy := false
    isRxBlocking := false
    isTxBlocking := false
    timeoutCounterFlag := false
    timeoutCounter := 0
    txCompleted := false
    rxCompleted := false
    wakeupSignal := if n.baudRate > 10000 then 0x80 else 0xF8 }

end Node

end McuxDrivers.Lin
