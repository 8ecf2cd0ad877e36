import Mathlib.Data.BitVec
import Mathlib.Logic.Function.Basic
import McuxDrivers.Lib.Loop

/-!
# Non-blocking transfers of the I3C master

`I3C_MasterTransferNonBlocking`, `I3C_MasterTransferHandleIRQ` and the state machine under them, from
`fsl_i3c.c` in the build that waits without a limit. What a function reads of the controller is given
with the call or the interrupt; what it tells the controller is appended to a list. `size_t` has 32
bits. The callbacks of the application do not call the driver.

The last fields of `Sys` are no data of the driver: they record the answers to the last transfer that
was accepted and the bytes of its buffer that were touched.
-/

namespace McuxDrivers.I3c.NonBlocking
open McuxDrivers.Lib

inductive Status
  | success
  | busy
  | nak
  | writeAbort
  | term
  | hdrParityError
  | crcError
  | msgError
  | readFifoError
  | writeFifoError
  | invalidReq
  | timeout
  | ibiWon
  | invalidArgument
  deriving DecidableEq, Repr

/-- `i3c_master_state_t`. -/
inductive MasterState
  | idle
  | slvReq
  | msgSdr
  | normAct
  | ddr
  | daa
  | ibiAck
  | ibiRcv
  deriving DecidableEq, Repr

inductive BusType
  | i3cSdr
  | i2c
  | i3cDdr
  deriving DecidableEq, Repr

inductive Direction
  | write
  | read
  deriving DecidableEq, Repr

inductive RxTermOps
  | disable
  | autoTerm
  | lastByte
  deriving DecidableEq, Repr

/-- `enum _i3c_transfer_states`. -/
inductive TransferState
  | idle
  | ibiWon
  | slaveStart
  | sendCommand
  | waitRepeatedStartComplete
  | transferData
  | stop
  | waitForCompletion
  deriving DecidableEq, Repr

/-- The transfer flags that the functions read. -/
structure Flags where
  noStart : Bool
  repeatedStart : Bool
  noStop : Bool
  disableRxTerm : Bool
  startWithBroadcastAddr : Bool
  deriving DecidableEq, Repr

/-- `i3c_master_transfer_t`. The pointer `data` is an offset from the caller's pointer, and the
response to an IBI is only passed on to the controller. -/
structure Transfer where
  flags : Flags
  slaveAddress : Nat
  direction : Direction
  subaddress : BitVec 32
  subaddressSize : Nat
  data : Nat
  dataSize : BitVec 32
  busType : BusType
  deriving DecidableEq, Repr

/-- `i3c_master_handle_t`. Of the IBI buffer it is kept whether there is one and what it holds; of a
callback, whether there is one. -/
structure Handle where
  state : TransferState
  remainingBytes : BitVec 32
  rxTermOps : RxTermOps
  transfer : Transfer
  ibiBuff : Bool
  ibiPayload : List (BitVec 8)
  ibiType : Nat
  ibiAddress : Nat
  ibiCallback : Bool
  transferComplete : Bool
  deriving DecidableEq, Repr

/-- What the driver tells the controller. -/
inductive Command
  | start (type : BusType) (address : Nat) (dir : Direction) (rxSize : Nat)
  | autoIbi
  | ibiNack
  | stop
  | forceExit
  | readTerm
  /-- `MWDATAB`. -/
  | byte (b : BitVec 8)
  /-- `MWDATABE`. -/
  | lastByte (b : BitVec 8)
  deriving DecidableEq, Repr

structure Sys where
  handle : Handle
  /-- The caller's memory from its data pointer on. -/
  memory : Nat → BitVec 8
  commands : List Command
  /-- The transfers that were accepted. -/
  accepted : Nat
  /-- A start that was refused has been reported as a success. -/
  misreported : Bool
  /-- The handle left the idle state in an interrupt, not in a call. -/
  ibiOwned : Bool
  /-- Since the last accepted transfer: its callbacks, the callbacks for IBIs of an idle handle, the
  interrupts that took an idle handle to an IBI, and each access to the buffer with the remaining
  bytes before it. -/
  answers : Nat
  ibiReports : Nat
  idleIbis : Nat
  accesses : List (Nat × BitVec 32)

/-- The error flags of `MERRWARN`. -/
structure Errors where
  timeout : Bool
  nack : Bool
  writeAbort : Bool
  term : Bool
  parity : Bool
  crc : Bool
  msg : Bool
  read : Bool
  write : Bool
  invalidReq : Bool
  deriving DecidableEq, Repr

def noErrors : Errors :=
  ⟨false, false, false, false, false, false, false, false, false, false⟩

/-- `I3C_MasterCheckAndClearError`. -/
def checkAndClearError (e : Errors) : Status :=
  if e.timeout then .timeout
  else if e.nack then .nak
  else if e.writeAbort then .writeAbort
  else if e.term then .term
  else if e.parity then .hdrParityError
  else if e.crc then .crcError
  else if e.msg then .msgError
  else if e.read then .readFifoError
  else if e.write then .writeFifoError
  else if e.invalidReq then .invalidReq
  else .success

/-- One poll of the wait for the control-done flag. -/
structure Poll where
  controlDone : Bool
  errors : Errors
  deriving DecidableEq, Repr

/-- The poll ends the wait. -/
def Poll.ends (p : Poll) : Bool :=
  p.controlDone || checkAndClearError p.errors != .success

/-- `I3C_MasterWaitForCtrlDone(base, false)`; `none` while the wait goes on. -/
def waitForCtrlDone : List Poll → Option Status
  | [] => none
  | p :: polls => if p.ends then some (checkAndClearError p.errors) else waitForCtrlDone polls

/-- The controller's behaviour after a request: at some time it is done with it, or reports an error. -/
structure Wait where
  polls : List Poll
  answered : ∃ p ∈ polls, p.ends

lemma Wait.waitForCtrlDone_isSome (w : Wait) : (waitForCtrlDone w.polls).isSome := by
  obtain ⟨polls, p, hmem, hends⟩ := w
  dsimp only
  induction polls with
  | nil => cases hmem
  | cons q polls ih =>
    rw [waitForCtrlDone]
    split
    · rfl
    · rcases List.mem_cons.mp hmem with rfl | hmem
      · contradiction
      · exact ih hmem

/-- A request that is done at the first poll. -/
def doneAtOnce : Wait :=
  ⟨[⟨true, noErrors⟩], _, List.mem_singleton.mpr rfl, rfl⟩

/-- What an interrupt reads of the controller, and whether the IBI callback provides a buffer. `stopState`
and `stopWait` belong to the STOP of the state machine, the last two to the one of the handler. -/
structure Irq where
  slaveStart : Bool
  complete : Bool
  masterState : MasterState
  errors : Errors
  rxBytes : List (BitVec 8)
  /-- `txFifoSize - txCount`, which the assertion keeps from wrapping. -/
  txRoom : Nat
  ibiType : Nat
  ibiAddress : Nat
  ibiBuffGiven : Bool
  stopState : MasterState
  stopWait : Wait
  endState : MasterState
  endWait : Wait

/-- `i3c_master_state_machine_param_t` without what an `Irq` has, and `*isDone`. -/
structure Params where
  stateComplete : Bool
  txCount : Nat
  rxBytes : List (BitVec 8)
  result : Status
  isDone : Bool

/-- `I3C_MasterEmitStop(base, false)`, with the command that it writes; `none` while it waits. -/
def emitStop (state : MasterState) (w : Wait) : Option (List Command) :=
  if state = .normAct then (waitForCtrlDone w.polls).map fun _ => [.stop] else some []

namespace Sys

def setState (s : Sys) (state : TransferState) : Sys :=
  { s with handle := { s.handle with state := state } }

def tell (s : Sys) (cs : List Command) : Sys :=
  { s with commands := s.commands ++ cs }

/-- The byte of the subaddress at the remaining size. -/
def subaddressByte (t : Transfer) : BitVec 8 :=
  (t.subaddress >>> (8 * t.subaddressSize)).setWidth 8

def decSubaddressSize (s : Sys) : Sys :=
  { s with handle := { s.handle with
      transfer := { s.handle.transfer with subaddressSize := s.handle.transfer.subaddressSize - 1 } } }

/-- The master waits for the response to an IBI. -/
def answerIbi (e : Irq) (s : Sys) : Sys :=
  if e.masterState = .ibiAck then
    let s := { s with handle := { s.handle with ibiType := e.ibiType } }
    if s.handle.ibiCallback then s else s.tell [.ibiNack]
  else s

/-- One byte of an IBI's payload; the callback may provide the buffer. -/
def takeIbiByte (e : Irq) (b : BitVec 8) (s : Sys) : Sys :=
  let buff := if s.handle.ibiBuff = false ∧ s.handle.ibiCallback then e.ibiBuffGiven else s.handle.ibiBuff
  { s with handle := { s.handle with
      ibiBuff := buff, ibiPayload := if buff then s.handle.ibiPayload ++ [b] else s.handle.ibiPayload } }

/-- `I3C_TransferStateMachineIBIWonState`. -/
def ibiWonState (e : Irq) (s : Sys) (p : Params) : Sys × Params :=
  let s := answerIbi e s
  match p.rxBytes with
  | b :: rest => (takeIbiByte e b s, { p with rxBytes := rest })
  | [] =>
    if e.complete then
      ({ s with handle := { s.handle with ibiType := e.ibiType, ibiAddress := e.ibiAddress } },
        { p with stateComplete := true, result := .ibiWon })
    else (s, { p with stateComplete := true })

/-- `I3C_TransferStateMachineSendCommandState`. A count that is decremented at zero is not read again. -/
def sendCommandState (s : Sys) (p : Params) : Sys × Params :=
  if p.txCount = 0 then (s, { p with stateComplete := true })
  else
    let p := { p with txCount := p.txCount - 1 }
    if s.handle.transfer.subaddressSize > 1 then
      let s := s.decSubaddressSize
      (s.tell [.byte (subaddressByte s.handle.transfer)], p)
    else if s.handle.transfer.subaddressSize = 1 then
      let s := s.decSubaddressSize
      if s.handle.transfer.direction = .read ∨ s.handle.transfer.dataSize = 0 then
        let s := s.tell [.lastByte (subaddressByte s.handle.transfer)]
        if s.handle.transfer.busType ≠ .i3cDdr then
          if s.handle.transfer.dataSize = 0 then (s.setState .waitForCompletion, p)
          else (s.setState .waitRepeatedStartComplete, p)
        else (s.setState .transferData, p)
      else
        let s := s.setState .transferData
        (s.tell [.byte (subaddressByte s.handle.transfer)], p)
    else (s, p)

/-- `I3C_TransferStateMachineWaitRepeatedStartCompleteState`. -/
def waitRepeatedStartCompleteState (e : Irq) (s : Sys) (p : Params) : Sys × Params :=
  if e.complete then
    let s := s.setState .transferData
    let rxSize :=
      if s.handle.remainingBytes < 256 ∧ s.handle.rxTermOps = .autoTerm then s.handle.remainingBytes.toNat
      else 0
    (s.tell [.start s.handle.transfer.busType s.handle.transfer.slaveAddress .read rxSize],
      { p with result := .success, stateComplete := true })
  else (s, { p with stateComplete := true })

/-- The end of the data state: the pointer and the remaining bytes. -/
def advance (s : Sys) : Sys :=
  let remainingBytes := s.handle.remainingBytes - 1
  { s with
    handle := { s.handle with
      transfer := { s.handle.transfer with data := s.handle.transfer.data + 1 }
      remainingBytes := remainingBytes
      state := if remainingBytes = 0 then .waitForCompletion else s.handle.state }
    accesses := s.accesses ++ [(s.handle.transfer.data, s.handle.remainingBytes)] }

/-- `I3C_TransferStateMachineTransferDataState`. -/
def transferDataState (e : Irq) (s : Sys) (p : Params) : Sys × Params :=
  if s.handle.transfer.direction = .write then
    if p.txCount = 0 then (s, { p with stateComplete := true })
    else
      let p := { p with txCount := p.txCount - 1 }
      let b := s.memory s.handle.transfer.data
      ((s.tell [if s.handle.remainingBytes > 1 then .byte b else .lastByte b]).advance, p)
  else
    match p.rxBytes with
    | [] =>
      if e.complete then (s.setState .waitForCompletion, p)
      else (s, { p with stateComplete := true })
    | b :: rest =>
      let p := { p with rxBytes := rest }
      let s := { s with memory := Function.update s.memory s.handle.transfer.data b }
      if s.handle.rxTermOps = .lastByte ∧ s.handle.remainingBytes = 2#32 then ((s.tell [.readTerm]).advance, p)
      else (s.advance, p)

/-- `I3C_TransferStateMachineWaitForCompletionState`. -/
def waitForCompletionState (e : Irq) (s : Sys) (p : Params) : Sys × Params :=
  if e.complete then (s.setState .stop, p) else (s, { p with stateComplete := true })

/-- `I3C_TransferStateMachineStopState`, and `*isDone`. The state goes on while the STOP is awaited. -/
def stopState (e : Irq) (s : Sys) (p : Params) : Sys × Params :=
  let done := { p with stateComplete := true, isDone := true }
  if s.handle.transfer.flags.noStop then (s, done)
  else if s.handle.transfer.busType = .i3cDdr then (s.tell [.forceExit], done)
  else
    match emitStop e.stopState e.stopWait with
    | none => (s, p)
    | some cs => (s.tell cs, done)

/-- The `switch` of the state machine; the idle state is its failing assertion. -/
def executeState (e : Irq) (s : Sys) (p : Params) : Sys × Params :=
  match s.handle.state with
  | .slaveStart => ((s.tell [.autoIbi]).setState .ibiWon, { p with stateComplete := true })
  | .ibiWon => ibiWonState e s p
  | .sendCommand => sendCommandState s p
  | .waitRepeatedStartComplete => waitRepeatedStartCompleteState e s p
  | .transferData => transferDataState e s p
  | .waitForCompletion => waitForCompletionState e s p
  | .stop => stopState e s p
  | .idle => (s, p)

/-- `while (!stateParams.state_complete)`. -/
def machineRound (e : Irq) (x : Sys × Params) : (Sys × Params) ⊕ (Sys × Params) :=
  if x.2.stateComplete then .inr x else .inl (executeState e x.1 x.2)

/-- The state in which the interrupt finds work: a slave's start or an IBI replaces the transfer's. -/
def takeIbi (e : Irq) (s : Sys) : Sys :=
  let s := if e.slaveStart ∧ s.handle.transfer.busType ≠ .i2c then s.setState .slaveStart else s
  if e.masterState = .ibiRcv ∨ e.masterState = .ibiAck then s.setState .ibiWon else s

/-- `I3C_RunTransferStateMachine`, with at most `fuel` rounds of its loop: the result and `*isDone`. -/
def runTransferStateMachine (fuel : Nat) (e : Irq) (s : Sys) : Option (Sys × Status × Bool) :=
  let result := checkAndClearError e.errors
  if result ≠ .success then some (s, result, false)
  else
    let s := takeIbi e s
    if s.handle.state = .idle then some (s, result, false)
    else
      (loop (machineRound e) fuel (s, ⟨false, e.txRoom, e.rxBytes, result, false⟩)).map
        fun (s, p) => (s, p.result, p.isDone)

/-- An interrupt took an idle handle to an IBI. -/
def markIbi (before s : Sys) : Sys :=
  if before.handle.state = .idle ∧ s.handle.state ≠ .idle then
    { s with ibiOwned := true, idleIbis := s.idleIbis + 1 }
  else s

/-- The callback for the completion, if there is one. -/
def report (s : Sys) : Sys :=
  let s := if s.handle.transferComplete then
    if s.ibiOwned then { s with ibiReports := s.ibiReports + 1 } else { s with answers := s.answers + 1 }
    else s
  { s with ibiOwned := false }

/-- The transfer ends: the handle is idle, and the callbacks are called. -/
def finish (result : Status) (s : Sys) : Sys :=
  let s := s.setState .idle
  let s := if result = .ibiWon ∧ s.handle.ibiCallback then
    { s with handle := { s.handle with ibiPayload := [] } } else s
  s.report

/-- `I3C_MasterTransferHandleIRQ`. -/
def handleIRQ (fuel : Nat) (e : Irq) (s : Sys) : Option Sys :=
  (runTransferStateMachine fuel e s).bind fun (s', result, isDone) =>
    let s' := markIbi s s'
    if s'.handle.state = .idle then some s'
    else if isDone ∨ result ≠ .success then
      (if result = .nak ∨ result = .ibiWon then emitStop e.endState e.endWait else some []).map
        fun cs => (s'.tell cs).finish result
    else some s'

/-- The bus is ours: the check of `I3C_MasterTransferNonBlocking` and of `I3C_MasterStartWithRxSize`. -/
def busAvailable (type : BusType) (state : MasterState) : Bool :=
  state = .idle || state = .normAct || (type = .i3cDdr && state = .ddr)

/-- What a call reads of the controller. `irq` belongs to the handler that it calls itself when there
is no start. -/
structure CallEnv where
  masterState : MasterState
  broadcastState : MasterState
  broadcastWait : Wait
  startState : MasterState
  irq : Irq

/-- `direction` in `I3C_InitTransferStateMachine`. -/
def startDirection (t : Transfer) : Direction :=
  if t.busType ≠ .i3cDdr then if t.subaddressSize ≠ 0 then .write else t.direction else t.direction

/-- The broadcast address at the start; the result is not a success when the transfer ends here. -/
def startBroadcast (c : CallEnv) (s : Sys) : Option (Sys × Status) :=
  let t := s.handle.transfer
  if t.flags.startWithBroadcastAddr then
    if t.flags.noStart then some (s, .invalidArgument)
    else if t.flags.repeatedStart then some (s, .invalidArgument)
    else if busAvailable t.busType c.broadcastState = false then some (s, .busy)
    else (waitForCtrlDone c.broadcastWait.polls).map fun r => (s.tell [.start t.busType 0x7E .write 0], r)
  else some (s, .success)

/-- The size that a start announces for a read. -/
def startRxSize (s : Sys) : Nat :=
  if s.handle.remainingBytes < 256 ∧ startDirection s.handle.transfer = .read then
    s.handle.remainingBytes.toNat
  else 0

/-- The state after the start. -/
def firstState (t : Transfer) : TransferState :=
  if t.subaddressSize > 0 then .sendCommand else if t.dataSize ≠ 0 then .transferData else .stop

/-- `I3C_InitTransferStateMachine` after the broadcast address. -/
def startTransfer (fuel : Nat) (c : CallEnv) (s : Sys) : Option (Sys × Status) :=
  let t := s.handle.transfer
  if t.flags.noStart then
    if t.subaddressSize > 0 then
      (handleIRQ fuel c.irq (s.setState .sendCommand)).map fun s => (s, .success)
    else if startDirection t = .write then
      (handleIRQ fuel c.irq (s.setState .transferData)).map fun s => (s, .success)
    else some (s, .invalidArgument)
  else if t.flags.repeatedStart then
    let s := s.tell [.start t.busType t.slaveAddress (startDirection t) s.startRxSize]
    some (s.setState (firstState t), .success)
  else if busAvailable t.busType c.startState then
    let s := s.tell [.start t.busType t.slaveAddress (startDirection t) s.startRxSize]
    some (s.setState (firstState t), .success)
  else some (s.setState (firstState t), .busy)

/-- `I3C_InitTransferStateMachine`. -/
def initTransferStateMachine (fuel : Nat) (c : CallEnv) (s : Sys) : Option (Sys × Status) :=
  (startBroadcast c s).bind fun (s, result) =>
    if result ≠ .success then some (s, result) else startTransfer fuel c s

/-- The transfer is saved into the handle. -/
def save (t : Transfer) (memory : Nat → BitVec 8) (s : Sys) : Sys :=
  { s with
    handle := { s.handle with
      transfer := { t with data := 0 }
      remainingBytes := t.dataSize
      rxTermOps := if t.flags.disableRxTerm then .disable else if t.dataSize ≤ 255 then .autoTerm
        else .lastByte }
    memory := memory
    accepted := s.accepted + 1
    answers := 0
    ibiReports := 0
    idleIbis := 0
    accesses := [] }

/-- `I3C_MasterTransferNonBlocking`. The result of `I3C_InitTransferStateMachine` is not used. -/
def masterTransferNonBlocking (fuel : Nat) (c : CallEnv) (t : Transfer) (memory : Nat → BitVec 8) (s : Sys) :
    Option (Sys × Status) :=
  if s.handle.state ≠ .idle then some (s, .busy)
  else if busAvailable t.busType c.masterState = false then some (s, .busy)
  else
    (initTransferStateMachine fuel c (save t memory s)).map fun (s, result) =>
      ({ s with misreported := s.misreported || result != .success }, .success)

end Sys

end McuxDrivers.I3c.NonBlocking
