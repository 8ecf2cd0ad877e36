import McuxDrivers.Lpi2c.Controller

/-!
# The interrupt-driven LPI2C master

`LPI2C_MasterTransferNonBlocking` and the state machine of its interrupt handler. The callback does not
call the driver. `wrapped` and `completions` are no fields of the handle: they record whether
`remainingBytes` has been counted down from zero, and the callbacks.
-/

namespace McuxDrivers.Lpi2c
open Lib

inductive State
  | idle
  | sendCommand
  | issueReadCommand
  | transferData
  | stop
  | waitForCompletion
  deriving DecidableEq, Repr

/-- `lpi2c_master_handle_t`. `buf` is an offset in bytes, in the send command state into the command
buffer and else into the data. -/
structure Handle where
  state : State
  remainingBytes : BitVec 16
  buf : Nat
  commandBuffer : List Word
  transfer : Transfer
  deriving DecidableEq, Repr

structure Sys where
  machine : Machine
  handle : Handle
  /-- The interrupts of `kLPI2C_MasterIrqFlags` but for the next one. -/
  irqEnabled : Bool
  /-- `kLPI2C_MasterTxReadyFlag`. -/
  txIrqEnabled : Bool
  completions : Nat
  wrapped : Bool

/-- `lpi2c_state_machine_param_t`, with `isDone`. -/
structure Params where
  stateComplete : Bool
  rxCount : Nat
  txCount : Nat
  stopDetect : Bool
  isDone : Bool
  deriving DecidableEq, Repr

variable (bus : Bus)

namespace Sys

def setState (state : State) (s : Sys) : Sys :=
  { s with handle := { s.handle with state := state } }

def setMachine (m : Machine) (s : Sys) : Sys :=
  { s with machine := m }

def write (w : Word) (s : Sys) : Sys :=
  s.setMachine (writeMtdr bus w s.machine)

/-- `--handle->remainingBytes`. -/
def countDown (s : Sys) : Sys :=
  { s with
    handle := { s.handle with remainingBytes := s.handle.remainingBytes - 1 }
    wrapped := s.wrapped || s.handle.remainingBytes = 0 }

def skip (n : Nat) (s : Sys) : Sys :=
  { s with handle := { s.handle with buf := s.handle.buf + n } }

def disableTxIrq (s : Sys) : Sys :=
  { s with txIrqEnabled := false }

/-- The buffer and the count of the data. -/
def pointToData (state : State) (s : Sys) : Sys :=
  { s with
    handle := { s.handle with
      state := state, buf := 0, remainingBytes := s.handle.transfer.dataSize.setWidth 16 } }

end Sys

def complete (p : Params) : Params :=
  { p with stateComplete := true }

def useTxRoom (p : Params) : Params :=
  { p with txCount := p.txCount - 1 }

/-- A byte of the command buffer, which holds words of two bytes, the low one first. -/
def commandByte (commandBuffer : List Word) (i : Nat) : Byte :=
  if i % 2 = 0 then ((commandBuffer.getD (i / 2) 0).setWidth 8)
  else ((commandBuffer.getD (i / 2) 0) >>> 8).setWidth 8

/-- `sendval` of the command that `buf` points to. -/
def sendval (h : Handle) : Word :=
  (commandByte h.commandBuffer h.buf).setWidth 16 ||| ((commandByte h.commandBuffer (h.buf + 1)).setWidth 16 <<< 8)

/-- The read commands, each when there is room; `txCount` is left with the words in the FIFO. -/
def issueReadCommands (fuel : Nat) : List Word → Sys × Params → Option (Sys × Params)
  | [], x => some x
  | w :: ws, (s, p) =>
    (poll bus (fun m => m.txFifo.length ≠ bus.fifoSize) fuel s.machine).bind fun m =>
      issueReadCommands fuel ws ((s.setMachine m).write bus w, { p with txCount := m.txFifo.length })

/-- The state after the last command, with the buffer and the count for it. -/
def chooseNext (fuel : Nat) (s : Sys) (p : Params) : Option (Sys × Params) :=
  if s.handle.transfer.dataSize = 0 then some (s.setState .stop, p)
  else
    match s.handle.transfer.direction with
    | .write => some (s.pointToData .transferData, p)
    | .read =>
      issueReadCommands bus fuel
        (rxCommands s.handle.transfer.dataSize.toNat s.handle.transfer.dataSize.toNat)
        ((s.pointToData .transferData).disableTxIrq, p)

/-- `LPI2C_TransferStateMachineSendCommand`. -/
def sendCommandState (fuel : Nat) (s : Sys) (p : Params) : Option (Sys × Params) :=
  if p.txCount = 0 then some (s, complete p)
  else
    let p := useTxRoom p
    let s := ((s.write bus (sendval s.handle)).skip 2).countDown
    if s.handle.remainingBytes = 0 then chooseNext bus fuel s p else some (s, p)

/-- `LPI2C_TransferStateMachineReadCommand`; only for reads. -/
def issueReadCommandState (s : Sys) (p : Params) : Sys × Params :=
  if p.txCount = 0 then (s, complete p)
  else
    let s := (s.write bus (rxCommand (s.handle.transfer.dataSize - 1).toNat)).setState .transferData
    match s.handle.transfer.direction with
    | .write => (s, useTxRoom p)
    | .read => (s.disableTxIrq, useTxRoom p)

/-- `*(handle->buf)++ = MRDR`. -/
def Sys.readByte (s : Sys) : Sys :=
  (s.setMachine (storeByte s.handle.buf (settle bus s.machine))).skip 1

/-- `base->MTDR = *(handle->buf)++`. -/
def Sys.sendByte (s : Sys) : Sys :=
  (s.write bus ((s.machine.memory s.handle.buf).setWidth 16)).skip 1

/-- `LPI2C_TransferStateMachineTransferData`. -/
def transferDataState (s : Sys) (p : Params) : Sys × Params :=
  match s.handle.transfer.direction with
  | .write =>
    if p.txCount = 0 then (s, complete p)
    else
      let s := (s.sendByte bus).countDown
      if s.handle.remainingBytes = 0 then (s.setState .stop, complete (useTxRoom p)) else (s, useTxRoom p)
  | .read =>
    if p.rxCount = 0 then (s, complete p)
    else
      let p := { p with rxCount := p.rxCount - 1 }
      let s := (s.readByte bus).countDown
      if s.handle.remainingBytes = 0 then (s.setState .stop, p) else (s, p)

/-- `LPI2C_TransferStateMachineStopState`. -/
def stopState (s : Sys) (p : Params) : Sys × Params :=
  if s.handle.transfer.noStop = false then
    if p.txCount = 0 then (s, complete p)
    else ((s.write bus kStopCmd).setState .waitForCompletion, useTxRoom p)
  else
    (s.setState .waitForCompletion,
      complete { p with isDone := p.isDone || s.handle.transfer.direction = .read })

/-- `LPI2C_TransferStateMachineWaitState`. -/
def waitState (s : Sys) (p : Params) : Sys × Params :=
  if s.handle.transfer.noStop = false then (s, complete { p with isDone := p.isDone || p.stopDetect })
  else
    match s.handle.transfer.direction with
    | .write =>
      let m := settle bus s.machine
      (s.setMachine m, complete { p with isDone := p.isDone || m.txFifo.isEmpty })
    | .read => (s, complete p)

def executeState (fuel : Nat) (s : Sys) (p : Params) : Option (Sys × Params) :=
  match s.handle.state with
  | .sendCommand => sendCommandState bus fuel s p
  | .issueReadCommand => some (issueReadCommandState bus s p)
  | .transferData => some (transferDataState bus s p)
  | .stop => some (stopState bus s p)
  | .waitForCompletion => some (waitState bus s p)
  | .idle => some (s, p)

/-- `while (!stateParams.state_complete)`. -/
def executeStates : Nat → Sys × Params → Option (Sys × Params)
  | 0, _ => none
  | fuel + 1, (s, p) =>
    if p.stateComplete then some (s, p) else (executeState bus fuel s p).bind (executeStates fuel)

/-- The status and the two FIFO counts, read one after another. -/
def readStatus (m : Machine) : Machine × Params :=
  let m₁ := settle bus m
  let m₂ := settle bus m₁
  let m₃ := settle bus m₂
  (m₃, {
    stateComplete := false
    rxCount := m₃.rxFifo.length
    txCount := bus.fifoSize - m₂.txFifo.length
    stopDetect := m₁.stopDetect
    isDone := false })

/-- `LPI2C_RunTransferStateMachine`. -/
def runTransferStateMachine (fuel : Nat) (s : Sys) : Option (Sys × Params) :=
  let (m, p) := readStatus bus s.machine
  executeStates bus fuel (s.setMachine m, p)

/-- The end of a transfer, with its callback. -/
def Sys.finish (s : Sys) : Sys :=
  { s.setState .idle with irqEnabled := false, txIrqEnabled := false, completions := s.completions + 1 }

/-- `LPI2C_MasterTransferHandleIRQ`. -/
def handleIRQ (fuel : Nat) (s : Sys) : Option Sys :=
  if s.handle.state = .idle then some s
  else (runTransferStateMachine bus fuel s).map fun (s, p) => if p.isDone then s.finish else s

/-- The command buffer of `LPI2C_InitTransferStateMachine`. -/
def handleCommands (t : Transfer) : List Word :=
  startCommand t (startDirection t) :: subaddressBytes t.subaddress t.subaddressSize ++ repeatedStart t

/-- `LPI2C_InitTransferStateMachine`. -/
def initTransferStateMachine (s : Sys) : Sys :=
  let t := s.handle.transfer
  if t.noStart then s.pointToData (if t.direction = .read then .issueReadCommand else .transferData)
  else
    { s with
      handle := { s.handle with
        commandBuffer := handleCommands t
        state := .sendCommand
        remainingBytes := BitVec.ofNat 16 (handleCommands t).length
        buf := 0 } }

/-- The FIFOs are reset, the transfer is saved. -/
def Sys.prepare (t : Transfer) (s : Sys) : Sys :=
  { s with
    machine := { s.machine with txFifo := [], rxFifo := [] }
    handle := { s.handle with transfer := t } }

def Sys.enable (s : Sys) : Sys :=
  { s with machine := clearStopDetect s.machine, irqEnabled := true, txIrqEnabled := true }

/-- `LPI2C_MasterTransferNonBlocking`. -/
def masterTransferNonBlocking (t : Transfer) (s : Sys) : Sys × Status :=
  if tooLong bus t then (s, .invalidArgument)
  else if s.handle.state ≠ .idle then (s, .busy)
  else
    let s := s.setMachine (settle bus s.machine)
    if s.machine.busBusy then (s, .busy)
    else ((initTransferStateMachine (s.prepare t)).enable, .success)

/-- An enabled interrupt is pending. The watermarks are zero. -/
def interruptPending (s : Sys) : Bool :=
  s.txIrqEnabled && s.machine.txFifo.isEmpty ||
    s.irqEnabled && (!s.machine.rxFifo.isEmpty || s.machine.stopDetect)

end McuxDrivers.Lpi2c
