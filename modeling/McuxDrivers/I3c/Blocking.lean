import McuxDrivers.I3c.NonBlocking

/-!
# Blocking transfers of the I3C master

`I3C_MasterTransferBlocking` and the functions under it, from `fsl_i3c.c` in the build that waits without a limit. What
the polls of a wait find is given by the controller, which knows what the driver has told it and how many bytes it has read.
-/

namespace McuxDrivers.I3c.Blocking
open McuxDrivers.Lib NonBlocking

/-- What one poll finds in the registers, with the byte at the head of the Rx FIFO. -/
structure Shown where
  controlDone : Bool
  complete : Bool
  state : MasterState
  errors : Errors
  txRoom : Nat
  rx : Option (BitVec 8)

/-- What the driver waits for. A read waits for data, for the end of the message, or for either. -/
inductive Await
  | controlDone
  | idle
  | room (byteCounts : Nat)
  | complete
  | receive (data complete : Bool)
  deriving DecidableEq

/-- The controller, with the polls of each wait. -/
structure Controller where
  shows : Await → List Command → Nat → List Shown
  state : List Command → MasterState
  arbitrationWon : List Command → Bool

/-- The caller's memory from its data pointer on, what the driver has told the controller, and the bytes read. -/
structure Run where
  memory : Nat → BitVec 8
  commands : List Command
  read : Nat

namespace Run

def tell (s : Run) (cs : List Command) : Run :=
  { s with commands := s.commands ++ cs }

end Run

/-- A function that returns a status; `none` while it waits. -/
abbrev Result := Option (Run × Status)

/-- The next statement, unless the status is an error. -/
def andThen (x : Result) (f : Run → Result) : Result :=
  x.bind fun (s, result) => if result ≠ .success then some (s, result) else f s

section Waits

/-- The loop of `I3C_MasterWaitForCtrlDone`. -/
def ctrlDoneLoop (waitIdle : Bool) : List Shown → Option Status
  | [] => none
  | p :: polls =>
    let result := checkAndClearError p.errors
    if p.controlDone ∧ waitIdle = false then some result
    else if waitIdle ∧ p.state = .idle then some result
    else if result ≠ .success then some result
    else ctrlDoneLoop waitIdle polls

/-- The loop of `I3C_MasterWaitForTxReady`. -/
def txReadyLoop (byteCounts : Nat) : List Shown → Option Status
  | [] => none
  | p :: polls =>
    let result := checkAndClearError p.errors
    if result ≠ .success then some result
    else if p.txRoom < byteCounts then txReadyLoop byteCounts polls
    else some .success

/-- The loop of `I3C_MasterWaitForComplete`. -/
def completeLoop : List Shown → Option Status
  | [] => none
  | p :: polls =>
    let result := checkAndClearError p.errors
    if p.complete = false ∧ result = .success then completeLoop polls else some result

/-- The wait for an idle bus. -/
def idleLoop : List Shown → Option Status
  | [] => none
  | p :: polls => if p.state ≠ .idle then idleLoop polls else some .success

/-- The rounds of `I3C_MasterReceive` up to one in which there is an error, the end of the message or a byte. -/
def receiveLoop (data complete : Bool) : List Shown → Option Shown
  | [] => none
  | p :: polls =>
    if checkAndClearError p.errors ≠ .success ∨ (complete ∧ p.complete) ∨ (data ∧ p.rx.isSome) then some p
    else receiveLoop data complete polls

end Waits

variable (c : Controller)

/-- `I3C_MasterWaitForCtrlDone`. -/
def waitForCtrlDone (waitIdle : Bool) (s : Run) : Result :=
  (ctrlDoneLoop waitIdle (c.shows (if waitIdle then .idle else .controlDone) s.commands s.read)).map fun result =>
    (s, result)

/-- `I3C_MasterWaitForTxReady`. -/
def waitForTxReady (byteCounts : Nat) (s : Run) : Result :=
  (txReadyLoop byteCounts (c.shows (.room byteCounts) s.commands s.read)).map fun result => (s, result)

/-- `I3C_MasterWaitForComplete(base, false)`. -/
def waitForComplete (s : Run) : Result :=
  (completeLoop (c.shows .complete s.commands s.read)).map fun result => (s, result)

/-- `I3C_MasterStartPolling`. -/
def startPolling (type : BusType) (address : Nat) (dir : Direction) (tSize : Nat) (s : Run) : Result :=
  andThen (waitForCtrlDone c false (s.tell [.start type address dir tSize])) fun s =>
    some (s, if c.arbitrationWon s.commands then .ibiWon else .success)

/-- `I3C_MasterEmitStop`. -/
def emitStop (waitIdle : Bool) (s : Run) : Result :=
  if c.state s.commands ≠ .normAct then some (s, .invalidReq) else waitForCtrlDone c waitIdle (s.tell [.stop])

/-- The end of a message that is stopped. -/
def endMessage (waitIdle : Bool) (s : Run) : Result :=
  if c.state s.commands = .ddr then waitForCtrlDone c false (s.tell [.forceExit]) else emitStop c waitIdle s

/-- What one round of `I3C_MasterSend` writes: `MWDATAB` or `MWDATABE`, `MWDATAH` or `MWDATAHE` for words. -/
def dataUnit (enableWord last : Bool) (memory : Nat → BitVec 8) (buffer : Nat) : List Command :=
  let mark (b : BitVec 8) : Command := if last then .lastByte b else .byte b
  if enableWord then [.byte (memory buffer), mark (memory (buffer + 1))] else [mark (memory buffer)]

/-- The loop of `I3C_MasterSend`, on the number of bytes or of words that are left. -/
def sendLoop (enableWord : Bool) : Nat → Nat → Run → Result
  | 0, _, s => some (s, .success)
  | n + 1, buffer, s =>
    andThen (waitForTxReady c (if enableWord then 2 else 1) s) fun s =>
      sendLoop enableWord n (buffer + if enableWord then 2 else 1) (s.tell (dataUnit enableWord (n = 0) s.memory buffer))

/-- `I3C_MasterSend`, from the caller's data pointer on. The size of words is even. -/
def masterSend (txSize : Nat) (enableWord : Bool) (flags : Flags) (s : Run) : Result :=
  andThen (sendLoop c enableWord (if enableWord then txSize / 2 else txSize) 0 s) fun s =>
    andThen (waitForComplete c s) fun s => if flags.noStop = false then endMessage c true s else some (s, .success)

/-- The variables of `I3C_MasterReceive`. -/
structure Receive where
  run : Run
  rxSize : Nat
  completed : Bool

/-- A byte that is read, with the termination one byte in advance. -/
def takeByte (flags : Flags) (isRxAutoTerm : Bool) (b : BitVec 8) (x : Receive) : Receive :=
  let s := { x.run with memory := Function.update x.run.memory x.run.read b, read := x.run.read + 1 }
  let rxSize := x.rxSize - 1
  { x with
    run := if flags.disableRxTerm = false ∧ isRxAutoTerm = false ∧ rxSize = 1 then s.tell [.readTerm] else s
    rxSize := rxSize }

/-- The rest of a round, after the check for the end of the message. -/
def receiveData (flags : Flags) (isRxAutoTerm : Bool) (p : Shown) (x : Receive) : Receive :=
  match p.rx with
  | some b => if x.rxSize ≠ 0 then takeByte flags isRxAutoTerm b x else x
  | none => x

/-- One round of `I3C_MasterReceive` in which something happens. -/
def receiveRound (flags : Flags) (isRxAutoTerm : Bool) (x : Receive) : Receive ⊕ Result :=
  if x.rxSize = 0 ∧ x.completed then .inr (some (x.run, .success))
  else
    match receiveLoop (x.rxSize ≠ 0) (!x.completed)
        (c.shows (.receive (x.rxSize ≠ 0) (!x.completed)) x.run.commands x.run.read) with
    | none => .inr none
    | some p =>
      if checkAndClearError p.errors ≠ .success then .inr (some (x.run, checkAndClearError p.errors))
      else if x.completed = false ∧ p.complete then
        match if flags.noStop = false then endMessage c false x.run else some (x.run, .success) with
        | none => .inr none
        | some (s, result) =>
          if result ≠ .success then .inr (some (s, result))
          else .inl (receiveData flags isRxAutoTerm p { x with run := s, completed := true })
      else .inl (receiveData flags isRxAutoTerm p x)

/-- `I3C_MasterReceive`, to the caller's data pointer, with at most `fuel` rounds in which something happens. -/
def masterReceive (fuel rxSize : Nat) (isRxAutoTerm : Bool) (flags : Flags) (s : Run) : Result :=
  if rxSize = 0 then some (s, .success)
  else
    andThen ((loop (receiveRound c flags isRxAutoTerm) fuel ⟨s, rxSize, false⟩).join) fun s =>
      if flags.noStop = false then (idleLoop (c.shows .idle s.commands s.read)).map fun result => (s, result)
      else some (s, .success)

/-- The subaddress loop of `I3C_MasterTransferPrepare`. -/
def sendSubaddress (t : Transfer) : Nat → Run → Result
  | 0, s => some (s, .success)
  | n + 1, s =>
    andThen (waitForTxReady c 1 s) fun s =>
      let b := (t.subaddress >>> (8 * n)).setWidth 8
      if n = 0 ∧ (t.direction = .read ∨ t.dataSize = 0) ∧ t.busType ≠ .i3cDdr then
        andThen (waitForComplete c (s.tell [.lastByte b])) (sendSubaddress t n)
      else sendSubaddress t n (s.tell [.byte b])

/-- `tSize`. -/
def termSize (t : Transfer) (isRxAutoTerm : Bool) : Nat :=
  if isRxAutoTerm then t.dataSize.toNat else 0

/-- `I3C_MasterTransferPrepare`. -/
def transferPrepare (t : Transfer) (isRxAutoTerm : Bool) (s : Run) : Result :=
  andThen
    (if t.flags.startWithBroadcastAddr then startPolling c t.busType 0x7E .write 0 s else some (s, .success)) fun s =>
  andThen
    (if t.flags.noStart = false then
      startPolling c t.busType t.slaveAddress (Sys.startDirection t) (termSize t isRxAutoTerm) s
    else some (s, .success)) fun s =>
  if t.subaddressSize ≠ 0 then
    andThen (sendSubaddress c t t.subaddressSize s) fun s =>
      if t.busType ≠ .i3cDdr ∧ t.direction = .read then
        startPolling c t.busType t.slaveAddress .read (termSize t isRxAutoTerm) s
      else some (s, .success)
  else some (s, .success)

/-- A STOP after an address that is not acknowledged, whose result is not used. -/
def stopAfterNak (x : Result) : Result :=
  x.bind fun (s, result) =>
    if result = .nak then (emitStop c true s).map fun (s, _) => (s, result) else some (s, result)

/-- `I3C_MasterTransferBlocking`, with `kI3C_TransferWordsFlag` as `enableWord`. -/
def transferBlocking (fuel : Nat) (t : Transfer) (enableWord : Bool) (s : Run) : Result :=
  if Sys.busAvailable t.busType (c.state s.commands) = false then some (s, .busy)
  else
    let isRxAutoTerm := decide (t.flags.disableRxTerm = false ∧ t.dataSize ≤ 255)
    stopAfterNak c (andThen (transferPrepare c t isRxAutoTerm s) fun s =>
      if t.direction = .write ∧ t.dataSize ≠ 0 then masterSend c t.dataSize.toNat enableWord t.flags s
      else if t.direction = .read then masterReceive c fuel t.dataSize.toNat isRxAutoTerm t.flags s
      else if t.flags.noStop = false then emitStop c true s
      else some (s, .success))

end McuxDrivers.I3c.Blocking
