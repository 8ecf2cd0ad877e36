import Mathlib.Data.BitVec
import Mathlib.Logic.Function.Basic
import McuxDrivers.Lib.Loop

/-!
# The LPI2C master and its blocking transfers

`fsl_lpi2c.c` on a bus without errors, with `I2C_RETRY_TIMES` zero, so that no wait is given up. The
controller executes the words of its command FIFO one after another. `Bus.ticks` says how far it gets
before each register access, so that every timing is some `Bus`. `mtdr` and `lost` are no registers:
they record what has been written to `MTDR`, and whether a word found the FIFO full.
-/

namespace McuxDrivers.Lpi2c
open Lib

abbrev Byte := BitVec 8

/-- A word for `MTDR`, whose other bits are never set. -/
abbrev Word := BitVec 16

inductive Direction
  | write
  | read
  deriving DecidableEq, Repr

inductive Status
  | success
  | busy
  | invalidArgument
  deriving DecidableEq, Repr

/-- `lpi2c_master_transfer_t`; `data` is offset 0 of the memory. -/
structure Transfer where
  noStart : Bool
  noStop : Bool
  slaveAddress : BitVec 16
  direction : Direction
  subaddress : BitVec 32
  subaddressSize : Nat
  dataSize : BitVec 32
  deriving DecidableEq, Repr

/-- `LPI2C_MTDR_CMD` of a word. -/
def cmd (w : Word) : BitVec 3 :=
  w.extractLsb' 8 3

def kRxDataCmd : Word := 0x100
def kStopCmd : Word := 0x200
def kStartCmd : Word := 0x400

def Direction.bit : Direction → Word
  | .write => 0
  | .read => 1

/-- `kStartCmd | slaveAddress << 1 | direction`. -/
def startCommand (t : Transfer) (direction : Direction) : Word :=
  kStartCmd ||| ((t.slaveAddress <<< 1) ||| direction.bit)

/-- `kRxDataCmd | LPI2C_MTDR_DATA(x)`. -/
def rxCommand (x : Nat) : Word :=
  kRxDataCmd ||| (BitVec.ofNat 8 x).setWidth 16

/-- The bytes of the subaddress, MSB first. -/
def subaddressBytes (subaddress : BitVec 32) : Nat → List Word
  | 0 => []
  | subaddressRemaining + 1 =>
    ((subaddress >>> (8 * subaddressRemaining)).setWidth 8).setWidth 16 ::
      subaddressBytes subaddress subaddressRemaining

/-- `while (tmpRxSize != 0)`, one command for at most 256 bytes. Each round takes a byte at least, so
`tmpRxSize` rounds are enough. -/
def rxCommands : Nat → Nat → List Word
  | 0, _ => []
  | rounds + 1, tmpRxSize =>
    if tmpRxSize = 0 then []
    else if tmpRxSize > 256 then rxCommand 0xFF :: rxCommands rounds (tmpRxSize - 256)
    else [rxCommand (tmpRxSize - 1)]

/-- The direction of the first start. -/
def startDirection (t : Transfer) : Direction :=
  if t.subaddressSize ≠ 0 then .write else t.direction

/-- The start that switches the direction to read. -/
def repeatedStart (t : Transfer) : List Word :=
  if t.dataSize ≠ 0 ∧ t.direction = .read ∧ startDirection t = .write then [startCommand t .read] else []

/-- The FIFO size, the bytes that the slave sends, and the timing. -/
structure Bus where
  fifoSize : Nat
  slave : Nat → Byte
  ticks : Nat → Nat

structure Machine where
  txFifo : List Word
  /-- The bytes still to come of the read command in progress. -/
  reading : Nat
  rxFifo : List Byte
  stopDetect : Bool
  /-- The bus is busy, and not by this master. -/
  busBusy : Bool
  /-- The bytes that the slave has sent. -/
  taken : Nat
  /-- The register accesses so far. -/
  now : Nat
  memory : Nat → Byte
  mtdr : List Word
  lost : Bool

variable (bus : Bus)

def execute (w : Word) (m : Machine) : Machine :=
  if cmd w = 1 then { m with reading := (w.setWidth 8).toNat + 1 }
  else if cmd w = 2 then { m with stopDetect := true }
  else m

def receiveByte (m : Machine) : Machine :=
  { m with reading := m.reading - 1, rxFifo := m.rxFifo ++ [bus.slave m.taken], taken := m.taken + 1 }

/-- One step of the controller: a byte of the read command in progress, unless the receive FIFO is full, or the next
word. -/
def advance (m : Machine) : Machine :=
  if m.reading > 0 then if m.rxFifo.length < bus.fifoSize then receiveByte bus m else m
  else
    match m.txFifo with
    | [] => m
    | w :: rest => execute w { m with txFifo := rest }

/-- The controller goes on until the next register access. -/
def settle (m : Machine) : Machine :=
  { (advance bus)^[bus.ticks m.now] m with now := m.now + 1 }

def push (w : Word) (m : Machine) : Machine :=
  { m with
    mtdr := m.mtdr ++ [w]
    txFifo := if m.txFifo.length < bus.fifoSize then m.txFifo ++ [w] else m.txFifo
    lost := m.lost || !decide (m.txFifo.length < bus.fifoSize) }

/-- `base->MTDR = w`. -/
def writeMtdr (w : Word) (m : Machine) : Machine :=
  push bus w (settle bus m)

/-- A loop on a register. An access that finds nothing new changes nothing, so the controller moves
between two accesses that count. -/
def poll (ready : Machine → Bool) (fuel : Nat) (m : Machine) : Option Machine :=
  loop (fun m => let m := settle bus m; if ready m then .inr m else .inl (advance bus m)) fuel m

/-- `LPI2C_MasterWaitForTxReady`. -/
def waitForTxReady (fuel : Nat) (m : Machine) : Option Machine :=
  poll bus (fun m => bus.fifoSize - m.txFifo.length ≠ 0) fuel m

/-- `*buf = MRDR`. -/
def storeByte (i : Nat) (m : Machine) : Machine :=
  match m.rxFifo with
  | [] => m
  | b :: rest => { m with rxFifo := rest, memory := Function.update m.memory i b }

/-- The command buffer of `LPI2C_MasterTransferBlocking`. -/
def blockingCommands (t : Transfer) : List Word :=
  (if t.noStart then [] else [startCommand t (startDirection t)]) ++
    subaddressBytes t.subaddress t.subaddressSize ++ repeatedStart t

def sendCommands (fuel : Nat) : List Word → Machine → Option Machine
  | [], m => some m
  | w :: ws, m => (waitForTxReady bus fuel m).bind fun m => sendCommands fuel ws (writeMtdr bus w m)

/-- `LPI2C_MasterSend` of the bytes from `offset` on. -/
def masterSend (fuel : Nat) : Nat → Nat → Machine → Option Machine
  | 0, _, m => some m
  | txSize + 1, offset, m =>
    (waitForTxReady bus fuel m).bind fun m =>
      masterSend fuel txSize (offset + 1) (writeMtdr bus ((m.memory offset).setWidth 16) m)

def receiveData (fuel : Nat) : Nat → Nat → Machine → Option Machine
  | 0, _, m => some m
  | rxSize + 1, offset, m =>
    (poll bus (fun m => m.rxFifo ≠ []) fuel m).bind fun m =>
      receiveData fuel rxSize (offset + 1) (storeByte offset m)

/-- `LPI2C_MasterReceive` of an accepted size; room is awaited once, for all the read commands. -/
def masterReceive (fuel : Nat) (rxSize : Nat) (m : Machine) : Option Machine :=
  if rxSize ≠ 0 then
    (waitForTxReady bus fuel m).bind fun m =>
      receiveData bus fuel rxSize 0 ((rxCommands rxSize rxSize).foldl (fun m w => writeMtdr bus w m) m)
  else some m

def clearStopDetect (m : Machine) : Machine :=
  { m with stopDetect := false }

/-- `LPI2C_MasterStop`; `TDF` is set when the FIFO is empty. -/
def masterStop (fuel : Nat) (m : Machine) : Option Machine :=
  (waitForTxReady bus fuel m).bind fun m =>
    (poll bus (fun m => m.stopDetect && m.txFifo.isEmpty) fuel (writeMtdr bus kStopCmd m)).map clearStopDetect

/-- The size check of both transfer functions. -/
def tooLong (t : Transfer) : Bool :=
  t.direction = .read && t.dataSize.toNat > 256 * bus.fifoSize

def transferData (fuel : Nat) (t : Transfer) (m : Machine) : Option Machine :=
  match t.direction with
  | .write => masterSend bus fuel t.dataSize.toNat 0 m
  | .read => masterReceive bus fuel t.dataSize.toNat m

/-- `LPI2C_MasterTransferBlocking`. -/
def masterTransferBlocking (fuel : Nat) (t : Transfer) (m : Machine) : Option (Machine × Status) :=
  if tooLong bus t then some (m, .invalidArgument)
  else
    let m := settle bus m
    if m.busBusy then some (m, .busy)
    else
      (sendCommands bus fuel (blockingCommands t) (clearStopDetect m)).bind fun m =>
        (transferData bus fuel t m).bind fun m =>
          (if t.noStop then some m else masterStop bus fuel m).map (·, .success)

end McuxDrivers.Lpi2c
