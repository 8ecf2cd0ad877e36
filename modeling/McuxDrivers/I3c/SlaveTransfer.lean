import Mathlib.Data.BitVec
import Mathlib.Logic.Function.Basic
import McuxDrivers.Lib.Runs

/-!
# Transfers of the I3C slave

`I3C_SlaveTransferHandleIRQ` and the functions under it, from `fsl_i3c.c`, for a handle with a callback that has the completion
event enabled. The FIFOs are queues of the sizes that the controller has. Pointers are addresses of bytes, and `size_t` has
32 bits. A callback that is asked for a buffer supplies one or leaves the transfer as it is; the other events only notify.

The `log` is no data of the driver: it records the buffers that the callback has supplied, what has moved through them, the
accesses, and the completion events.
-/

namespace McuxDrivers.I3c.Slave
open McuxDrivers.Lib

inductive Side
  | transmit
  | receive
  deriving DecidableEq

/-- A buffer that the callback supplies. -/
structure Buffer where
  base : Nat
  size : BitVec 32
  size_ne : size ≠ 0

/-- An address inside a buffer. -/
def Buffer.Holds (b : Buffer) (address : Nat) : Prop :=
  b.base ≤ address ∧ address < b.base + b.size.toNat

/-- `i3c_slave_transfer_t`, without the event and its status. -/
structure Transfer where
  txData : Option Nat
  txDataSize : BitVec 32
  rxData : Option Nat
  rxDataSize : BitVec 32
  transferredCount : BitVec 32

/-- The transfer after `memset`. -/
def noTransfer : Transfer :=
  ⟨none, 0, none, 0, 0⟩

/-- There is nothing to transmit, or no room for what is received. -/
def Transfer.TxOut (t : Transfer) : Prop :=
  t.txData = none ∨ t.txDataSize = 0

def Transfer.RxOut (t : Transfer) : Prop :=
  t.rxData = none ∨ t.rxDataSize = 0

instance (t : Transfer) : Decidable t.TxOut := inferInstanceAs (Decidable (_ ∨ _))

instance (t : Transfer) : Decidable t.RxOut := inferInstanceAs (Decidable (_ ∨ _))

/-- `i3c_slave_handle_t`. -/
structure Handle where
  transfer : Transfer
  isBusy : Bool
  wasTransmit : Bool
  transferredCount : BitVec 32
  txFifoSize : Nat

/-- A completion event: its count, the bytes that have moved through the current buffer since it was supplied, and whether
nothing else than bytes into it have moved. -/
structure Report where
  count : BitVec 32
  moved : Nat
  pureReceive : Bool
  deriving DecidableEq

/-- What has happened since the last completed transfer, and the accesses and completions so far. -/
structure Log where
  txBuffer : Option Buffer
  rxBuffer : Option Buffer
  txMoved : Nat
  rxMoved : Nat
  /-- The side of the buffer that was supplied or used last. -/
  current : Option Side
  transmitted : Bool
  accesses : List (Nat × Option Buffer)
  reports : List Report

structure Sys where
  handle : Handle
  /-- The interrupt for a Tx FIFO that has room. -/
  txEnabled : Bool
  /-- The bytes with the mark of `SWDATABE`. -/
  txFifo : List (BitVec 8 × Bool)
  rxFifo : List (BitVec 8)
  rxFifoSize : Nat
  memory : Nat → BitVec 8
  log : Log

/-- The flags that an interrupt finds, and the answers of the callback when it is asked. The FIFO flags only show what
the queues have. -/
structure Irq where
  errors : Bool
  start : Bool
  receivedCCC : Bool
  matched : Bool
  txReady : Bool
  rxReady : Bool
  stop : Bool
  hdrMode : Bool
  txSupply : Option Buffer
  rxSupply : Option Buffer

namespace Sys

/-- The bytes that have moved through the current buffer. -/
def moved (s : Sys) : Nat :=
  match s.log.current with
  | none => 0
  | some .transmit => s.log.txMoved
  | some .receive => s.log.rxMoved

/-- Only bytes into the current buffer have moved. -/
def pureReceive (s : Sys) : Bool :=
  s.log.current = some .receive && !s.log.transmitted

/-- The callback for a completion. -/
def report (s : Sys) (count : BitVec 32) : Sys :=
  { s with log := { s.log with reports := s.log.reports ++ [⟨count, s.moved, s.pureReceive⟩] } }

/-- `I3C_SlaveTransferHandleBusStart`. -/
def handleBusStart (s : Sys) : Sys :=
  { s with
    handle := { s.handle with transfer := { s.handle.transfer with txDataSize := 0 } }
    txFifo := []
    txEnabled := true }

def setBusy (s : Sys) : Sys :=
  { s with handle := { s.handle with isBusy := true } }

/-- The callback is asked for data to transmit. -/
def requestTx (e : Irq) (s : Sys) : Sys :=
  let s := if e.hdrMode then s.setBusy else s
  let s := match e.txSupply with
    | none => s
    | some b => { s with
        handle := { s.handle with transfer := { s.handle.transfer with txData := some b.base, txDataSize := b.size } }
        log := { s.log with txBuffer := some b, txMoved := 0, current := some .transmit } }
  { s with handle := { s.handle with transferredCount := 0 } }

/-- The callback is asked for room for what is received. -/
def requestRx (e : Irq) (s : Sys) : Sys :=
  let s := if e.hdrMode then s.setBusy else s
  let s := match e.rxSupply with
    | none => s
    | some b => { s with
        handle := { s.handle with transfer := { s.handle.transfer with rxData := some b.base, rxDataSize := b.size } }
        log := { s.log with rxBuffer := some b, rxMoved := 0, current := some .receive } }
  { s with handle := { s.handle with transferredCount := 0 } }

/-- A byte from `address` into the Tx FIFO. -/
def txByte (address : Nat) (s : Sys) : Sys :=
  let last := decide (¬ s.handle.transfer.txDataSize > 1)
  { s with
    handle := { s.handle with
      transfer := { s.handle.transfer with txData := some (address + 1), txDataSize := s.handle.transfer.txDataSize - 1 }
      transferredCount := s.handle.transferredCount + 1 }
    txEnabled := s.txEnabled && !last
    txFifo := s.txFifo ++ [(s.memory address, last)]
    log := { s.log with
      txMoved := s.log.txMoved + 1
      current := some .transmit
      transmitted := true
      accesses := s.log.accesses ++ [(address, s.log.txBuffer)] } }

/-- The loop of `I3C_SlaveTransferHandleTxReady`, on `txCount`. -/
def txLoop : Nat → Sys → Sys
  | 0, s => s
  | txCount + 1, s =>
    match s.handle.transfer.txData with
    | none => s
    | some address => if s.handle.transfer.txDataSize ≠ 0 then txLoop txCount (s.txByte address) else s

/-- `I3C_SlaveTransferHandleTxReady`. -/
def handleTxReady (e : Irq) (s : Sys) : Sys :=
  let txCount := s.handle.txFifoSize - s.txFifo.length
  let s := { s with handle := { s.handle with wasTransmit := true } }
  let s := if s.handle.transfer.TxOut then s.requestTx e else s
  if s.handle.transfer.TxOut then { s with txEnabled := false } else txLoop txCount s

/-- A byte of the Rx FIFO to `address`. -/
def rxByte (address : Nat) (b : BitVec 8) (rest : List (BitVec 8)) (s : Sys) : Sys :=
  { s with
    handle := { s.handle with
      transfer := { s.handle.transfer with rxData := some (address + 1), rxDataSize := s.handle.transfer.rxDataSize - 1 }
      transferredCount := s.handle.transferredCount + 1 }
    rxFifo := rest
    memory := Function.update s.memory address b
    log := { s.log with
      rxMoved := s.log.rxMoved + 1
      current := some .receive
      accesses := s.log.accesses ++ [(address, s.log.rxBuffer)] } }

/-- The loop of `I3C_SlaveTransferHandleRxReady`, on what the Rx FIFO has. -/
def rxLoop : List (BitVec 8) → Sys → Sys
  | [], s => s
  | b :: rest, s =>
    match s.handle.transfer.rxData with
    | none => s
    | some address => if s.handle.transfer.rxDataSize ≠ 0 then rxLoop rest (s.rxByte address b rest) else s

/-- `I3C_SlaveTransferHandleRxReady`. -/
def handleRxReady (e : Irq) (s : Sys) : Sys :=
  let s := if s.handle.transfer.RxOut then s.requestRx e else s
  rxLoop s.rxFifo s

/-- The completion of a transfer. -/
def complete (s : Sys) : Sys :=
  let s := s.report (if s.handle.wasTransmit then s.handle.transferredCount - 1 else s.handle.transferredCount)
  { s with
    handle := { s.handle with transfer := noTransfer, isBusy := false, wasTransmit := false }
    log := { s.log with
      txBuffer := none, rxBuffer := none, txMoved := 0, rxMoved := 0, current := none, transmitted := false } }

/-- `I3C_SlaveTransferHandleBusStop`. -/
def handleBusStop (s : Sys) : Sys :=
  let s := { s with txEnabled := false, txFifo := [], rxFifo := [] }
  if s.handle.isBusy then s.complete else s

/-- The Tx FIFO flag is set and its interrupt pending; a start makes it pending. -/
def TxPending (e : Irq) (s : Sys) : Prop :=
  e.txReady = true ∧ s.txFifo.length < s.handle.txFifoSize ∧ (e.start = true ∨ s.txEnabled = true)

def RxPending (e : Irq) (s : Sys) : Prop :=
  e.rxReady = true ∧ s.rxFifo ≠ []

instance (e : Irq) (s : Sys) : Decidable (s.TxPending e) := inferInstanceAs (Decidable (_ ∧ _))

instance (e : Irq) (s : Sys) : Decidable (s.RxPending e) := inferInstanceAs (Decidable (_ ∧ _))

/-- The start, the CCC and the match of an interrupt. -/
def handleAddress (e : Irq) (s : Sys) : Sys :=
  let s := if e.start then s.handleBusStart else s
  if e.receivedCCC ∨ e.matched then s.setBusy else s

/-- The bytes of an interrupt, with the flags that it has found. -/
def handleBytes (e : Irq) (txPending rxPending : Prop) [Decidable txPending] [Decidable rxPending] (s : Sys) : Sys :=
  let s := if txPending then s.handleTxReady e else s
  if rxPending then s.handleRxReady e else s

/-- `I3C_SlaveTransferHandleGetStatusFlags` with an error, which flushes the FIFOs. The count is the one of the transfer,
which nothing has set. -/
def handleError (s : Sys) : Sys :=
  { s with txFifo := [], rxFifo := [] }.report s.handle.transfer.transferredCount

/-- `I3C_SlaveTransferHandleIRQ`. -/
def handleIRQ (e : Irq) (s : Sys) : Sys :=
  if e.errors then s.handleError
  else
    let s' := (s.handleAddress e).handleBytes e (s.TxPending e) (s.RxPending e)
    if e.stop then s'.handleBusStop else s'

end Sys

/-- A byte that is received from the bus, one that is taken to it, or an interrupt. -/
inductive Event
  | received (b : BitVec 8)
  | sent
  | irq (e : Irq)

/-- One event. A byte for which the Rx FIFO has no room is lost. -/
def step (s : Sys) : Event → Sys
  | .received b => if s.rxFifo.length < s.rxFifoSize then { s with rxFifo := s.rxFifo ++ [b] } else s
  | .sent => { s with txFifo := s.txFifo.tail }
  | .irq e => s.handleIRQ e

/-- The handle as `I3C_SlaveTransferCreateHandle` and `I3C_SlaveTransferNonBlocking` leave it. -/
def created (txFifoSize rxFifoSize : Nat) (memory : Nat → BitVec 8) : Sys where
  handle := ⟨noTransfer, false, false, 0, txFifoSize⟩
  txEnabled := false
  txFifo := []
  rxFifo := []
  rxFifoSize := rxFifoSize
  memory := memory
  log := ⟨none, none, 0, 0, none, false, [], []⟩

end McuxDrivers.I3c.Slave
