import McuxDrivers.Lib.Runs
import Mathlib.Algebra.Order.Group.Nat
import Mathlib.Data.Int.ModEq
import Mathlib.Logic.Function.Basic

/-!
# The eDMA queue of transfer control descriptors

The scatter/gather mode of `fsl_edma.c` on one channel. Definitions have the names of their C functions.
A submission is a sequence of accesses to the channel's registers, each a step of its own, so that the
hardware can complete a major loop between any two of them.
-/

namespace McuxDrivers.Edma
open McuxDrivers.Lib

/-- `edma_transfer_config_t`. -/
structure TransferConfig where
  srcAddr : Nat
  destAddr : Nat
  srcTransferSize : Nat
  destTransferSize : Nat
  srcOffset : Int
  destOffset : Int
  minorLoopBytes : Nat
  majorLoopCounts : Nat

/-- The fields of a descriptor that say what it transfers. -/
structure Transfer where
  saddr : Nat
  soff : Nat
  attr : Nat
  nbytes : Nat
  slast : Nat
  daddr : Nat
  doff : Nat
  citer : Nat
  biter : Nat
  deriving DecidableEq

/-- The bits of `CSR` the queue depends on. `INTMAJOR` is set in every descriptor of the pool. -/
structure Csr where
  dreq : Bool
  esg : Bool
  done : Bool
  deriving DecidableEq

/-- A descriptor, in the pool or in the registers. `DLAST_SGA` points to a slot of the pool or is 0. -/
structure Tcd where
  transfer : Transfer
  dlastSga : Option Nat
  csr : Csr
  deriving DecidableEq

def tcdReset : Tcd :=
  { transfer := ⟨0, 0, 0, 0, 0, 0, 0, 0, 0⟩, dlastSga := none, csr := ⟨true, false, false⟩ }

/-- What a configuration asks for, with no adjustment of the source address. -/
def TransferConfig.transfer (config : TransferConfig) : Transfer :=
  { saddr := config.srcAddr
    soff := (config.srcOffset % 2 ^ 16).toNat
    attr := config.srcTransferSize % 8 * 2 ^ 8 + config.destTransferSize % 8
    nbytes := config.minorLoopBytes
    slast := 0
    daddr := config.destAddr
    doff := (config.destOffset % 2 ^ 16).toNat
    citer := config.majorLoopCounts % 2 ^ 16
    biter := config.majorLoopCounts % 2 ^ 16 }

/-- `EDMA_TcdSetTransferConfig` with no next descriptor. `SLAST` is left as it is. -/
def tcdSetTransferConfig (tcd : Tcd) (config : TransferConfig) : Tcd :=
  { tcd with transfer := { config.transfer with slast := tcd.transfer.slast } }

/-- Where a submission is, between two accesses. A value read from `CSR` is kept until it is written
back. -/
inductive Pc
  | idle
  | fill (config : TransferConfig)
  | chain
  | checkPrevious
  | checkFirst
  | readDreq
  | writeDreq (csr : Csr)
  | readEsg
  | writeEsg (csr : Csr)
  | checkEsg
  | checkNext
  | install
  | readClear
  | writeClear (csr : Csr)

/-- The handle, the pool, the channel and the local variables of the submission. `active` says that the
descriptor in the registers is still to be executed; `submitted`, `executed` and `reported` are the
history of the accepted submissions, of the major loops completed and of the sum of the counts passed
to the callback. -/
structure Sys where
  header : Nat
  tail : Nat
  tcdUsed : Int
  tcdSize : Nat
  tcdPool : Nat → Tcd
  regs : Tcd
  active : Bool
  int : Bool
  pc : Pc
  currentTcd : Nat
  previousTcd : Nat
  nextTcd : Nat
  submitted : List TransferConfig
  executed : List Transfer
  reported : Int

/-- `EDMA_CreateHandle` and `EDMA_InstallTCDMemory`. The size is converted to 8 bits; a negative one is as
good as 0, since the queue is full from the beginning. -/
def installTCDMemory (tcdPool : Nat → Tcd) (tcdSize : Nat) : Sys :=
  { header := 0, tail := 0, tcdUsed := 0, tcdSize := (Int.bmod tcdSize 256).toNat, tcdPool := tcdPool
    regs := { transfer := ⟨0, 0, 0, 0, 0, 0, 0, 0, 0⟩, dlastSga := none, csr := ⟨false, false, false⟩ }
    active := false, int := false, pc := .idle, currentTcd := 0, previousTcd := 0, nextTcd := 0
    submitted := [], executed := [], reported := 0 }

/-- A write to `CSR`: `DONE` can only be cleared, and `ESG` does not change while `DONE` is set. -/
def writeCsr (regs : Tcd) (csr : Csr) : Tcd :=
  { regs with csr := {
      dreq := csr.dreq
      esg := if regs.csr.done then regs.csr.esg else csr.esg
      done := regs.csr.done && csr.done } }

/-- The channel completes the major loop of the descriptor in the registers. -/
def complete (s : Sys) : Sys :=
  if s.active then
    let s := { s with executed := s.executed ++ [s.regs.transfer], int := true }
    if s.regs.csr.esg then
      match s.regs.dlastSga with
      | some next => { s with regs := s.tcdPool next }
      | none => { s with active := false }
    else { s with regs := { s.regs with csr := { s.regs.csr with done := true } }, active := false }
  else s

/-- `EDMA_InstallTCD`, and the request enabled. `CSR` is written twice, first with 0. -/
def installTCD (s : Sys) (tcd : Tcd) : Sys :=
  let regs := { s.regs with transfer := tcd.transfer, dlastSga := tcd.dlastSga }
  { s with regs := writeCsr (writeCsr regs ⟨false, false, false⟩) tcd.csr, active := true }

/-- The critical section of `EDMA_SubmitTransfer`. A full queue leaves everything as it is. -/
def submitTransferBegin (s : Sys) (config : TransferConfig) : Sys :=
  if s.tcdUsed ≥ s.tcdSize then s
  else
    let nextTcd := if s.tail + 1 = s.tcdSize then 0 else s.tail + 1
    { s with
      tcdUsed := Int.bmod (s.tcdUsed + 1) 256
      tail := nextTcd
      currentTcd := s.tail
      previousTcd := if s.tail ≠ 0 then s.tail - 1 else s.tcdSize - 1
      nextTcd := nextTcd
      pc := .fill config
      submitted := s.submitted ++ [config] }

/-- The rest of `EDMA_SubmitTransfer`, one access at a time. -/
def submitTransferStep (s : Sys) : Sys :=
  match s.pc with
  | .idle => s
  | .fill config =>
    { s with
      tcdPool := Function.update s.tcdPool s.currentTcd
        { tcdSetTransferConfig tcdReset config with dlastSga := some s.nextTcd }
      pc := if s.currentTcd ≠ s.previousTcd then .chain else .install }
  | .chain =>
    let previous := s.tcdPool s.previousTcd
    { s with
      tcdPool := Function.update s.tcdPool s.previousTcd
        { previous with csr := { previous.csr with esg := true, dreq := false } }
      pc := .checkPrevious }
  | .checkPrevious =>
    { s with pc := if s.regs.dlastSga = some s.currentTcd then .readDreq else .checkFirst }
  | .checkFirst => { s with pc := if s.regs.dlastSga ≠ none then .idle else .install }
  | .readDreq => { s with pc := .writeDreq s.regs.csr }
  | .writeDreq csr => { s with regs := writeCsr s.regs { csr with dreq := true }, pc := .readEsg }
  | .readEsg => { s with pc := .writeEsg s.regs.csr }
  | .writeEsg csr => { s with regs := writeCsr s.regs { csr with esg := true }, pc := .checkEsg }
  | .checkEsg => { s with pc := if s.regs.csr.esg then .readClear else .checkNext }
  | .checkNext => { s with pc := if s.regs.dlastSga = some s.nextTcd then .idle else .install }
  | .install => { installTCD s (s.tcdPool s.currentTcd) with pc := .idle }
  | .readClear => { s with pc := .writeClear s.regs.csr }
  | .writeClear csr => { s with regs := writeCsr s.regs { csr with dreq := false }, pc := .idle }

/-- The slot of the descriptor in the registers, from the link to its successor. -/
def newHeader (s : Sys) : Nat :=
  let sgaIndex := s.regs.dlastSga.getD 0
  if sgaIndex ≠ 0 then sgaIndex - 1 else s.tcdSize - 1

/-- The number of finished descriptors as `EDMA_HandleIRQ` computes it. -/
def tcdsDone (s : Sys) : Int :=
  if newHeader s = s.header then
    if (s.tcdUsed = s.tcdSize ∨ ¬ s.regs.csr.esg) ∧ s.regs.csr.done then s.tcdUsed else 0
  else
    let tcdsDone : Int := newHeader s - s.header
    if tcdsDone < 0 then tcdsDone + s.tcdSize else tcdsDone

def clearDone (s : Sys) : Sys :=
  { s with regs := { s.regs with csr := { s.regs.csr with done := false } } }

/-- `EDMA_HandleIRQ`. A submission from the callback is a call that follows. -/
def handleIRQ (s : Sys) : Sys :=
  let s := { s with int := false }
  let transferDone := s.regs.csr.done
  let tcdsDone := tcdsDone s
  let cleared := if newHeader s ≠ s.header ∧ transferDone then clearDone s else s
  let released := { cleared with
    header := newHeader s
    tcdUsed := Int.bmod (s.tcdUsed - tcdsDone) 256
    reported := s.reported + tcdsDone }
  if transferDone ∧ released.regs.csr.esg then clearDone released else released

/-- What can happen: a submission begins when no other is in progress, it makes its next access, the
channel completes a major loop, or a raised interrupt is served. -/
inductive Event
  | submit (config : TransferConfig)
  | access
  | complete
  | irq

def step (s : Sys) : Event → Sys
  | .submit config =>
    match s.pc with
    | .idle => submitTransferBegin s config
    | _ => s
  | .access => submitTransferStep s
  | .complete => complete s
  | .irq => if s.int then handleIRQ s else s

/-- The transfers the channel is still going to make: the descriptor in the registers, if it is to be
executed, and those its links lead to. -/
def linked (tcdPool : Nat → Tcd) : Nat → Tcd → List Transfer
  | 0, _ => []
  | fuel + 1, tcd =>
    tcd.transfer ::
      if tcd.csr.esg then
        match tcd.dlastSga with
        | some next => linked tcdPool fuel (tcdPool next)
        | none => []
      else []

/-- The registers and the pool hold no more than `tcdSize + 1` descriptors. -/
def pending (s : Sys) : List Transfer :=
  if s.active then linked s.tcdPool (s.tcdSize + 1) s.regs else []

end McuxDrivers.Edma
