import Mathlib.Logic.Function.Basic
import McuxDrivers.Edma4.Tcd

/-!
# Submissions to an eDMA4 channel

`EDMA_SubmitTransfer`, `EDMA_SubmitTransferTCD` and `EDMA_SubmitLoopTransfer` with the hardware at rest
during the call. The 8-bit indices of the handle are signed.
-/

namespace McuxDrivers.Edma4

inductive Status
  | success
  | queueFull
  | busy
  | invalidArgument
  deriving DecidableEq, Repr

/-- What the submissions use of `edma_handle_t`. The pool is memory from `poolAddress` on, which goes on
behind its last slot. -/
structure Handle where
  hasTcdPool : Bool
  tcdPool : Nat → Tcd
  poolAddress : Word
  tail : BitVec 8
  tcdUsed : BitVec 8
  tcdSize : BitVec 8

/-- The TCD registers, `CH_CSR` and the error interrupt of the channel. -/
structure Channel where
  tcd : Tcd
  active : Bool
  done : Bool
  errorInterrupt : Bool
  deriving DecidableEq, Repr

structure Sys where
  handle : Handle
  channel : Channel

variable (soc : Soc)

/-- `EDMA_CheckErrata`; the assertion is off. -/
def checkErrata (tcd : Tcd) : Status :=
  if soc.hasErrata51327 ∧ tcd.nbytes % 8 ≠ 0 then .invalidArgument else .success

/-- The DMA address of a slot. -/
def slotAddress (handle : Handle) (i : Nat) : Word :=
  soc.convertToDmaAddress (handle.poolAddress + BitVec.ofNat 32 (i * soc.tcdBytes))

/-- A write to `CSR`: `ESG` does not change while `DONE` is set. -/
def writeCsr (csr : HalfWord) (c : Channel) : Channel :=
  { c with tcd := { c.tcd with
      csr := if c.done then (csr &&& ~~~kCsrEsg) ||| (c.tcd.csr &&& kCsrEsg) else csr } }

/-- The other fields, then `CSR`. -/
def writeTcd (tcd : Tcd) (c : Channel) : Channel :=
  writeCsr tcd.csr { c with tcd := { tcd with csr := c.tcd.csr } }

/-- `EDMA_InstallTCD`. -/
def installTCD (tcd : Tcd) (c : Channel) : Channel :=
  writeTcd tcd { c with done := false }

/-- The channel is active, or in a major loop. -/
def channelBusy (c : Channel) : Bool :=
  c.active || decide (c.tcd.citer &&& kIterCount ≠ c.tcd.biter &&& kIterCount)

def setSlot (i : BitVec 8) (tcd : Tcd) (s : Sys) : Sys :=
  { s with handle := { s.handle with tcdPool := Function.update s.handle.tcdPool i.toNat tcd } }

def setChannel (channel : Channel) (s : Sys) : Sys :=
  { s with channel := channel }

def nextTcd (handle : Handle) : BitVec 8 :=
  if handle.tail + 1 = handle.tcdSize then 0 else handle.tail + 1

def previousTcd (handle : Handle) : BitVec 8 :=
  if handle.tail ≠ 0 then handle.tail - 1 else handle.tcdSize - 1

/-- `tmpTcdUsed >= tmpTcdSize`. -/
def queueFull (handle : Handle) : Bool :=
  handle.tcdSize.sle handle.tcdUsed

/-- The critical section of a submission: a slot is taken. -/
def takeSlot (s : Sys) : Sys :=
  { s with handle := { s.handle with tcdUsed := s.handle.tcdUsed + 1, tail := nextTcd s.handle } }

/-- The registers that point to the new descriptor are chained to it, unless they are done. -/
def chainRegisters (c : Channel) : Channel :=
  let c := writeCsr (c.tcd.csr ||| kCsrDreq) c
  let c := writeCsr (c.tcd.csr ||| kCsrEsg) c
  if c.tcd.csr &&& kCsrEsg ≠ 0 then writeCsr (c.tcd.csr &&& ~~~kCsrDreq) c else c

/-- What follows when the slot is filled: the new descriptor is chained behind the one before it, or
installed. -/
def chainCurrent (currentTcd nextTcd previousTcd : BitVec 8) (s : Sys) : Sys × Status :=
  let install (s : Sys) := (setChannel (installTCD (s.handle.tcdPool currentTcd.toNat) s.channel) s, Status.success)
  if currentTcd = previousTcd then install s
  else if checkErrata soc (s.handle.tcdPool previousTcd.toNat) ≠ .success then (s, .invalidArgument)
  else
    let previous := s.handle.tcdPool previousTcd.toNat
    let s := setSlot previousTcd { previous with csr := chained previous.csr } s
    if s.channel.tcd.dlastSga = slotAddress soc s.handle currentTcd.toNat then
      let s := setChannel (chainRegisters s.channel) s
      if s.channel.tcd.csr &&& kCsrEsg ≠ 0 then (s, .success)
      else if s.channel.tcd.dlastSga = slotAddress soc s.handle nextTcd.toNat then (s, .success)
      else install s
    else if s.channel.tcd.dlastSga ≠ 0 then (s, .success)
    else install s

/-- The descriptor of `EDMA_SubmitTransfer` in its slot. -/
def queuedTransfer (config : TransferConfig) (link : Word) : Tcd :=
  let tcd := tcdSetTransferConfig soc config 0
  { tcd with csr := tcd.csr ||| kCsrIntMajor, dlastSga := link }

/-- The descriptor of `EDMA_SubmitTransferTCD` in its slot; it keeps a link of its own. -/
def queuedTCD (tcd : Tcd) (link : Word) : Tcd :=
  { tcd with
    csr := tcd.csr ||| kCsrIntMajor
    dlastSga := if tcd.dlastSga = 0 ∨ tcd.csr &&& kCsrEsg = 0 then link else tcd.dlastSga }

/-- A submission to the queue; `fill` makes the descriptor from the address of the next slot. -/
def submitQueued (fill : Word → Tcd) (s : Sys) : Sys × Status :=
  if queueFull s.handle then (s, .queueFull)
  else
    let currentTcd := s.handle.tail
    let next := nextTcd s.handle
    let previous := previousTcd s.handle
    let s := takeSlot s
    let s := setSlot currentTcd (fill (slotAddress soc s.handle next.toNat)) s
    chainCurrent soc currentTcd next previous s

/-- A submission to the registers, when there is no pool. -/
def submitDirect (write : Channel → Channel) (s : Sys) : Sys × Status :=
  if channelBusy s.channel then (s, .busy)
  else
    let c := write s.channel
    let c := writeCsr (c.tcd.csr ||| kCsrDreq) c
    (setChannel (writeCsr (c.tcd.csr ||| kCsrIntMajor) c) s, .success)

/-- `EDMA_SubmitTransfer`. -/
def submitTransfer (config : TransferConfig) (s : Sys) : Sys × Status :=
  if s.handle.hasTcdPool then submitQueued soc (queuedTransfer soc config) s
  else submitDirect (writeTcd (tcdSetTransferConfig soc config 0)) s

/-- `EDMA_SubmitTransferTCD`. -/
def submitTransferTCD (tcd : Tcd) (s : Sys) : Sys × Status :=
  if s.handle.hasTcdPool then submitQueued soc (queuedTCD tcd) s
  else submitDirect (installTCD tcd) s

/-- `memset(tcd, 0, sizeof(edma_tcd_t))`. -/
def Tcd.zero : Tcd :=
  { tcdReset with csr := 0 }

/-- The pool is cleared. -/
def clearPool (handle : Handle) : Nat → Tcd :=
  fun i => if i < handle.tcdSize.toNat then Tcd.zero else handle.tcdPool i

/-- What `EDMA_SubmitLoopTransfer` writes: the pool and the links in `transfer[]`. -/
structure Ring where
  tcdPool : Nat → Tcd
  transfer : Nat → TransferConfig

/-- `transfer[i]` is linked to slot `next` and put into slot `i`. -/
def linkSlot (handle : Handle) (i next : Nat) (r : Ring) : Ring :=
  let config := { r.transfer i with linkTCD := handle.poolAddress + BitVec.ofNat 32 (next * soc.tcdBytes) }
  { tcdPool := Function.update r.tcdPool i (configChannelSoftwareTCD soc config)
    transfer := Function.update r.transfer i config }

/-- `rounds` rounds of the loop from index `i` on; none when a slot fails the erratum's check. The index of
the last slot comes with the ring. -/
def linkSlots (handle : Handle) : Nat → Nat → Ring → Ring × Option Nat
  | 0, i, r => (r, some i)
  | rounds + 1, i, r =>
    let r := linkSlot soc handle i (i + 1) r
    if checkErrata soc (r.tcdPool i) ≠ .success then (r, none) else linkSlots handle rounds (i + 1) r

/-- `EDMA_EnableChannelInterrupts`. -/
def enableChannelInterrupts (mask : HalfWord) (c : Channel) : Channel :=
  let c := if mask &&& kErrorInterruptEnable ≠ 0 then { c with errorInterrupt := true } else c
  let c := if mask &&& kCsrIntMajor ≠ 0 then writeCsr (c.tcd.csr ||| kCsrIntMajor) c else c
  if mask &&& kCsrIntHalf ≠ 0 then writeCsr (c.tcd.csr ||| kCsrIntHalf) c else c

/-- `EDMA_SubmitLoopTransfer`, with `transfer[]` as it leaves it. -/
def submitLoopTransfer (transfer : Nat → TransferConfig) (transferLoopCount : Word) (s : Sys) :
    Sys × (Nat → TransferConfig) × Status :=
  if s.handle.tcdSize.slt (transferLoopCount.setWidth 8) then (s, transfer, .invalidArgument)
  else if channelBusy s.channel then (s, transfer, .busy)
  else
    match linkSlots soc s.handle (transferLoopCount - 1).toNat 0 ⟨clearPool s.handle, transfer⟩ with
    | (r, none) => ({ s with handle := { s.handle with tcdPool := r.tcdPool } }, r.transfer, .invalidArgument)
    | (r, some last) =>
      let r := linkSlot soc s.handle last 0 r
      let c := installTCD (r.tcdPool 0) s.channel
      let c := enableChannelInterrupts ((r.transfer 0).enabledInterruptMask &&& ~~~kErrorInterruptEnable) c
      ({ handle := { s.handle with tcdPool := r.tcdPool }, channel := c }, r.transfer, .success)

end McuxDrivers.Edma4
