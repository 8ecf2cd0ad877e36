import McuxDrivers.Lib.Countdown
import McuxDrivers.Usdhc.Adma

/-!
# Transfers through the data port of the uSDHC

`USDHC_ReadDataPort`, `USDHC_WriteDataPort`, the blocking loops over them and `USDHC_TransferHandleData` of `fsl_usdhc.c`,
where `size_t` has 32 bits. The boot dummy that is written behind a DMA transfer, and the flags that are cleared, are left
out. A blocking function is followed poll by poll: each step is one value of the interrupt status that it reads.
-/

namespace McuxDrivers.Usdhc

open Lib

/-- What stays the same during a transfer. -/
structure PortConfig where
  readWatermark : Nat
  writeWatermark : Nat
  dmaEnabled : Bool
  blockCount : Nat
  /-- `dataType` is `kUSDHC_TransferDataTuning`. -/
  tuning : Bool
  enableIgnoreError : Bool
  /-- There is a callback. -/
  transferComplete : Bool
  /-- `FSL_FEATURE_USDHC_HAS_SDR50_MODE`. -/
  sdr50 : Bool

/-- The element of the buffer that a word goes to or comes from. -/
inductive BufferAccess where
  | rxData (i : Nat)
  | txData (i : Nat)
deriving DecidableEq

def BufferAccess.index : BufferAccess → Nat
  | rxData i => i
  | txData i => i

def BufferAccess.isRead : BufferAccess → Bool
  | rxData _ => true
  | txData _ => false

/-- The words that have been moved are kept in order. -/
structure PortState where
  blockSize : Nat
  transferredWords : Nat
  moved : List BufferAccess

/-- The flags of the interrupt status that the functions look at. -/
structure PortFlags where
  readReady : Bool
  writeReady : Bool
  dataError : Bool
  dmaError : Bool
  tuningError : Bool
  dataComplete : Bool

/-- The loop over the words. -/
def moveWords (access : Nat → BufferAccess) : Nat → PortState → PortState
  | 0, s => s
  | left + 1, s =>
    moveWords access left
      { s with
        transferredWords := (s.transferredWords + 1) % 2 ^ 32
        moved := s.moved ++ [access s.transferredWords] }

/-- `wordsCanBeRead` and `wordsCanBeWrote`. -/
def wordsAtOnce (watermark totalWords transferredWords : Nat) : Nat :=
  if watermark ≥ totalWords then totalWords
  else if wsub32 totalWords transferredWords ≥ watermark then watermark
  else wsub32 totalWords transferredWords

namespace PortConfig

variable (c : PortConfig)

def totalWords (blockSize : Nat) : Nat :=
  c.blockCount * wordAligned blockSize % 2 ^ 32 / 4

/-- What the two functions for the port have in common. -/
def movePort (watermark : Nat) (access : Nat → BufferAccess) (s : PortState) : PortState :=
  if c.dmaEnabled then s
  else
    moveWords access (wordsAtOnce watermark (c.totalWords s.blockSize) s.transferredWords)
      { s with blockSize := wordAligned s.blockSize }

/-- `USDHC_ReadDataPort`. -/
def readDataPort (s : PortState) : PortState :=
  c.movePort c.readWatermark .rxData s

/-- `USDHC_WriteDataPort`. -/
def writeDataPort (s : PortState) : PortState :=
  c.movePort c.writeWatermark .txData s

end PortConfig

/-- The handle of a transfer; it is `active` while it points at the data. -/
structure DataHandle where
  port : PortState
  active : Bool

/-- The handle as `USDHC_TransferNonBlocking` leaves it. -/
def startTransfer (blockSize : Nat) : DataHandle :=
  ⟨⟨blockSize, 0, []⟩, true⟩

inductive DataStatus where
  | busyTransferring
  | transferDataFailed
  | transferDataComplete
deriving DecidableEq

namespace PortConfig

variable (c : PortConfig)

/-- The data is given up. -/
def aborts (flags : PortFlags) : Bool :=
  !c.enableIgnoreError && (flags.dataError || flags.dmaError)

/-- `USDHC_TransferHandleData`, which is asserted to find data. -/
def transferHandleData (s : DataHandle) (flags : PortFlags) : DataHandle :=
  if s.active then
    let (transferStatus, port) :=
      if c.aborts flags then (DataStatus.transferDataFailed, s.port)
      else if flags.readReady then
        if c.tuning then (.transferDataComplete, s.port) else (.busyTransferring, c.readDataPort s.port)
      else if flags.writeReady then (.busyTransferring, c.writeDataPort s.port)
      else if flags.dataComplete then (.transferDataComplete, s.port)
      else (.busyTransferring, s.port)
    ⟨port, !(c.transferComplete && transferStatus != .busyTransferring)⟩
  else s

end PortConfig

inductive BlockingStatus where
  | success
  | fail
  | tuningError
deriving DecidableEq

/-- Where a blocking function is: in the loop over the data, in the wait behind it, or back at its caller. -/
inductive BlockingPhase where
  | transferring
  | completing
  | returned (status : BlockingStatus)
deriving DecidableEq

structure Blocking where
  port : PortState
  totalWords : Nat
  phase : BlockingPhase

/-- The test of the loop over the data, which `after` follows. -/
def Blocking.advance (s : Blocking) (after : BlockingPhase) (port : PortState) : Blocking :=
  { s with port, phase := if port.transferredWords < s.totalWords then .transferring else after }

namespace PortConfig

variable (c : PortConfig)

/-- Without the mode there is no flag for a tuning error. -/
def tuningFails (flags : PortFlags) : Bool :=
  c.sdr50 && flags.tuningError

def startBlocking (after : BlockingPhase) (blockSize : Nat) : Blocking :=
  let port : PortState := ⟨wordAligned blockSize, 0, []⟩
  Blocking.advance ⟨port, c.totalWords blockSize, .transferring⟩ after port

/-- `USDHC_ReadByDataPortBlocking` up to its first poll. -/
def startRead (blockSize : Nat) : Blocking :=
  c.startBlocking (.returned .success) blockSize

/-- One poll of `USDHC_ReadByDataPortBlocking`. -/
def readPoll (s : Blocking) (flags : PortFlags) : Blocking :=
  if s.phase ≠ .transferring then s
  else if !(flags.readReady || flags.dataError || c.tuningFails flags) then s
  else if c.tuning && flags.readReady then { s with phase := .returned .success }
  else if c.tuningFails flags then { s with phase := .returned .tuningError }
  else if flags.dataError && !c.enableIgnoreError then { s with phase := .returned .fail }
  else s.advance (.returned .success) (c.readDataPort s.port)

/-- `USDHC_WriteByDataPortBlocking` up to its first poll. -/
def startWrite (blockSize : Nat) : Blocking :=
  c.startBlocking .completing blockSize

/-- One poll of `USDHC_WriteByDataPortBlocking`. -/
def writePoll (s : Blocking) (flags : PortFlags) : Blocking :=
  match s.phase with
  | .transferring =>
    if !(flags.writeReady || flags.dataError || c.tuningFails flags) then s
    else if c.tuningFails flags then { s with phase := .returned .tuningError }
    -- the wait behind the loop ends at once: the error is still in the status
    else if flags.dataError && !c.enableIgnoreError then { s with phase := .returned .fail }
    else s.advance .completing (c.writeDataPort s.port)
  | .completing =>
    if !(flags.dataComplete || flags.dataError) then s
    else { s with phase := .returned (if flags.dataError && !c.enableIgnoreError then .fail else .success) }
  | .returned _ => s

end PortConfig

end McuxDrivers.Usdhc
