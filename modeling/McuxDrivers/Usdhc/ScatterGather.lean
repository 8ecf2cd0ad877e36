import McuxDrivers.Lib.Bytes
import McuxDrivers.Lib.Countdown
import McuxDrivers.Usdhc.AdmaTransfers

/-!
# Tables for scattered buffers

`USDHC_SetScatterGatherAdmaTableConfig` of `fsl_usdhc.c`, and the engine that executes a table. The registers that the
function sets after the table are left out: the engine starts at the first word of the table.
-/

namespace McuxDrivers.Usdhc

open Lib

/-- `usdhc_dma_mode_t`, the two modes with descriptors. -/
inductive DmaMode where
  | adma1
  | adma2
deriving DecidableEq

/-- An element of `usdhc_scatter_gather_data_list_t`. -/
structure Segment where
  dataAddr : Word
  dataSize : Nat
deriving DecidableEq

namespace DmaMode

/-- `oneDescriptorMaxTransferSize`. -/
def maxLength : DmaMode → Nat
  | adma1 => adma1DescriptorMaxLengthPerEntry
  | adma2 => adma2DescriptorMaxLengthPerEntry

/-- The distance of the word with the end flag from the end of its entry. -/
def endBack : DmaMode → Nat
  | adma1 => 1
  | adma2 => 2

end DmaMode

/-- `word &= ~flags` for the word `back` places before `i`. -/
def clearWordBefore (mem : List Word) (i back : Nat) (flags : Word) : Option (List Word) :=
  if back ≤ i then do
    let value ← mem[i - back]?
    writeWord mem (i - back) (value &&& ~~~flags)
  else none

section Driver

variable (mode : DmaMode) (bootDummy : Word)

/-- The builder that the mode calls for, in single mode. -/
def setSegmentDescriptor (admaDesBuffer admaDesLen : Nat) (sg : Segment) (mem : List Word) :
    Option (Status × List Word) :=
  match mode with
  | .adma1 => setAdma1Descriptor admaDesBuffer admaDesLen sg.dataAddr sg.dataSize .single mem
  | .adma2 => setAdma2Descriptor bootDummy admaDesBuffer admaDesLen sg.dataAddr sg.dataSize .single mem

/-- The loop over the segments. -/
def setSegments : Nat → Nat → Nat → List Segment → List Word → Option (Status × Nat × List Word)
  | _, _, totalTransferSize, [], mem => some (.success, totalTransferSize, mem)
  | admaDesBuffer, admaDesLen, totalTransferSize, sg :: dataList, mem => do
    let (error, mem) ← setSegmentDescriptor mode bootDummy admaDesBuffer admaDesLen sg mem
    if error ≠ .success then some (.prepareAdmaDescriptorFailed, totalTransferSize, mem)
    else
      let totalTransferSize := (totalTransferSize + sg.dataSize) % 2 ^ 32
      if dataList = [] then some (.success, totalTransferSize, mem)
      else
        let miniEntries := entriesFor mode.maxLength sg.dataSize
        let mem ← clearWordBefore mem (admaDesBuffer + miniEntries * 2) mode.endBack descriptorEndFlag
        setSegments (admaDesBuffer + miniEntries * 2) (wsub32 admaDesLen (miniEntries * 2)) totalTransferSize
          dataList mem

/-- `USDHC_SetScatterGatherAdmaTableConfig` with the segment `sgData` and the ones behind it, as its caller starts it with
a `totalTransferSize` of 0. -/
def setScatterGatherAdmaTableConfig (sgData : Segment) (dataList : List Segment) (table : List Word) :
    Option (Status × Nat × List Word) :=
  setSegments mode bootDummy 0 table.length 0 (sgData :: dataList) table

end Driver

/-- The runs of bytes that the engine transfers in ADMA1 mode, up to and with the first end flag; `length` is the one that
the last descriptor has set. It has no result when the engine leaves the table, stops with an error, or comes to an activity
that no builder asks for. -/
def adma1Run : Nat → List Word → Option (List (Span 32))
  | _, [] => none
  | length, word :: table =>
    if word &&& descriptorTypeMask = adma1DescriptorTypeSetLength then
      if word &&& descriptorEndFlag ≠ 0 then some [] else adma1Run (word >>> 12 &&& 0xFFFF).toNat table
    else if word &&& descriptorTypeMask = descriptorTypeTransfer ∧ length ≠ 0 then
      let piece : Span 32 := ⟨word &&& ~~~(0xFFF : Word), length⟩
      if word &&& descriptorEndFlag ≠ 0 then some [piece] else (adma1Run length table).map (piece :: ·)
    else none

/-- The same in ADMA2 mode. -/
def adma2Run : List Word → Option (List (Span 32))
  | attributes :: address :: table =>
    if attributes &&& descriptorTypeMask = descriptorTypeTransfer ∧ (attributes >>> 16).toNat ≠ 0 then
      let piece : Span 32 := ⟨address, (attributes >>> 16).toNat⟩
      if attributes &&& descriptorEndFlag ≠ 0 then some [piece] else (adma2Run table).map (piece :: ·)
    else none
  | _ => none

namespace DmaMode

/-- The engine from the start of a table. -/
def run : DmaMode → List Word → Option (List (Span 32))
  | adma1, table => adma1Run 0 table
  | adma2, table => adma2Run table

/-- The words of the entries that hold flags. -/
def flagWords : DmaMode → List (Word × Word) → List Word
  | adma1, entries => entryWords entries
  | adma2, entries => entries.map Prod.fst

end DmaMode

/-- The bytes of the segments, one segment behind the other. -/
def segmentBytes (segments : List Segment) : List Word :=
  segments.flatMap fun sg => (Span.mk sg.dataAddr sg.dataSize).bytes

/-- The table is the concatenation of the segments, and `totalTransferSize` comes to `total`. -/
def Concatenates (mode : DmaMode) (bootDummy : Word) (total : Nat) (sgData : Segment) (dataList : List Segment)
    (table : List Word) : Prop :=
  ∃ status totalTransferSize table',
    setScatterGatherAdmaTableConfig mode bootDummy sgData dataList table = some (status, totalTransferSize, table') ∧
    (status = .success → totalTransferSize = total ∧
      (∃ pieces, mode.run table' = some pieces ∧ pieces.flatMap Span.bytes = segmentBytes (sgData :: dataList)) ∧
      ∃ entries, (entryWords entries).length ≤ table.length ∧ table' = memcpy table 0 (entryWords entries) ∧
        EndsLast (mode.flagWords entries))

end McuxDrivers.Usdhc
