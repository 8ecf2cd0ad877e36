import Mathlib.Algebra.Group.Nat.Defs
import Mathlib.Data.List.Basic

/-!
# The descriptor tables of the uSDHC

`USDHC_SetADMA1Descriptor` and `USDHC_SetADMA2Descriptor` of `fsl_usdhc.c`, on the words of the memory that holds the
table. A run that accesses a word behind that memory has no result.
-/

namespace McuxDrivers.Usdhc

/-- A word of a descriptor table. -/
abbrev Word := BitVec 32

/-- The codes that the functions about the tables return. -/
inductive Status where
  | success
  | outOfRange
  | dmaDataAddrNotAlign
  | notSupport
  | prepareAdmaDescriptorFailed
deriving DecidableEq

/-- `kUSDHC_AdmaDescriptorSingleFlag` and `kUSDHC_AdmaDescriptorMultipleFlag`. -/
inductive AdmaFlag where
  | single
  | multiple
deriving DecidableEq

/-! The flags of a descriptor have the same places in both formats. -/

def descriptorValidFlag : Word := 0x01

def descriptorEndFlag : Word := 0x02

def descriptorInterruptFlag : Word := 0x04

def descriptorActivity1Flag : Word := 0x10

def descriptorActivity2Flag : Word := 0x20

def descriptorTypeTransfer : Word := descriptorActivity2Flag ||| descriptorValidFlag

def adma1DescriptorTypeSetLength : Word := descriptorActivity1Flag ||| descriptorValidFlag

def adma1DescriptorMaxLengthPerEntry : Nat := 0xFFFF + 1 - 4096

def adma2DescriptorMaxLengthPerEntry : Nat := 0xFFFF - 3

section Memory

variable (mem : List Word)

def writeWord (i : Nat) (value : Word) : Option (List Word) :=
  if i < mem.length then some (mem.set i value) else none

/-- `word |= flags`. -/
def orWord (i : Nat) (flags : Word) : Option (List Word) := do
  let value ← mem[i]?
  writeWord mem i (value ||| flags)

/-- `word |= flags` for the word `back` places before `i`. -/
def orWordBefore (i back : Nat) (flags : Word) : Option (List Word) :=
  if back ≤ i then orWord mem (i - back) flags else none

end Memory

/-- `dataBytes` as a whole number of words. -/
def wordAligned (dataBytes : Nat) : Nat :=
  if dataBytes % 4 ≠ 0 then (dataBytes + (4 - dataBytes % 4)) % 2 ^ 32 else dataBytes

/-- The descriptors that `dataBytes` need, where each takes `maxLength` of them. -/
def entriesFor (maxLength dataBytes : Nat) : Nat :=
  if dataBytes % maxLength = 0 then dataBytes / maxLength else dataBytes / maxLength + 1

/-- The loop of `USDHC_SetADMA1Descriptor`, with `left` pairs of descriptors to go. -/
def setAdma1Entries (admaTable : Nat) : Nat → Nat → Word → Nat → List Word → Option (List Word)
  | 0, _, _, _, mem => some mem
  | left + 1, i, data, dataBytes, mem => do
    let dmaBufferLen :=
      if dataBytes > adma1DescriptorMaxLengthPerEntry then adma1DescriptorMaxLengthPerEntry else dataBytes
    let mem ← writeWord mem (admaTable + i) (BitVec.ofNat 32 dmaBufferLen <<< 12)
    let mem ← orWord mem (admaTable + i) adma1DescriptorTypeSetLength
    let mem ← writeWord mem (admaTable + i + 1) data
    let mem ← orWord mem (admaTable + i + 1) (descriptorTypeTransfer ||| descriptorInterruptFlag)
    setAdma1Entries admaTable left (i + 2) (data + BitVec.ofNat 32 dmaBufferLen) (dataBytes - dmaBufferLen) mem

/-- `USDHC_SetADMA1Descriptor` for the table at the word `admaTable` of the memory. -/
def setAdma1Descriptor (admaTable admaTableWords : Nat) (dataBufferAddr : Word) (dataBytes : Nat) (flags : AdmaFlag)
    (mem : List Word) : Option (Status × List Word) :=
  let maxEntries := admaTableWords * 4 % 2 ^ 32 / 4
  if dataBufferAddr.toNat % 4096 ≠ 0 then some (.dmaDataAddrNotAlign, mem)
  else if flags = .multiple then some (.notSupport, mem)
  else
    let dataBytes := wordAligned dataBytes
    let miniEntries := 2 * entriesFor adma1DescriptorMaxLengthPerEntry dataBytes
    if miniEntries > maxEntries then some (.outOfRange, mem)
    else do
      let mem ← setAdma1Entries admaTable (miniEntries / 2) 0 dataBufferAddr dataBytes mem
      let mem ← orWordBefore mem (admaTable + miniEntries) 1 descriptorEndFlag
      some (.success, mem)

/-- The search for the first descriptor without the valid flag, with `left` descriptors to look at. -/
def findStartEntry (admaTable : Nat) (mem : List Word) : Nat → Nat → Option Nat
  | 0, i => some i
  | left + 1, i => do
    let attributes ← mem[admaTable + 2 * i]?
    if attributes &&& descriptorValidFlag = 0 then some i else findStartEntry admaTable mem left (i + 1)

section Adma2

variable (bootDummy : Word)

/-- The loop of `USDHC_SetADMA2Descriptor`, with `left` descriptors to go; `bootDummy` is the address of
`s_usdhcBootDummy`. -/
def setAdma2Entries (admaTable : Nat) : Nat → Nat → Word → Nat → List Word → Option (List Word)
  | 0, _, _, _, mem => some mem
  | left + 1, i, data, dataBytes, mem => do
    let dmaBufferLen :=
      if dataBytes > adma2DescriptorMaxLengthPerEntry then adma2DescriptorMaxLengthPerEntry
      else if dataBytes = 0 then 4 else dataBytes
    let mem ← writeWord mem (admaTable + 2 * i + 1) (if dataBytes = 0 then bootDummy else data)
    let mem ← writeWord mem (admaTable + 2 * i) (BitVec.ofNat 32 dmaBufferLen <<< 16)
    let mem ← orWord mem (admaTable + 2 * i)
      (if dataBytes = 0 then 0 else descriptorTypeTransfer ||| descriptorInterruptFlag)
    setAdma2Entries admaTable left (i + 1) (data + BitVec.ofNat 32 dmaBufferLen)
      (if dataBytes ≠ 0 then dataBytes - dmaBufferLen else dataBytes) mem

/-- The number of ADMA2 descriptors in a table. -/
def adma2MaxEntries (admaTableWords : Nat) : Nat :=
  admaTableWords * 4 % 2 ^ 32 / 8

/-- `USDHC_SetADMA2Descriptor` for the table at the word `admaTable` of the memory. -/
def setAdma2Descriptor (admaTable admaTableWords : Nat) (dataBufferAddr : Word) (dataBytes : Nat) (flags : AdmaFlag)
    (mem : List Word) : Option (Status × List Word) :=
  let maxEntries := adma2MaxEntries admaTableWords
  if dataBufferAddr.toNat % 4 ≠ 0 then some (.dmaDataAddrNotAlign, mem)
  else do
    let dataBytes := wordAligned dataBytes
    let dataEntries := entriesFor adma2DescriptorMaxLengthPerEntry dataBytes
    let startEntries ← if flags = .multiple then findStartEntry admaTable mem maxEntries 0 else some 0
    let miniEntries := if flags = .multiple then dataEntries + 1 else dataEntries
    -- neither the number of entries nor the sum comes near 2 ^ 32
    if miniEntries + startEntries > maxEntries then some (.outOfRange, mem)
    else do
      let mem ← setAdma2Entries bootDummy admaTable miniEntries startEntries dataBufferAddr dataBytes mem
      let mem ←
        if flags = .multiple then orWord mem (admaTable + 2 * (startEntries + 1)) descriptorTypeTransfer
        else orWordBefore mem (admaTable + 2 * (startEntries + miniEntries)) 2 descriptorEndFlag
      some (.success, mem)

end Adma2

end McuxDrivers.Usdhc
