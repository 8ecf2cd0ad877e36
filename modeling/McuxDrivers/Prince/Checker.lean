import Mathlib.Data.BitVec
import Mathlib.Logic.Function.Basic

/-!
# The erase and program checker of the PRINCE driver

`fsl_prince.c` for the series without ELS. The PUF and the flash driver are behind `Services`. `events` is
no register: it records the IV codes that have been generated and the IVs that have been loaded.
-/

namespace McuxDrivers.Prince

abbrev Byte := BitVec 8
abbrev Word := BitVec 32

inductive Region
  | region0
  | region1
  | region2
  deriving DecidableEq, Repr

def Region.index : Region → Nat
  | .region0 => 0
  | .region1 => 1
  | .region2 => 2

inductive Status
  | success
  | fail
  | invalidArgument
  | encryptedRegionsEraseNotDoneAtOnce
  | sizeError
  deriving DecidableEq, Repr

inductive Flag
  | eraseCheck
  | writeCheck
  deriving DecidableEq, Repr

/-- `FSL_PRINCE_DRIVER_LPC55S*`. -/
inductive Series
  | lpc55S0x
  | lpc55S1x
  | lpc55S2x
  | lpc55S6x
  deriving DecidableEq, Repr

def Series.maxBaseAddress : Series → Word
  | .lpc55S0x | .lpc55S1x | .lpc55S2x => 0
  | .lpc55S6x => 0x80000

/-- `BASE_ADDRx`, `SR_ENABLEx` and the IV registers. -/
structure Registers where
  baseAddr : Region → Word
  srEnable : Region → Word
  iv : Region → BitVec 64

def setRegionBaseAddress (series : Series) (region : Region) (regionBaseAddr : Word) (base : Registers) :
    Registers × Status :=
  if regionBaseAddr > series.maxBaseAddress then (base, .invalidArgument)
  else ({ base with baseAddr := Function.update base.baseAddr region regionBaseAddr }, .success)

def setRegionSREnable (region : Region) (srEnable : Word) (base : Registers) : Registers × Status :=
  ({ base with srEnable := Function.update base.srEnable region srEnable }, .success)

def setRegionIV (region : Region) (iv : BitVec 64) (base : Registers) : Registers :=
  { base with iv := Function.update base.iv region iv }

/-- The registers that the driver can program. -/
inductive Programmed (series : Series) : Registers → Prop
  | reset (base : Registers) (hbase : ∀ region, base.baseAddr region = 0) : Programmed series base
  | setBase (base : Registers) (region : Region) (regionBaseAddr : Word) (h : Programmed series base) :
      Programmed series (setRegionBaseAddress series region regionBaseAddr base).1
  | setEnable (base : Registers) (region : Region) (srEnable : Word) (h : Programmed series base) :
      Programmed series (setRegionSREnable region srEnable base).1
  | setIV (base : Registers) (region : Region) (iv : BitVec 64) (h : Programmed series base) :
      Programmed series (setRegionIV region iv base)

/-- `FLASH_FFR_IV_CODE_SIZE` bytes. -/
abbrev IvCode := Fin 52 → Byte

/-- What the driver uses of `cfpa_cfg_info_t`. -/
structure CfpaPage where
  version : Word
  ivCodePrinceRegion : Region → IvCode

/-- The PUF and the flash driver; the number of the call comes first. -/
structure Services where
  isGetKeyAllowed : Nat → Bool
  setIntrinsicKey : Nat → Nat → Option IvCode
  getKey : Nat → IvCode → Option (BitVec 64)
  getCustomerInfieldData : Nat → Option CfpaPage
  infieldPageWrite : Nat → CfpaPage → Bool

inductive Event
  | generated (region : Region) (code : IvCode)
  | loaded (region : Region) (code : IvCode) (iv : BitVec 64)

structure Device where
  prince : Registers
  /-- The calls of the services so far. -/
  calls : Nat
  events : List Event

def Device.called (n : Nat) (d : Device) : Device :=
  { d with calls := d.calls + n }

def Device.record (e : Event) (d : Device) : Device :=
  { d with events := d.events ++ [e] }

variable (services : Services)

/-- `kPUF_KeyIndex_02 + region`. -/
def keyIndex (region : Region) : Nat :=
  2 + region.index

/-- The new IV code in the page, with the next version. -/
def nextPage (region : Region) (code : IvCode) (page : CfpaPage) : CfpaPage :=
  { version := page.version + 1
    ivCodePrinceRegion := Function.update page.ivCodePrinceRegion region code }

/-- The IV code goes to the "Customer Field Programmable" page. A page that cannot be read is not an
error. -/
def storeIV (region : Region) (code : IvCode) (d : Device) : Device × Bool :=
  match services.getCustomerInfieldData d.calls with
  | none => (d.called 1, true)
  | some page =>
    if page.version = 0xFFFFFFFF then (d.called 1, false)
    else (d.called 2, services.infieldPageWrite (d.calls + 1) (nextPage region code page))

/-- `PRINCE_GenNewIV`; the code on success. -/
def genNewIV (region : Region) (store : Bool) (d : Device) : Device × Option IvCode :=
  if services.isGetKeyAllowed d.calls = false then (d.called 1, none)
  else
    match services.setIntrinsicKey (d.calls + 1) (keyIndex region) with
    | none => (d.called 2, none)
    | some code =>
      let d := (d.called 2).record (.generated region code)
      if store then
        let (d, stored) := storeIV services region code d
        (d, if stored then some code else none)
      else (d, some code)

/-- `PRINCE_LoadIV`. -/
def loadIV (region : Region) (code : IvCode) (d : Device) : Device × Status :=
  if services.isGetKeyAllowed d.calls = false then (d.called 1, .fail)
  else if keyIndex region = (code 1 &&& 0x0F).toNat then
    match services.getKey (d.calls + 1) code with
    | none => (d.called 2, .fail)
    | some iv => ({ (d.called 2).record (.loaded region code iv) with prince := setRegionIV region iv d.prince }, .success)
  else (d.called 1, .fail)

/-- The new IV of an erase; false when it has not been regenerated. -/
def renewIV (region : Region) (d : Device) : Device × Bool :=
  match genNewIV services region true d with
  | (d, none) => (d, false)
  | (d, some code) =>
    let (d, status) := loadIV services region code d
    (d, status = .success)

/-- `FSL_PRINCE_DRIVER_SUBREGION_SIZE_IN_KB * 1024U`. -/
def subregionSize : Word := 8 * 1024

/-- The variables of the search for the set bits. -/
structure Scan where
  firstSetBitFound : Bool
  contiguousEndFound : Bool
  contiguousStartIndex : Nat
  contiguousEndIndex : Nat
  isPrinceRegionContiguous : Bool
  deriving DecidableEq, Repr

/-- One round of the search; the right side is the `break`. -/
def scanBit (tempSr : Word) (i : Nat) (s : Scan) : Scan ⊕ Scan :=
  if tempSr.getLsbD i then
    let s := if s.firstSetBitFound then s else { s with firstSetBitFound := true, contiguousStartIndex := i }
    if s.contiguousEndFound then .inr { s with isPrinceRegionContiguous := false } else .inl s
  else if s.firstSetBitFound && !s.contiguousEndFound then
    .inl { s with contiguousEndFound := true, contiguousEndIndex := i }
  else .inl s

/-- `rounds` rounds from bit `i` on. -/
def scanBits (tempSr : Word) : Nat → Nat → Scan → Scan
  | 0, _, s => s
  | rounds + 1, i, s =>
    match scanBit tempSr i s with
    | .inl s => scanBits tempSr rounds (i + 1) s
    | .inr s => s

def Scan.start (isPrinceRegionContiguous : Bool) : Scan where
  firstSetBitFound := false
  contiguousEndFound := false
  contiguousStartIndex := 0
  contiguousEndIndex := 32
  isPrinceRegionContiguous := isPrinceRegionContiguous

/-- The loop over the regions of `PRINCE_CheckerAlgorithm`; `isPrinceRegionContiguous` is not set again for
the next region. -/
def checkRegions (flag : Flag) (address length : Word) : List Region → Bool → Device → Device × Bool
  | [], _, d => (d, true)
  | region :: regions, isPrinceRegionContiguous, d =>
    let tempBase := d.prince.baseAddr region
    let tempSr := d.prince.srEnable region
    if address ≥ tempBase ∧ address + length < tempBase + subregionSize * 32 ∧ tempSr ≠ 0 then
      let scan := scanBits tempSr 32 0 (Scan.start isPrinceRegionContiguous)
      let areaStart := tempBase + BitVec.ofNat 32 scan.contiguousStartIndex * subregionSize
      let areaEnd := tempBase + BitVec.ofNat 32 scan.contiguousEndIndex * subregionSize
      if scan.isPrinceRegionContiguous = true ∧ address ≤ areaStart ∧ address + length ≥ areaEnd then
        match flag with
        | .eraseCheck => renewIV services region d
        | .writeCheck => (d, true)
      else if scan.isPrinceRegionContiguous = true ∧ (address + length ≤ areaStart ∨ address ≥ areaEnd) then
        checkRegions flag address length regions scan.isPrinceRegionContiguous d
      else (d, false)
    else checkRegions flag address length regions isPrinceRegionContiguous d

/-- What the checker reads of `flash_config_t`. -/
structure FlashConfig where
  ffrBlockBase : Word

/-- `PRINCE_CheckerAlgorithm`. -/
def checkerAlgorithm (address length : Word) (flag : Flag) (flashContext : FlashConfig) (d : Device) : Device × Bool :=
  if address ≥ flashContext.ffrBlockBase then (d, true)
  else checkRegions services flag address length [.region0, .region1, .region2] true d

/-- The flash operation that a function goes on to. -/
inductive FlashCall
  | erase (start lengthInBytes key : Word)
  | program (start : Word) (src : Nat) (lengthInBytes : Word)
  deriving DecidableEq, Repr

/-- `PRINCE_FlashEraseWithChecker`. -/
def flashEraseWithChecker (config : Option FlashConfig) (start lengthInBytes key : Word) (d : Device) :
    Device × (Status ⊕ FlashCall) :=
  match config with
  | none => (d, .inl .fail)
  | some config =>
    let (d, allowed) := checkerAlgorithm services start lengthInBytes .eraseCheck config d
    (d, if allowed then .inr (.erase start lengthInBytes key) else .inl .encryptedRegionsEraseNotDoneAtOnce)

/-- `PRINCE_FlashProgramWithChecker`. -/
def flashProgramWithChecker (config : Option FlashConfig) (start : Word) (src : Nat) (lengthInBytes : Word) (d : Device) :
    Device × (Status ⊕ FlashCall) :=
  match config with
  | none => (d, .inl .fail)
  | some config =>
    let (d, allowed) := checkerAlgorithm services start lengthInBytes .writeCheck config d
    (d, if allowed then .inr (.program start src lengthInBytes) else .inl .sizeError)

end McuxDrivers.Prince
