import McuxDrivers.Lib.Countdown
import McuxDrivers.Lib.Loop

/-!
# MCAN bit timing

The bit-timing searches of `fsl_mcan.c` for a build with CAN FD. The rates, the clock and the quanta
are `uint32_t`; the dividers of a configuration are `uint16_t` and its segments `uint8_t`, so that
what is stored in them is cast.
-/

namespace McuxDrivers.Mcan
open McuxDrivers.Lib

def u8 (n : Nat) : Nat := n % 2 ^ 8
def u16 (n : Nat) : Nat := n % 2 ^ 16

/-- `mcan_timing_config_t`. -/
structure TimingConfig where
  preDivider : Nat
  rJumpwidth : Nat
  seg1 : Nat
  seg2 : Nat
  datapreDivider : Nat
  datarJumpwidth : Nat
  dataseg1 : Nat
  dataseg2 : Nat
  deriving DecidableEq, Repr

def zeroTiming : TimingConfig :=
  ⟨0, 0, 0, 0, 0, 0, 0, 0⟩

/-- `mcan_timing_param_t`. -/
structure TimingParam where
  busLength : Nat
  propTxRx : Nat
  nominalbaudRate : Nat
  nominalSP : Nat
  databaudRate : Nat
  dataSP : Nat
  deriving DecidableEq, Repr

/-! The largest value of each field of `NBTP` and `DBTP`. -/

def maxDsjw : Nat := 15
def maxDtseg2 : Nat := 15
def maxDtseg1 : Nat := 31
def maxDbrp : Nat := 31

def maxNsjw : Nat := 127
def maxNtseg2 : Nat := 127
def maxNtseg1 : Nat := 255
def maxNbrp : Nat := 511

def dbtpMaxTimeQuanta : Nat := 1 + maxDtseg2 + 1 + maxDtseg1 + 1
def dbtpMinTimeQuanta : Nat := 3
def nbtpMaxTimeQuanta : Nat := 1 + maxNtseg2 + 1 + maxNtseg1 + 1
def nbtpMinTimeQuanta : Nat := 3

/-- The three fields a segment calculation writes. -/
structure Segments where
  seg1 : Nat
  seg2 : Nat
  rJumpwidth : Nat
  deriving DecidableEq, Repr

/-- What lies behind the sample point, from the first `seg2` of a segment calculation on. -/
def limitSegments (maxSeg1 maxSeg2 maxSjw tqNum seg2 : Nat) : Segments :=
  let seg2 := if seg2 > maxSeg2 then maxSeg2 else seg2
  let seg1Temp := wsub32 (wsub32 tqNum seg2) 3
  let (seg1, seg2) :=
    if seg1Temp > maxSeg1 then (maxSeg1, u8 (wsub32 (wsub32 tqNum maxSeg1) 3)) else (u8 seg1Temp, seg2)
  let rJumpwidth := if seg1 > seg2 then seg2 else seg1
  { seg1 := seg1, seg2 := seg2, rJumpwidth := if rJumpwidth > maxSjw then maxSjw else rJumpwidth }

/-- `MCAN_CalculateSegments`; also the segments inside `MCAN_CalculateImprovedNominalTimingValues`. -/
def calculateSegments (tqNum seg2 : Nat) : Segments :=
  limitSegments maxNtseg1 maxNtseg2 maxNsjw tqNum seg2

/-- `MCAN_FDCalculateSegments`. -/
def fdCalculateSegments (tqNum dataseg2 : Nat) : Segments :=
  limitSegments maxDtseg1 maxDtseg2 maxDsjw tqNum dataseg2

/-- `seg2` for an ideal sample point, in thousandths. -/
def behindSamplePoint (idealSp tqNum : Nat) : Nat :=
  u8 (wsub32 (wsub32 tqNum (tqNum * idealSp % 2 ^ 32 / 1000)) 1)

/-- `seg2` for a specified sample point, which is rounded and kept inside the bit. -/
def behindSpecifiedPoint (idealSp tqNum : Nat) : Nat :=
  let tqTemp := tqNum * idealSp % 2 ^ 32 / 1000
  let tqTemp := if tqNum * idealSp % 2 ^ 32 % 1000 < 500 then tqTemp else tqTemp + 1
  let tqTemp := if tqTemp ≤ 2 then 2 else tqTemp
  let tqTemp := if tqTemp > wsub32 tqNum 1 then wsub32 tqNum 1 else tqTemp
  u8 (wsub32 (wsub32 tqNum tqTemp) 1)

/-- `MCAN_GetSegments`. -/
def getSegments (baudRate tqNum : Nat) : Segments :=
  let idealSp := if baudRate ≥ 1000000 then 750 else if baudRate ≥ 800000 then 800 else 875
  calculateSegments tqNum (behindSamplePoint idealSp tqNum)

/-- The segments of `MCAN_CalculateImprovedNominalTimingValues`. -/
def nominalSegments (tqNum : Nat) : Segments :=
  calculateSegments tqNum (behindSamplePoint 800 tqNum)

/-- `MCAN_GetSpecifiedSegments`. -/
def getSpecifiedSegments (idealSp tqNum : Nat) : Segments :=
  calculateSegments tqNum (behindSpecifiedPoint idealSp tqNum)

/-- `MCAN_FDGetSegments`. -/
def fdGetSegments (baudRateFD tqNum : Nat) : Segments :=
  let idealSp := if baudRateFD ≤ 1000000 then 800 else if baudRateFD ≤ 2000000 then 750
    else if baudRateFD ≤ 4000000 then 700 else 625
  fdCalculateSegments tqNum (behindSamplePoint idealSp tqNum)

/-- `MCAN_FDGetSpecifiedSegments`. -/
def fdGetSpecifiedSegments (idealSp tqNum : Nat) : Segments :=
  fdCalculateSegments tqNum (behindSpecifiedPoint idealSp tqNum)

/-- The configuration with its four nominal fields replaced. -/
def store (config : TimingConfig) (preDivider : Nat) (seg : Segments) : TimingConfig :=
  { config with
    preDivider := preDivider, rJumpwidth := seg.rJumpwidth, seg1 := seg.seg1, seg2 := seg.seg2 }

/-- The configuration with its data segments replaced. -/
def storeData (config : TimingConfig) (seg : Segments) : TimingConfig :=
  { config with datarJumpwidth := seg.rJumpwidth, dataseg1 := seg.seg1, dataseg2 := seg.seg2 }

/-- The divider that every search takes for `tqNum` quanta; `none` where it goes on with the next
quanta count because the clock is too slow or not divisible. -/
def divider (rate sourceClock tqNum : Nat) : Option Nat :=
  let clk := rate * tqNum % 2 ^ 32
  if clk > sourceClock then none
  else if sourceClock / clk * clk % 2 ^ 32 ≠ sourceClock then none
  else some (u16 (wsub32 (sourceClock / clk) 1))

/-- The variables of a nominal search: the result flag, the sample point so far (`spTemp` or
`spOld`) and the output. -/
structure Search where
  fgRet : Bool
  sp : Nat
  config : TimingConfig
  deriving Repr

/-- One round of the search that `MCAN_CalculateImprovedTimingValues` and
`MCAN_CalculateImprovedNominalTimingValues` share. -/
def improvedRound (segments : Nat → Segments) (baudRate sourceClock tqNum : Nat) (s : Search) :
    Search × Bool :=
  match divider baudRate sourceClock tqNum with
  | none => (s, false)
  | some preDivider =>
    if preDivider > maxNbrp then (s, true)
    else
      let seg := segments tqNum
      let share := (seg.seg2 + 1) * 1000 % 2 ^ 32 / tqNum
      if share < s.sp then
        ({ fgRet := true, sp := share, config := store s.config preDivider seg }, false)
      else ({ s with fgRet := true }, false)

def improvedSearch (segments : Nat → Segments) (baudRate sourceClock : Nat) (config : TimingConfig) :
    Bool × TimingConfig :=
  let s := countdown nbtpMinTimeQuanta (improvedRound segments baudRate sourceClock) nbtpMaxTimeQuanta
    { fgRet := false, sp := 1000, config := config }
  (s.fgRet, s.config)

/-- `MCAN_CalculateImprovedTimingValues`, with the contents of `*pconfig`. -/
def calculateImprovedTimingValues (baudRate sourceClock : Nat) (config : TimingConfig) :
    Bool × TimingConfig :=
  improvedSearch (getSegments baudRate) baudRate sourceClock config

/-- `MCAN_CalculateImprovedNominalTimingValues`. -/
def calculateImprovedNominalTimingValues (baudRate sourceClock : Nat) (config : TimingConfig) :
    Bool × TimingConfig :=
  improvedSearch nominalSegments baudRate sourceClock config

/-- `abs((int)a - (int)b)`. -/
def distance (a b : Nat) : Nat :=
  ((a : Int) - (b : Int)).natAbs

/-- One round of the search of `MCAN_CalculateSpecifiedTimingValues`. -/
def specifiedRound (param : TimingParam) (sourceClock tqNum : Nat) (s : Search) : Search × Bool :=
  match divider param.nominalbaudRate sourceClock tqNum with
  | none => (s, false)
  | some preDivider =>
    if preDivider > maxNbrp then (s, true)
    else
      let seg := getSpecifiedSegments param.nominalSP tqNum
      let spNew := (2 + seg.seg1) * 1000 % 2 ^ 32 / tqNum
      if spNew = param.nominalSP then
        ({ s with fgRet := true, config := store s.config preDivider seg }, true)
      else if distance spNew param.nominalSP < distance s.sp param.nominalSP then
        ({ fgRet := true, sp := spNew, config := store s.config preDivider seg }, false)
      else (s, false)

/-- The propagation delay in time quanta, in 64 bits. -/
def tqPropDelay (param : TimingParam) (sourceClock preDivider : Nat) : Nat :=
  2 * (param.busLength * 5 + param.propTxRx) % 2 ^ 64 * sourceClock % 2 ^ 64 /
    (1000000000 * (preDivider + 1) % 2 ^ 64)

/-- `MCAN_CalculateSpecifiedTimingValues`. -/
def calculateSpecifiedTimingValues (param : TimingParam) (sourceClock : Nat) (config : TimingConfig) :
    Bool × TimingConfig :=
  let spOld := if param.nominalSP < 980 then param.nominalSP + 20 else wsub32 param.nominalSP 20
  let s := countdown nbtpMinTimeQuanta (specifiedRound param sourceClock) nbtpMaxTimeQuanta
    { fgRet := false, sp := spOld, config := config }
  (s.fgRet && !(tqPropDelay param sourceClock s.config.preDivider > s.config.seg1), s.config)

/-- `(pconfig->preDivider + 1U) * preDividerTemp - 1U`. -/
def commonDivider (preDivider preDividerTemp : Nat) : Nat :=
  wsub32 ((preDivider + 1) * preDividerTemp % 2 ^ 32) 1

/-- One round of the data-phase loop of the two CAN FD functions, on `fgRet` and `*pconfig`. -/
def dataRound (segments : Nat → Segments) (baudRateFD sourceClock preDividerTemp tqNum : Nat)
    (s : Bool × TimingConfig) : (Bool × TimingConfig) × Bool :=
  match divider baudRateFD sourceClock tqNum with
  | none => (s, false)
  | some datapreDivider =>
    let config := { s.2 with datapreDivider := datapreDivider }
    if datapreDivider > maxDbrp then ((s.1, config), true)
    else if datapreDivider < commonDivider config.preDivider preDividerTemp then ((s.1, config), false)
    else if datapreDivider = commonDivider config.preDivider preDividerTemp then
      ((true, storeData config (segments tqNum)), true)
    else ((s.1, config), true)

/-- The data-phase loop; its result is `fgRet` and `*pconfig`. -/
def dataLoop (segments : Nat → Segments) (baudRateFD sourceClock preDividerTemp : Nat)
    (config : TimingConfig) : Bool × TimingConfig :=
  countdown dbtpMinTimeQuanta (dataRound segments baudRateFD sourceClock preDividerTemp) dbtpMaxTimeQuanta
    (false, { config with datapreDivider := 0 })

/-- One round of the `while` loop of the two CAN FD functions, on `preDividerTemp` and `*pconfig`.
A division by a `preDividerTemp` that has wrapped to zero gives zero, as the cores' instruction does. -/
def fdRound (nominal : Nat → TimingConfig → Bool × TimingConfig) (segments : Nat → Segments)
    (baudRateFD sourceClock : Nat) (s : Nat × TimingConfig) :
    (Nat × TimingConfig) ⊕ (Bool × TimingConfig) :=
  let (preDividerTemp, config) := s
  let (found, config) := nominal (sourceClock / preDividerTemp) config
  if found then
    let (fgRet, config) := dataLoop segments baudRateFD sourceClock preDividerTemp config
    if fgRet then
      .inr (true, { config with preDivider := u16 (commonDivider config.preDivider preDividerTemp) })
    else if config.datapreDivider ≤ maxDbrp ∧ config.datapreDivider ≠ 0 then
      .inl (u16 (preDividerTemp + 1), config)
    else .inr (false, config)
  else .inr (false, config)

/-- The branch for equal bit rates: the data phase needs no timing of its own. -/
def withoutDataPhase (result : Bool × TimingConfig) : Bool × TimingConfig :=
  let (found, config) := result
  if found then
    (true, { config with datapreDivider := 0, datarJumpwidth := 0, dataseg1 := 0, dataseg2 := 0 })
  else (false, config)

/-- `MCAN_FDCalculateImprovedTimingValues`, with at most `fuel` rounds of its `while` loop. -/
def fdCalculateImprovedTimingValues (fuel baudRate baudRateFD sourceClock : Nat) (config : TimingConfig) :
    Option (Bool × TimingConfig) :=
  if baudRate < baudRateFD then
    loop (fdRound (calculateImprovedNominalTimingValues baudRate) (fdGetSegments baudRateFD) baudRateFD
      sourceClock) fuel (1, config)
  else some (withoutDataPhase (calculateImprovedTimingValues baudRate sourceClock config))

/-- `MCAN_FDCalculateSpecifiedTimingValues`, with at most `fuel` rounds of its `while` loop. -/
def fdCalculateSpecifiedTimingValues (fuel sourceClock : Nat) (config : TimingConfig)
    (param : TimingParam) : Option (Bool × TimingConfig) :=
  if param.nominalbaudRate < param.databaudRate then
    loop (fdRound (calculateSpecifiedTimingValues param) (fdGetSpecifiedSegments param.dataSP)
      param.databaudRate sourceClock) fuel (1, config)
  else some (withoutDataPhase (calculateSpecifiedTimingValues param sourceClock config))

end McuxDrivers.Mcan
