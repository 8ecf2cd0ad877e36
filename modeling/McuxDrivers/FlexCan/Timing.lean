import McuxDrivers.Lib.Countdown

/-!
# FlexCAN bit timing

The bit-timing search of `fsl_flexcan.c`. A layout is the register a build or an instance keeps
the timing in; the widths of its fields are those of the registers. All variables are `uint32_t`:
products and sums are taken modulo `2 ^ 32` and differences by `wsub32`.
-/

namespace McuxDrivers.FlexCan
open McuxDrivers.Lib

/-- The register of the classical bit timing: `CTRL1` without flexible data rate, `CBT` with it, and
`ENCBT` with the enhanced bit timing registers. -/
inductive Layout
  | ctrl1
  | cbt
  | encbt
  deriving DecidableEq, Repr

/-- `flexcan_timing_config_t`. -/
structure TimingConfig where
  preDivider : Nat
  rJumpwidth : Nat
  phaseSeg1 : Nat
  phaseSeg2 : Nat
  propSeg : Nat
  fpreDivider : Nat
  frJumpwidth : Nat
  fphaseSeg1 : Nat
  fphaseSeg2 : Nat
  fpropSeg : Nat
  deriving DecidableEq, Repr

/-- The configuration `{0}`. -/
def zeroConfig : TimingConfig :=
  ⟨0, 0, 0, 0, 0, 0, 0, 0, 0, 0⟩

/-- The four fields a segment calculation writes. -/
structure Segments where
  rJumpwidth : Nat
  phaseSeg1 : Nat
  phaseSeg2 : Nat
  propSeg : Nat
  deriving DecidableEq, Repr

/-! The largest value of each register field. -/

def maxPropSeg : Nat := 7
def maxPSeg1 : Nat := 7
def maxPSeg2 : Nat := 7
def maxRjw : Nat := 3
def maxPresDiv : Nat := 255
def ctrl1MaxTimeQuanta : Nat := 1 + maxPropSeg + 1 + maxPSeg1 + 1 + maxPSeg2 + 1
def ctrl1MinTimeQuanta : Nat := 8

def maxEPropSeg : Nat := 63
def maxEPSeg1 : Nat := 31
def maxEPSeg2 : Nat := 31
def maxERjw : Nat := 31
def maxEPresDiv : Nat := 1023
def cbtMaxTimeQuanta : Nat := 1 + maxEPropSeg + 1 + maxEPSeg1 + 1 + maxEPSeg2 + 1
def cbtMinTimeQuanta : Nat := 8

def maxFPropSeg : Nat := 31
def maxFPSeg1 : Nat := 7
def maxFPSeg2 : Nat := 7
def maxFRjw : Nat := 7
def maxFPresDiv : Nat := 1023
def fdcbtMaxTimeQuanta : Nat := 1 + maxFPropSeg + 0 + maxFPSeg1 + 1 + maxFPSeg2 + 1
def fdcbtMinTimeQuanta : Nat := 5

def maxNTSeg1 : Nat := 255
def maxNTSeg2 : Nat := 127
def maxNRjw : Nat := 127
def maxENPresDiv : Nat := 1023
def encbtMaxTimeQuanta : Nat := 1 + maxNTSeg1 + 1 + maxNTSeg2 + 1
def encbtMinTimeQuanta : Nat := 8

def maxDTSeg1 : Nat := 31
def maxDTSeg2 : Nat := 15
def maxDRjw : Nat := 15
def maxEDPresDiv : Nat := 1023
def edcbtMaxTimeQuanta : Nat := 1 + maxDTSeg1 + 1 + maxDTSeg2 + 1
def edcbtMinTimeQuanta : Nat := 5

def minTimeSegment2 : Nat := 2

/-! What the functions set up for each layout. -/

def tqMax : Layout → Nat
  | .ctrl1 => ctrl1MaxTimeQuanta
  | .cbt => cbtMaxTimeQuanta
  | .encbt => encbtMaxTimeQuanta

def tqMin : Layout → Nat
  | .ctrl1 => ctrl1MinTimeQuanta
  | .cbt => cbtMinTimeQuanta
  | .encbt => encbtMinTimeQuanta

def pdivMax : Layout → Nat
  | .ctrl1 => maxPresDiv
  | .cbt => maxPresDiv
  | .encbt => maxENPresDiv

def seg1Max : Layout → Nat
  | .ctrl1 => maxPSeg1 + 1
  | .cbt => maxEPSeg1 + 1
  | .encbt => maxNTSeg2 + 1

def proSegMax : Layout → Nat
  | .ctrl1 => maxPropSeg + 1
  | .cbt => maxEPropSeg + 1
  | .encbt => maxNTSeg1 - maxNTSeg2

/-- `phaseSeg2` before any limit is applied: what lies behind the ideal sample point. -/
def behindSamplePoint (tqNum idealSp : Nat) : Nat :=
  wsub32 tqNum (tqNum * idealSp % 2 ^ 32 / 1000)

/-- The first two branches of a segment calculation: the sum of the propagation segment and phase
segment 1, and phase segment 2. -/
def limitSegment1 (tqNum seg1Max proSegMax phaseSeg2 : Nat) : Nat × Nat :=
  if wsub32 (wsub32 tqNum phaseSeg2) 1 > seg1Max + proSegMax then
    (seg1Max + proSegMax, wsub32 (wsub32 tqNum 1) (seg1Max + proSegMax))
  else (wsub32 (wsub32 tqNum phaseSeg2) 1, phaseSeg2)

/-- The jump width and the encodings minus one; `rjwMax` is the clamp of layouts that have it. -/
def encodeSegments (propSeg phaseSeg1 phaseSeg2 : Nat) (rjwMax : Option Nat) : Segments :=
  let rJumpwidth := if phaseSeg1 > phaseSeg2 then phaseSeg2 else phaseSeg1
  let rJumpwidth := match rjwMax with
    | none => rJumpwidth
    | some n => if rJumpwidth > n + 1 then n + 1 else rJumpwidth
  { rJumpwidth := wsub32 rJumpwidth 1, phaseSeg1 := wsub32 phaseSeg1 1, phaseSeg2 := wsub32 phaseSeg2 1,
    propSeg := wsub32 propSeg 1 }

/-- Makes phase segment 1 as long as phase segment 2 where the propagation segment allows it. -/
def balanceSegments (tqNum seg1Max proSegMax phaseSeg2 : Nat) (rjwMax : Option Nat) : Segments :=
  let (seg1Temp, phaseSeg2) := limitSegment1 tqNum seg1Max proSegMax phaseSeg2
  if seg1Temp > phaseSeg2 + proSegMax then
    encodeSegments proSegMax (wsub32 seg1Temp proSegMax) phaseSeg2 rjwMax
  else encodeSegments (wsub32 seg1Temp phaseSeg2) phaseSeg2 phaseSeg2 rjwMax

/-- `FLEXCAN_GetSegments`. -/
def getSegments (l : Layout) (bitRate tqNum : Nat) : Segments :=
  let idealSp := if bitRate = 1000000 then 750 else if bitRate ≥ 800000 then 800 else 875
  let phaseSeg2 := behindSamplePoint tqNum idealSp
  let phaseSeg2 := if phaseSeg2 < minTimeSegment2 then minTimeSegment2 else phaseSeg2
  let phaseSeg2 := if l = .cbt ∧ phaseSeg2 > maxEPSeg2 + 1 then maxEPSeg2 + 1 else phaseSeg2
  balanceSegments tqNum (seg1Max l) (proSegMax l) phaseSeg2 (if l = .ctrl1 then some maxRjw else none)

/-- The segment calculation inside `FLEXCAN_CalculateImprovedNominalTimingValues`. -/
def nominalSegments (l : Layout) (tqNum : Nat) : Segments :=
  balanceSegments tqNum (seg1Max l) (proSegMax l) (behindSamplePoint tqNum 800) none

/-- The configuration with its five nominal fields replaced. -/
def store (config : TimingConfig) (preDivider : Nat) (seg : Segments) : TimingConfig :=
  { config with
    preDivider := preDivider, rJumpwidth := seg.rJumpwidth, phaseSeg1 := seg.phaseSeg1,
    phaseSeg2 := seg.phaseSeg2, propSeg := seg.propSeg }

/-- The share of the bit behind the sample point, in thousandths. -/
def behindShare (seg : Segments) (tqNum : Nat) : Nat :=
  (seg.phaseSeg2 + 1) % 2 ^ 32 * 1000 % 2 ^ 32 / tqNum

/-- The variables of a search: the result flag, the best sample point so far and the output. -/
structure Search where
  fgRet : Bool
  spTemp : Nat
  config : TimingConfig
  deriving Repr

/-- One round of the search that `FLEXCAN_CalculateImprovedTimingValues` and
`FLEXCAN_CalculateImprovedNominalTimingValues` share. -/
def searchRound (segments : Nat → Segments) (pdivMAX bitRate sourceClock tqNum : Nat) (s : Search) :
    Search × Bool :=
  let clk := bitRate * tqNum % 2 ^ 32
  if clk > sourceClock then (s, false)
  else if sourceClock / clk * clk % 2 ^ 32 ≠ sourceClock then (s, false)
  else
    let preDivider := wsub32 (sourceClock / clk) 1
    if preDivider > pdivMAX then (s, true)
    else
      let seg := segments tqNum
      if behindShare seg tqNum < s.spTemp then
        ({ fgRet := true, spTemp := behindShare seg tqNum, config := store s.config preDivider seg }, false)
      else ({ s with fgRet := true }, false)

def search (segments : Nat → Segments) (l : Layout) (bitRate sourceClock : Nat) (config : TimingConfig) :
    Bool × TimingConfig :=
  let s := countdown (tqMin l) (searchRound segments (pdivMax l) bitRate sourceClock) (tqMax l)
    { fgRet := false, spTemp := 1000, config := config }
  (s.fgRet, s.config)

/-- `FLEXCAN_CalculateImprovedTimingValues`, with the contents of `*pTimingConfig`. -/
def calculateImprovedTimingValues (l : Layout) (bitRate sourceClock : Nat) (config : TimingConfig) :
    Bool × TimingConfig :=
  search (getSegments l bitRate) l bitRate sourceClock config

/-- `FLEXCAN_CalculateImprovedNominalTimingValues`. -/
def calculateImprovedNominalTimingValues (l : Layout) (bitRate sourceClock : Nat)
    (config : TimingConfig) : Bool × TimingConfig :=
  search (nominalSegments l) l bitRate sourceClock config

/-- The register of the CAN FD data phase: `FDCBT`, or `EDCBT` with the enhanced registers. -/
inductive FdLayout
  | fdcbt
  | edcbt
  deriving DecidableEq, Repr

/-- The register of the nominal phase in the same build. -/
def FdLayout.nominal : FdLayout → Layout
  | .fdcbt => .cbt
  | .edcbt => .encbt

def fdTqMax : FdLayout → Nat
  | .fdcbt => fdcbtMaxTimeQuanta
  | .edcbt => edcbtMaxTimeQuanta

def fdTqMin : FdLayout → Nat
  | .fdcbt => fdcbtMinTimeQuanta
  | .edcbt => edcbtMinTimeQuanta

def fdPdivMax : FdLayout → Nat
  | .fdcbt => maxFPresDiv
  | .edcbt => maxEDPresDiv

def fdSeg1Max : FdLayout → Nat
  | .fdcbt => maxFPSeg1 + 1
  | .edcbt => maxDTSeg2 + 1

def fdProSegMax : FdLayout → Nat
  | .fdcbt => maxFPropSeg
  | .edcbt => maxDTSeg1 - maxDTSeg2

def fdSeg2Max : FdLayout → Nat
  | .fdcbt => maxFPSeg2 + 1
  | .edcbt => maxDTSeg2 + 1

/-- `FLEXCAN_FDGetSegments`. The propagation segment of the data phase is encoded as it is. -/
def fdGetSegments (l : FdLayout) (bitRateFD tqNum : Nat) : Segments :=
  let idealSp := if bitRateFD ≤ 1000000 then 800 else if bitRateFD ≤ 2000000 then 750
    else if bitRateFD ≤ 4000000 then 700 else 625
  let phaseSeg2 := behindSamplePoint tqNum idealSp
  let phaseSeg2 := if phaseSeg2 < minTimeSegment2 then minTimeSegment2
    else if phaseSeg2 > fdSeg2Max l then fdSeg2Max l else phaseSeg2
  let (seg1Temp, phaseSeg2) := limitSegment1 tqNum (fdSeg1Max l) (fdProSegMax l) phaseSeg2
  let (propSeg, phaseSeg1) :=
    if seg1Temp > phaseSeg2 + fdProSegMax l then (fdProSegMax l, wsub32 seg1Temp (fdProSegMax l))
    else if seg1Temp > phaseSeg2 then (wsub32 seg1Temp phaseSeg2, phaseSeg2)
    else (0, seg1Temp)
  let rJumpwidth := if phaseSeg1 > phaseSeg2 then phaseSeg2 else phaseSeg1
  { rJumpwidth := wsub32 rJumpwidth 1, phaseSeg1 := wsub32 phaseSeg1 1, phaseSeg2 := wsub32 phaseSeg2 1,
    propSeg := propSeg }

/-- The configuration with its five data-phase fields replaced. -/
def storeData (config : TimingConfig) (fpreDivider : Nat) (seg : Segments) : TimingConfig :=
  { config with
    fpreDivider := fpreDivider, frJumpwidth := seg.rJumpwidth, fphaseSeg1 := seg.phaseSeg1,
    fphaseSeg2 := seg.phaseSeg2, fpropSeg := seg.propSeg }

/-- One round of the loop of `FLEXCAN_FDCalculateImprovedTimingValues`, on the result flag and the
contents of `*pTimingConfig`. -/
def fdRound (l : FdLayout) (bitRate bitRateFD sourceClock tqTemp : Nat) (s : Bool × TimingConfig) :
    (Bool × TimingConfig) × Bool :=
  let clk := bitRateFD * tqTemp % 2 ^ 32
  if clk > sourceClock then (s, false)
  else if sourceClock / clk * clk % 2 ^ 32 ≠ sourceClock then (s, false)
  else
    let config := { s.2 with fpreDivider := wsub32 (sourceClock / clk) 1 }
    if config.fpreDivider > fdPdivMax l then ((s.1, config), true)
    else
      let config := storeData config config.fpreDivider (fdGetSegments l bitRateFD tqTemp)
      let (found, config) := calculateImprovedNominalTimingValues l.nominal bitRate
        (sourceClock / ((config.fpreDivider + 1) % 2 ^ 32)) config
      if found then
        if config.preDivider = 0 then ((true, { config with preDivider := config.fpreDivider }), true)
        else
          let product := (config.preDivider + 1) % 2 ^ 32 * ((config.fpreDivider + 1) % 2 ^ 32) % 2 ^ 32
          ((true, { config with preDivider := wsub32 product 1 }), false)
      else ((s.1, config), false)

/-- `FLEXCAN_FDCalculateImprovedTimingValues`. -/
def fdCalculateImprovedTimingValues (l : FdLayout) (bitRate bitRateFD sourceClock : Nat)
    (config : TimingConfig) : Bool × TimingConfig :=
  if bitRate ≠ bitRateFD then
    countdown (fdTqMin l) (fdRound l bitRate bitRateFD sourceClock) (fdTqMax l) (false, config)
  else
    let (found, config) := calculateImprovedNominalTimingValues l.nominal bitRate sourceClock config
    if found then
      (true, { config with
        fpreDivider := 0, frJumpwidth := 0, fphaseSeg1 := 0, fphaseSeg2 := 0, fpropSeg := 0 })
    else (false, config)

/-- What `FLEXCAN_SetTimingConfig` writes to the fields of the timing register. -/
inductive TimingRegs
  | ctrl1 (presdiv rjw pseg1 pseg2 propseg : Nat)
  | cbt (epresdiv erjw epseg1 epseg2 epropseg : Nat)
  | encbt (enpresdiv nrjw ntseg1 ntseg2 : Nat)
  deriving DecidableEq, Repr

/-- A register field keeps the low bits of a value. -/
def masked (max value : Nat) : Nat :=
  value % (max + 1)

/-- `FLEXCAN_SetTimingConfig`. -/
def setTimingConfig (l : Layout) (c : TimingConfig) : TimingRegs :=
  match l with
  | .ctrl1 => .ctrl1 (masked maxPresDiv c.preDivider) (masked maxRjw c.rJumpwidth)
      (masked maxPSeg1 c.phaseSeg1) (masked maxPSeg2 c.phaseSeg2) (masked maxPropSeg c.propSeg)
  | .cbt => .cbt (masked maxEPresDiv c.preDivider) (masked maxERjw c.rJumpwidth)
      (masked maxEPSeg1 c.phaseSeg1) (masked maxEPSeg2 c.phaseSeg2) (masked maxEPropSeg c.propSeg)
  | .encbt => .encbt (masked maxENPresDiv c.preDivider) (masked maxNRjw c.rJumpwidth)
      (masked maxNTSeg1 ((c.phaseSeg1 + c.propSeg + 1) % 2 ^ 32)) (masked maxNTSeg2 c.phaseSeg2)

/-- The register contents that spell the configuration itself. -/
def exactRegs (l : Layout) (c : TimingConfig) : TimingRegs :=
  match l with
  | .ctrl1 => .ctrl1 c.preDivider c.rJumpwidth c.phaseSeg1 c.phaseSeg2 c.propSeg
  | .cbt => .cbt c.preDivider c.rJumpwidth c.phaseSeg1 c.phaseSeg2 c.propSeg
  | .encbt => .encbt c.preDivider c.rJumpwidth (c.phaseSeg1 + c.propSeg + 1) c.phaseSeg2

/-- What `FLEXCAN_SetFDTimingConfig` writes to the fields of the data-phase register. -/
inductive FdTimingRegs
  | fdcbt (fpresdiv frjw fpseg1 fpseg2 fpropseg : Nat)
  | edcbt (edpresdiv drjw dtseg1 dtseg2 : Nat)
  deriving DecidableEq, Repr

/-- `FLEXCAN_SetFDTimingConfig`. -/
def setFDTimingConfig (l : FdLayout) (c : TimingConfig) : FdTimingRegs :=
  match l with
  | .fdcbt => .fdcbt (masked maxFPresDiv c.fpreDivider) (masked maxFRjw c.frJumpwidth)
      (masked maxFPSeg1 c.fphaseSeg1) (masked maxFPSeg2 c.fphaseSeg2) (masked maxFPropSeg c.fpropSeg)
  | .edcbt => .edcbt (masked maxEDPresDiv c.fpreDivider) (masked maxDRjw c.frJumpwidth)
      (masked maxDTSeg1 ((c.fphaseSeg1 + c.fpropSeg) % 2 ^ 32)) (masked maxDTSeg2 c.fphaseSeg2)

def exactFdRegs (l : FdLayout) (c : TimingConfig) : FdTimingRegs :=
  match l with
  | .fdcbt => .fdcbt c.fpreDivider c.frJumpwidth c.fphaseSeg1 c.fphaseSeg2 c.fpropSeg
  | .edcbt => .edcbt c.fpreDivider c.frJumpwidth (c.fphaseSeg1 + c.fpropSeg) c.fphaseSeg2

end McuxDrivers.FlexCan
