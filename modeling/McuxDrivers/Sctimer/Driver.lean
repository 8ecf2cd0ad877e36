import Mathlib.Data.BitVec
import Mathlib.Logic.Function.Basic

/-!
# The SCTimer driver

The calls of `fsl_sctimer.c` that allocate events and match/capture registers. A match register and the capture register
of the same number are one register, and so are its reload and its capture control register. Every 32-bit register that the
driver also accesses by halves is a pair of 16-bit halves.
-/

namespace McuxDrivers.Sctimer

/-- What the device has: `FSL_FEATURE_SCT_NUMBER_OF_..`. A capture control half has 16 event bits, a mode half has 16 register
bits and a state register has 32 bits. -/
structure Features where
  numberOfEvents : Nat
  numberOfMatchCapture : Nat
  numberOfStates : Nat
  events_le : numberOfEvents ≤ 16
  match_le : numberOfMatchCapture ≤ 16
  states_le : numberOfStates ≤ 32
  states_pos : 0 < numberOfStates

/-- `sctimer_counter_t`. -/
inductive Counter where
  | L
  | H
  | U
deriving DecidableEq

/-- The input or output that an event watches, and the level or the edge of it: IOCOND and OUTSEL. -/
structure IoCondition where
  ioCond : Fin 4
  outSel : Bool
deriving DecidableEq

/-- `sctimer_event_t`. -/
inductive EventType where
  | orMatch (io : IoCondition)
  | matchOnly
  | ioOnly (io : IoCondition)
  | andMatch (io : IoCondition)
deriving DecidableEq

/-- COMBMODE. -/
def EventType.combMode : EventType → Nat
  | orMatch _ => 0
  | matchOnly => 1
  | ioOnly _ => 2
  | andMatch _ => 3

/-- The control register of an event. -/
structure EvCtrl where
  howToMonitor : EventType
  ioSel : Nat
  matchSel : Nat
  hEvent : Bool
deriving DecidableEq

/-- A register of two halves. -/
structure Halves where
  l : BitVec 16
  h : BitVec 16
deriving DecidableEq

/-- The register after a write of a word. -/
def Halves.ofWord (word : BitVec 32) : Halves :=
  ⟨word.setWidth 16, (word >>> 16).setWidth 16⟩

/-- `sctimer_pwm_mode_t`. -/
inductive PwmMode where
  | edgeAligned
  | centerAligned
deriving DecidableEq

/-- `sctimer_pwm_signal_param_t`. -/
structure PwmSignalParam where
  output : Nat
  highTrue : Bool
  dutyCyclePercent : Nat

/-- The registers, and the numbers that the driver keeps. -/
structure Sct where
  -- CONFIG and CTRL
  unify : Bool
  preL : Nat
  bidirL : Bool
  -- EV[].CTRL and EV[].STATE
  evCtrl : Nat → EvCtrl
  evState : Nat → BitVec 32
  -- MATCH[] and CAP[]
  matchReg : Nat → Halves
  -- MATCHREL[] and CAPCTRL[]
  matchRel : Nat → Halves
  regMode : Halves
  limit : Halves
  output : BitVec 32
  outputDirCtrl : BitVec 32
  outSet : Nat → BitVec 32
  outClr : Nat → BitVec 32
  currentEvent : Nat
  currentState : Nat
  currentMatch : Nat
  currentMatchhigh : Nat

/-- The fields of `sctimer_config_t` that stay visible to the other calls. -/
structure Config where
  enableCounterUnify : Bool
  enableBidirectionL : Bool
  prescaleL : Nat
  outInitState : BitVec 32

/-- `SCTIMER_Init`: the reset of the module, the configuration and the start values of the numbers. -/
def init (config : Config) : Sct where
  unify := config.enableCounterUnify
  preL := config.prescaleL
  bidirL := config.enableBidirectionL
  evCtrl := fun _ => ⟨.orMatch ⟨0, false⟩, 0, 0, false⟩
  evState := fun _ => 0
  matchReg := fun _ => ⟨0, 0⟩
  matchRel := fun _ => ⟨0, 0⟩
  regMode := ⟨0, 0⟩
  limit := ⟨0, 0⟩
  output := config.outInitState
  outputDirCtrl := 0
  outSet := fun _ => 0
  outClr := fun _ => 0
  currentEvent := 0
  currentState := 0
  currentMatch := 0
  currentMatchhigh := 0

namespace Sct

variable (f : Features)

/-- The end of `SCTIMER_CreateAndScheduleEvent` on success: the control register is written, and the event is enabled in the
current state. -/
def scheduleCurrent (s : Sct) (ctrl : EvCtrl) : Sct × Option Nat :=
  ({ s with
      evCtrl := Function.update s.evCtrl s.currentEvent ctrl
      evState := Function.update s.evState s.currentEvent (1#32 <<< s.currentState)
      currentEvent := s.currentEvent + 1 }, some s.currentEvent)

/-- Counter_L: the low halves of the next register. -/
def useMatchL (s : Sct) (matchValue : BitVec 32) : Sct :=
  { s with
    matchReg := Function.update s.matchReg s.currentMatch { s.matchReg s.currentMatch with l := matchValue.setWidth 16 }
    matchRel := Function.update s.matchRel s.currentMatch { s.matchRel s.currentMatch with l := matchValue.setWidth 16 }
    currentMatch := s.currentMatch + 1 }

/-- Counter_H: the word is put together from the low half that is read back and from the value. -/
def useMatchH (s : Sct) (matchValue : BitVec 32) : Sct :=
  { s with
    matchReg := Function.update s.matchReg s.currentMatchhigh
      (Halves.ofWord ((s.matchReg s.currentMatchhigh).l.setWidth 32 ||| (matchValue <<< 16)))
    matchRel := Function.update s.matchRel s.currentMatchhigh
      (Halves.ofWord ((s.matchRel s.currentMatchhigh).l.setWidth 32 ||| (matchValue <<< 16)))
    currentMatchhigh := s.currentMatchhigh + 1 }

/-- Counter_U: the next register as one word. -/
def useMatchU (s : Sct) (matchValue : BitVec 32) : Sct :=
  { s with
    matchReg := Function.update s.matchReg s.currentMatch (Halves.ofWord matchValue)
    matchRel := Function.update s.matchRel s.currentMatch (Halves.ofWord matchValue)
    currentMatch := s.currentMatch + 1 }

/-- `SCTIMER_CreateAndScheduleEvent`. -/
def createAndScheduleEvent (s : Sct) (howToMonitor : EventType) (matchValue : BitVec 32) (whichIo : Nat)
    (whichCounter : Counter) : Sct × Option Nat :=
  let combMode := howToMonitor.combMode
  if s.currentEvent < f.numberOfEvents then
    if combMode = 2 then s.scheduleCurrent ⟨howToMonitor, whichIo % 16, 0, false⟩
    else
      let ioSel := if combMode = 0 ∨ combMode = 3 then whichIo % 16 else 0
      if whichCounter = .L ∧ s.unify = false then
        if s.currentMatch < f.numberOfMatchCapture then
          (s.useMatchL matchValue).scheduleCurrent ⟨howToMonitor, ioSel, s.currentMatch % 16, false⟩
        else (s, none)
      else if whichCounter = .H ∧ s.unify = false then
        if s.currentMatchhigh < f.numberOfMatchCapture then
          (s.useMatchH matchValue).scheduleCurrent ⟨howToMonitor, ioSel, s.currentMatchhigh % 16, true⟩
        else (s, none)
      else if whichCounter = .U ∧ s.unify = true then
        if s.currentMatch < f.numberOfMatchCapture then
          (s.useMatchU matchValue).scheduleCurrent ⟨howToMonitor, ioSel, s.currentMatch % 16, false⟩
        else (s, none)
      else (s, none)
  else (s, none)

/-- `SCTIMER_SetupOutputSetAction`. -/
def setupOutputSetAction (s : Sct) (whichIo event : Nat) : Sct :=
  { s with outSet := Function.update s.outSet whichIo (s.outSet whichIo ||| 1#32 <<< event) }

/-- `SCTIMER_SetupOutputClearAction`. -/
def setupOutputClearAction (s : Sct) (whichIo event : Nat) : Sct :=
  { s with outClr := Function.update s.outClr whichIo (s.outClr whichIo ||| 1#32 <<< event) }

/-- `SCTIMER_SetupCounterLimitAction` with Counter_U. -/
def setupCounterLimitAction (s : Sct) (event : Nat) : Sct :=
  { s with limit := { s.limit with l := s.limit.l ||| 1#16 <<< event } }

/-- The output starts at a level. -/
def setOutput (s : Sct) (output : Nat) (level : Bool) : Sct :=
  { s with output := if level then s.output ||| 1#32 <<< output else s.output &&& ~~~(1#32 <<< output) }

/-- The output is reversed while the counter counts down. -/
def reverseOutput (s : Sct) (output : Nat) : Sct :=
  { s with outputDirCtrl := (s.outputDirCtrl &&& ~~~(3#32 <<< (2 * output))) ||| 1#32 <<< (2 * output) }

/-- The actions of the two events of a PWM signal. -/
def setupPwmActions (s : Sct) (pwmParams : PwmSignalParam) (mode : PwmMode) (periodEvent pulseEvent : Nat) : Sct :=
  let s := s.setupCounterLimitAction periodEvent
  let output := pwmParams.output
  match pwmParams.highTrue, mode with
  | true, .edgeAligned =>
    ((s.setOutput output false).setupOutputSetAction output periodEvent).setupOutputClearAction output pulseEvent
  | true, .centerAligned => ((s.setOutput output true).setupOutputClearAction output pulseEvent).reverseOutput output
  | false, .edgeAligned =>
    ((s.setOutput output true).setupOutputClearAction output periodEvent).setupOutputSetAction output pulseEvent
  | false, .centerAligned => ((s.setOutput output false).setupOutputSetAction output pulseEvent).reverseOutput output

/-- The match value of the period, in 32-bit arithmetic. -/
def pwmPeriod (s : Sct) (mode : PwmMode) (pwmFreqHz srcClockHz : BitVec 32) : BitVec 32 :=
  let sctClock := srcClockHz / (BitVec.ofNat 32 s.preL + 1)
  match mode with
  | .edgeAligned => sctClock / pwmFreqHz - 1
  | .centerAligned => sctClock / (pwmFreqHz * 2)

/-- The match value of the pulse. From 100 percent on, the event never occurs. -/
def pwmPulsePeriod (period : BitVec 32) (dutyCyclePercent : Nat) : BitVec 32 :=
  if 100 ≤ dutyCyclePercent then period + 2 else BitVec.ofNat 32 (period.toNat * dutyCyclePercent / 100)

/-- The two events of `SCTIMER_SetupPwm`. The second is created whatever became of the first. -/
def createPwmEvents (s : Sct) (period pulsePeriod : BitVec 32) : Sct × Option (Nat × Nat) :=
  let first := s.createAndScheduleEvent f .matchOnly period 0 .U
  let second := first.1.createAndScheduleEvent f .matchOnly pulsePeriod 0 .U
  match first.2, second.2 with
  | some periodEvent, some pulseEvent => (second.1, some (periodEvent, pulseEvent))
  | _, _ => (second.1, none)

/-- Center-aligned signals let the counter count up and down. -/
def useBidirection (s : Sct) (mode : PwmMode) : Sct :=
  if mode = .centerAligned then { s with bidirL := true } else s

/-- `SCTIMER_SetupPwm`. The caller gets the first of the two numbers. -/
def setupPwm (s : Sct) (pwmParams : PwmSignalParam) (mode : PwmMode) (pwmFreqHz srcClockHz : BitVec 32) :
    Sct × Option (Nat × Nat) :=
  if s.currentEvent + 2 ≤ f.numberOfEvents then
    let period := s.pwmPeriod mode pwmFreqHz srcClockHz
    let pulsePeriod := pwmPulsePeriod period pwmParams.dutyCyclePercent
    match (s.useBidirection mode).createPwmEvents f period pulsePeriod with
    | (s, some (periodEvent, pulseEvent)) =>
      (s.setupPwmActions pwmParams mode periodEvent pulseEvent, some (periodEvent, pulseEvent))
    | (s, none) => (s, none)
  else (s, none)

/-- Counter_L and Counter_U: the bits are added to the low halves. -/
def useCaptureL (s : Sct) (event : Nat) : Sct :=
  let capCtrl := s.matchRel s.currentMatch
  { s with
    matchRel := Function.update s.matchRel s.currentMatch { capCtrl with l := capCtrl.l ||| 1#16 <<< event }
    regMode := { s.regMode with l := s.regMode.l ||| 1#16 <<< s.currentMatch }
    currentMatch := s.currentMatch + 1 }

/-- Counter_H: the words are put together from the low halves that are read back and from the new bits. -/
def useCaptureH (s : Sct) (event : Nat) : Sct :=
  let capCtrl := s.matchRel s.currentMatchhigh
  { s with
    matchRel := Function.update s.matchRel s.currentMatchhigh
      (Halves.ofWord (capCtrl.l.setWidth 32 ||| ((1#32 <<< event) <<< 16)))
    regMode := Halves.ofWord (s.regMode.l.setWidth 32 ||| ((1#32 <<< s.currentMatchhigh) <<< 16))
    currentMatchhigh := s.currentMatchhigh + 1 }

/-- `SCTIMER_SetupCaptureAction`. -/
def setupCaptureAction (s : Sct) (whichCounter : Counter) (event : Nat) : Sct × Option Nat :=
  if whichCounter = .L ∨ whichCounter = .U then
    if s.currentMatch < f.numberOfMatchCapture then (s.useCaptureL event, some s.currentMatch) else (s, none)
  else
    if s.currentMatchhigh < f.numberOfMatchCapture then (s.useCaptureH event, some s.currentMatchhigh) else (s, none)

/-- `SCTIMER_IncreaseState`. -/
def increaseState (s : Sct) : Sct × Option Unit :=
  if f.numberOfStates ≤ s.currentState then (s, none) else ({ s with currentState := s.currentState + 1 }, some ())

end Sct

end McuxDrivers.Sctimer
