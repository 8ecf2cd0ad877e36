import Mathlib.Data.List.Basic
import Mathlib.Logic.Function.Basic

/-!
# The enhanced receive FIFO of the FlexCAN

Transfers from the FIFO with interrupts, and the copy of one element out of the window that the controller shows it in.
The loop of the watermark interrupt is taken one element at a time, and the controller may store between them. The flags of
the FIFO stay set until they are written, as the driver takes them to.
-/

namespace McuxDrivers.FlexCan.EnhancedFifo

/-- `DLC_LENGTH_DECODE`. -/
def dlcLengthDecode (dlc : Nat) : Nat :=
  if dlc ≤ 8 then dlc else if dlc ≤ 12 then (dlc - 6) * 4 else (dlc - 11) * 16

/-- The words of a `flexcan_fd_frame_t`: two of the header, sixteen of the payload, then `idhit` and `hrtimestamp`. -/
abbrev FrameWords := Nat → BitVec 32

/-- The field `length` of the first word. -/
def lengthField (header : BitVec 32) : Nat :=
  ((header >>> 16) &&& 0xF#32).toNat

/-- The words of the payload. -/
def payloadWords (header : BitVec 32) : Nat :=
  (dlcLengthDecode (lengthField header) + 3) / 4

/-- An element of the FIFO, and what the window shows behind it. -/
structure Element where
  header : BitVec 32
  id : BitVec 32
  payload : Nat → BitVec 32
  idhit : BitVec 32
  hrtimestamp : BitVec 32
  behind : Nat → BitVec 32

/-- What the application reads in a frame. -/
structure Received where
  header : BitVec 32
  id : BitVec 32
  dataWord : Nat → BitVec 32
  idhit : BitVec 32
  hrtimestamp : Option (BitVec 32)

section Copy

-- `hr`: the build has `FSL_FEATURE_FLEXCAN_HAS_HIGH_RESOLUTION_TIMESTAMP`.
variable (hr : Bool)

/-- The window that shows an element: what follows the payload moves with its length. -/
def Element.window (e : Element) : FrameWords
  | 0 => e.header
  | 1 => e.id
  | i + 2 =>
    if i < payloadWords e.header then e.payload i
    else if i = payloadWords e.header then e.idhit
    else if hr ∧ i = payloadWords e.header + 1 then e.hrtimestamp
    else e.behind i

/-- The copy of `FLEXCAN_ReadEnhancedRxFifo` into a frame of the application. -/
def copyFrame (window frame : FrameWords) : FrameWords :=
  let idHitOff := payloadWords (window 0) + 3 + hr.toNat
  let frame := fun i => if i < idHitOff then window i else frame i
  if idHitOff ≤ 15 + hr.toNat then
    let first := 2 + (idHitOff - (3 + hr.toNat))
    fun i =>
      if i = 18 then frame first
      else if hr ∧ i = 19 then frame (first + 1)
      else if first ≤ i ∧ i < 18 then 0
      else frame i
  else frame

/-- The fields of a frame. -/
def received (frame : FrameWords) : Received where
  header := frame 0
  id := frame 1
  dataWord := fun i => if i < 16 then frame (2 + i) else 0
  idhit := frame 18
  hrtimestamp := if hr then some (frame 19) else none

/-- What an element has to say. -/
def Element.received (e : Element) : Received where
  header := e.header
  id := e.id
  dataWord := fun i => if i < payloadWords e.header then e.payload i else 0
  idhit := e.idhit
  hrtimestamp := if hr then some e.hrtimestamp else none

end Copy

inductive Status where
  | success
  | rxFifoBusy
  | rxFifoIdle
  | rxFifoUnderflow
  | rxFifoOverflow
  | rxFifoDisabled
deriving DecidableEq

inductive RxFifoState where
  | idle
  | rxFifo
deriving DecidableEq

/-- An accepted call: its buffer, its number of frames, and where the frames were written that it has got. -/
structure Transfer where
  framefd : Nat
  frameNum : Nat
  reads : List (Nat × Received)

/-- The registers of the FIFO, the handle and the frames of the application, and what has happened. -/
structure System where
  erfen : Bool
  erfwm : Nat
  fifo : List Element
  erfufw : Bool
  erfovf : Bool
  erfwmi : Bool
  ufwie : Bool
  ovfie : Bool
  wmiie : Bool
  daie : Bool
  rxFifoState : RxFifoState
  rxFifoFDFrameBuf : Option Nat
  rxFifoFrameNum : Nat
  rxFifoTransferTotalNum : Nat
  frames : Nat → FrameWords
  /-- The rounds that the loop of the watermark interrupt has still to make. -/
  handling : Option Nat
  callbacks : List Status
  /-- The elements that the FIFO has taken in. -/
  stored : List Element
  /-- The elements that have left the FIFO, and whether they were read. -/
  left : List (Element × Bool)
  current : Option Transfer
  /-- The transfers that have ended, and whether they were complete. -/
  past : List (Bool × Transfer)
  /-- The driver has read an empty FIFO or written through a `NULL` pointer. -/
  faulted : Bool

namespace System

def report (t : System) (status : Status) : System :=
  { t with callbacks := t.callbacks ++ [status] }

/-- The `watermark` of the driver. -/
def watermark (t : System) : Nat :=
  t.erfwm + 1

section Calls

-- `empty`: what the window shows while the FIFO is empty.
variable (hr : Bool) (empty : FrameWords)

/-- `FLEXCAN_SetEnhancedRxFifoConfig` with the watermark of the configuration, or to disable the FIFO. -/
def setEnhancedRxFifoConfig (t : System) (fifoWatermark : Option Nat) : System :=
  { t with
    erfen := fifoWatermark.isSome
    erfwm := fifoWatermark.getD 0
    fifo := []
    erfufw := false
    erfovf := false
    erfwmi := false
    left := t.left ++ t.fifo.map (·, false) }

/-- `FLEXCAN_ReadEnhancedRxFifo` into the frame at `rxFifoFDFrameBuf`, or nothing with the FIFO disabled. -/
def readEnhancedRxFifo (t : System) : Option System :=
  if t.erfen then
    match t.rxFifoFDFrameBuf with
    | some buf =>
      let window := (t.fifo.head?.map (Element.window hr)).getD empty
      let frame := copyFrame hr window (t.frames buf)
      some { t with
        fifo := t.fifo.tail
        erfufw := t.erfufw || t.fifo.isEmpty
        frames := Function.update t.frames buf frame
        left := t.left ++ t.fifo.head?.toList.map (·, true)
        current := t.current.map fun tr => { tr with reads := tr.reads ++ [(buf, received hr frame)] }
        faulted := t.faulted || t.fifo.isEmpty }
    | none => some { t with faulted := true }
  else none

/-- `FLEXCAN_TransferReceiveEnhancedFifoNonBlocking`. -/
def receiveNonBlocking (t : System) (framefd frameNum : Nat) : Status × System :=
  if t.rxFifoState = .idle then
    (.success, { t with
      rxFifoState := .rxFifo
      rxFifoFDFrameBuf := some framefd
      rxFifoFrameNum := frameNum
      rxFifoTransferTotalNum := frameNum
      ufwie := true
      ovfie := true
      wmiie := t.wmiie || decide (t.watermark ≤ frameNum)
      daie := t.daie || decide (frameNum < t.watermark)
      current := some { framefd := framefd, frameNum := frameNum, reads := [] } })
  else (.rxFifoBusy, t)

/-- `FLEXCAN_TransferAbortReceiveEnhancedFifo`. -/
def abortReceive (t : System) : System :=
  if t.erfen then
    { t with
      ufwie := false
      ovfie := false
      wmiie := false
      daie := false
      rxFifoFDFrameBuf := none
      rxFifoFrameNum := 0
      rxFifoTransferTotalNum := 0
      rxFifoState := .idle }
  else { t with rxFifoState := .idle }

/-- The transfer has ended. -/
def close (t : System) (complete : Bool) : System :=
  { t with
    current := none
    past := t.past ++ t.current.toList.map (complete, ·) }

/-- The next frame of the application, after one that was read. -/
def advance (t : System) : System :=
  { t with
    rxFifoFDFrameBuf := t.rxFifoFDFrameBuf.map (· + 1)
    rxFifoFrameNum := t.rxFifoFrameNum - 1 }

/-- The end of the transfer that has got all its frames. -/
def complete (t : System) : System :=
  (t.abortReceive.close true).report .rxFifoIdle

/-- The case of available data in `FLEXCAN_SubHandlerForEhancedRxFifo`. -/
def dataAvailable (t : System) : System :=
  match if 0 < t.rxFifoFrameNum then (t.readEnhancedRxFifo hr empty).map advance else some t with
  | some t => if t.rxFifoFrameNum = 0 then t.complete else t.report .rxFifoBusy
  | none => t.report .rxFifoDisabled

/-- `FLEXCAN_SubHandlerForEhancedRxFifo`, until the first round of the loop of the watermark interrupt. -/
def interrupt (t : System) : System :=
  if t.erfufw ∧ t.ufwie then { t with erfufw := false }.report .rxFifoUnderflow
  else if t.erfovf ∧ t.ovfie then { t with erfovf := false }.report .rxFifoOverflow
  else if t.erfwmi ∧ t.wmiie then
    { t with handling := some (if t.rxFifoFrameNum > t.watermark then t.watermark else t.rxFifoFrameNum) }
  else if t.fifo ≠ [] ∧ t.daie then t.dataAvailable hr empty
  else t

/-- What follows the loop of the watermark interrupt. -/
def afterLoop (t : System) : System :=
  if t.rxFifoFrameNum = 0 then t.complete
  else if t.rxFifoFrameNum < t.watermark then { t with wmiie := false, daie := true }.report .rxFifoBusy
  else t.report .rxFifoBusy

/-- A round of the loop of the watermark interrupt, or what follows it. -/
def proceed (t : System) : System :=
  match t.handling with
  | some (left + 1) =>
    match t.readEnhancedRxFifo hr empty with
    | some t => { t.advance with erfwmi := false, handling := some left }
    | none => { t with handling := none }.report .rxFifoDisabled
  | some 0 => { t with handling := none }.afterLoop
  | none => t

/-- The controller has received a frame for the FIFO. -/
def store (size : Nat) (t : System) (e : Element) : System :=
  if t.erfen then
    if t.fifo.length < size then { t with fifo := t.fifo ++ [e], stored := t.stored ++ [e] }
    else { t with erfovf := true }
  else t

end Calls

end System

inductive Event where
  | configure (fifoWatermark : Option Nat)
  | receive (framefd frameNum : Nat)
  | abort
  | store (e : Element)
  /-- The controller has found more elements than the watermark. -/
  | watermark
  | interrupt
  | proceed

/-- The application makes no call while the handler runs. -/
def step (hr : Bool) (empty : FrameWords) (size : Nat) (t : System) : Event → System
  | .configure fifoWatermark => if t.handling = none then t.setEnhancedRxFifoConfig fifoWatermark else t
  | .receive framefd frameNum => if t.handling = none then (t.receiveNonBlocking framefd frameNum).2 else t
  | .abort => if t.handling = none then t.abortReceive.close false else t
  | .store e => t.store size e
  | .watermark => if t.erfwm < t.fifo.length then { t with erfwmi := true } else t
  | .interrupt => if t.handling = none then t.interrupt hr empty else t
  | .proceed => t.proceed hr empty

/-- Before the first call. -/
def System.start (frames : Nat → FrameWords) : System where
  erfen := false
  erfwm := 0
  fifo := []
  erfufw := false
  erfovf := false
  erfwmi := false
  ufwie := false
  ovfie := false
  wmiie := false
  daie := false
  rxFifoState := .idle
  rxFifoFDFrameBuf := none
  rxFifoFrameNum := 0
  rxFifoTransferTotalNum := 0
  frames := frames
  handling := none
  callbacks := []
  stored := []
  left := []
  current := none
  past := []
  faulted := false

end McuxDrivers.FlexCan.EnhancedFifo
