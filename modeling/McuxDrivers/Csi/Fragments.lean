import McuxDrivers.Lib.ByteMemory
import McuxDrivers.Lib.Bytes
import McuxDrivers.Lib.Loop

/-!
# The CSI driver in fragment mode

The DMA writes the lines of a frame into two buffers in turn. The interrupt handler copies a buffer that is full into the
image of the application, cut to a window and perhaps to one byte a pixel.
-/

namespace McuxDrivers.Csi.Fragments
open McuxDrivers.Lib

inductive Status where
  | success
  | invalidArgument
deriving DecidableEq

inductive InputFormat where
  | rgb565
  | yuyv
  | uyvy
deriving DecidableEq

/-- What `copyFunc` may point to. -/
inductive CopyFunc where
  | extractYFromYUYV
  | extractYFromUYVY
  | memCopy
deriving DecidableEq

section Copies

/-- `bfi` with a width of eight bits. -/
def bfi (d n : BitVec 32) (lsb : Nat) : BitVec 32 :=
  (d &&& ~~~(0xff#32 <<< lsb)) ||| ((n &&& 0xff#32) <<< lsb)

/-- What `CSI_ExtractYFromYUYV` makes of the four words of a round, in `r7` and `r12`. -/
def packYUYV (r3 r4 r5 r6 r7 r12 : BitVec 32) : BitVec 32 × BitVec 32 :=
  let r7 := bfi r7 r3 0
  let r12 := bfi r12 r5 0
  let r3 := r3 >>> 16
  let r5 := r5 >>> 16
  let r7 := bfi r7 r3 8
  let r12 := bfi r12 r5 8
  let r7 := bfi r7 r4 16
  let r12 := bfi r12 r6 16
  let r4 := r4 >>> 16
  let r6 := r6 >>> 16
  let r7 := bfi r7 r4 24
  let r12 := bfi r12 r6 24
  (r7, r12)

/-- What `CSI_ExtractYFromUYVY` makes of the four words of a round, in `r7` and `r12`. -/
def packUYVY (r3 r4 r5 r6 r7 r12 : BitVec 32) : BitVec 32 × BitVec 32 :=
  let r3 := r3 >>> 8
  let r5 := r5 >>> 8
  let r7 := bfi r7 r3 0
  let r12 := bfi r12 r5 0
  let r3 := r3 >>> 16
  let r5 := r5 >>> 16
  let r7 := bfi r7 r3 8
  let r12 := bfi r12 r5 8
  let r4 := r4 >>> 8
  let r6 := r6 >>> 8
  let r7 := bfi r7 r4 16
  let r12 := bfi r12 r6 16
  let r4 := r4 >>> 16
  let r6 := r6 >>> 16
  let r7 := bfi r7 r4 24
  let r12 := bfi r12 r6 24
  (r7, r12)

/-- A little-endian word of the memory. -/
def loadWord (m : ByteMemory) (a : Nat) : BitVec 32 :=
  (m.bytes (a + 3)).toBitVec ++ (m.bytes (a + 2)).toBitVec ++ (m.bytes (a + 1)).toBitVec ++ (m.bytes a).toBitVec

/-- The memory and the registers that a round of the loop finds. -/
structure Extraction where
  mem : ByteMemory
  r0 : Nat
  r1 : Nat
  r2 : Nat
  r7 : BitVec 32
  r12 : BitVec 32

variable (pack : BitVec 32 → BitVec 32 → BitVec 32 → BitVec 32 → BitVec 32 → BitVec 32 → BitVec 32 × BitVec 32)

/-- A round of the two extracting functions. `ldmia` and `stmia` fault at an address that is no multiple of four. -/
def extractRound (s : Extraction) : Extraction ⊕ Option ByteMemory :=
  if s.r1 % 4 = 0 ∧ s.r0 % 4 = 0 then
    let words := pack (loadWord s.mem s.r1) (loadWord s.mem (s.r1 + 4)) (loadWord s.mem (s.r1 + 8))
      (loadWord s.mem (s.r1 + 12)) s.r7 s.r12
    let mem := s.mem.store s.r0 (leBytes32 words.1 ++ leBytes32 words.2)
    let r2 := (s.r2 + (2 ^ 32 - 8)) % 2 ^ 32
    if r2 = 0 then .inr (some mem)
    else .inl { mem := mem, r0 := s.r0 + 8, r1 := s.r1 + 16, r2 := r2, r7 := words.1, r12 := words.2 }
  else .inr none

/-- The loop, for as many rounds as `r2` has multiples of eight: it ends in these or never. -/
def extract (mem : ByteMemory) (dest src cnt : Nat) (r7 r12 : BitVec 32) : Option ByteMemory :=
  (loop (extractRound pack) (2 ^ 29) { mem := mem, r0 := dest, r1 := src, r2 := cnt, r7 := r7, r12 := r12 }).join

end Copies

/-- A call through `copyFunc`; the registers `r7` and `r12` are the caller's. -/
def CopyFunc.run (f : CopyFunc) (mem : ByteMemory) (dest src cnt : Nat) : Option ByteMemory :=
  match f with
  | .extractYFromYUYV => extract packYUYV mem dest src cnt 0 0
  | .extractYFromUYVY => extract packUYVY mem dest src cnt 0 0
  | .memCopy => some (mem.store dest (mem.read src cnt))

/-- `csi_frag_config_t`. -/
structure FragConfig where
  width : Nat
  height : Nat
  dataBus8Bit : Bool
  inputFormat : InputFormat
  dmaBufferAddr0 : Nat
  dmaBufferAddr1 : Nat
  dmaBufferLine : Nat

/-- `csi_frag_window_t`. -/
structure FragWindow where
  windowULX : Nat
  windowULY : Nat
  windowLRX : Nat
  windowLRY : Nat

/-- `csi_frag_capture_config_t`. -/
structure CaptureConfig where
  outputGrayScale : Bool
  buffer : Nat
  window : Option FragWindow

/-- `csi_frag_handle_t`. -/
structure FragHandle where
  width : Nat
  height : Nat
  maxLinePerFrag : Nat
  linePerFrag : Nat
  dmaBytePerLine : Nat
  datBytePerLine : Nat
  dmaCurLine : Nat
  windowULX : Nat
  windowULY : Nat
  windowLRX : Nat
  windowLRY : Nat
  outputBuffer : Nat
  datCurWriteAddr : Nat
  inputFormat : InputFormat
  copyFunc : Option CopyFunc

/-- The first part of `CSI_FragModeTransferCaptureImage`: the window, or the full frame. -/
def FragHandle.setWindow (h : FragHandle) (window : Option FragWindow) : FragHandle :=
  match window with
  | some window =>
    { h with
      windowULX := window.windowULX
      windowULY := window.windowULY
      windowLRX := window.windowLRX
      windowLRY := window.windowLRY
      linePerFrag := 1 }
  | none =>
    { h with
      windowULX := 0
      windowULY := 0
      windowLRX := (h.width + (2 ^ 16 - 1)) % 2 ^ 16
      windowLRY := (h.height + (2 ^ 16 - 1)) % 2 ^ 16
      linePerFrag := h.maxLinePerFrag }

/-- `CSI_FRAG_INPUT_BYTES_PER_PIXEL`. -/
def fragInputBytesPerPixel : Nat := 2

/-- A capture that was reported with `kStatus_CSI_FrameDone`: the lines that the DMA had written since its start, and the
memory that the callback finds. -/
structure Image where
  config : CaptureConfig
  lines : List (List UInt8)
  mem : ByteMemory

/-- The handle, the registers, the memory, where the DMA is, and what has happened. -/
structure System where
  handle : FragHandle
  mem : ByteMemory
  dmasaFb1 : Nat
  dmasaFb2 : Nat
  imageWidth : Nat
  imageHeight : Nat
  csiEnable : Bool
  interruptsEnabled : Bool
  sof : Bool
  tsfDoneFb1 : Bool
  tsfDoneFb2 : Bool
  /-- The DMA writes the second buffer. -/
  second : Bool
  /-- The lines that it has written there. -/
  dmaLine : Nat
  /-- The lines that it has written since it was started. -/
  lines : List (List UInt8)
  captures : List CaptureConfig
  current : Option CaptureConfig
  images : List Image
  /-- A copy has faulted or does not end. -/
  faulted : Bool

/-- The handle that `memset` and `CSI_FragModeCreateHandle` leave, after `CSI_FragModeInit`. The input format is not kept. -/
def System.created (config : FragConfig) (mem : ByteMemory) : System where
  handle := {
    width := config.width
    height := config.height
    maxLinePerFrag := config.dmaBufferLine
    linePerFrag := 0
    dmaBytePerLine := config.width * fragInputBytesPerPixel % 2 ^ 16
    datBytePerLine := 0
    dmaCurLine := 0
    windowULX := 0
    windowULY := 0
    windowLRX := 0
    windowLRY := 0
    outputBuffer := 0
    datCurWriteAddr := 0
    inputFormat := .rgb565
    copyFunc := none }
  mem := mem
  dmasaFb1 := config.dmaBufferAddr0
  dmasaFb2 := config.dmaBufferAddr1
  imageWidth := 0
  imageHeight := 0
  csiEnable := false
  interruptsEnabled := false
  sof := false
  tsfDoneFb1 := false
  tsfDoneFb2 := false
  second := false
  dmaLine := 0
  lines := []
  captures := []
  current := none
  images := []
  faulted := false

/-- `CSI_FragModeCreateHandle`. A remainder by zero has no result. -/
def fragModeCreateHandle (config : FragConfig) (mem : ByteMemory) : Option (Except Status System) :=
  if !config.dataBus8Bit then some (.error .invalidArgument)
  else if (config.width * fragInputBytesPerPixel) &&& 0x07 ≠ 0 then some (.error .invalidArgument)
  else if config.dmaBufferLine = 0 then none
  else if config.height % config.dmaBufferLine ≠ 0 then some (.error .invalidArgument)
  else some (.ok (.created config mem))

namespace System

/-- `CSI_FragModeTransferCaptureImage`. A width of the window that does not suit a gray image is found after the window has
been stored. -/
def captureImage (t : System) (config : CaptureConfig) : Status × System :=
  let handle := t.handle.setWindow config.window
  let windowWidth := (handle.windowLRX + 2 ^ 16 - handle.windowULX + 1) % 2 ^ 16
  if config.outputGrayScale ∧ windowWidth % 8 ≠ 0 then (.invalidArgument, { t with handle := handle })
  else
    (.success, { t with
      handle := { handle with
        datBytePerLine := if config.outputGrayScale then windowWidth else windowWidth * fragInputBytesPerPixel % 2 ^ 16
        copyFunc := some (
          if config.outputGrayScale then
            if handle.inputFormat = .yuyv then .extractYFromYUYV else .extractYFromUYVY
          else .memCopy)
        dmaCurLine := 0
        outputBuffer := config.buffer
        datCurWriteAddr := config.buffer }
      imageWidth := handle.width * fragInputBytesPerPixel % 2 ^ 16
      imageHeight := handle.linePerFrag
      interruptsEnabled := true
      captures := t.captures ++ [config]
      current := some config })

/-- `CSI_FragModeTransferAbortCaptureImage`. -/
def abortCaptureImage (t : System) : System :=
  { t with csiEnable := false, interruptsEnabled := false, current := none }

/-- The loop of `CSI_FragModeTransferHandleIRQ` with `count` lines left of the fragment: the memory and `datCurWriteAddr`
after it. The address in the DMA buffer moves with the copied lines only. -/
def copyLines (h : FragHandle) (count line : Nat) (mem : ByteMemory) (datCurWriteAddr dmaBufAddr : Nat) :
    Option (ByteMemory × Nat) :=
  match count with
  | 0 => some (mem, datCurWriteAddr)
  | count + 1 =>
    if h.windowLRY < h.dmaCurLine + line then some (mem, datCurWriteAddr)
    else if h.windowULY ≤ h.dmaCurLine + line then
      match h.copyFunc.bind fun f => f.run mem datCurWriteAddr dmaBufAddr h.datBytePerLine with
      | some mem => copyLines h count (line + 1) mem (datCurWriteAddr + h.datBytePerLine) (dmaBufAddr + h.dmaBytePerLine)
      | none => none
    else copyLines h count (line + 1) mem datCurWriteAddr dmaBufAddr

/-- The part of `CSI_FragModeTransferHandleIRQ` for a fragment at `dmaBufAddr`. -/
def fragmentDone (t : System) (dmaBufAddr : Nat) : System :=
  match copyLines t.handle t.handle.linePerFrag 0 t.mem t.handle.datCurWriteAddr
      (dmaBufAddr + t.handle.windowULX * fragInputBytesPerPixel) with
  | some (mem, datCurWriteAddr) =>
    let dmaCurLine := (t.handle.dmaCurLine + t.handle.linePerFrag) % 2 ^ 16
    let t := { t with
      mem := mem
      handle := { t.handle with dmaCurLine := dmaCurLine, datCurWriteAddr := datCurWriteAddr } }
    if t.handle.height ≤ dmaCurLine then
      { t with
        csiEnable := false
        interruptsEnabled := false
        current := none
        images := t.images ++ t.current.toList.map fun config => { config := config, lines := t.lines, mem := mem } }
    else t
  | none => { t with faulted := true }

/-- `CSI_FragModeTransferHandleIRQ`. The DMA that a start of a frame reflashes begins with the buffer that `second`
says. -/
def handleIRQ (t : System) (second : Bool) : System :=
  let cleared := { t with sof := false, tsfDoneFb1 := false, tsfDoneFb2 := false }
  if t.sof then
    { cleared with
      csiEnable := true
      handle := { t.handle with dmaCurLine := 0, datCurWriteAddr := t.handle.outputBuffer }
      second := second
      dmaLine := 0
      lines := [] }
  else if t.tsfDoneFb1 then cleared.fragmentDone t.dmasaFb1
  else if t.tsfDoneFb2 then cleared.fragmentDone t.dmasaFb2
  else cleared

/-- The address of a DMA buffer. -/
def dmaBuffer (t : System) (second : Bool) : Nat :=
  if second then t.dmasaFb2 else t.dmasaFb1

/-- The DMA writes a line. With the last one of a fragment it changes to the other buffer. -/
def storeLine (t : System) (line : List UInt8) : System :=
  if t.csiEnable ∧ line.length = t.imageWidth then
    let t := { t with
      mem := t.mem.store (t.dmaBuffer t.second + t.dmaLine * t.imageWidth) line
      lines := t.lines ++ [line]
      dmaLine := t.dmaLine + 1 }
    if t.dmaLine = t.imageHeight then
      { t with
        dmaLine := 0
        second := !t.second
        tsfDoneFb1 := t.tsfDoneFb1 || !t.second
        tsfDoneFb2 := t.tsfDoneFb2 || t.second }
    else t
  else t

end System

inductive Event where
  | capture (config : CaptureConfig)
  | abort
  | startOfFrame
  | line (line : List UInt8)
  /-- The handler, where its interrupts are enabled. -/
  | interrupt (second : Bool)

def step (t : System) : Event → System
  | .capture config => (t.captureImage config).2
  | .abort => t.abortCaptureImage
  | .startOfFrame => { t with sof := true }
  | .line line => t.storeLine line
  | .interrupt second => if t.interruptsEnabled then t.handleIRQ second else t

end McuxDrivers.Csi.Fragments
