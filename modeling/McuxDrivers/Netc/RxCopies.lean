import McuxDrivers.Netc.RxFrames

/-!
# Copying receive on a NETC ring

`EP_GetRxFrameSize` and `EP_ReceiveFrameCopy` of `fsl_netc_endpoint.c` on one ring, without frame attributes. For an
application that asks for the size of the pending frame and then takes the frame, the ring and the memory of its buffers
are a queue of frames.
-/

namespace McuxDrivers.Netc
open McuxDrivers.Lib

/-- The codes that `EP_GetRxFrameSizeCommon` returns. -/
inductive RxSizeStatus where
  | rxHRZeroFrame
  | rxHRNotZeroFrame
  | rxFrameEmpty
  | rxFrameError
  | rxTsrResp
deriving DecidableEq

/-- The code of `EP_GetRxFrameSize` for it. -/
def RxSizeStatus.toRxStatus : RxSizeStatus → RxStatus
  | .rxHRZeroFrame => .success
  | .rxHRNotZeroFrame => .rxHRNotZeroFrame
  | .rxFrameEmpty => .rxFrameEmpty
  | .rxFrameError => .rxFrameError
  | .rxTsrResp => .rxTsrResp

namespace RxRing

variable (c : RxConfig)

/-- The loop of `EP_GetRxFrameSizeCommon`, of at most `fuel` rounds: the code and `*length`. -/
def sizeLoop (r : RxRing) (result : RxSizeStatus) : Nat → Nat → Nat → Option (RxSizeStatus × Nat)
  | 0, _, _ => none
  | fuel + 1, index, totlen =>
    let rxDesc := r.bdBase index
    if rxDesc.bufLen = 0 then some (.rxFrameError, 0)
    else
      let totlen := (totlen + rxDesc.bufLen.toNat) % 2 ^ 32
      if rxDesc.isFinal then some (result, totlen)
      else if nextIndex c index = r.index then some (result, 0)
      else sizeLoop r result fuel (nextIndex c index) totlen

/-- `EP_GetRxFrameSizeCommon`. -/
def getRxFrameSizeCommon (r : RxRing) : Option (RxSizeStatus × Nat) :=
  let rxDesc := r.bdBase r.index
  if rxDesc.isReady = false then some (.rxFrameEmpty, 0)
  else if rxDesc.error ≠ 0 then some (.rxFrameError, 0)
  else if rxDesc.hr ≠ 3 then
    r.sizeLoop c (if rxDesc.hr ≠ 0 then .rxHRNotZeroFrame else .rxHRZeroFrame) c.len r.index 0
  else some (.rxTsrResp, rxDesc.bufLen.toNat)

/-- `EP_GetRxFrameSize`. -/
def getRxFrameSize (r : RxRing) : Option (RxStatus × Nat) :=
  (r.getRxFrameSizeCommon c).map fun (result, length) => (result.toRxStatus, length)

/-- The loop of `EP_ReceiveFrameCopyCommon`, of at most `fuel` rounds: the ring and the bytes in the buffer of the
application. -/
def copyLoop (memory : Nat → List UInt8) : Nat → RxRing → Nat → List UInt8 → Option (RxRing × List UInt8)
  | 0, _, _, _ => none
  | fuel + 1, r, leftLen, buffer =>
    let rxDesc := r.bdBase r.index
    let copyLen := if leftLen ≠ 0 then (if leftLen > rxDesc.bufLen.toNat then rxDesc.bufLen.toNat else leftLen) else 0
    let buffer := buffer ++ (memory (r.buffArray (r.buffIdx c))).take copyLen
    let r' := r.release c (r.buffArray (r.buffIdx c))
    if rxDesc.isFinal then some (r', buffer) else copyLoop memory fuel r' (leftLen - copyLen) buffer

/-- `EP_ReceiveFrameCopyCommon` with a buffer of `length` bytes, or with `NULL`. -/
def receiveFrameCopy (r : RxRing) (memory : Nat → List UInt8) (length : Option Nat) : Option (RxRing × List UInt8) :=
  match length with
  | none => (r.dropFrame c).map fun r => (r, [])
  | some length => (copyLoop c memory c.len r length []).map fun (r, buffer) => (r.setRxConsumer c, buffer)

end RxRing

/-- What the hardware writes for one descriptor: the bytes of its part of the frame and the other fields. -/
structure Segment where
  word : Nat
  hr : BitVec 4
  error : BitVec 8
  extension : RxBd
  data : List UInt8
  data_lt : data.length < 2 ^ 16

def Segment.writeBack (s : Segment) : WriteBack :=
  { word := s.word, bufLen := BitVec.ofNat 16 s.data.length, hr := s.hr, error := s.error, extension := s.extension }

/-- A frame on the bus: the error code and the host reason of its first descriptor, and the bytes of each part. -/
structure BusFrame where
  error : BitVec 8
  hr : BitVec 4
  parts : List (List UInt8)
deriving DecidableEq

namespace BusFrame

def bytes (f : BusFrame) : List UInt8 :=
  f.parts.flatten

/-- What the driver says of the size of the frame. -/
def size (f : BusFrame) : RxStatus × Nat :=
  if f.error ≠ 0 then (.rxFrameError, 0)
  else if f.hr = 3 then (.rxTsrResp, (f.parts.headD []).length)
  else if [] ∈ f.parts then (.rxFrameError, 0)
  else (if f.hr ≠ 0 then .rxHRNotZeroFrame else .success, f.bytes.length)

end BusFrame

/-- The hardware writes the data of a frame to the buffers. -/
def dma : List Nat → List (List UInt8) → (Nat → List UInt8) → Nat → List UInt8
  | buffer :: buffers, data :: parts, memory =>
    dma buffers parts (Function.update memory buffer (data ++ (memory buffer).drop data.length))
  | _, _, memory => memory

/-- What the application has got: the answer of `EP_GetRxFrameSize`, the length of the buffer that it has then passed,
and the bytes in it. -/
structure Taken where
  status : RxStatus
  length : Nat
  buffer : Option Nat
  bytes : List UInt8
deriving DecidableEq

/-- A ring with the memory of its buffers, the frames so far and what the application has got of them. -/
structure CopyRing where
  ring : RxRing
  memory : Nat → List UInt8
  arrived : List BusFrame
  taken : List Taken

namespace CopyRing

variable (c : RxConfig)

/-- The hardware receives a frame, when there are enough descriptors for it. -/
def deliver (s : CopyRing) (first : Segment) (rest : List Segment) : CopyRing :=
  if ringLength c.count s.ring.rbpir s.ring.rbcir + (rest.length + 1) < c.count then
    let (r, parts) := RxRing.writeFrame c (first.writeBack :: rest.map Segment.writeBack) s.ring
    { s with
      ring := r
      memory := dma (parts.map Prod.fst) (first.data :: rest.map Segment.data) s.memory
      arrived := s.arrived ++
        [{ error := first.error, hr := first.hr, parts := first.data :: rest.map Segment.data }] }
  else s

/-- The application asks for the size of the pending frame, and takes the frame if there is one and it wants to. It
chooses its buffer by the answer. -/
def poll (s : CopyRing) (choice : RxStatus → Nat → Option (Option Nat)) : Option CopyRing :=
  (s.ring.getRxFrameSize c).bind fun (status, length) =>
    if status = .rxFrameEmpty then some s
    else
      match choice status length with
      | none => some s
      | some buffer =>
        (s.ring.receiveFrameCopy c s.memory buffer).map fun (r, bytes) =>
          { s with ring := r, taken := s.taken ++ [⟨status, length, buffer, bytes⟩] }

end CopyRing

inductive CopyEvent where
  | deliver (first : Segment) (rest : List Segment)
  | poll (choice : RxStatus → Nat → Option (Option Nat))

/-- One event. A call that does not return leaves no ring. -/
def CopyRing.step (c : RxConfig) (s : Option CopyRing) : CopyEvent → Option CopyRing
  | .deliver first rest => s.map fun s => s.deliver c first rest
  | .poll choice => s.bind fun s => s.poll c choice

end McuxDrivers.Netc
