import McuxDrivers.Lib.Ring
import McuxDrivers.Lib.Runs
import Mathlib.Data.BitVec

/-!
# The transmit ring of a NETC endpoint

`EP_SendFrame` and `EP_ReclaimTxDescriptor` of `fsl_netc_endpoint.c` on one ring, without the switch tag feature and
without address offset. The hardware consumes the submitted descriptors frame by frame.
-/

namespace McuxDrivers.Netc
open McuxDrivers.Lib

/-- The codes that `EP_SendFrame` returns. -/
inductive TxStatus where
  | success
  | txFrameOverLen
  | busy
  | invalidArgument
deriving DecidableEq

/-- `netc_tx_bd_t`. The standard, the extension and the write-back format lie over each other in the same words. -/
structure TxBd where
  /-- The first double word. -/
  addr : BitVec 64
  /-- The bits 0 to 15 of the second double word. -/
  bufLen : BitVec 16
  /-- The bits 16 to 31 of the second double word. -/
  frameLen : BitVec 16
  /-- The bits 32 to 63 of the second double word. -/
  ctrl : BitVec 32
deriving DecidableEq

/-- `NETC_ClearTxDescriptor`. -/
def clearTxDescriptor : TxBd :=
  { addr := 0, bufLen := 0, frameLen := 0, ctrl := 0 }

namespace TxBd

/-- `standard.flags`. -/
def flags (bd : TxBd) : BitVec 29 := bd.ctrl.extractLsb' 0 29

/-- `standard.isExtended`. -/
def isExtended (bd : TxBd) : Bool := bd.ctrl.getLsbD 30

/-- `standard.isFinal`, which is `ext.isFinal` too. -/
def isFinal (bd : TxBd) : Bool := bd.ctrl.getLsbD 31

/-- `ext.eFlags`. -/
def eFlags (bd : TxBd) : BitVec 8 := bd.ctrl.extractLsb' 16 8

/-- `writeback.timestamp`. -/
def timestamp (bd : TxBd) : BitVec 32 := bd.addr.extractLsb' 0 32

/-- `writeback.txtsid`. -/
def txtsid (bd : TxBd) : BitVec 16 := bd.addr.extractLsb' 32 16

/-- `writeback.status`. -/
def status (bd : TxBd) : BitVec 9 := bd.ctrl.extractLsb' 16 9

/-- `writeback.written`. -/
def written (bd : TxBd) : Bool := bd.ctrl.getLsbD 26

/-- `standard.isFinal = 1`. -/
def setFinal (bd : TxBd) : TxBd := { bd with ctrl := bd.ctrl ||| 0x80000000#32 }

/-- The second double word of a standard descriptor. -/
def controlWord (flags : BitVec 29) (enableInterrupt isExtended : Bool) : BitVec 32 :=
  0#1 ++ BitVec.ofBool isExtended ++ BitVec.ofBool enableInterrupt ++ flags

end TxBd

/-- `netc_tx_frame_info_t`. -/
structure TxFrameInfo where
  isTsAvail : Bool
  timestamp : BitVec 32
  isTxTsIdAvail : Bool
  txtsid : BitVec 16
  context : Nat
  status : BitVec 9
deriving DecidableEq

/-- `netc_buffer_struct_t`. -/
structure Buffer where
  buffer : BitVec 32
  length : BitVec 16
deriving DecidableEq

/-- `netc_frame_struct_t` with at least one buffer. -/
structure Frame where
  first : Buffer
  rest : List Buffer
  length_lt : rest.length + 1 < 2 ^ 16

/-- `frame->buffArray`. -/
def Frame.buffArray (frame : Frame) : List Buffer :=
  frame.first :: frame.rest

/-- The sum of the buffer lengths. -/
def Frame.frameLen (frame : Frame) : Nat :=
  (frame.buffArray.map fun b => b.length.toNat).sum

/-- The number of descriptors that a frame takes. -/
def Frame.totBdNum (frame : Frame) (isExtEnable : Bool) : Nat :=
  if isExtEnable then frame.buffArray.length + 1 else frame.buffArray.length

/-- `ep_tx_opt`. -/
structure TxOpt where
  flags : BitVec 32
  timestamp : BitVec 32
  pcp : BitVec 3
  dei : BitVec 1
  vid : BitVec 12
  tpid : BitVec 2

/-- A ring `netc_tx_bdr_t`, its registers and what the application has seen of it. -/
structure TxRing where
  len : Nat
  bdBase : Nat → TxBd
  dirtyBase : Nat → TxFrameInfo
  producerIndex : Nat
  cleanIndex : Nat
  /-- The producer index register of the ring. -/
  tbpir : Nat
  /-- The consumer index register of the ring. -/
  tbcir : Nat
  /-- The transmit interrupt enable bit of the ring. -/
  txfie : Bool
  /-- Whether a reclaim callback is installed. -/
  reclaimCallback : Bool
  /-- The contexts of the calls of `EP_SendFrame` that returned success. -/
  accepted : List Nat
  /-- The arguments of the reclaim callback, in the order of its calls. -/
  reports : List TxFrameInfo
  /-- The number of frames that the hardware has consumed. -/
  completed : Nat

/-- `EP_IncreaseIndex`. -/
def increaseIndex (index max : Nat) : Nat :=
  if index + 1 ≥ max then 0 else (index + 1) % 2 ^ 16

namespace TxRing

/-- `EP_GetIdleTxBDNum`. -/
def getIdleTxBDNum (r : TxRing) : Nat :=
  if r.producerIndex ≥ r.cleanIndex then (r.len - r.producerIndex + r.cleanIndex - 1) % 2 ^ 16
  else r.cleanIndex - r.producerIndex - 1

/-- Write the descriptor at the producer index. -/
def writeBd (r : TxRing) (bd : TxBd) : TxRing :=
  { r with bdBase := Function.update r.bdBase r.producerIndex bd }

/-- Move the producer index on. -/
def produce (r : TxRing) : TxRing :=
  { r with producerIndex := increaseIndex r.producerIndex r.len }

/-- The first descriptor of a frame, and what the ring remembers of the frame. -/
def writeFirst (r : TxRing) (frameLen context : Nat) (txDesc0 txDesc1 : TxBd) (txBuff : Buffer) : TxRing :=
  let info :=
    { r.dirtyBase r.producerIndex with
      context := context
      isTxTsIdAvail := txDesc0.flags.getLsbD 22
      isTsAvail := txDesc0.isExtended && txDesc1.eFlags.getLsbD 2 }
  let r := { r with dirtyBase := Function.update r.dirtyBase r.producerIndex info }
  r.writeBd
    { addr := txBuff.buffer.setWidth 64
      bufLen := txBuff.length
      frameLen := BitVec.ofNat 16 frameLen
      ctrl := TxBd.controlWord txDesc0.flags r.txfie txDesc0.isExtended }

/-- The loop of `EP_SendFrameCommon` over the buffers. It gives the ring and the last descriptor that it has written,
or the ring as a NULL buffer leaves it. -/
def fill (frameLen context : Nat) (txDesc0 txDesc1 : TxBd) (totBdNum : Nat) :
    Nat → List Buffer → TxRing → Nat → Except TxRing (TxRing × Nat)
  | _, [], r, txDesTemp => .ok (r, txDesTemp)
  | bdIndex, txBuff :: buffers, r, txDesTemp =>
    if bdIndex < totBdNum then
      if txBuff.buffer = 0 then .error r
      else if bdIndex = 0 then
        let r' := r.writeFirst frameLen context txDesc0 txDesc1 txBuff
        if txDesc0.isExtended then
          fill frameLen context txDesc0 txDesc1 totBdNum (bdIndex + 2) buffers
            (r'.produce.writeBd txDesc1).produce r'.produce.producerIndex
        else
          fill frameLen context txDesc0 txDesc1 totBdNum (bdIndex + 1) buffers r'.produce r.producerIndex
      else
        let bd := { clearTxDescriptor with addr := txBuff.buffer.setWidth 64, bufLen := txBuff.length }
        fill frameLen context txDesc0 txDesc1 totBdNum (bdIndex + 1) buffers (r.writeBd bd).produce r.producerIndex
    else .ok (r, txDesTemp)

/-- `EP_SendFrameCommon`. -/
def sendFrameCommon (r : TxRing) (frame : Frame) (context : Nat) (txDesc0 txDesc1 : TxBd) : TxRing × TxStatus :=
  -- the length check of the first buffer only sets the result
  let result := if frame.first.length.toNat < 16 then .txFrameOverLen else .success
  let totBdNum := frame.totBdNum txDesc0.isExtended
  if frame.frameLen > 9600 then (r, .txFrameOverLen)
  else if totBdNum > r.getIdleTxBDNum then (r, .busy)
  else
    match fill frame.frameLen context txDesc0 txDesc1 totBdNum 0 frame.buffArray r r.producerIndex with
    | .error r' => (r', .invalidArgument)
    | .ok (r', txDesTemp) =>
      ({ r' with
          bdBase := Function.update r'.bdBase txDesTemp (r'.bdBase txDesTemp).setFinal
          tbpir := r'.producerIndex }, result)

end TxRing

/-- The extension flags that the options ask for. -/
def TxOpt.eFlags (opt : TxOpt) : BitVec 8 :=
  (if opt.flags.getLsbD 1 then 0x1#8 else 0) ||| (if opt.flags.getLsbD 0 then 0x4#8 else 0) |||
    (if opt.flags.getLsbD 3 then 0x2#8 else 0)

/-- `txDesc[0]` of `EP_SendFrame`. -/
def txDesc0 : Option TxOpt → TxBd
  | none => clearTxDescriptor
  | some opt =>
    let flags := if opt.flags.getLsbD 2 then 0x12000000#29 ||| (opt.timestamp &&& 0x1FFFFFF#32).setWidth 29 else 0
    let isExtended := opt.flags.getLsbD 1 || opt.flags.getLsbD 0 || opt.flags.getLsbD 3
    { clearTxDescriptor with ctrl := TxBd.controlWord flags false isExtended }

/-- `txDesc[1]` of `EP_SendFrame`. -/
def txDesc1 : Option TxOpt → TxBd
  | none => clearTxDescriptor
  | some opt =>
    { clearTxDescriptor with
      addr := if opt.flags.getLsbD 1 then opt.pcp ++ opt.dei ++ opt.vid ++ opt.tpid ++ 0#46 else 0
      ctrl := 0#8 ++ opt.eFlags ++ 0#16 }

namespace TxRing

/-- `EP_SendFrame`. The contexts of the frames that it accepts are recorded. -/
def sendFrame (r : TxRing) (frame : Frame) (context : Nat) (opt : Option TxOpt) : TxRing × TxStatus :=
  let (r', result) := r.sendFrameCommon frame context (txDesc0 opt) (txDesc1 opt)
  if result = .success then ({ r' with accepted := r'.accepted ++ [context] }, result) else (r', result)

/-- The descriptors after the hardware has perhaps written the first one of the next frame back. -/
def writeBack (r : TxRing) : Option TxBd → Nat → TxBd
  | none => r.bdBase
  | some bd => Function.update r.bdBase r.tbcir { bd with ctrl := bd.ctrl ||| 0x04000000#32 }

/-- The hardware consumes the next frame of the submitted descriptors, and perhaps writes its first one back. -/
def consume (r : TxRing) (writeback : Option TxBd) : TxRing :=
  let submitted := ringContents r.bdBase r.len r.tbpir r.tbcir
  if submitted = [] then r
  else
    let count := min (submitted.findIdx TxBd.isFinal + 1) submitted.length
    { r with
      bdBase := r.writeBack writeback
      tbcir := (r.tbcir + count) % r.len
      completed := r.completed + 1 }

/-- A read of the consumer index. The hardware may consume frames before each read. -/
def getTxConsumer (r : TxRing) : List (List (Option TxBd)) → TxRing × List (List (Option TxBd))
  | [] => (r, [])
  | frames :: reads => (frames.foldl consume r, reads)

/-- The number of descriptors from the clean index up to the consumer index. -/
def dirtyNum (r : TxRing) : Nat :=
  if r.tbcir ≥ r.cleanIndex then r.tbcir - r.cleanIndex else (r.len - r.cleanIndex + r.tbcir) % 2 ^ 16

/-- What a descriptor that is cleaned says about its frame, if it is the first one of it. -/
def frameInfo (r : TxRing) : Option TxFrameInfo :=
  let txDesc := r.bdBase r.cleanIndex
  let info := r.dirtyBase r.cleanIndex
  if txDesc.written then
    some { info with
      timestamp := if info.isTsAvail then txDesc.timestamp else 0
      txtsid := if info.isTxTsIdAvail then txDesc.txtsid else 0
      status := txDesc.status }
  else if txDesc.frameLen ≠ 0 then some { info with status := 0 }
  else none

/-- Move the clean index on. -/
def clean (r : TxRing) : TxRing :=
  { r with cleanIndex := increaseIndex r.cleanIndex r.len }

/-- Write what is known of the frame at the clean index. -/
def setInfo (r : TxRing) (info : TxFrameInfo) : TxRing :=
  { r with dirtyBase := Function.update r.dirtyBase r.cleanIndex info }

/-- The loop of `EP_ReclaimTxDescCommon`, of at most `fuel` rounds. -/
def reclaimLoop (enCallback : Bool) : Nat → Nat → Option Nat → TxRing → List (List (Option TxBd)) →
    Option (TxRing × List (List (Option TxBd)) × Option Nat)
  | 0, _, _, _, _ => none
  | fuel + 1, cleanNum, found, r, reads =>
    let next (found : Option Nat) (r : TxRing) :=
      if cleanNum - 1 = 0 then
        let (r, reads) := r.getTxConsumer reads
        reclaimLoop enCallback fuel r.dirtyNum found r reads
      else reclaimLoop enCallback fuel (cleanNum - 1) found r reads
    if cleanNum = 0 then some (r, reads, found)
    else
      match if enCallback then r.frameInfo else none with
      | none => next found r.clean
      -- never more than one full frame
      | some info => if found.isSome then some (r, reads, found) else next (some r.cleanIndex) (r.setInfo info).clean

/-- `EP_ReclaimTxDescCommon`. It gives the place of the information on the frame that it has reclaimed. -/
def reclaimTxDescCommon (r : TxRing) (enCallback : Bool) (reads : List (List (Option TxBd))) :
    Option (TxRing × List (List (Option TxBd)) × Option Nat) :=
  let (r, reads) := r.getTxConsumer reads
  reclaimLoop enCallback r.len r.dirtyNum none r reads

/-- The loop of `EP_ReclaimTxDescriptor`, of at most `fuel` rounds. -/
def reclaimFrames : Nat → TxRing → List (List (Option TxBd)) → Option TxRing
  | 0, _, _ => none
  | fuel + 1, r, reads =>
    match r.reclaimTxDescCommon r.reclaimCallback reads with
    | none => none
    | some (r, _, none) => some r
    | some (r, reads, some found) => reclaimFrames fuel { r with reports := r.reports ++ [r.dirtyBase found] } reads

/-- `EP_ReclaimTxDescriptor`. -/
def reclaimTxDescriptor (r : TxRing) (reads : List (List (Option TxBd))) : Option TxRing :=
  reclaimFrames r.len r reads

/-- An empty ring with a reclaim callback. -/
def init (len : Nat) (bdBase : Nat → TxBd) (dirtyBase : Nat → TxFrameInfo) (txfie : Bool) : TxRing :=
  { len := len
    bdBase := bdBase
    dirtyBase := dirtyBase
    producerIndex := 0
    cleanIndex := 0
    tbpir := 0
    tbcir := 0
    txfie := txfie
    reclaimCallback := true
    accepted := []
    reports := []
    completed := 0 }

end TxRing

/-- What happens to a ring: a call of `EP_SendFrame`, a frame that the hardware consumes, or a call of
`EP_ReclaimTxDescriptor` with the frames that the hardware consumes before each of its reads. -/
inductive TxEvent where
  | send (frame : Frame) (context : Nat) (opt : Option TxOpt)
  | consume (writeback : Option TxBd)
  | reclaim (reads : List (List (Option TxBd)))

/-- One event. A reclaim that does not return leaves no ring. -/
def TxRing.step (r : Option TxRing) : TxEvent → Option TxRing
  | .send frame context opt => r.map fun r => (r.sendFrame frame context opt).1
  | .consume writeback => r.map fun r => r.consume writeback
  | .reclaim reads => r.bind fun r => r.reclaimTxDescriptor reads

end McuxDrivers.Netc
