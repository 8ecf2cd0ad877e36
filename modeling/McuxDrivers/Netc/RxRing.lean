import McuxDrivers.Lib.Pool
import McuxDrivers.Netc.TxRing

/-!
# The receive ring of a NETC endpoint

`EP_ReceiveFrame` and `EP_DropFrame` of `fsl_netc_endpoint.c` on one ring with zero copy, without frame attributes and
without address offset. The hardware fills the descriptors up to the consumer index, a whole frame at a time.
-/

namespace McuxDrivers.Netc
open McuxDrivers.Lib

/-- The codes that `EP_ReceiveFrame` returns. -/
inductive RxStatus where
  | success
  | rxFrameEmpty
  | rxFrameError
  | rxTsrResp
  | rxHRNotZeroFrame
  | lackOfResource
deriving DecidableEq

/-- The fields of `netc_rx_bd_t` that the driver uses. -/
structure RxBd where
  /-- The first double word, which holds the buffer address until the hardware writes back over it. -/
  addr : Nat
  bufLen : BitVec 16
  hr : BitVec 4
  error : BitVec 8
  isReady : Bool
  isFinal : Bool
deriving DecidableEq

/-- An entry of `frame->buffArray`: a buffer and the length of the data in it. -/
abbrev Part := Nat × BitVec 16

/-- A frame in the buffers that the hardware has put it into. The error code and the host reason are those of its
first descriptor. -/
structure RxFrame where
  error : BitVec 8
  hr : BitVec 4
  parts : List Part
deriving DecidableEq

/-- The length of a ring and the format of its descriptors. -/
structure RxConfig where
  len : Nat
  extendDesc : Bool
  len_pos : 0 < len
  len_le : len ≤ 2 ^ 16
  len_even : extendDesc = true → len % 2 = 0

/-- The number of descriptors as the hardware counts them. -/
def RxConfig.count (c : RxConfig) : Nat :=
  if c.extendDesc then c.len / 2 else c.len

/-- The place of the descriptor that the hardware calls `u`. -/
def RxConfig.bdIndex (c : RxConfig) (u : Nat) : Nat :=
  if c.extendDesc then 2 * u else u

/-- A ring `netc_rx_bdr_t`, its registers, the owners of the buffers outside of it and the frames and results so
far. -/
structure RxRing where
  bdBase : Nat → RxBd
  buffArray : Nat → Nat
  index : Nat
  /-- The producer index register of the ring. -/
  rbpir : Nat
  /-- The consumer index register of the ring. -/
  rbcir : Nat
  /-- The buffers that the allocator can hand out. -/
  pool : List Nat
  /-- The buffers that the application has. -/
  application : List Nat
  /-- The frames that the hardware has delivered. -/
  arrived : List RxFrame
  /-- What the calls of `EP_ReceiveFrame` have returned. -/
  results : List (RxStatus × List Part)

namespace RxRing

variable (c : RxConfig)

/-- The index into `buffArray`. -/
def buffIdx (r : RxRing) : Nat :=
  if c.extendDesc then r.index / 2 else r.index

/-- The index of the next descriptor. An extended one takes two places. -/
def nextIndex (index : Nat) : Nat :=
  if c.extendDesc then increaseIndex (increaseIndex index c.len) c.len else increaseIndex index c.len

/-- Give the current descriptor back to the hardware with a buffer, and go to the next one. -/
def release (r : RxRing) (buffer : Nat) : RxRing :=
  { r with
    bdBase := Function.update r.bdBase r.index
      { r.bdBase r.index with addr := buffer, isReady := false, isFinal := false }
    index := nextIndex c r.index }

/-- `NETC_SISetRxConsumer` with the current descriptor. -/
def setRxConsumer (r : RxRing) : RxRing :=
  { r with rbcir := r.buffIdx c }

/-- The loop of `EP_DropFrame`, of at most `fuel` rounds. -/
def dropLoop : Nat → RxRing → Option RxRing
  | 0, _ => none
  | fuel + 1, r =>
    let r' := r.release c (r.buffArray (r.buffIdx c))
    if (r.bdBase r.index).isFinal then some r' else dropLoop fuel r'

/-- `EP_DropFrame`. -/
def dropFrame (r : RxRing) : Option RxRing :=
  (dropLoop c c.len r).map (setRxConsumer c)

/-- The loop of `EP_ReceiveFrameCommon` over the entries of `frame->buffArray` with new buffers. It does not return when
the frame has more descriptors than there are new buffers. -/
def exchange : List Nat → RxRing → List Part → Option (RxRing × List Part)
  | [], _, _ => none
  | newBuff :: newBuffs, r, parts =>
    let parts' := parts ++ [(r.buffArray (r.buffIdx c), (r.bdBase r.index).bufLen)]
    let r' := { r.release c newBuff with buffArray := Function.update r.buffArray (r.buffIdx c) newBuff }
    if (r.bdBase r.index).isFinal then some (r', parts') else exchange newBuffs r' parts'

/-- `EP_ReceiveFrameCommon`. -/
def receiveFrameCommon (r : RxRing) (newBuffs : List Nat) : Option (RxRing × List Part) :=
  (exchange c newBuffs r []).map fun (r, parts) => (r.setRxConsumer c, parts)

/-- The loop of `EP_ReceiveFrame` that counts the descriptors of the frame, of at most `fuel` rounds. -/
def countLoop (r : RxRing) : Nat → Nat → Nat → Option Nat
  | 0, _, _ => none
  | fuel + 1, index, buffNum =>
    if (r.bdBase index).isFinal then some (buffNum + 1)
    else if nextIndex c index = r.index then some (buffNum + 1)
    else countLoop r fuel (nextIndex c index) (buffNum + 1)

end RxRing

/-- The loop of `EP_ReceiveFrame` that allocates the new buffers, with what the allocator answers. It gives the pool,
and the new buffers unless an allocation failed and they were all freed. -/
def allocBuffers : Nat → List (Option Nat) → List Nat → List Nat → List Nat × Option (List Nat)
  | 0, _, pool, newBuffs => (pool, some newBuffs)
  | buffNum + 1, answers, pool, newBuffs =>
    match poolAlloc pool (answers.headD none) with
    | none => (newBuffs.reverse.foldl poolFree pool, none)
    | some (newBuff, pool) => allocBuffers buffNum answers.tail pool (newBuffs ++ [newBuff])

namespace RxRing

variable (c : RxConfig)

/-- The end of a call of `EP_ReceiveFrame` that drops the frame. -/
def dropWith (r : RxRing) (result : RxStatus) : Option (RxRing × RxStatus × List Part) :=
  (r.dropFrame c).map fun r => (r, result, [])

/-- `EP_ReceiveFrame` with an array of `length` entries, and with what the allocator answers. It returns the code and the
entries of the array. -/
def receiveFrame (r : RxRing) (length : Nat) (answers : List (Option Nat)) :
    Option (RxRing × RxStatus × List Part) :=
  let rxDesc := r.bdBase r.index
  if rxDesc.isReady = false then some (r, .rxFrameEmpty, [])
  else if rxDesc.error ≠ 0 then r.dropWith c .rxFrameError
  else if rxDesc.hr = 3 then some (r, .rxTsrResp, [])
  else if rxDesc.hr ≠ 0 then some (r, .rxHRNotZeroFrame, [])
  else
    (r.countLoop c c.len r.index 0).bind fun buffNum =>
      if buffNum > length then some (r, .lackOfResource, [])
      else
        match allocBuffers buffNum answers r.pool [] with
        | (pool, none) => { r with pool := pool }.dropWith c .lackOfResource
        | (pool, some newBuffs) =>
          ({ r with pool := pool }.receiveFrameCommon c newBuffs).map fun (r, parts) => (r, .success, parts)

/-- A call of `EP_ReceiveFrame` by an application that keeps the buffers it gets. -/
def receive (r : RxRing) (length : Nat) (answers : List (Option Nat)) : Option RxRing :=
  (r.receiveFrame c length answers).map fun (r, result, parts) =>
    { r with
      application := r.application ++ parts.map Prod.fst
      results := r.results ++ [(result, parts)] }

end RxRing

/-- What the hardware writes back into one descriptor: the first double word, the fields, and the second half of an
extended descriptor. -/
structure WriteBack where
  word : Nat
  bufLen : BitVec 16
  hr : BitVec 4
  error : BitVec 8
  extension : RxBd
deriving DecidableEq

namespace RxRing

variable (c : RxConfig)

/-- The hardware fills the descriptor at its producer index. -/
def writeBack (r : RxRing) (w : WriteBack) (isFinal : Bool) : RxRing :=
  let index := c.bdIndex r.rbpir
  let bd :=
    { addr := w.word, bufLen := w.bufLen, hr := w.hr, error := w.error, isReady := true, isFinal := isFinal }
  let bdBase := if c.extendDesc then Function.update r.bdBase (index + 1) w.extension else r.bdBase
  { r with
    bdBase := Function.update bdBase index bd
    rbpir := (r.rbpir + 1) % c.count }

/-- The hardware fills the descriptors of a frame. It gives the buffers that it has found in them. -/
def writeFrame : List WriteBack → RxRing → RxRing × List Part
  | [], r => (r, [])
  | w :: ws, r =>
    let (r', parts) := writeFrame ws (r.writeBack c w ws.isEmpty)
    (r', ((r.bdBase (c.bdIndex r.rbpir)).addr, w.bufLen) :: parts)

/-- The hardware receives a frame, when there are enough descriptors for it. -/
def deliver (r : RxRing) (first : WriteBack) (rest : List WriteBack) : RxRing :=
  if ringLength c.count r.rbpir r.rbcir + (rest.length + 1) < c.count then
    let (r', parts) := writeFrame c (first :: rest) r
    { r' with arrived := r'.arrived ++ [{ error := first.error, hr := first.hr, parts := parts }] }
  else r

/-- The application gives one of its buffers back to the allocator. -/
def free (r : RxRing) (buffer : Nat) : RxRing :=
  if buffer ∈ r.application then
    { r with application := r.application.erase buffer, pool := poolFree r.pool buffer }
  else r

/-- A ring as `EP_RxBufferAllocAll` leaves it, with the buffers of `buffArray`. -/
def init (buffArray : Nat → Nat) (pool : List Nat) : RxRing :=
  { bdBase := fun i =>
      { addr := if c.extendDesc then (if i % 2 = 0 then buffArray (i / 2) else 0) else buffArray i
        bufLen := 0
        hr := 0
        error := 0
        isReady := false
        isFinal := false }
    buffArray := buffArray
    index := 0
    rbpir := 0
    rbcir := 0
    pool := pool
    application := []
    arrived := []
    results := [] }

/-- The buffers of the ring. -/
def ringBuffers (r : RxRing) : List Nat :=
  (List.range c.count).map r.buffArray

end RxRing

/-- What happens to a ring: a frame from the hardware, a call of `EP_ReceiveFrame`, or a buffer that the application
frees. -/
inductive RxEvent where
  | deliver (first : WriteBack) (rest : List WriteBack)
  | receive (length : Nat) (answers : List (Option Nat))
  | free (buffer : Nat)

/-- One event. A call that does not return leaves no ring. -/
def RxRing.step (c : RxConfig) (r : Option RxRing) : RxEvent → Option RxRing
  | .deliver first rest => r.map fun r => r.deliver c first rest
  | .receive length answers => r.bind fun r => r.receive c length answers
  | .free buffer => r.map fun r => r.free buffer

end McuxDrivers.Netc
