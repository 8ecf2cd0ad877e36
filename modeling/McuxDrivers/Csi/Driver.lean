import Mathlib.Logic.Function.Basic
import McuxDrivers.Lib.Runs

/-!
# The buffer queues of the CSI driver

The transactional calls of `fsl_csi.c` on one handle, in the build without fragment mode. A buffer is its address. The two
DMA address registers are part of the state, and so is what the application has seen so far: the buffers that it has
submitted and not got back, those that it got back, and the lengths at which a submission was refused.
-/

namespace McuxDrivers.Csi

inductive Status where
  | success
  | queueFull
  | noEmptyBuffer
  | noFullBuffer
deriving DecidableEq

/-- `buf_queue_t`. The positions are -1 while the queue is empty. -/
structure BufQueue where
  addr : Nat → Nat
  head : Int
  tail : Int

namespace BufQueue

variable (size : Nat)

/-- `CSI_InitBufferQueue`. -/
def init (bq : BufQueue) : BufQueue :=
  { bq with head := -1, tail := -1 }

def isEmpty (bq : BufQueue) : Prop :=
  bq.head = -1 ∧ bq.tail = -1

instance (bq : BufQueue) : Decidable bq.isEmpty :=
  inferInstanceAs (Decidable (_ ∧ _))

/-- `CSI_IsBufferQueueFull` looks at the tail alone. -/
def isFull (bq : BufQueue) : Prop :=
  bq.tail = (size : Int) - 1

instance (bq : BufQueue) : Decidable (bq.isFull size) :=
  inferInstanceAs (Decidable (_ = _))

/-- `CSI_BufferQueueCount`. -/
def count (bq : BufQueue) : Nat :=
  if bq.isEmpty then 0 else (bq.tail - bq.head).toNat + 1

/-- `CSI_EnqueueBuffer`. -/
def enqueue (bq : BufQueue) (addr : Nat) : BufQueue × Status :=
  if bq.isFull size then (bq, .queueFull)
  else
    let head := if bq.isEmpty then 0 else bq.head
    let tail := bq.tail + 1
    ({ head, tail, addr := Function.update bq.addr tail.toNat addr }, .success)

/-- `CSI_DequeueBuffer`. -/
def dequeue (bq : BufQueue) : BufQueue × Nat :=
  if bq.isEmpty then (bq, 0)
  else
    let addr := bq.addr bq.head.toNat
    if bq.head = bq.tail then (bq.init, addr) else ({ bq with head := bq.head + 1 }, addr)

/-- The buffers from the head to the tail. -/
def contents (bq : BufQueue) : List Nat :=
  (List.range' bq.head.toNat bq.count).map bq.addr

end BufQueue

/-- `CSI_MAX_ACTIVE_FRAME_NUM`. -/
def maxActiveFrameNum : Nat := 2

/-- The handle, the two DMA address registers and what the application has seen. -/
structure Handle where
  emptyBufferQueue : BufQueue
  fullBufferQueue : BufQueue
  activeBufferNum : Nat
  dmaDoneBufferIdx : Nat
  transferStarted : Bool
  fb1 : Nat
  fb2 : Nat
  -- submitted successfully and not returned
  outstanding : List Nat
  -- the frames in the order in which they were done
  completed : List Nat
  returned : List Nat
  -- the number of empty buffers at each refused submission
  refusals : List Nat

namespace Handle

variable (size : Nat)

/-- `CSI_GetRxBufferAddr`. -/
def getRxBufferAddr (s : Handle) (index : Nat) : Nat :=
  if index ≠ 0 then s.fb2 else s.fb1

/-- `CSI_SetRxBufferAddr`. -/
def setRxBufferAddr (s : Handle) (index addr : Nat) : Handle :=
  if index ≠ 0 then { s with fb2 := addr } else { s with fb1 := addr }

/-- `CSI_TransferStart`. -/
def transferStart (s : Handle) : Handle × Status :=
  if s.emptyBufferQueue.count < maxActiveFrameNum then (s, .noEmptyBuffer)
  else
    let first := s.emptyBufferQueue.dequeue
    let second := first.1.dequeue
    ({ s with
        emptyBufferQueue := second.1
        fb1 := first.2
        fb2 := second.2
        activeBufferNum := maxActiveFrameNum
        transferStarted := true }, .success)

/-- One round of the loop of `CSI_TransferStop`. The status of the queue is ignored. -/
def releaseActive (s : Handle) (bufIdx : Nat) : Handle :=
  { s with emptyBufferQueue := (s.emptyBufferQueue.enqueue size (s.getRxBufferAddr bufIdx)).1 }

/-- `CSI_TransferStop`. -/
def transferStop (s : Handle) : Handle × Status :=
  let stopped := { s with transferStarted := false, activeBufferNum := 0 }
  ((List.range s.activeBufferNum).foldl (releaseActive size) stopped, .success)

/-- `CSI_TransferSubmitEmptyBuffer`. -/
def transferSubmitEmptyBuffer (s : Handle) (frameBuffer : Nat) : Handle × Status :=
  if s.activeBufferNum = 1 then
    ({ s.setRxBufferAddr s.dmaDoneBufferIdx frameBuffer with activeBufferNum := s.activeBufferNum + 1 }, .success)
  else
    let queued := s.emptyBufferQueue.enqueue size frameBuffer
    ({ s with emptyBufferQueue := queued.1 }, queued.2)

/-- `CSI_TransferGetFullBuffer`. -/
def transferGetFullBuffer (s : Handle) : Handle × Except Status Nat :=
  if s.fullBufferQueue.isEmpty then (s, .error .noFullBuffer)
  else
    let front := s.fullBufferQueue.dequeue
    ({ s with fullBufferQueue := front.1 }, .ok front.2)

/-- Store a full buffer. A queue that is full first drops its oldest buffer, and the status of the second call is
ignored. -/
def storeFull (s : Handle) (fullFb : Nat) : Handle :=
  let room := if s.fullBufferQueue.isFull size then s.fullBufferQueue.dequeue.1 else s.fullBufferQueue
  { s with fullBufferQueue := (room.enqueue size fullFb).1, completed := s.completed ++ [fullFb] }

/-- `CSI_TransferHandleIRQ` when one of the two flags is set. The second component says whether the callback is
called. -/
def frameDone (s : Handle) (index : Nat) : Handle × Bool :=
  let s := { s with dmaDoneBufferIdx := index }
  let fullFb := s.getRxBufferAddr index
  if 0 < s.emptyBufferQueue.count then
    let s := s.storeFull size fullFb
    let front := s.emptyBufferQueue.dequeue
    ({ s with emptyBufferQueue := front.1 }.setRxBufferAddr index front.2, true)
  else if 1 < s.activeBufferNum then
    let s := s.storeFull size fullFb
    let s := { s with activeBufferNum := s.activeBufferNum - 1 }
    (s.setRxBufferAddr index (s.getRxBufferAddr (index ^^^ 1)), true)
  else if s.activeBufferNum = 1 then (s, false)
  else (s, true)

/-- `CSI_TransferHandleIRQ` with the two DMA done flags of the status register. -/
def transferHandleIRQ (s : Handle) (fb1Done fb2Done : Bool) : Handle × Bool :=
  match fb1Done, fb2Done with
  | true, true => (s, false)
  | false, true => s.frameDone size 1
  | true, false => s.frameDone size 0
  | false, false => (s, false)

/-- The buffers in the DMA registers, one buffer once. -/
def active (s : Handle) : List Nat :=
  if s.activeBufferNum = 0 then [] else if s.fb1 = s.fb2 then [s.fb1] else [s.fb1, s.fb2]

/-- `CSI_TransferCreateHandle`, with any addresses in the registers. -/
def transferCreateHandle (fb1 fb2 : Nat) : Handle where
  emptyBufferQueue := BufQueue.init ⟨fun _ => 0, 0, 0⟩
  fullBufferQueue := BufQueue.init ⟨fun _ => 0, 0, 0⟩
  activeBufferNum := 0
  dmaDoneBufferIdx := 0
  transferStarted := false
  fb1 := fb1
  fb2 := fb2
  outstanding := []
  completed := []
  returned := []
  refusals := []

end Handle

/-- What happens to the handle. -/
inductive Event where
  | submit (frameBuffer : Nat)
  | start
  | stop
  | getFull
  | irq (fb1Done fb2Done : Bool)

namespace Handle

variable (size : Nat)

/-- A submission as the application sees it. -/
def submit (s : Handle) (frameBuffer : Nat) : Handle :=
  let result := s.transferSubmitEmptyBuffer size frameBuffer
  if result.2 = .success then { result.1 with outstanding := frameBuffer :: s.outstanding }
  else { result.1 with refusals := s.emptyBufferQueue.contents.length :: s.refusals }

/-- A request for a full buffer as the application sees it. -/
def getFull (s : Handle) : Handle :=
  match s.transferGetFullBuffer with
  | (s, .ok frameBuffer) =>
    { s with outstanding := s.outstanding.erase frameBuffer, returned := s.returned ++ [frameBuffer] }
  | (s, .error _) => s

def step (s : Handle) : Event → Handle
  | .submit frameBuffer => s.submit size frameBuffer
  | .start => s.transferStart.1
  | .stop => (s.transferStop size).1
  | .getFull => s.getFull
  | .irq fb1Done fb2Done => (s.transferHandleIRQ size fb1Done fb2Done).1

end Handle

end McuxDrivers.Csi
