import McuxDrivers.Lib.Ring
import McuxDrivers.Lib.Runs

/-!
# The transmit ring of the ENET driver

`ENET_SendFrame`, `ENET_StartTxFrame`, `ENET_SetTxReclaim` and `ENET_ReclaimTxDescriptor` of `fsl_enet.c` on one ring.
Of a descriptor only the READY and LAST bits are kept: the buffers, lengths and timestamps decide nothing here. The uDMA
clears READY descriptor by descriptor, also while a call runs.
-/

namespace McuxDrivers.Enet
open McuxDrivers.Lib

inductive TxStatus where
  | success
  | txFrameBusy
  | txFrameOverLen
deriving DecidableEq

/-- `ENET_IncreaseIndex`. -/
def increaseIndex (index max : Nat) : Nat :=
  if (index + 1) % 2 ^ 16 ≥ max then 0 else (index + 1) % 2 ^ 16

/-- The bits READY and LAST of `control`. -/
structure TxBd where
  ready : Bool
  last : Bool
deriving DecidableEq

/-- The ring length, `txBuffSizeAlign` and the frame length limitation. -/
structure TxConfig where
  txRingLen : Nat
  txBuffSizeAlign : Nat
  lenLimitation : Nat
  len_pos : 0 < txRingLen
  len_lt : txRingLen < 2 ^ 16
  size_pos : 0 < txBuffSizeAlign

/-- `enet_tx_bd_ring_t` and `enet_tx_dirty_ring_t` of one ring, and what has happened so far. -/
structure TxRing where
  txBdBase : Nat → TxBd
  txGenIdx : Nat
  txConsumIdx : Nat
  txDescUsed : Nat
  txReclaimEnable : Bool
  /-- The contexts of `txDirtyBase`. -/
  txDirtyBase : Nat → Nat
  dirtyGenIdx : Nat
  dirtyConsumIdx : Nat
  isFull : Bool
  /-- The descriptor that the uDMA reads next. -/
  dmaIdx : Nat
  /-- The numbers of descriptors made READY, completed by the uDMA and reclaimed. -/
  queued : Nat
  completed : Nat
  reclaimed : Nat
  /-- The frames that were sent with success, by their contexts and numbers of descriptors. -/
  accepted : List (Nat × Nat)
  /-- The contexts that the callback got. -/
  reports : List Nat

namespace TxRing

variable (c : TxConfig)

/-- The uDMA completes its next descriptor, if that is READY. -/
def complete (r : TxRing) : TxRing :=
  let bd := r.txBdBase r.dmaIdx
  if bd.ready then
    { r with
      txBdBase := Function.update r.txBdBase r.dmaIdx { bd with ready := false }
      dmaIdx := increaseIndex r.dmaIdx c.txRingLen
      completed := r.completed + 1 }
  else r

/-- The uDMA completes up to `n` descriptors. -/
def completeMany : Nat → TxRing → TxRing
  | 0, r => r
  | n + 1, r => completeMany n (r.complete c)

/-- Make the descriptor at `txGenIdx` READY. -/
def queueBd (r : TxRing) (last : Bool) : TxRing :=
  { r with
    txBdBase := Function.update r.txBdBase r.txGenIdx { ready := true, last := last }
    txGenIdx := increaseIndex r.txGenIdx c.txRingLen
    txDescUsed := if r.txReclaimEnable then (r.txDescUsed + 1) % 2 ^ 16 else r.txDescUsed
    queued := r.queued + 1 }

/-- Add the context to the frame info ring. -/
def addContext (r : TxRing) (context : Nat) : TxRing :=
  if r.txReclaimEnable then
    let dirtyGenIdx := increaseIndex r.dirtyGenIdx c.txRingLen
    { r with
      txDirtyBase := Function.update r.txDirtyBase r.dirtyGenIdx context
      dirtyGenIdx := dirtyGenIdx
      isFull := if dirtyGenIdx = r.dirtyConsumIdx then true else r.isFull }
  else r

/-- The last descriptor of a frame. -/
def queueLast (r : TxRing) (context : Nat) : TxRing :=
  (r.addContext c context).queueBd c true

/-- The loop of `ENET_SendFrame` for a frame of several buffers, of at most `fuel` rounds. The uDMA completes descriptors
before each test of READY. -/
def sendLoop (context : Nat) : Nat → Nat → TxRing → List Nat → Option (TxRing × TxStatus)
  | 0, _, _, _ => none
  | fuel + 1, sizeleft, r, completions =>
    if sizeleft > c.txBuffSizeAlign then
      let r := completeMany c (completions.headD 0) (r.queueBd c false)
      if (r.txBdBase r.txGenIdx).ready then some (r, .txFrameBusy)
      else sendLoop context fuel (sizeleft - c.txBuffSizeAlign) r completions.tail
    else some (r.queueLast c context, .success)

/-- `ENET_SendFrame`. -/
def sendFrame (r : TxRing) (length context : Nat) (completions : List Nat) : Option (TxRing × TxStatus) :=
  if length > c.lenLimitation then some (r, .txFrameOverLen)
  else
    let r := completeMany c (completions.headD 0) r
    if (r.txBdBase r.txGenIdx).ready then some (r, .txFrameBusy)
    else if r.txReclaimEnable && r.isFull then some (r, .txFrameBusy)
    else if c.txBuffSizeAlign ≥ length then some (r.queueLast c context, .success)
    else sendLoop c context length length r completions.tail

/-- The loop of `ENET_StartTxFrame` that counts the idle descriptors, of at most `fuel` rounds. -/
def idleLoop (txBuffNum : Nat) : Nat → Nat → Nat → TxRing → List Nat → Option (TxRing × Nat)
  | 0, _, _, _, _ => none
  | fuel + 1, index, idleDescNum, r, completions =>
    let r := completeMany c (completions.headD 0) r
    if (r.txBdBase index).ready then some (r, idleDescNum)
    else if idleDescNum + 1 ≥ txBuffNum then some (r, idleDescNum + 1)
    else if increaseIndex index c.txRingLen = r.txGenIdx then some (r, idleDescNum + 1)
    else idleLoop txBuffNum fuel (increaseIndex index c.txRingLen) (idleDescNum + 1) r completions.tail

/-- The loop of `ENET_StartTxFrame` over the buffers, of which `rest` are left behind the current one. -/
def startLoop (context : Nat) : Nat → TxRing → TxRing
  | 0, r => r.queueLast c context
  | rest + 1, r => startLoop context rest (r.queueBd c false)

/-- `ENET_StartTxFrame` with buffers of the given lengths. -/
def startTxFrame (r : TxRing) (first : Nat) (rest : List Nat) (context : Nat) (completions : List Nat) :
    Option (TxRing × TxStatus) :=
  (idleLoop c (rest.length + 1) c.txRingLen r.txGenIdx 0 r completions).map fun (r, idleDescNum) =>
    if first + rest.sum > c.lenLimitation then (r, .txFrameOverLen)
    else if rest.length + 1 > idleDescNum then (r, .txFrameBusy)
    else if r.isFull then (r, .txFrameBusy)
    else (startLoop c context rest.length r, .success)

/-- `ENET_SetTxReclaim`. -/
def setTxReclaim (r : TxRing) (isEnable : Bool) : TxRing × Bool :=
  if r.dirtyGenIdx = r.dirtyConsumIdx ∧ r.isFull = false then
    if isEnable then ({ r with txReclaimEnable := true, txConsumIdx := r.txGenIdx }, true)
    else ({ r with txReclaimEnable := false }, true)
  else (r, false)

/-- One round of the loop of `ENET_ReclaimTxDescriptor`. -/
def reclaimBd (r : TxRing) : TxRing :=
  let r :=
    if (r.txBdBase r.txConsumIdx).last then
      { r with
        dirtyConsumIdx := increaseIndex r.dirtyConsumIdx c.txRingLen
        isFull := false
        reports := r.reports ++ [r.txDirtyBase r.dirtyConsumIdx] }
    else r
  { r with
    txDescUsed := r.txDescUsed - 1
    txConsumIdx := increaseIndex r.txConsumIdx c.txRingLen
    reclaimed := r.reclaimed + 1 }

/-- The loop of `ENET_ReclaimTxDescriptor`, of at most `fuel` rounds. -/
def reclaimLoop : Nat → TxRing → List Nat → Option TxRing
  | 0, _, _ => none
  | fuel + 1, r, completions =>
    let r := completeMany c (completions.headD 0) r
    if (r.txBdBase r.txConsumIdx).ready = false ∧ r.txDescUsed > 0 then
      reclaimLoop fuel (r.reclaimBd c) completions.tail
    else some r

/-- `ENET_ReclaimTxDescriptor`. -/
def reclaimTxDescriptor (r : TxRing) (completions : List Nat) : Option TxRing :=
  reclaimLoop c (r.txDescUsed + 1) r completions

/-- A ring without a frame, that may have been used without reclaim before. -/
def empty (lasts : Nat → Bool) (txGenIdx txConsumIdx dirtyIdx : Nat) : TxRing :=
  { txBdBase := fun i => { ready := false, last := lasts i }
    txGenIdx := txGenIdx
    txConsumIdx := txConsumIdx
    txDescUsed := 0
    txReclaimEnable := false
    txDirtyBase := fun _ => 0
    dirtyGenIdx := dirtyIdx
    dirtyConsumIdx := dirtyIdx
    isFull := false
    dmaIdx := txGenIdx
    queued := 0
    completed := 0
    reclaimed := 0
    accepted := []
    reports := [] }

end TxRing

/-- What happens to a ring. The lists are the numbers of descriptors that the uDMA completes before each test of READY in
the call. -/
inductive TxEvent where
  | sendFrame (length context : Nat) (completions : List Nat)
  | startTxFrame (first : Nat) (rest : List Nat) (context : Nat) (completions : List Nat)
  | complete
  | reclaim (completions : List Nat)

namespace TxRing

/-- The number of descriptors that a call takes if it sends the frame. -/
def bdNum (c : TxConfig) : TxEvent → Nat
  | .sendFrame length _ _ => (length - 1) / c.txBuffSizeAlign + 1
  | .startTxFrame _ rest _ _ => rest.length + 1
  | _ => 0

/-- A call has returned. -/
def conclude (context bdNum : Nat) : TxRing × TxStatus → TxRing
  | (r, .success) => { r with accepted := r.accepted ++ [(context, bdNum)] }
  | (r, _) => r

/-- One event. A call that does not return leaves no ring. -/
def step (c : TxConfig) (r : Option TxRing) : TxEvent → Option TxRing
  | .sendFrame length context completions =>
    r.bind fun r => (r.sendFrame c length context completions).map
      (conclude context (bdNum c (.sendFrame length context completions)))
  | .startTxFrame first rest context completions =>
    r.bind fun r => (r.startTxFrame c first rest context completions).map
      (conclude context (bdNum c (.startTxFrame first rest context completions)))
  | .complete => r.map fun r => r.complete c
  | .reclaim completions => r.bind fun r => r.reclaimTxDescriptor c completions

end TxRing

end McuxDrivers.Enet
