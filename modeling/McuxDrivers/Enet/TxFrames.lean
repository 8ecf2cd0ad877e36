import McuxDrivers.Enet.TxRing

/-!
# The data of the transmitted frames

`ENET_SendFrame` and `ENET_StartTxFrame` of `fsl_enet.c` once more, now with the buffers, lengths and timestamps of the
descriptors, in a build with enhanced descriptors and without AVB. The buffers of a ring do not overlap. Before each test
of READY the hardware may clear READY of any descriptors.
-/

namespace McuxDrivers.Enet
open McuxDrivers.Lib

/-- What a descriptor says about its data, with the bytes of the buffer in place of the pointer. -/
structure TxData where
  buffer : List UInt8
  length : Nat
  controlExtend1 : BitVec 16

/-- The bytes that the uDMA sends. -/
def TxData.payload (d : TxData) : List UInt8 :=
  d.buffer.take d.length

/-- What the uDMA is told about one buffer of a frame. -/
structure Handed where
  index : Nat
  payload : List UInt8
  last : Bool
  /-- READY was clear before. -/
  fresh : Bool
deriving DecidableEq

/-- A ring with the data of its descriptors, and the descriptors made READY so far. -/
structure TxFrames where
  ring : TxRing
  data : Nat → TxData
  handed : List Handed

def txInterruptMask : BitVec 16 := 0x4000

def txTimestampMask : BitVec 16 := 0x2000

def txProtochecksumMask : BitVec 16 := 0x1000

def txIpchecksumMask : BitVec 16 := 0x0800

/-- `enet_tx_config_struct_t`. -/
structure TxDescConfig where
  intEnable : Bool
  tsEnable : Bool
  autoProtocolChecksum : Bool
  autoIPChecksum : Bool

/-- `ENET_PrepareTxDesc`. -/
def prepareTxDesc (txConfig : TxDescConfig) : BitVec 16 :=
  let controlExtend1 := 0
  let controlExtend1 := if txConfig.intEnable then controlExtend1 ||| txInterruptMask else controlExtend1
  let controlExtend1 := if txConfig.tsEnable then controlExtend1 ||| txTimestampMask else controlExtend1
  let controlExtend1 := if txConfig.autoProtocolChecksum then controlExtend1 ||| txProtochecksumMask else controlExtend1
  if txConfig.autoIPChecksum then controlExtend1 ||| txIpchecksumMask else controlExtend1

/-- `enet_buffer_struct_t`, whose `length` has 16 bits. -/
structure EnetBuffer where
  bytes : List UInt8
  length_lt : bytes.length < 2 ^ 16

/-- The hardware clears READY of the descriptors in `cleared`. -/
def TxRing.clearReady (cleared : Nat → Bool) (r : TxRing) : TxRing :=
  { r with txBdBase := fun i => { r.txBdBase i with ready := (r.txBdBase i).ready && !cleared i } }

namespace TxFrames

variable (c : TxConfig)

def clearReady (cleared : Nat → Bool) (s : TxFrames) : TxFrames :=
  { s with ring := s.ring.clearReady cleared }

/-- The descriptor at `txGenIdx` is READY. -/
def busy (s : TxFrames) : Bool :=
  (s.ring.txBdBase s.ring.txGenIdx).ready

/-- Copy to the buffer of the descriptor at `txGenIdx`. -/
def copyData (s : TxFrames) (bytes : List UInt8) (tsFlag : Bool) : TxFrames :=
  let d := s.data s.ring.txGenIdx
  { s with
    data := Function.update s.data s.ring.txGenIdx
      { buffer := bytes ++ d.buffer.drop bytes.length
        length := bytes.length % 2 ^ 16
        controlExtend1 := if tsFlag then d.controlExtend1 ||| txTimestampMask else d.controlExtend1 &&& ~~~txTimestampMask } }

/-- Give the descriptor at `txGenIdx` a buffer of the caller. -/
def setBuffer (s : TxFrames) (txConfig : TxDescConfig) (txBuff : EnetBuffer) : TxFrames :=
  { s with data := Function.update s.data s.ring.txGenIdx ⟨txBuff.bytes, txBuff.bytes.length, prepareTxDesc txConfig⟩ }

/-- The descriptor at `txGenIdx`, to be handed to the uDMA. -/
def current (s : TxFrames) (last : Bool) : Handed :=
  ⟨s.ring.txGenIdx, (s.data s.ring.txGenIdx).payload, last, !s.busy⟩

def queueBd (s : TxFrames) : TxFrames :=
  { s with ring := s.ring.queueBd c false, handed := s.handed ++ [s.current false] }

def queueLast (s : TxFrames) (context : Nat) : TxFrames :=
  { s with ring := s.ring.queueLast c context, handed := s.handed ++ [s.current true] }

/-- The loop of `ENET_SendFrame` over the bytes that are left, of at most `fuel` rounds. The hardware clears
`cleared round` before the test of READY at the end of the round before. -/
def sendLoop (tsFlag : Bool) (context : Nat) (cleared : Nat → Nat → Bool) :
    Nat → Nat → List UInt8 → TxFrames → Option (TxFrames × TxStatus)
  | 0, _, _, _ => none
  | fuel + 1, round, left, s =>
    if left.length > c.txBuffSizeAlign then
      let s := ((s.copyData (left.take c.txBuffSizeAlign) tsFlag).queueBd c).clearReady (cleared (round + 1))
      if s.busy then some (s, .txFrameBusy)
      else sendLoop tsFlag context cleared fuel (round + 1) (left.drop c.txBuffSizeAlign) s
    else some ((s.copyData left tsFlag).queueLast c context, .success)

/-- `ENET_SendFrame`. -/
def sendFrame (s : TxFrames) (frame : List UInt8) (tsFlag : Bool) (context : Nat) (cleared : Nat → Nat → Bool) :
    Option (TxFrames × TxStatus) :=
  if frame.length > c.lenLimitation then some (s, .txFrameOverLen)
  else
    let s := s.clearReady (cleared 0)
    if s.busy then some (s, .txFrameBusy)
    else if s.ring.txReclaimEnable && s.ring.isFull then some (s, .txFrameBusy)
    else if c.txBuffSizeAlign ≥ frame.length then some ((s.copyData frame tsFlag).queueLast c context, .success)
    else sendLoop c tsFlag context cleared frame.length 0 frame s

/-- The loop of `ENET_StartTxFrame` that counts the idle descriptors, of at most `fuel` rounds. -/
def idleLoop (txBuffNum : Nat) (cleared : Nat → Nat → Bool) : Nat → Nat → Nat → TxFrames → Option (TxFrames × Nat)
  | 0, _, _, _ => none
  | fuel + 1, index, idleDescNum, s =>
    let s := s.clearReady (cleared idleDescNum)
    if (s.ring.txBdBase index).ready then some (s, idleDescNum)
    else if idleDescNum + 1 ≥ txBuffNum then some (s, idleDescNum + 1)
    else if increaseIndex index c.txRingLen = s.ring.txGenIdx then some (s, idleDescNum + 1)
    else idleLoop txBuffNum cleared fuel (increaseIndex index c.txRingLen) (idleDescNum + 1) s

/-- The loop of `ENET_StartTxFrame` over the buffers, of which `rest` are behind `txBuff`. -/
def startLoop (txConfig : TxDescConfig) (context : Nat) (txBuff : EnetBuffer) : List EnetBuffer → TxFrames → TxFrames
  | [], s => (s.setBuffer txConfig txBuff).queueLast c context
  | next :: rest, s => startLoop txConfig context next rest ((s.setBuffer txConfig txBuff).queueBd c)

/-- `ENET_StartTxFrame`, which is asserted to be called with the reclaim enabled. -/
def startTxFrame (s : TxFrames) (first : EnetBuffer) (rest : List EnetBuffer) (txConfig : TxDescConfig) (context : Nat)
    (cleared : Nat → Nat → Bool) : Option (TxFrames × TxStatus) :=
  let frameLen := ((first :: rest).map fun txBuff => txBuff.bytes.length).sum % 2 ^ 32
  (idleLoop c (rest.length + 1) cleared c.txRingLen s.ring.txGenIdx 0 s).map fun (s, idleDescNum) =>
    if frameLen > c.lenLimitation then (s, .txFrameOverLen)
    else if rest.length + 1 > idleDescNum then (s, .txFrameBusy)
    else if s.ring.isFull then (s, .txFrameBusy)
    else (startLoop c txConfig context first rest s, .success)

/-! With the hardware at rest the data makes no difference to the ring. -/

/-- The hardware clears nothing. -/
def atRest : Nat → Nat → Bool :=
  fun _ _ => false

lemma clearReady_atRest (s : TxFrames) (round : Nat) : s.clearReady (atRest round) = s := by
  simp [clearReady, TxRing.clearReady, atRest]

lemma sendLoop_ring (tsFlag : Bool) (context fuel round : Nat) (left : List UInt8) (s : TxFrames) :
    (s.sendLoop c tsFlag context atRest fuel round left).map (Prod.map ring id) =
      s.ring.sendLoop c context fuel left.length [] := by
  induction fuel generalizing round left s with
  | zero => rfl
  | succ fuel ih =>
    rw [sendLoop, TxRing.sendLoop]
    simp only [clearReady_atRest]
    by_cases hmore : left.length > c.txBuffSizeAlign
    · rw [if_pos hmore, if_pos hmore]
      have hring : ((s.copyData (left.take c.txBuffSizeAlign) tsFlag).queueBd c).ring = s.ring.queueBd c false := rfl
      have hrest := ih (round + 1) (left.drop c.txBuffSizeAlign)
        ((s.copyData (left.take c.txBuffSizeAlign) tsFlag).queueBd c)
      rw [hring, List.length_drop] at hrest
      rw [busy, hring, apply_ite (Option.map (Prod.map ring id)), hrest]
      rfl
    · rw [if_neg hmore, if_neg hmore]
      rfl

/-- `TxRing.sendFrame` decides alike. -/
theorem sendFrame_ring (s : TxFrames) (frame : List UInt8) (tsFlag : Bool) (context : Nat) :
    (s.sendFrame c frame tsFlag context atRest).map (Prod.map ring id) =
      s.ring.sendFrame c frame.length context [] := by
  rw [sendFrame, TxRing.sendFrame]
  simp only [clearReady_atRest, apply_ite (Option.map (Prod.map ring id)), sendLoop_ring]
  rfl

lemma startLoop_ring (txConfig : TxDescConfig) (context : Nat) (txBuff : EnetBuffer) (rest : List EnetBuffer)
    (s : TxFrames) :
    (s.startLoop c txConfig context txBuff rest).ring = s.ring.startLoop c context rest.length := by
  induction rest generalizing txBuff s with
  | nil => rfl
  | cons next rest ih =>
    rw [startLoop, ih next]
    rfl

lemma idleLoop_ring (txBuffNum fuel index idleDescNum : Nat) (s : TxFrames) :
    (s.idleLoop c txBuffNum atRest fuel index idleDescNum).map (Prod.map ring id) =
      s.ring.idleLoop c txBuffNum fuel index idleDescNum [] := by
  induction fuel generalizing index idleDescNum with
  | zero => rfl
  | succ fuel ih =>
    rw [idleLoop, TxRing.idleLoop]
    simp only [clearReady_atRest, apply_ite (Option.map (Prod.map ring id)), ih]
    rfl

/-- `TxRing.startTxFrame` decides alike, for a frame whose length can be counted. -/
theorem startTxFrame_ring (s : TxFrames) (first : EnetBuffer) (rest : List EnetBuffer) (txConfig : TxDescConfig)
    (context : Nat) (hlen : first.bytes.length + (rest.map fun txBuff => txBuff.bytes.length).sum < 2 ^ 32) :
    (s.startTxFrame c first rest txConfig context atRest).map (Prod.map ring id) =
      s.ring.startTxFrame c first.bytes.length (rest.map fun txBuff => txBuff.bytes.length) context [] := by
  rw [startTxFrame, TxRing.startTxFrame, List.length_map, ← idleLoop_ring, Option.map_map, Option.map_map]
  congr 1
  funext result
  simp only [Function.comp_apply, List.map_cons, List.sum_cons, Nat.mod_eq_of_lt hlen, Prod.map_fst, Prod.map_snd, id]
  split_ifs
  · rfl
  · rfl
  · rfl
  · simp [startLoop_ring]

end TxFrames

end McuxDrivers.Enet
