import McuxDrivers.Lib.Pool
import McuxDrivers.Enet.TxRing

/-!
# The receive ring of the ENET driver

`ENET_GetRxFrame` of `fsl_enet.c` on one ring, with the user's allocation callbacks. The hardware fills the descriptors
with the EMPTY bit, one after the other; the last one of a frame tells the length of the frame.
-/

namespace McuxDrivers.Enet
open McuxDrivers.Lib

inductive RxStatus where
  | success
  | rxFrameEmpty
  | rxFrameError
  | rxFrameDrop
deriving DecidableEq

/-- `enet_rx_bd_struct_t` with its bits EMPTY and LAST. The last bit says whether `ENET_GetRxFrameErr` finds an error. -/
structure RxBd where
  buffer : Nat
  length : Nat
  empty : Bool
  last : Bool
  error : Bool
deriving DecidableEq

/-- An entry of `rxBuffArray`: a buffer and the length of the data in it. -/
abbrev Part := Nat × Nat

/-- What a call returns: the code, the buffers and `totLen`. -/
structure RxResult where
  status : RxStatus
  rxBuffArray : List Part
  totLen : Nat
deriving DecidableEq

/-- The ring, the owners of the buffers outside of it, and what has happened so far. -/
structure RxRing where
  rxBdBase : Nat → RxBd
  rxGenIdx : Nat
  /-- The descriptor that the hardware fills next. -/
  dmaIdx : Nat
  /-- The length of the part of a frame that the hardware has stored before it. -/
  frameLength : Nat
  pool : List Nat
  application : List Nat
  /-- The descriptors that the hardware has filled. -/
  arrived : List RxBd
  results : List RxResult

/-- The ring length. -/
structure RxConfig where
  rxRingLen : Nat
  len_pos : 0 < rxRingLen
  len_lt : rxRingLen < 2 ^ 16

namespace RxRing

variable (c : RxConfig)

/-- What the search for the last descriptor gives. -/
inductive Search where
  | frameEmpty
  | last (error : Bool)
  | abnormal (index : Nat)
deriving DecidableEq

/-- The loop of `ENET_GetRxFrame` that looks for the last descriptor, of at most `fuel` rounds. -/
def searchLoop (r : RxRing) : Nat → Nat → Option Search
  | 0, _ => none
  | fuel + 1, index =>
    let bd := r.rxBdBase index
    if bd.empty then some .frameEmpty
    else if bd.last then some (.last bd.error)
    -- a descriptor without LAST and without data
    else if bd.length = 0 then some (.abnormal index)
    else if increaseIndex index c.rxRingLen = r.rxGenIdx then some .frameEmpty
    else searchLoop r fuel (increaseIndex index c.rxRingLen)

/-- Give the current descriptor with a buffer back to the hardware, and go to the next one. -/
def release (r : RxRing) (buffer : Nat) : RxRing :=
  { r with
    rxBdBase := Function.update r.rxBdBase r.rxGenIdx
      { r.rxBdBase r.rxGenIdx with buffer := buffer, empty := true, last := false, error := false }
    rxGenIdx := increaseIndex r.rxGenIdx c.rxRingLen }

/-- The loops of `ENET_GetRxFrame` that drop descriptors up to one with LAST, of at most `fuel` rounds. -/
def dropLoop : Nat → RxRing → Option RxRing
  | 0, _ => none
  | fuel + 1, r =>
    let bd := r.rxBdBase r.rxGenIdx
    let r := r.release c bd.buffer
    if bd.last then some r else dropLoop fuel r

/-- The loop of `ENET_GetRxFrame` that hands a frame over, of at most `fuel` rounds, with what the allocator answers. -/
def handLoop : Nat → RxRing → List (Option Nat) → List Part → Nat → Option (RxRing × RxResult)
  | 0, _, _, _, _ => none
  | fuel + 1, r, answers, rxBuffArray, buffLen =>
    let bd := r.rxBdBase r.rxGenIdx
    match poolAlloc r.pool (answers.headD none) with
    | some (newBuff, pool) =>
      let r := { r.release c newBuff with pool := pool }
      if bd.last then
        let length := (bd.length + 2 ^ 16 - buffLen) % 2 ^ 16
        some (r, { status := .success, rxBuffArray := rxBuffArray ++ [(bd.buffer, length)], totLen := bd.length })
      else handLoop fuel r answers.tail (rxBuffArray ++ [(bd.buffer, bd.length)]) ((buffLen + bd.length) % 2 ^ 16)
    | none =>
      let r := { r with pool := (rxBuffArray.map Prod.fst).reverse.foldl poolFree r.pool }
      (dropLoop c c.rxRingLen r).map fun r => (r, { status := .rxFrameDrop, rxBuffArray := [], totLen := 0 })

/-- `ENET_GetRxFrame`, with what the allocator answers. -/
def getRxFrame (r : RxRing) (answers : List (Option Nat)) : Option (RxRing × RxResult) :=
  let dropWith (r : RxRing) :=
    (dropLoop c c.rxRingLen r).map fun r => (r, { status := .rxFrameError, rxBuffArray := [], totLen := 0 })
  (r.searchLoop c c.rxRingLen r.rxGenIdx).bind fun
    | .frameEmpty => some (r, { status := .rxFrameEmpty, rxBuffArray := [], totLen := 0 })
    | .last true => dropWith r
    | .abnormal index =>
      -- LAST is set by hand, for the drop to stop there
      dropWith { r with rxBdBase := Function.update r.rxBdBase index { r.rxBdBase index with last := true } }
    | .last false => handLoop c c.rxRingLen r answers [] 0

/-- A call of `ENET_GetRxFrame` by an application that keeps the buffers it gets. -/
def receive (r : RxRing) (answers : List (Option Nat)) : Option RxRing :=
  (r.getRxFrame c answers).map fun (r, result) =>
    { r with
      application := r.application ++ result.rxBuffArray.map Prod.fst
      results := r.results ++ [result] }

/-- The hardware stores `length` bytes of a frame in its next descriptor, when that is EMPTY. -/
def fill (r : RxRing) (length : Nat) (last error : Bool) : RxRing :=
  let bd := r.rxBdBase r.dmaIdx
  if bd.empty ∧ r.frameLength + length < 2 ^ 16 then
    let bd' :=
      { buffer := bd.buffer
        length := if last then r.frameLength + length else length
        empty := false
        last := last
        error := error }
    { r with
      rxBdBase := Function.update r.rxBdBase r.dmaIdx bd'
      dmaIdx := increaseIndex r.dmaIdx c.rxRingLen
      frameLength := if last then 0 else r.frameLength + length
      arrived := r.arrived ++ [bd'] }
  else r

/-- The application gives one of its buffers back to the allocator. -/
def free (r : RxRing) (buffer : Nat) : RxRing :=
  if buffer ∈ r.application then
    { r with application := r.application.erase buffer, pool := poolFree r.pool buffer }
  else r

/-- A ring with a buffer in each descriptor. -/
def init (buffers : Nat → Nat) (pool : List Nat) : RxRing :=
  { rxBdBase := fun i => { buffer := buffers i, length := 0, empty := true, last := false, error := false }
    rxGenIdx := 0
    dmaIdx := 0
    frameLength := 0
    pool := pool
    application := []
    arrived := []
    results := [] }

def ringBuffers (r : RxRing) : List Nat :=
  (List.range c.rxRingLen).map fun i => (r.rxBdBase i).buffer

end RxRing

/-- What happens to a ring: a descriptor filled by the hardware, a call of `ENET_GetRxFrame`, or a buffer that the
application frees. -/
inductive RxEvent where
  | fill (length : Nat) (last error : Bool)
  | receive (answers : List (Option Nat))
  | free (buffer : Nat)

/-- One event. A call that does not return leaves no ring. -/
def RxRing.step (c : RxConfig) (r : Option RxRing) : RxEvent → Option RxRing
  | .fill length last error => r.map fun r => r.fill c length last error
  | .receive answers => r.bind fun r => r.receive c answers
  | .free buffer => r.map fun r => r.free buffer

end McuxDrivers.Enet
