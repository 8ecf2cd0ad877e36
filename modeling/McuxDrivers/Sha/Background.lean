import McuxDrivers.Sha.Streaming

/-!
# Background hashing

`SHA_UpdateNonBlocking` hands the full blocks to the AHB master and `SHA_DriverIRQHandler`
re-arms it chunk by chunk. Neither of them moves the context to `kSHA_HashDone`, the state
`SHA_Finish` polls for, so the background path completes for messages without a full block only.
-/

namespace McuxDrivers.Sha
open McuxDrivers.Lib

/-- `SHA_DriverIRQHandler` once per finished chunk, without engine errors, until a callback was
invoked; `none` when the fuel runs out before. -/
def serveUntilCallback : Nat → Sys → Option Sys
  | 0, _ => none
  | fuel + 1, s =>
    if s.callbacks.length > 0 then some s else serveUntilCallback fuel (driverIRQHandler false s)

/-- `SHA_Init`, `SHA_SetCallback`, `SHA_UpdateNonBlocking`, the interrupts up to the callback,
`SHA_Finish`. -/
def backgroundHash (digestRegs : List EngineOp → List (BitVec 32)) (fuel : Nat) (s : Sys)
    (algo : Algo) (addr : Nat) (m : List UInt8) : Option Sys :=
  let s := setCallback (init { s with callbacks := [] } algo)
  match serveUntilCallback fuel (updateNonBlocking s addr m).2 with
  | none => none
  | some s => (finish digestRegs fuel s none).map (fun r => r.2.2)

/-- `SHA_Init`, `SHA_Update`, `SHA_Finish`. -/
def blockingHash (dma : Option MemMap) (digestRegs : List EngineOp → List (BitVec 32)) (fuel : Nat)
    (s : Sys) (algo : Algo) (addr : Nat) (m : List UInt8) : Option Sys :=
  (finish digestRegs fuel (update dma (init s algo) addr m).2 none).map (fun r => r.2.2)

/-- Both paths return and the engine was told the same. -/
def BackgroundAgrees (dma : Option MemMap) (digestRegs : List EngineOp → List (BitVec 32)) (s : Sys)
    (algo : Algo) (addr : Nat) (m : List UInt8) : Prop :=
  ∃ fuel s₁ s₂, backgroundHash digestRegs fuel s algo addr m = some s₁ ∧
    blockingHash dma digestRegs fuel s algo addr m = some s₂ ∧ s₁.engine.log = s₂.engine.log

lemma driverIRQHandler_state (error : Bool) (s : Sys) :
    (driverIRQHandler error s).ctx.state = s.ctx.state := by
  unfold driverIRQHandler
  split
  · rfl
  · dsimp only
    split <;> split <;> rfl

lemma serveUntilCallback_state {fuel : Nat} {s s' : Sys} (h : serveUntilCallback fuel s = some s') :
    s'.ctx.state = s.ctx.state := by
  induction fuel generalizing s with
  | zero => simp [serveUntilCallback] at h
  | succ fuel ih =>
    rw [serveUntilCallback] at h
    split at h
    · rw [Option.some.inj h]
    · rw [ih h, driverIRQHandler_state]

lemma waitHashDone_hashUpdate (fuel : Nat) : waitHashDone fuel .hashUpdate = none := by
  induction fuel with
  | zero => rfl
  | succ fuel ih => exact ih

/-- `SHA_Finish` never leaves its polling loop on a context in the update state. -/
lemma finish_hashUpdate (digestRegs : List EngineOp → List (BitVec 32)) (fuel : Nat) (s : Sys)
    (outputSize : Option Nat) (h : s.ctx.state = .hashUpdate) :
    finish digestRegs fuel s outputSize = none := by
  simp only [finish, h, reduceCtorEq, if_false, waitHashDone_hashUpdate, Option.map_none]

lemma updateNonBlocking_state (s : Sys) (addr : Nat) (m : List UInt8) (haddr : addr % 4 = 0)
    (hlen : 64 ≤ m.length) : (updateNonBlocking s addr m).2.ctx.state = .hashUpdate := by
  have hblocks : 0 < chunkBlocks (m.length / 64) := by
    unfold chunkBlocks maxHashChunk
    split <;> omega
  have hne : ¬ m.length = 0 := by omega
  simp only [updateNonBlocking, hne, if_false, haddr, ne_eq, not_true_eq_false, shaBlockSize, gt_iff_lt,
    hblocks, if_true]

/-- With a full block in the message the background path does not return. -/
lemma backgroundHash_of_full_block (digestRegs : List EngineOp → List (BitVec 32)) (fuel : Nat)
    (s : Sys) (algo : Algo) (addr : Nat) (m : List UInt8) (haddr : addr % 4 = 0)
    (hlen : 64 ≤ m.length) : backgroundHash digestRegs fuel s algo addr m = none := by
  unfold backgroundHash
  dsimp only
  split
  · rfl
  next s' hserve =>
    have hstate : s'.ctx.state = .hashUpdate := by
      rw [serveUntilCallback_state hserve, updateNonBlocking_state _ _ _ haddr hlen]
    rw [finish_hashUpdate _ _ _ _ hstate, Option.map_none]

/-- A message of less than one block waits in a context whose hash was not started. -/
structure OnlyBuffered (s s' : Sys) (algo : Algo) (m : List UInt8) : Prop where
  state : s'.ctx.state = .hashInit
  algo_eq : s'.ctx.algo = algo
  engine_log : s'.engine.log = s.engine.log
  size : s'.ctx.fullMessageSize = m.length
  buffers : s'.ctx.blk.Holds s'.ctx.blksz m

lemma updateNonBlocking_short (s : Sys) (algo : Algo) (addr : Nat) (m : List UInt8)
    (haddr : addr % 4 = 0) (hm : 1 ≤ m.length) (hlt : m.length < 64) :
    OnlyBuffered s (updateNonBlocking (setCallback (init s algo)) addr m).2 algo m ∧
      (updateNonBlocking (setCallback (init s algo)) addr m).2.callbacks = s.callbacks ++ [.success] := by
  have hdef : (updateNonBlocking (setCallback (init s algo)) addr m).2 =
      { s with
        ctx := { (setCallback (init s algo)).ctx with
          fullMessageSize := m.length, remainingBlcks := 0, blksz := m.length,
          blk := (init s algo).ctx.blk.write 0 m },
        callbacks := s.callbacks ++ [.success] } := by
    have hne : ¬ m.length = 0 := by omega
    have hpos : 0 < m.length := hm
    simp [updateNonBlocking, hne, haddr, shaBlockSize, Nat.div_eq_of_lt hlt, Nat.mod_eq_of_lt hlt,
      hpos, hlt.le, chunkBlocks, maxHashChunk, setCallback, init]
  rw [hdef]
  exact ⟨⟨rfl, rfl, rfl, rfl, Buf.holds_write_zero _ _ hlt.le⟩, rfl⟩

lemma update_short (dma : Option MemMap) (s : Sys) (algo : Algo) (addr : Nat) (m : List UInt8)
    (hm : 1 ≤ m.length) (hlt : m.length < 64) :
    OnlyBuffered s (update dma (init s algo) addr m).2 algo m := by
  have hdef : (update dma (init s algo) addr m).2 =
      { (init s algo) with
        ctx := { (init s algo).ctx with
          fullMessageSize := m.length, blksz := m.length, blk := (init s algo).ctx.blk.write 0 m } } := by
    have hne : ¬ m.length = 0 := by omega
    have hsize : m.length % 4294967296 = m.length := Nat.mod_eq_of_lt (by omega)
    simp [update, hne, init, shaBlockSize, hlt.le, hsize]
  rw [hdef]
  exact ⟨rfl, rfl, rfl, rfl, Buf.holds_write_zero _ _ hlt.le⟩

/-- `SHA_Finish` starts the hash of a message that was only buffered and closes it. -/
lemma OnlyBuffered.finish {s s' : Sys} {algo : Algo} {m : List UInt8} (h : OnlyBuffered s s' algo m)
    (digestRegs : List EngineOp → List (BitVec 32)) (fuel : Nat) :
    ∃ t, (finish digestRegs fuel s' none).map (fun r => r.2.2) = some t ∧
      t.engine.log = s.engine.log ++ .new (modeOf algo) :: (lastBlocks m m.length).map .block := by
  have hlen : 8 * s'.ctx.fullMessageSize < 2 ^ 32 := by
    have hbound := h.buffers.bounded
    rw [h.size]
    omega
  refine ⟨_, by simp only [Sha.finish, h.state, if_true]; rfl, ?_⟩
  rw [shaFinalize_log h.buffers hlen, shaEngineInit_log, h.engine_log, h.algo_eq, h.size]
  simp

/-- Background hashing of a message at a word-aligned address returns and agrees with the blocking
path exactly when the message has no full 64-byte block. -/
theorem backgroundAgrees_iff (dma : Option MemMap) (digestRegs : List EngineOp → List (BitVec 32))
    (s : Sys) (algo : Algo) (addr : Nat) (m : List UInt8) (haddr : addr % 4 = 0) (hm : 1 ≤ m.length) :
    BackgroundAgrees dma digestRegs s algo addr m ↔ m.length < 64 := by
  constructor
  · rintro ⟨fuel, s₁, s₂, hback, -, -⟩
    by_contra hge
    rw [backgroundHash_of_full_block _ _ _ _ _ _ haddr (Nat.le_of_not_lt hge)] at hback
    cases hback
  · intro hlt
    obtain ⟨hback, hcallbacks⟩ :=
      updateNonBlocking_short { s with callbacks := [] } algo addr m haddr hm hlt
    obtain ⟨s₁, hs₁, hlog₁⟩ := hback.finish digestRegs 1
    obtain ⟨s₂, hs₂, hlog₂⟩ := (update_short dma s algo addr m hm hlt).finish digestRegs 1
    refine ⟨1, s₁, s₂, ?_, hs₂, by rw [hlog₁, hlog₂]⟩
    -- the callback was already invoked by the update itself
    rw [backgroundHash, serveUntilCallback, hcallbacks]
    exact hs₁

theorem backgroundAgrees_three_bytes :
    BackgroundAgrees none (fun _ => []) idleSys .sha256 0x20000000 [1, 2, 3] :=
  (backgroundAgrees_iff none (fun _ => []) idleSys .sha256 0x20000000 [1, 2, 3] rfl (by decide)).mpr
    (by decide)

/-- One full block is enough to hang `SHA_Finish`. -/
theorem not_backgroundAgrees_one_block :
    ¬ BackgroundAgrees none (fun _ => []) idleSys .sha256 0x20000000 (List.replicate 64 0) := by
  rintro ⟨fuel, s₁, s₂, hback, -, -⟩
  rw [backgroundHash_of_full_block _ _ _ _ _ _ rfl (by decide)] at hback
  cases hback

end McuxDrivers.Sha
