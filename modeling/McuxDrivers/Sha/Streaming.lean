import McuxDrivers.Sha.Driver

/-!
# Streaming a message through the SHA driver

The context refines the buffering block consumer of `Lib.absorb`: whatever the cut of the
message, the engine is started once and receives the blocks of the padded message.
-/

namespace McuxDrivers.Sha
open McuxDrivers.Lib

/-- The `MODE` that `sha_engine_init` writes. -/
def modeOf (algo : Algo) : Nat :=
  if algo = .sha1 then 1 else 2

lemma shaEngineInit_log (e : Engine) (algo : Algo) :
    (shaEngineInit e algo).log = e.log ++ [.new (modeOf algo)] := rfl

lemma foldl_shaOneBlock (blocks : List (List UInt8)) (h : ∀ b ∈ blocks, b.length = 64) (e : Engine) :
    blocks.foldl shaOneBlock e = { e with log := e.log ++ blocks.map .block } := by
  induction blocks generalizing e with
  | nil => simp
  | cons b bs ih =>
    have hb : b.take shaBlockSize = b := List.take_of_length_le (h b (by simp)).le
    rw [List.foldl_cons, ih (fun c hc => h c (List.mem_cons_of_mem _ hc))]
    simp [shaOneBlock, hb]

/-- The block loop of `sha_process_message_data`. -/
lemma feedBlocks_shaOneBlock (e : Engine) (message : List UInt8) :
    feedBlocks shaBlockSize shaOneBlock e message =
      ({ e with log := e.log ++ (blocksOf 64 message).map .block }, tailOf 64 message) := by
  rw [feedBlocks_eq (by decide)]
  exact congrArg (·, tailOf 64 message)
    (foldl_shaOneBlock _ (fun _ hb => length_of_mem_blocksOf hb) e)

/-- Processing a chunk that does not fit into the internal block feeds the blocks of the buffer
followed by the chunk and keeps the rest. -/
lemma shaProcessMessageData_spec {ctx : Ctx} {buf : List UInt8} (hb : ctx.blk.Holds ctx.blksz buf)
    (e : Engine) (message : List UInt8) (hgt : 64 < buf.length + message.length) :
    (shaProcessMessageData e ctx message).1 =
        { e with log := e.log ++ (blocksOf 64 (buf ++ message)).map .block } ∧
      (shaProcessMessageData e ctx message).2.blk.Holds (shaProcessMessageData e ctx message).2.blksz
        (tailOf 64 (buf ++ message)) ∧
      (shaProcessMessageData e ctx message).2.state = .hashDone ∧
      (shaProcessMessageData e ctx message).2.algo = ctx.algo ∧
      (shaProcessMessageData e ctx message).2.fullMessageSize = ctx.fullMessageSize := by
  unfold shaProcessMessageData fillBuffer
  have hsize := hb.size_eq
  have hbound := hb.bounded
  have htail (l : List UInt8) : (tailOf 64 l).length ≤ 64 := (length_tailOf_lt (by decide) l).le
  by_cases hzero : ctx.blksz ≠ 0
  · simp only [if_pos hzero, feedBlocks_shaOneBlock]
    -- the completed block is the buffer followed by the head of the chunk
    obtain ⟨hblocks, hrest⟩ := blocksOf_append_overflow (by decide) buf message hbound hgt
    rw [← hsize] at hblocks hrest
    have hblk : (ctx.blk.write ctx.blksz (message.take (64 - ctx.blksz))).data =
        buf ++ message.take (64 - ctx.blksz) := by
      apply hb.complete
      rw [List.length_take]
      omega
    have hone := length_completed hbound hgt
    rw [← hsize] at hone
    rw [hblocks, hrest]
    refine ⟨?_, Buf.holds_write_zero _ _ (htail _), rfl, rfl, rfl⟩
    simp only [shaOneBlock, hblk, shaBlockSize, List.take_of_length_le hone.le]
    simp
  · have hnil : buf = [] := List.length_eq_zero_iff.mp (by omega)
    simp only [if_neg hzero, feedBlocks_shaOneBlock, hnil, List.nil_append]
    exact ⟨trivial, Buf.holds_write_zero _ _ (htail _), rfl, rfl, rfl⟩

/-- The driver after a prefix `m` of the message: the context holds the buffer of the abstract
consumer `a`, and the engine was started iff a block was fed. -/
structure Streams (log : List EngineOp) (algo : Algo) (s : Sys)
    (a : List (List UInt8) × List UInt8) (m : List UInt8) : Prop where
  buffers : s.ctx.blk.Holds s.ctx.blksz a.2
  absorbed : Absorbed 64 a m
  algo_eq : s.ctx.algo = algo
  size : s.ctx.fullMessageSize = m.length
  fed : (s.ctx.state = .hashInit ∧ a.1 = [] ∧ s.engine.log = log) ∨
    (s.ctx.state = .hashDone ∧ s.engine.log = log ++ .new (modeOf algo) :: a.1.map .block)

lemma streams_init (s : Sys) (algo : Algo) :
    Streams s.engine.log algo (init s algo) ([], []) [] :=
  ⟨Buf.holds_nil _, absorbed_nil 64, rfl, rfl, .inl ⟨rfl, rfl, rfl⟩⟩

/-- Processing a chunk after the engine was started keeps the driver streaming. -/
lemma streams_process {log : List EngineOp} {algo : Algo} {ctx : Ctx} {e : Engine}
    {a : List (List UInt8) × List UInt8} {m message : List UInt8} (hb : ctx.blk.Holds ctx.blksz a.2)
    (habs : Absorbed 64 (a.1 ++ blocksOf 64 (a.2 ++ message), tailOf 64 (a.2 ++ message)) m)
    (halgo : ctx.algo = algo) (hsize : ctx.fullMessageSize = m.length)
    (hlog : e.log = log ++ .new (modeOf algo) :: a.1.map .block)
    (hgt : 64 < a.2.length + message.length) (callbacks : List Status) :
    Streams log algo
      { ctx := (shaProcessMessageData e ctx message).2,
        engine := (shaProcessMessageData e ctx message).1, callbacks := callbacks }
      (a.1 ++ blocksOf 64 (a.2 ++ message), tailOf 64 (a.2 ++ message)) m := by
  obtain ⟨he, hbuf, hdone, halgo', hfull⟩ := shaProcessMessageData_spec hb e message hgt
  refine ⟨hbuf, habs, halgo'.trans halgo, hfull.trans hsize, .inr ⟨hdone, ?_⟩⟩
  rw [he]
  simp [hlog]

/-- One `SHA_Update` is one step of the abstract consumer. -/
lemma streams_update {log : List EngineOp} {algo : Algo} {s : Sys} {m : List UInt8}
    {a : List (List UInt8) × List UInt8} (h : Streams log algo s a m) (addr : Nat)
    (message : List UInt8) (hlen : (m ++ message).length < 2 ^ 32) :
    Streams log algo (update none s addr message).2 (absorb 64 a message) (m ++ message) := by
  have habs := h.absorbed.absorb (by decide) message
  unfold update
  by_cases hempty : message.length = 0
  · rw [if_pos hempty]
    have hnil : message = [] := List.length_eq_zero_iff.mp hempty
    rw [hnil, h.absorbed.absorb_nil, List.append_nil]
    exact h
  rw [if_neg hempty]
  have hsize : (s.ctx.fullMessageSize + message.length) % 2 ^ 32 = (m ++ message).length := by
    rw [h.size, ← List.length_append]
    exact Nat.mod_eq_of_lt hlen
  have hblksz := h.buffers.size_eq
  by_cases hfit : s.ctx.blksz + message.length ≤ shaBlockSize
  · -- the chunk is only buffered
    simp only [if_pos hfit]
    have hle : a.2.length + message.length ≤ 64 := by
      rw [← hblksz]
      exact hfit
    rw [absorb_of_le hle] at habs ⊢
    exact ⟨h.buffers.append message hfit, habs, h.algo_eq, hsize, h.fed⟩
  · -- the buffer is completed, the chunk fed
    simp only [if_neg hfit]
    have hgt : 64 < a.2.length + message.length := by
      rw [← hblksz]
      exact Nat.lt_of_not_le hfit
    rw [absorb_of_lt hgt] at habs ⊢
    rcases h.fed with ⟨hstate, hnone, hlog⟩ | ⟨hstate, hlog⟩
    · simp only [hstate, if_true]
      refine streams_process ?_ habs ?_ ?_ ?_ hgt _
      · exact h.buffers
      · exact h.algo_eq
      · exact hsize
      · rw [shaEngineInit_log, hlog, hnone, h.algo_eq, List.map_nil]
    · simp only [hstate, reduceCtorEq, if_false]
      refine streams_process ?_ habs ?_ ?_ hlog hgt _
      · exact h.buffers
      · exact h.algo_eq
      · exact hsize

/-- `SHA_Update` on each chunk in turn; each comes with the address of its bytes. -/
def updates (dma : Option MemMap) (s : Sys) (chunks : List (Nat × List UInt8)) : Sys :=
  chunks.foldl (fun s c => (update dma s c.1 c.2).2) s

lemma streams_updates {log : List EngineOp} {algo : Algo} (chunks : List (Nat × List UInt8)) :
    ∀ {s : Sys} {m : List UInt8} {a : List (List UInt8) × List UInt8}, Streams log algo s a m →
      (m ++ (chunks.map Prod.snd).flatten).length < 2 ^ 32 →
      Streams log algo (updates none s chunks) ((chunks.map Prod.snd).foldl (absorb 64) a)
        (m ++ (chunks.map Prod.snd).flatten) := by
  induction chunks with
  | nil =>
    intro s m a h _
    simpa [updates] using h
  | cons c cs ih =>
    intro s m a h hlen
    simp only [List.map_cons, List.flatten_cons, ← List.append_assoc, List.foldl_cons] at hlen ⊢
    refine ih (streams_update h c.1 c.2 ?_) hlen
    rw [List.length_append] at hlen
    omega

/-- `sha_finalize` feeds the closing blocks of the buffered bytes. -/
lemma shaFinalize_log {ctx : Ctx} {buf : List UInt8} (hb : ctx.blk.Holds ctx.blksz buf)
    (hlen : 8 * ctx.fullMessageSize < 2 ^ 32) (e : Engine) :
    (shaFinalize e ctx).1.log = e.log ++ (lastBlocks buf ctx.fullMessageSize).map .block := by
  have hlast : ∀ b ∈ lastBlocks buf ctx.fullMessageSize, b.length = 64 :=
    fun _ hmem => length_of_mem_lastBlocks hb.bounded _ hmem
  simp only [shaFinalize, closeBuffer_fst hb hlen, foldl_shaOneBlock _ hlast]

/-- `SHA_Finish` on a streaming context returns, and completes the padded message. -/
lemma finish_of_streams {log : List EngineOp} {algo : Algo} {s : Sys} {m : List UInt8}
    {a : List (List UInt8) × List UInt8} (h : Streams log algo s a m) (hlen : m.length < 2 ^ 29)
    (digestRegs : List EngineOp → List (BitVec 32)) (fuel : Nat) (hfuel : 0 < fuel)
    (outputSize : Option Nat) :
    ∃ output s', finish digestRegs fuel s outputSize = some (.success, output, s') ∧
      s'.engine.log = log ++ .new (modeOf algo) :: (blocksOf 64 (padded m)).map .block := by
  obtain ⟨k, rfl⟩ : ∃ k, fuel = k + 1 := ⟨fuel - 1, by omega⟩
  have hbits : 8 * s.ctx.fullMessageSize < 2 ^ 32 := by rw [h.size]; omega
  have hblocks := blocksOf_padded h.absorbed
  rw [← hblocks, List.map_append]
  rcases h.fed with ⟨hstate, hnone, hlog⟩ | ⟨hstate, hlog⟩
  · refine ⟨_, _, by simp only [finish, hstate, if_true]; rfl, ?_⟩
    rw [shaFinalize_log h.buffers hbits, shaEngineInit_log, hlog, h.algo_eq, h.size, hnone]
    simp
  · refine ⟨_, _, by simp only [finish, hstate, waitHashDone, reduceCtorEq, if_false]; rfl, ?_⟩
    rw [shaFinalize_log h.buffers hbits, hlog, h.size]
    simp

/-- Hashing a message in any chunks, empty ones and chunks that fill the buffer included, writes
`NEW` once and then feeds the blocks of the padded message, each once and in order. -/
theorem stream_feeds_padded_message (digestRegs : List EngineOp → List (BitVec 32)) (s : Sys)
    (algo : Algo) (chunks : List (Nat × List UInt8)) (outputSize : Option Nat) (fuel : Nat)
    (hlen : (chunks.map Prod.snd).flatten.length < 2 ^ 29) (hfuel : 0 < fuel) :
    ∃ output s', finish digestRegs fuel (updates none (init s algo) chunks) outputSize =
        some (.success, output, s') ∧
      s'.engine.log = s.engine.log ++ .new (modeOf algo) ::
        (blocksOf 64 (padded (chunks.map Prod.snd).flatten)).map .block := by
  have h := streams_updates chunks (streams_init s algo) (by rw [List.nil_append]; omega)
  rw [List.nil_append] at h
  exact finish_of_streams h hlen digestRegs fuel hfuel outputSize

/-- A driver that has not talked to the engine yet. -/
def idleSys : Sys :=
  { ctx := clearedCtx, engine := { log := [], memaddr := [], intEnabled := false }, callbacks := [] }

theorem stream_feeds_padded_message_abc :
    ∃ output s', finish (fun _ => []) 1
        (updates none (init idleSys .sha256) [(1, [0x61]), (2, []), (2, [0x62, 0x63])]) none =
        some (.success, output, s') ∧
      s'.engine.log = .new 2 :: (blocksOf 64 (padded [0x61, 0x62, 0x63])).map .block :=
  stream_feeds_padded_message (fun _ => []) idleSys .sha256 [(1, [0x61]), (2, []), (2, [0x62, 0x63])]
    none 1 (by decide) (by decide)

end McuxDrivers.Sha
