import McuxDrivers.Hashcrypt.Driver
import McuxDrivers.Lib.ShaCompress

/-!
# Independent hash contexts on one engine

Every context carries its running digest, so an update or a finish first puts the engine into
the state the context left it in. Whatever the other contexts and AES do in between, a context
hashes its own message.
-/

namespace McuxDrivers.Hashcrypt
open McuxDrivers.Lib

section Engine

variable (core : HashCore)

/-- The digest words after some blocks. -/
def hashBlocks (algo : Algo) (blocks : List (List UInt8)) : List (BitVec 32) :=
  blocks.foldl (core.compress algo) (core.iv algo)

lemma hashBlocks_append (algo : Algo) (xs ys : List (List UInt8)) :
    hashBlocks core algo (xs ++ ys) = ys.foldl (core.compress algo) (hashBlocks core algo xs) :=
  List.foldl_append

/-- The digest of a message as the bytes a caller gets. -/
def digestOf (algo : Algo) (m : List UInt8) : List UInt8 :=
  (hashBlocks core algo (blocksOf 64 (padded m))).flatMap beBytes32

/-- The engine hashes with `algo` and its running digest is `h`. -/
structure Runs (e : Engine) (algo : Algo) (h : List (BitVec 32)) : Prop where
  mode : e.mode = some algo
  digest : e.digest.Holds (hashLen algo) h
  ok : e.error = false

lemma hashLen_le (algo : Algo) : hashLen algo ≤ 8 := by
  unfold hashLen
  split <;> decide

/-- Words written to the front of the digest or of a saved digest. -/
lemma holds_hashLen (b : Buf (BitVec 32) 8) {algo : Algo} {h : List (BitVec 32)}
    (hlen : h.length = hashLen algo) : (b.write 0 h).Holds (hashLen algo) h := by
  have hle : h.length ≤ 8 := hlen ▸ hashLen_le algo
  rw [← hlen]
  exact Buf.holds_write_zero b h hle

lemma runs_engineInit {e : Engine} {algo : Algo} (hsha : algo ≠ .aes) (hok : e.error = false) :
    Runs (engineInit core e algo) algo (core.iv algo) := by
  cases algo with
  | aes => exact absurd rfl hsha
  | sha1 => exact ⟨rfl, holds_hashLen _ (core.length_iv _), hok⟩
  | sha256 => exact ⟨rfl, holds_hashLen _ (core.length_iv _), hok⟩

lemma engineInit_mode (e : Engine) (algo : Algo) : (engineInit core e algo).mode = some algo := by
  cases algo <;> rfl

lemma engineInit_error (e : Engine) (algo : Algo) : (engineInit core e algo).error = e.error := by
  cases algo <;> rfl

lemma runs_restoreRunningHash {e : Engine} {ctx : Ctx} {h : List (BitVec 32)}
    (hsaved : ctx.runningHash.Holds (hashLen ctx.algo) h) (hok : e.error = false) :
    Runs (restoreRunningHash core e ctx) ctx.algo h := by
  have hlen : h.length = hashLen ctx.algo := hsaved.size_eq.symm
  unfold restoreRunningHash
  rw [hsaved.take_eq]
  by_cases hmode : e.mode = some ctx.algo
  · rw [if_neg (not_not_intro hmode)]
    exact ⟨hmode, holds_hashLen _ hlen, hok⟩
  · rw [if_pos hmode]
    exact ⟨engineInit_mode core e ctx.algo, holds_hashLen _ hlen, (engineInit_error core e ctx.algo).trans hok⟩

lemma consumeBlock_sha {e : Engine} {algo : Algo} (hmode : e.mode = some algo) (hsha : algo ≠ .aes)
    (block : List UInt8) :
    consumeBlock core e block =
      { e with digest := e.digest.write 0 (core.compress algo (e.digest.data.take (hashLen algo)) block) } := by
  unfold consumeBlock
  split
  next hnone => simp [hnone] at hmode
  next haes => exact absurd (Option.some.inj (hmode.symm.trans haes)) hsha
  next hsome => rw [Option.some.inj (hmode.symm.trans hsome)]

lemma Runs.consumeBlock {e : Engine} {algo : Algo} {h : List (BitVec 32)} (hr : Runs e algo h)
    (hsha : algo ≠ .aes) (block : List UInt8) :
    Runs (consumeBlock core e block) algo (core.compress algo h block) := by
  have hlen := core.length_compress algo h block hr.digest.size_eq.symm
  rw [consumeBlock_sha core hr.mode hsha, hr.digest.take_eq]
  exact ⟨hr.mode, holds_hashLen _ hlen, hr.ok⟩

lemma Runs.foldl {algo : Algo} (hsha : algo ≠ .aes) (blocks : List (List UInt8)) {e : Engine}
    {h : List (BitVec 32)} (hr : Runs e algo h) :
    Runs (blocks.foldl (Hashcrypt.consumeBlock core) e) algo (blocks.foldl (core.compress algo) h) := by
  induction blocks generalizing e h with
  | nil => exact hr
  | cons b bs ih => exact ih (hr.consumeBlock core hsha b)

lemma consumeBlock_error (e : Engine) (block : List UInt8) :
    (consumeBlock core e block).error = e.error := by
  unfold consumeBlock
  split <;> rfl

lemma foldl_consumeBlock_error (blocks : List (List UInt8)) (e : Engine) :
    (blocks.foldl (consumeBlock core) e).error = e.error := by
  induction blocks generalizing e with
  | nil => rfl
  | cons b bs ih => rw [List.foldl_cons, ih, consumeBlock_error]

lemma foldl_shaOneBlock (blocks : List (List UInt8)) (h : ∀ b ∈ blocks, b.length = 64) (e : Engine) :
    blocks.foldl (shaOneBlock core) e = blocks.foldl (consumeBlock core) e := by
  apply List.foldl_ext
  intro e b hb
  have hblk : b.take shaBlockSize = b := List.take_of_length_le (h b hb).le
  rw [shaOneBlock, hblk]

/-- Full rounds of the AHB master feed the blocks they cover. -/
lemma feedFullRounds_eq (rounds : Nat) (e : Engine) (message : List UInt8)
    (hlen : rounds * (2047 * 64) ≤ message.length) :
    feedFullRounds core rounds e message =
      ((blocksOf 64 (message.take (rounds * (2047 * 64)))).foldl (consumeBlock core) e,
        message.drop (rounds * (2047 * 64))) := by
  induction rounds generalizing e message with
  | zero => simp [feedFullRounds]
  | succ rounds ih =>
    have hsucc : (rounds + 1) * (2047 * 64) = 2047 * 64 + rounds * (2047 * 64) := by ring
    have hround : (message.take (2047 * 64)).length = 2047 * 64 := by rw [List.length_take]; omega
    have hrest : rounds * (2047 * 64) ≤ (message.drop (2047 * 64)).length := by
      rw [List.length_drop]
      apply Nat.le_sub_of_add_le
      rwa [Nat.add_comm, ← hsucc]
    have hmaster : memctrlMaster core e message 2047 =
        (blocksOf 64 (message.take (2047 * 64))).foldl (consumeBlock core) e := by
      rw [memctrlMaster, Nat.mod_eq_of_lt (by decide)]
    rw [feedFullRounds, shaMaxBlockCount, hmaster, ih _ _ hrest, hsucc, List.take_add,
      (blocksOf_append_mul (n := 64) (by decide) 2047 _ _ hround).1, List.foldl_append, List.drop_drop]

/-- The AHB master path feeds the full blocks and leaves the tail. -/
lemma feedAligned_eq (e : Engine) (message : List UInt8) :
    feedAligned core e message =
      ((blocksOf 64 message).foldl (consumeBlock core) e, tailOf 64 message) := by
  unfold feedAligned
  obtain ⟨n, hn⟩ : ∃ n, n = message.length / 64 := ⟨_, rfl⟩
  obtain ⟨k, hk⟩ : ∃ k, k = n / 2047 := ⟨_, rfl⟩
  have hfit : k * (2047 * 64) ≤ message.length := by omega
  obtain ⟨hblocks, htail⟩ := blocksOf_append_mul (n := 64) (by decide) (k * 2047) (message.take (k * (2047 * 64)))
    (message.drop (k * (2047 * 64))) (by rw [List.length_take, Nat.min_eq_left hfit, Nat.mul_assoc])
  rw [List.take_append_drop] at hblocks htail
  simp only [shaMaxBlockCount, ← hn, ← hk, feedFullRounds_eq core k e message hfit]
  by_cases hrest : n - k * 2047 ≠ 0
  · -- the remaining blocks are fewer than the counter holds
    obtain ⟨r, hr⟩ : ∃ r, r = n - k * 2047 := ⟨_, rfl⟩
    have hcount : r % 2 ^ 11 = r := Nat.mod_eq_of_lt (by omega)
    have hlast : ((message.drop (k * (2047 * 64))).take (r * 64)).length = r * 64 := by
      rw [List.length_take, List.length_drop]
      omega
    obtain ⟨hblocks', htail'⟩ := blocksOf_append_mul (n := 64) (by decide) r _
      ((message.drop (k * (2047 * 64))).drop (r * 64)) hlast
    rw [List.take_append_drop] at hblocks' htail'
    have hshort : ((message.drop (k * (2047 * 64))).drop (r * 64)).length < 64 := by
      rw [List.length_drop, List.length_drop]
      omega
    rw [if_pos hrest, ← hr, memctrlMaster, hcount, hblocks, List.foldl_append, htail, htail', hblocks',
      blocksOf_of_length_lt hshort, tailOf_of_length_lt hshort, List.append_nil]
  · have hshort : (message.drop (k * (2047 * 64))).length < 64 := by
      rw [List.length_drop]
      omega
    rw [if_neg hrest, hblocks, htail, blocksOf_of_length_lt hshort, tailOf_of_length_lt hshort,
      List.append_nil]

/-- From an aligned address or not, the full blocks are fed and the tail is left. -/
lemma feedRest_eq (e : Engine) (addr : Nat) (rest : List UInt8) :
    (if rest.length ≥ shaBlockSize then
      if addr % 4 ≠ 0 then feedBlocks shaBlockSize (shaOneBlock core) e rest else feedAligned core e rest
      else (e, rest)) = ((blocksOf 64 rest).foldl (consumeBlock core) e, tailOf 64 rest) := by
  split
  · split
    · rw [feedBlocks_eq (by decide)]
      exact congrArg (·, tailOf 64 rest)
        (foldl_shaOneBlock core _ (fun _ hmem => length_of_mem_blocksOf hmem) e)
    · exact feedAligned_eq core e rest
  next hlt =>
    have h64 : rest.length < 64 := Nat.lt_of_not_le hlt
    rw [blocksOf_of_length_lt h64, tailOf_of_length_lt h64]
    rfl

/-- Processing a chunk that does not fit into the internal block feeds the blocks of the buffer
followed by the chunk, from any address, and keeps the rest. -/
lemma shaProcessMessageData_spec {ctx : Ctx} {buf : List UInt8} (hb : ctx.blk.Holds ctx.blksz buf)
    (e : Engine) (addr : Nat) (message : List UInt8) (hgt : 64 < buf.length + message.length) :
    ∃ blk blksz, blk.Holds blksz (tailOf 64 (buf ++ message)) ∧
      shaProcessMessageData core e ctx addr message =
        (errorStatus e, (blocksOf 64 (buf ++ message)).foldl (consumeBlock core) e,
          { ctx with blk := blk, blksz := blksz }) := by
  have hstatus (blocks : List (List UInt8)) :
      errorStatus (blocks.foldl (consumeBlock core) e) = errorStatus e := by
    rw [errorStatus, foldl_consumeBlock_error, errorStatus]
  have htail (l : List UInt8) : (tailOf 64 l).length ≤ 64 := (length_tailOf_lt (by decide) l).le
  have hsize := hb.size_eq
  have hbound := hb.bounded
  unfold shaProcessMessageData
  by_cases hzero : ctx.blksz ≠ 0
  · obtain ⟨hblocks, hrest⟩ := blocksOf_append_overflow (by decide) buf message hbound hgt
    rw [← hsize] at hblocks hrest
    have hblk : (ctx.blk.write ctx.blksz (message.take (64 - ctx.blksz))).data =
        buf ++ message.take (64 - ctx.blksz) := by
      apply hb.complete
      rw [List.length_take]
      omega
    have hone := length_completed hbound hgt
    rw [← hsize] at hone
    refine ⟨_, _, Buf.holds_write_zero (ctx.blk.write ctx.blksz (message.take (64 - ctx.blksz))) _
      (htail _), ?_⟩
    simp only [if_pos hzero, feedRest_eq]
    rw [hrest, ← hstatus, hblocks, List.foldl_cons, shaOneBlock, shaBlockSize, hblk,
      List.take_of_length_le hone.le]
  · have hnil : buf = [] := List.length_eq_zero_iff.mp (by omega)
    refine ⟨_, _, Buf.holds_write_zero ctx.blk _ (htail _), ?_⟩
    simp only [if_neg hzero, feedRest_eq, hnil, List.nil_append, hstatus]

/-- The context after a prefix `m` of its message: it buffers `a.2`, and its running digest is the
one of the blocks `a.1`. -/
structure Tracks (ctx : Ctx) (algo : Algo) (a : List (List UInt8) × List UInt8) (m : List UInt8) :
    Prop where
  buffers : ctx.blk.Holds ctx.blksz a.2
  absorbed : Absorbed 64 a m
  algo_eq : ctx.algo = algo
  sha : algo ≠ .aes
  size : ctx.fullMessageSize = m.length % 2 ^ 32
  running : (ctx.state = .hashInit ∧ a.1 = []) ∨
    (ctx.state = .hashUpdate ∧ ctx.runningHash.Holds (hashLen algo) (hashBlocks core algo a.1))

lemma tracks_shaInit (ctx : Ctx) {algo : Algo} (hsha : algo ≠ .aes) :
    Tracks core (shaInit ctx algo).2 algo ([], []) [] := by
  have hvalid : algo = .sha1 ∨ algo = .sha256 := by
    cases algo with
    | sha1 => exact .inl rfl
    | sha256 => exact .inr rfl
    | aes => exact absurd rfl hsha
  rw [shaInit, if_pos hvalid]
  exact ⟨Buf.holds_nil _, absorbed_nil 64, rfl, hsha, rfl, .inl ⟨rfl, rfl⟩⟩

/-- Starting or restoring puts the engine where the context left it. -/
lemma runs_resume {ctx : Ctx} {algo : Algo} {a : List (List UInt8) × List UInt8} {m : List UInt8}
    (h : Tracks core ctx algo a m) {e : Engine} (hok : e.error = false) :
    Runs (if ctx.state = .hashInit then engineInit core e ctx.algo else restoreRunningHash core e ctx)
      algo (hashBlocks core algo a.1) := by
  rcases h.running with ⟨hstate, hnone⟩ | ⟨hstate, hsaved⟩
  · rw [if_pos hstate, h.algo_eq, hnone]
    exact runs_engineInit core h.sha hok
  · have hne : ctx.state ≠ .hashInit := by simp [hstate]
    rw [if_neg hne, ← h.algo_eq]
    apply runs_restoreRunningHash core _ hok
    rwa [h.algo_eq]

/-- Processing on an engine that runs the context's hash, and saving the running digest. -/
lemma tracks_process {ctx : Ctx} {algo : Algo} {a : List (List UInt8) × List UInt8}
    {m input : List UInt8} {e : Engine} (hb : ctx.blk.Holds ctx.blksz a.2)
    (habs : Absorbed 64 (a.1 ++ blocksOf 64 (a.2 ++ input), tailOf 64 (a.2 ++ input)) m)
    (halgo : ctx.algo = algo) (hsha : algo ≠ .aes) (hsize : ctx.fullMessageSize = m.length % 2 ^ 32)
    (hstate : ctx.state = .hashUpdate) (hruns : Runs e algo (hashBlocks core algo a.1)) (addr : Nat)
    (hgt : 64 < a.2.length + input.length) :
    Tracks core
      (let (status, e, ctx) := shaProcessMessageData core e ctx addr input
        if status ≠ Status.success then (status, e, ctx)
        else
          let (status, ctx) := saveRunningHash e ctx
          (status, e, ctx)).2.2
      algo (a.1 ++ blocksOf 64 (a.2 ++ input), tailOf 64 (a.2 ++ input)) m := by
  obtain ⟨blk, blksz, hblk, hprocess⟩ := shaProcessMessageData_spec core hb e addr input hgt
  have hfed := hruns.foldl core hsha (blocksOf 64 (a.2 ++ input))
  have hstatus : errorStatus e = .success := by rw [errorStatus, hruns.ok]; rfl
  simp only [hprocess, hstatus, ne_eq, not_true_eq_false, if_false, saveRunningHash]
  refine ⟨hblk, habs, halgo, hsha, hsize, .inr ⟨hstate, ?_⟩⟩
  simp only [halgo, hfed.digest.take_eq, hashBlocks_append]
  exact holds_hashLen _ hfed.digest.size_eq.symm

/-- `HASHCRYPT_SHA_Update` is one step of the abstract consumer, whatever state the engine is in. -/
lemma tracks_shaUpdate {ctx : Ctx} {algo : Algo} {a : List (List UInt8) × List UInt8} {m : List UInt8}
    (h : Tracks core ctx algo a m) {e : Engine} (hok : e.error = false) (addr : Nat) (input : List UInt8) :
    Tracks core (shaUpdate core e ctx addr input).2.2 algo (absorb 64 a input) (m ++ input) := by
  have habs := h.absorbed.absorb (by decide) input
  unfold shaUpdate
  by_cases hempty : input.length = 0
  · have hnil : input = [] := List.length_eq_zero_iff.mp hempty
    rw [if_pos hempty, hnil, h.absorbed.absorb_nil, List.append_nil]
    exact h
  rw [if_neg hempty]
  have hsize : (ctx.fullMessageSize + input.length) % 2 ^ 32 = (m ++ input).length % 2 ^ 32 := by
    rw [h.size, List.length_append, Nat.mod_add_mod]
  have hblksz := h.buffers.size_eq
  by_cases hfit : ctx.blksz + input.length ≤ shaBlockSize
  · simp only [if_pos hfit]
    have hle : a.2.length + input.length ≤ 64 := by
      rw [← hblksz]
      exact hfit
    rw [absorb_of_le hle] at habs ⊢
    exact ⟨h.buffers.append input hfit, habs, h.algo_eq, h.sha, hsize, h.running⟩
  · have hgt : 64 < a.2.length + input.length := by
      rw [← hblksz]
      exact Nat.lt_of_not_le hfit
    rw [absorb_of_lt hgt] at habs ⊢
    -- the engine resumes the hash of this context
    have hruns := runs_resume core h hok
    rcases h.running with ⟨hstate, hnone⟩ | ⟨hstate, hsaved⟩
    · rw [if_pos hstate] at hruns
      simp only [if_neg hfit, hstate, ne_eq, reduceCtorEq, not_false_eq_true, if_true]
      apply tracks_process core _ habs _ h.sha _ _ hruns addr hgt
      · exact h.buffers
      · exact h.algo_eq
      · exact hsize
      · rfl
    · rw [hstate, if_neg (by decide)] at hruns
      simp only [if_neg hfit, hstate, ne_eq, not_true_eq_false, if_false]
      apply tracks_process core _ habs _ h.sha _ _ hruns addr hgt
      · exact h.buffers
      · exact h.algo_eq
      · exact hsize
      · rfl

/-- The bytes a caller gets of a digest: all of them, or as many as the output has room for. -/
def cut (outputSize : Option Nat) (digest : List UInt8) : List UInt8 :=
  match outputSize with
  | none => digest
  | some n => digest.take n

lemma length_flatMap_beBytes32 (h : List (BitVec 32)) : (h.flatMap beBytes32).length = 4 * h.length := by
  induction h with
  | nil => rfl
  | cons w ws ih =>
    rw [List.flatMap_cons, List.length_append, ih, List.length_cons]
    simp [beBytes32]
    omega

/-- Reading the output of an engine that runs a hash. -/
lemma Runs.getData {e : Engine} {algo : Algo} {h : List (BitVec 32)} (hr : Runs e algo h)
    (hsha : algo ≠ .aes) (outputSize : Option Nat) :
    getData e (algOutSize algo outputSize) =
      (.success, cut outputSize (h.flatMap beBytes32)) := by
  have hout : outLen algo = 4 * hashLen algo := by
    cases algo with
    | sha1 => rfl
    | sha256 => rfl
    | aes => exact absurd rfl hsha
  have hlen : (h.flatMap beBytes32).length = outLen algo := by
    rw [length_flatMap_beBytes32, ← hr.digest.size_eq, hout]
  have hle : outLen algo ≤ 32 := by
    have h8 := hashLen_le algo
    omega
  have hswap : e.digest.data.flatMap (fun w => leBytes32 (swapBytes w)) =
      h.flatMap beBytes32 ++ (e.digest.data.drop (hashLen algo)).flatMap beBytes32 := by
    rw [← hr.digest.take_eq, ← List.flatMap_append, List.take_append_drop]
    exact congrArg (e.digest.data.flatMap ·) (funext leBytes32_swapBytes)
  have hok : errorStatus e = .success := by rw [errorStatus, hr.ok]; rfl
  rw [Hashcrypt.getData, hok, hswap]
  cases outputSize with
  | none =>
    simp only [cut, algOutSize, Nat.min_eq_left hle]
    rw [← hlen, List.take_left]
  | some n =>
    have hmin : min (algOutSize algo (some n)) 32 = min n (h.flatMap beBytes32).length := by
      simp only [algOutSize]
      split <;> omega
    simp only [cut, hmin]
    rw [List.take_append_of_le_length (Nat.min_le_right _ _), ← List.take_eq_take_min]

lemma shaFinish_ctx (e : Engine) (ctx : Ctx) (outputSize : Option Nat) :
    (shaFinish core e ctx outputSize).2.2 =
      { ctx with blk := (closeBuffer ctx.blk ctx.blksz ctx.fullMessageSize).2 } := by
  simp only [shaFinish, shaFinalize]
  split <;> split <;> rfl

/-- Finishing keeps the context, so its message may be continued. -/
lemma tracks_shaFinish {ctx : Ctx} {algo : Algo} {a : List (List UInt8) × List UInt8}
    {m : List UInt8} (h : Tracks core ctx algo a m) (e : Engine) (outputSize : Option Nat) :
    Tracks core (shaFinish core e ctx outputSize).2.2 algo a m := by
  rw [shaFinish_ctx]
  exact ⟨closeBuffer_snd h.buffers _, h.absorbed, h.algo_eq, h.sha, h.size, h.running⟩

/-- `HASHCRYPT_SHA_Finish` outputs the digest of the context's message. -/
lemma shaFinish_output {ctx : Ctx} {algo : Algo} {a : List (List UInt8) × List UInt8}
    {m : List UInt8} (h : Tracks core ctx algo a m) {e : Engine} (hok : e.error = false)
    (hlen : m.length < 2 ^ 29) (outputSize : Option Nat) :
    (shaFinish core e ctx outputSize).1 = (.success, cut outputSize (digestOf core algo m)) := by
  have hsize : ctx.fullMessageSize = m.length := by
    rw [h.size]
    exact Nat.mod_eq_of_lt (by omega)
  have hlast : ∀ b ∈ lastBlocks a.2 m.length, b.length = 64 :=
    fun _ hmem => length_of_mem_lastBlocks h.absorbed.bounded _ hmem
  have hclosed : (closeBuffer ctx.blk ctx.blksz ctx.fullMessageSize).1 = lastBlocks a.2 m.length := by
    rw [closeBuffer_fst h.buffers (by omega), hsize]
  have hruns := (runs_resume core h hok).foldl core h.sha (lastBlocks a.2 m.length)
  rw [← hashBlocks_append, blocksOf_padded h.absorbed] at hruns
  have hstatus : errorStatus ((lastBlocks a.2 m.length).foldl (consumeBlock core)
      (if ctx.state = .hashInit then engineInit core e ctx.algo else restoreRunningHash core e ctx)) =
      .success := by
    rw [errorStatus, hruns.ok]
    rfl
  simp only [shaFinish, shaFinalize, hclosed, foldl_shaOneBlock core _ hlast, hstatus, ne_eq,
    not_true_eq_false, if_false]
  rw [h.algo_eq] at hruns ⊢
  exact hruns.getData h.sha outputSize

lemma shaOneBlock_error (blocks : List (List UInt8)) (e : Engine) :
    (blocks.foldl (shaOneBlock core) e).error = e.error := by
  induction blocks generalizing e with
  | nil => rfl
  | cons b bs ih => rw [List.foldl_cons, ih, shaOneBlock, consumeBlock_error]

lemma restoreRunningHash_error (e : Engine) (ctx : Ctx) :
    (restoreRunningHash core e ctx).error = e.error := by
  unfold restoreRunningHash
  split
  · exact engineInit_error core e ctx.algo
  · rfl

lemma shaProcessMessageData_error (e : Engine) (ctx : Ctx) (addr : Nat) (message : List UInt8) :
    (shaProcessMessageData core e ctx addr message).2.1.error = e.error := by
  unfold shaProcessMessageData
  simp only [feedRest_eq, foldl_consumeBlock_error]
  split
  · exact consumeBlock_error core _ _
  · rfl

/-- The hash functions raise no engine error. -/
lemma shaUpdate_error (e : Engine) (ctx : Ctx) (addr : Nat) (input : List UInt8) :
    (shaUpdate core e ctx addr input).2.1.error = e.error := by
  have hkeep (status : Status) (e : Engine) (ctx : Ctx) :
      (if status ≠ .success then (status, e, ctx)
        else ((saveRunningHash e ctx).1, e, (saveRunningHash e ctx).2)).2.1 = e := by
    split <;> rfl
  unfold shaUpdate
  split
  · rfl
  dsimp only
  split
  · rfl
  simp only [hkeep, shaProcessMessageData_error]
  split
  · exact engineInit_error core e ctx.algo
  · exact restoreRunningHash_error core e _

lemma shaFinish_error (e : Engine) (ctx : Ctx) (outputSize : Option Nat) :
    (shaFinish core e ctx outputSize).2.1.error = e.error := by
  simp only [shaFinish, shaFinalize]
  split <;> split <;> simp only [shaOneBlock_error, engineInit_error, restoreRunningHash_error]

lemma aesOperation_error (e : Engine) (left : Option (Buf (BitVec 32) 8)) :
    (aesOperation core e left).error = e.error := by
  cases left <;> rfl

end Engine

/-- Several hash contexts and the engine they share. -/
structure Sys (ι : Type) where
  contexts : ι → Ctx
  engine : Engine

/-- The calls that use the engine. -/
inductive Op (ι : Type)
  | init (i : ι) (algo : Algo)
  | update (i : ι) (addr : Nat) (input : List UInt8)
  | finish (i : ι) (outputSize : Option Nat)
  | aes (left : Option (Buf (BitVec 32) 8))

section Runs

variable (core : HashCore) {ι : Type} [DecidableEq ι]

def step (s : Sys ι) : Op ι → Sys ι
  | .init i algo => { s with contexts := Function.update s.contexts i (shaInit (s.contexts i) algo).2 }
  | .update i addr input =>
    let r := shaUpdate core s.engine (s.contexts i) addr input
    { contexts := Function.update s.contexts i r.2.2, engine := r.2.1 }
  | .finish i outputSize =>
    let r := shaFinish core s.engine (s.contexts i) outputSize
    { contexts := Function.update s.contexts i r.2.2, engine := r.2.1 }
  | .aes left => { s with engine := aesOperation core s.engine left }

def run (s : Sys ι) (ops : List (Op ι)) : Sys ι :=
  ops.foldl (step core) s

/-- What one call does to the algorithm and the message of context `i`, if it has been initialised:
`HASHCRYPT_SHA_Init` starts an empty message, an update appends its bytes. -/
def receive (i : ι) (r : Option (Algo × List UInt8)) : Op ι → Option (Algo × List UInt8)
  | .init j algo => if j = i ∧ algo ≠ .aes then some (algo, []) else r
  | .update j _ input => if j = i then r.map (fun am => (am.1, am.2 ++ input)) else r
  | .finish _ _ => r
  | .aes _ => r

/-- The algorithm and the message of context `i` after some calls. -/
def messageOf (i : ι) (ops : List (Op ι)) : Option (Algo × List UInt8) :=
  ops.foldl (receive i) none

/-- The calls on context `i`. -/
def Op.isOn (i : ι) : Op ι → Bool
  | .init j _ => j = i
  | .update j _ _ => j = i
  | .finish j _ => j = i
  | .aes _ => false

/-- Every initialised context tracks its own message. -/
def Separate (s : Sys ι) (r : ι → Option (Algo × List UInt8)) : Prop :=
  s.engine.error = false ∧ ∀ i algo m, r i = some (algo, m) → ∃ a, Tracks core (s.contexts i) algo a m

/-- One call, on any context or an AES operation, keeps the contexts separate. -/
lemma separate_step {s : Sys ι} {r : ι → Option (Algo × List UInt8)} (h : Separate core s r) (op : Op ι) :
    Separate core (step core s op) (fun i => receive i (r i) op) := by
  obtain ⟨hok, htracks⟩ := h
  cases op with
  | init j algo =>
    refine ⟨hok, ?_⟩
    intro i algo' m hm
    by_cases hi : i = j
    · subst hi
      by_cases hsha : algo ≠ .aes
      · simp only [receive, hsha, ne_eq, not_false_eq_true, and_self, if_true, Option.some.injEq,
          Prod.mk.injEq] at hm
        obtain ⟨rfl, rfl⟩ := hm
        have htracked := tracks_shaInit core (s.contexts i) hsha
        exact ⟨([], []), by simpa [step] using htracked⟩
      · simp only [receive, hsha, and_false, if_false] at hm
        have haes : algo = .aes := not_not.mp hsha
        obtain ⟨a, ha⟩ := htracks i algo' m hm
        refine ⟨a, ?_⟩
        simpa [step, shaInit, haes] using ha
    · have hne : j ≠ i := fun hji => hi hji.symm
      simp only [receive, hne, false_and, if_false] at hm
      obtain ⟨a, ha⟩ := htracks i algo' m hm
      exact ⟨a, by simpa [step, Function.update_of_ne hi] using ha⟩
  | update j addr input =>
    refine ⟨(shaUpdate_error core s.engine (s.contexts j) addr input).trans hok, ?_⟩
    intro i algo m hm
    by_cases hi : i = j
    · subst hi
      simp only [receive, if_true, Option.map_eq_some_iff, Prod.mk.injEq] at hm
      obtain ⟨⟨algo', m'⟩, hm', rfl, rfl⟩ := hm
      obtain ⟨a, ha⟩ := htracks i algo' m' hm'
      have htracked := tracks_shaUpdate core ha hok addr input
      exact ⟨absorb 64 a input, by simpa [step] using htracked⟩
    · have hne : j ≠ i := fun hji => hi hji.symm
      simp only [receive, hne, if_false] at hm
      obtain ⟨a, ha⟩ := htracks i algo m hm
      exact ⟨a, by simpa [step, Function.update_of_ne hi] using ha⟩
  | finish j outputSize =>
    refine ⟨(shaFinish_error core s.engine (s.contexts j) outputSize).trans hok, ?_⟩
    intro i algo m hm
    obtain ⟨a, ha⟩ := htracks i algo m hm
    refine ⟨a, ?_⟩
    by_cases hi : i = j
    · subst hi
      simpa [step] using tracks_shaFinish core ha s.engine outputSize
    · simpa [step, Function.update_of_ne hi] using ha
  | aes left => exact ⟨(aesOperation_error core s.engine left).trans hok, htracks⟩

lemma separate_run (ops : List (Op ι)) {s : Sys ι} {r : ι → Option (Algo × List UInt8)}
    (h : Separate core s r) : Separate core (run core s ops) (fun i => ops.foldl (receive i) (r i)) := by
  induction ops generalizing s r with
  | nil => exact h
  | cons op ops ih => exact ih (separate_step core h op)

lemma messageOf_filter (i : ι) (ops : List (Op ι)) :
    messageOf i (ops.filter (Op.isOn i)) = messageOf i ops := by
  unfold messageOf
  generalize (none : Option (Algo × List UInt8)) = r
  induction ops generalizing r with
  | nil => rfl
  | cons op ops ih =>
    by_cases hon : op.isOn i
    · rw [List.filter_cons_of_pos hon, List.foldl_cons, List.foldl_cons, ih]
    · have hskip : receive i r op = r := by
        cases op <;> simp_all [Op.isOn, receive]
      rw [List.filter_cons_of_neg hon, List.foldl_cons, hskip, ih]

/-- After any calls on any contexts, finishing context `i` outputs the digest of its own message. -/
lemma shaFinish_run (s : Sys ι) (ops : List (Op ι)) (i : ι) {algo : Algo} {m : List UInt8}
    (hok : s.engine.error = false) (hm : messageOf i ops = some (algo, m)) (hlen : m.length < 2 ^ 29)
    (outputSize : Option Nat) :
    (shaFinish core (run core s ops).engine ((run core s ops).contexts i) outputSize).1 =
      (.success, cut outputSize (digestOf core algo m)) := by
  have hstart : Separate core s (fun _ => none) := ⟨hok, by simp⟩
  obtain ⟨hok', htracks⟩ := separate_run core ops hstart
  obtain ⟨a, ha⟩ := htracks i algo m hm
  exact shaFinish_output core ha hok' hlen outputSize

/-- Finishing a context outputs the digest of exactly the message this context received, and this is
what the context would output if its own calls had been made on an engine of its own. -/
theorem finish_outputs_own_digest (s s' : Sys ι) (ops : List (Op ι)) (i : ι) (algo : Algo)
    (m : List UInt8) (hok : s.engine.error = false) (hok' : s'.engine.error = false)
    (hm : messageOf i ops = some (algo, m)) (hlen : m.length < 2 ^ 29) (outputSize : Option Nat) :
    (shaFinish core (run core s ops).engine ((run core s ops).contexts i) outputSize).1 =
        (.success, cut outputSize (digestOf core algo m)) ∧
      (shaFinish core (run core s ops).engine ((run core s ops).contexts i) outputSize).1 =
        (shaFinish core (run core s' (ops.filter (Op.isOn i))).engine
          ((run core s' (ops.filter (Op.isOn i))).contexts i) outputSize).1 := by
  have hshared := shaFinish_run core s ops i hok hm hlen outputSize
  have halone := shaFinish_run core s' (ops.filter (Op.isOn i)) i hok'
    ((messageOf_filter i ops).trans hm) hlen outputSize
  exact ⟨hshared, hshared.trans halone.symm⟩

end Runs

/-- The engine of the device: SHA-1 and SHA-256. -/
def shaCore : HashCore where
  iv algo := if algo = .sha1 then sha1Init else sha256Init
  compress algo := if algo = .sha1 then sha1Compress else sha256Compress
  length_iv algo := by
    unfold hashLen
    split <;> rfl
  length_compress algo h b hlen := by
    rw [← hlen]
    split
    · exact length_sha1Compress h b
    · exact length_sha256Compress h b

/-- The memory of a context that was never initialised. -/
def staleCtx : Ctx :=
  { blk := Buf.fill 64 0xa5, blksz := 99, algo := .aes, state := .hashUpdate, fullMessageSize := 7,
    runningHash := Buf.fill 8 1 }

/-- Two contexts that were never initialised, on an engine left in AES mode. -/
def freshSys : Sys Bool :=
  { contexts := fun _ => staleCtx, engine := { mode := some .aes, digest := Buf.fill 8 0, error := false } }

/-- A SHA-1 context fed one and a half blocks while a SHA-256 context and AES use the engine. -/
theorem finish_outputs_own_digest_mixed :
    (shaFinish shaCore
        (run shaCore freshSys
          [.init true .sha256, .init false .sha1, .update false 1 (List.replicate 96 7),
            .update true 0 (List.replicate 65 8), .aes (some (Buf.fill 8 3)), .update false 2 [9]]).engine
        ((run shaCore freshSys
          [.init true .sha256, .init false .sha1, .update false 1 (List.replicate 96 7),
            .update true 0 (List.replicate 65 8), .aes (some (Buf.fill 8 3)), .update false 2 [9]]).contexts
          false) none).1 =
      (.success, digestOf shaCore .sha1 (List.replicate 96 7 ++ [9])) :=
  (finish_outputs_own_digest shaCore freshSys freshSys _ false .sha1 (List.replicate 96 7 ++ [9]) rfl rfl
    rfl (by decide) none).1

end McuxDrivers.Hashcrypt
