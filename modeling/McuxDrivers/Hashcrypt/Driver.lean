import McuxDrivers.Lib.MdPadding

/-!
# The HASHCRYPT driver

The hash half of `fsl_hashcrypt.c` on a device with the `RELOAD` registers. Each definition has
the name of its C function; pointers are not `NULL`, and `size_t` has 32 bits. The engine is its
`MODE` field, the eight `DIGEST0` words and the `ERROR` status, and it hashes with the functions
of a `HashCore`.
-/

namespace McuxDrivers.Hashcrypt
open McuxDrivers.Lib

inductive Status
  | success
  | fail
  | invalidArgument
  deriving DecidableEq, Repr

/-- `hashcrypt_algo_t`, the values of the `MODE` field. -/
inductive Algo
  | sha1
  | sha256
  | aes
  deriving DecidableEq, Repr

inductive AlgoState
  | hashInit
  | hashUpdate
  deriving DecidableEq, Repr

/-- `SHA1_LEN` or `SHA256_LEN`, as the save and restore functions choose it. -/
def hashLen (algo : Algo) : Nat :=
  if algo = .sha1 then 5 else 8

/-- What the engine computes: the initial digest a `NEW` write loads, and the digest after one
more block of 64 bytes. -/
structure HashCore where
  iv : Algo → List (BitVec 32)
  compress : Algo → List (BitVec 32) → List UInt8 → List (BitVec 32)
  length_iv : ∀ a, (iv a).length = hashLen a
  length_compress : ∀ a h b, h.length = hashLen a → (compress a h b).length = hashLen a

structure Engine where
  mode : Option Algo
  digest : Buf (BitVec 32) 8
  error : Bool
  deriving Repr

/-- `hashcrypt_sha_ctx_internal_t`, without the fields of the background update. -/
structure Ctx where
  blk : Buf UInt8 64
  blksz : Nat
  algo : Algo
  state : AlgoState
  fullMessageSize : Nat
  runningHash : Buf (BitVec 32) 8
  deriving Repr

def shaBlockSize : Nat := 64

def shaMaxBlockCount : Nat := 2047

section Engine

variable (core : HashCore)

/-- A `CTRL` write with `NEW_HASH(1)` and the given `MODE`. -/
def ctrlNewHash (e : Engine) (mode : Option Algo) : Engine :=
  match mode with
  | none => { e with mode := none }
  | some .aes => { e with mode := some .aes }
  | some algo => { e with mode := some algo, digest := e.digest.write 0 (core.iv algo) }

/-- A 64-byte block reaches the engine, through `INDATA` or by the AHB master. -/
def consumeBlock (e : Engine) (block : List UInt8) : Engine :=
  match e.mode with
  | none => e
  | some .aes => e
  | some algo =>
    { e with digest := e.digest.write 0 (core.compress algo (e.digest.data.take (hashLen algo)) block) }

/-- A `MEMCTRL` write with `MASTER(1)` and `COUNT(n)`, an 11-bit field, after `MEMADDR` was
pointed to `message`. -/
def memctrlMaster (e : Engine) (message : List UInt8) (n : Nat) : Engine :=
  (blocksOf 64 (message.take (n % 2 ^ 11 * 64))).foldl (consumeBlock core) e

def engineInit (e : Engine) (algo : Algo) : Engine :=
  ctrlNewHash core (ctrlNewHash core e none) (some algo)

def engineDeinit (e : Engine) : Engine :=
  { e with mode := none }

def shaOneBlock (e : Engine) (blk : List UInt8) : Engine :=
  consumeBlock core e (blk.take shaBlockSize)

/-- The `while (blkFullRounds >= 1U)` loop of `hashcrypt_sha_process_message_data`. -/
def feedFullRounds : Nat → Engine → List UInt8 → Engine × List UInt8
  | 0, e, message => (e, message)
  | rounds + 1, e, message =>
    feedFullRounds rounds (memctrlMaster core e message shaMaxBlockCount)
      (message.drop (shaMaxBlockCount * 64))

/-- The full blocks of an aligned message, fetched by the AHB master. -/
def feedAligned (e : Engine) (message : List UInt8) : Engine × List UInt8 :=
  let blkNum := message.length / 64
  let blkFullRounds := blkNum / shaMaxBlockCount
  let (e, message) := feedFullRounds core blkFullRounds e message
  let blkNum := blkNum - blkFullRounds * shaMaxBlockCount
  if blkNum ≠ 0 then (memctrlMaster core e message blkNum, message.drop (blkNum * 64))
  else (e, message)

/-- The status read from the `ERROR` bit. -/
def errorStatus (e : Engine) : Status :=
  if e.error then .fail else .success

/-- `message` are the bytes at address `addr`. -/
def shaProcessMessageData (e : Engine) (ctx : Ctx) (addr : Nat) (message : List UInt8) :
    Status × Engine × Ctx :=
  let (e, ctx, addr, message) :=
    if ctx.blksz ≠ 0 then
      let toCopy := shaBlockSize - ctx.blksz
      let blk := ctx.blk.write ctx.blksz (message.take toCopy)
      (shaOneBlock core e blk.data, { ctx with blk := blk }, addr + toCopy, message.drop toCopy)
    else (e, ctx, addr, message)
  let (e, message) :=
    if message.length ≥ shaBlockSize then
      if addr % 4 ≠ 0 then feedBlocks shaBlockSize (shaOneBlock core) e message
      else feedAligned core e message
    else (e, message)
  (errorStatus e, e, { ctx with blk := ctx.blk.write 0 message, blksz := message.length })

def shaFinalize (e : Engine) (ctx : Ctx) : Status × Engine × Ctx :=
  let (last, blk) := closeBuffer ctx.blk ctx.blksz ctx.fullMessageSize
  let e := last.foldl (shaOneBlock core) e
  (errorStatus e, e, { ctx with blk := blk })

def saveRunningHash (e : Engine) (ctx : Ctx) : Status × Ctx :=
  (errorStatus e, { ctx with runningHash := ctx.runningHash.write 0 (e.digest.data.take (hashLen ctx.algo)) })

/-- When the mode changes, `NEW` is needed; the `RELOAD` writes then overwrite the digest. -/
def restoreRunningHash (e : Engine) (ctx : Ctx) : Engine :=
  let e := if e.mode ≠ some ctx.algo then engineInit core e ctx.algo else e
  { e with digest := e.digest.write 0 (ctx.runningHash.data.take (hashLen ctx.algo)) }

/-- `HASHCRYPT_SHA_Init`; a context for AES is refused. -/
def shaInit (ctx : Ctx) (algo : Algo) : Status × Ctx :=
  if algo = .sha1 ∨ algo = .sha256 then
    (.success, { ctx with algo := algo, blksz := 0, state := .hashInit, fullMessageSize := 0 })
  else (.invalidArgument, ctx)

/-- `HASHCRYPT_SHA_Update` of the bytes `input` at address `addr`. -/
def shaUpdate (e : Engine) (ctx : Ctx) (addr : Nat) (input : List UInt8) : Status × Engine × Ctx :=
  if input.length = 0 then (.success, e, ctx)
  else
    let ctx := { ctx with fullMessageSize := (ctx.fullMessageSize + input.length) % 2 ^ 32 }
    if ctx.blksz + input.length ≤ shaBlockSize then
      (.success, e, { ctx with
        blk := ctx.blk.write ctx.blksz input, blksz := ctx.blksz + input.length })
    else
      let (e, ctx) :=
        if ctx.state ≠ .hashUpdate then (engineInit core e ctx.algo, { ctx with state := .hashUpdate })
        else (restoreRunningHash core e ctx, ctx)
      let (status, e, ctx) := shaProcessMessageData core e ctx addr input
      if status ≠ .success then (status, e, ctx)
      else
        let (status, ctx) := saveRunningHash e ctx
        (status, e, ctx)

/-- `kHASHCRYPT_OutLenSha1` and `kHASHCRYPT_OutLenSha256`. -/
def outLen : Algo → Nat
  | .sha1 => 20
  | .sha256 => 32
  | .aes => 0

/-- The output length after the comparison with `*outputSize`; `none` stands for `NULL`. -/
def algOutSize (algo : Algo) : Option Nat → Nat
  | none => outLen algo
  | some n => if outLen algo < n then outLen algo else n

/-- `hashcrypt_get_data`: the first bytes of the digest words, each byte-swapped. -/
def getData (e : Engine) (outputSize : Nat) : Status × List UInt8 :=
  (errorStatus e, (e.digest.data.flatMap (fun w => leBytes32 (swapBytes w))).take (min outputSize 32))

/-- `HASHCRYPT_SHA_Finish`, with the bytes written to the output; an `*outputSize` is left at their
number. -/
def shaFinish (e : Engine) (ctx : Ctx) (outputSize : Option Nat) :
    (Status × List UInt8) × Engine × Ctx :=
  let e :=
    if ctx.state = .hashInit then engineInit core e ctx.algo else restoreRunningHash core e ctx
  let outSize := algOutSize ctx.algo outputSize
  let (status, e, ctx) := shaFinalize core e ctx
  if status ≠ .success then ((status, []), e, ctx) else (getData e outSize, e, ctx)

/-- Any of the `HASHCRYPT_AES_*` functions. They refuse their arguments without touching the engine,
or start the engine in AES mode, leave it with some digest and disable it. -/
def aesOperation (e : Engine) (left : Option (Buf (BitVec 32) 8)) : Engine :=
  match left with
  | none => e
  | some digest => engineDeinit { engineInit core e .aes with digest := digest }

end Engine

end McuxDrivers.Hashcrypt
