import McuxDrivers.Lib.MdPadding

/-!
# The SHA driver

`fsl_sha.c`: the hash context, the block feed of the engine, the blocking update and finish,
and the background update with its interrupt handler. The engine is kept as the log of what
it was told: a `NEW` write starts a hash, every 64 bytes written or fetched are one block.
-/

namespace McuxDrivers.Sha
open McuxDrivers.Lib

/-- `status_t` values the driver returns. -/
inductive Status
  | success
  | fail
  | invalidArgument
  deriving DecidableEq, Repr

/-- `sha_algo_t`. -/
inductive Algo
  | sha1
  | sha256
  deriving DecidableEq, Repr

/-- `sha_algo_state_t`; `cleared` is the zero a wiped context holds. -/
inductive AlgoState
  | cleared
  | hashInit
  | hashUpdate
  | hashDone
  | hashError
  deriving DecidableEq, Repr

/-- What the engine is told: a `CTRL` write with `NEW` and a mode, or a 64-byte block. -/
inductive EngineOp
  | new (mode : Nat)
  | block (bytes : List UInt8)
  deriving DecidableEq, Repr

/-- `sha_ctx_internal_t`. -/
structure Ctx where
  blk : Buf UInt8 64
  blksz : Nat
  algo : Algo
  state : AlgoState
  fullMessageSize : Nat
  remainingBlcks : Nat
  hashCallback : Bool
  deriving Repr

/-- The peripheral: the log of its inputs, the memory `MEMADDR` points to, and the `DIGEST`
and `ERROR` interrupt enables. -/
structure Engine where
  log : List EngineOp
  memaddr : List UInt8
  intEnabled : Bool
  deriving Repr

/-- The driver with its context, the engine, and the callback invocations made so far. -/
structure Sys where
  ctx : Ctx
  engine : Engine
  callbacks : List Status
  deriving Repr

/-- `SRAMX_BASE`, `SRAMX_SIZE`, `SRAM0_BASE` and `SRAM0_SIZE` of a device whose engine has the
`MEMADDR` pseudo DMA. -/
structure MemMap where
  sramxBase : Nat
  sramxSize : Nat
  sram0Base : Nat
  sram0Size : Nat
  deriving Repr

def shaBlockSize : Nat := 64

def maxHashChunk : Nat := 2048 - 1

/-- `sha_check_memory_boundry`. -/
def shaCheckMemoryBoundry (map : MemMap) (message messageSize : Nat) : Status :=
  if (message + messageSize) % 2 ^ 32 > map.sramxBase + map.sramxSize ∧ message < map.sram0Base then
    .fail
  else if (message + messageSize) % 2 ^ 32 > map.sram0Base + map.sram0Size then .fail
  else if message % 4 ≠ 0 then .fail
  else .success

/-- `sha_engine_init`: `MODE` is 1 for SHA-1 and 2 for SHA-256. -/
def shaEngineInit (e : Engine) (algo : Algo) : Engine :=
  { e with log := e.log ++ [.new (if algo = .sha1 then 1 else 2)] }

/-- `sha_one_block`. -/
def shaOneBlock (e : Engine) (blk : List UInt8) : Engine :=
  { e with log := e.log ++ [.block (blk.take shaBlockSize)] }

/-- First fill the internal buffer to a full block and feed it. -/
def fillBuffer (e : Engine) (ctx : Ctx) (message : List UInt8) : Engine × Ctx × List UInt8 :=
  if ctx.blksz ≠ 0 then
    let toCopy := shaBlockSize - ctx.blksz
    let blk := ctx.blk.write ctx.blksz (message.take toCopy)
    (shaOneBlock e blk.data, { ctx with blk := blk }, message.drop toCopy)
  else (e, ctx, message)

/-- The last incomplete message bytes go to the internal block. -/
def keepTail (ctx : Ctx) (message : List UInt8) : Ctx :=
  { ctx with blk := ctx.blk.write 0 message, blksz := message.length, state := .hashDone }

/-- `sha_process_message_data`. -/
def shaProcessMessageData (e : Engine) (ctx : Ctx) (message : List UInt8) : Engine × Ctx :=
  let (e, ctx, message) := fillBuffer e ctx message
  let (e, message) := feedBlocks shaBlockSize shaOneBlock e message
  (e, keepTail ctx message)

/-- A `MEMCTRL` write with `MASTER(1)` and `COUNT(n)`, an 11-bit field: the engine fetches the
blocks from `MEMADDR` on. -/
def memctrlMaster (e : Engine) (n : Nat) : Engine :=
  let bytes := n % 2 ^ 11 * shaBlockSize
  { e with
    log := e.log ++ (blocksOf shaBlockSize (e.memaddr.take bytes)).map .block
    memaddr := e.memaddr.drop bytes }

/-- `sha_process_message_data_master`. -/
def shaProcessMessageDataMaster (e : Engine) (ctx : Ctx) (message : List UInt8) : Engine × Ctx :=
  let (e, ctx, message) := fillBuffer e ctx message
  if message.length ≥ shaBlockSize then
    let e := shaOneBlock e message
    let message := message.drop shaBlockSize
    let blkNum := message.length / 64
    let e := memctrlMaster { e with memaddr := message } blkNum
    (e, keepTail ctx (message.drop (blkNum * 64)))
  else (e, keepTail ctx message)

/-- `SHA_Init`. The wiping loop of the source clears word 0 sixteen times. -/
def init (s : Sys) (algo : Algo) : Sys :=
  { s with ctx := { s.ctx with
      algo := algo
      blksz := 0
      blk := s.ctx.blk.write 0 (List.replicate 4 0)
      state := .hashInit
      fullMessageSize := 0 } }

/-- `SHA_Update` of the bytes `message` at address `addr`. `dma` is the memory map of a device
with the `MEMADDR` pseudo DMA, `none` for an engine without it. -/
def update (dma : Option MemMap) (s : Sys) (addr : Nat) (message : List UInt8) : Status × Sys :=
  if message.length = 0 then (.success, s)
  else
    let ctx := { s.ctx with
      fullMessageSize := (s.ctx.fullMessageSize + message.length) % 2 ^ 32 }
    if ctx.blksz + message.length ≤ shaBlockSize then
      (.success, { s with ctx := { ctx with
        blk := ctx.blk.write ctx.blksz message
        blksz := ctx.blksz + message.length } })
    else
      let (e, ctx) :=
        if ctx.state = .hashInit then
          (shaEngineInit s.engine ctx.algo, { ctx with state := .hashUpdate })
        else (s.engine, ctx)
      let (e, ctx) :=
        match dma with
        | none => shaProcessMessageData e ctx message
        | some map =>
          if shaCheckMemoryBoundry map addr message.length ≠ .success then
            shaProcessMessageData e ctx message
          else shaProcessMessageDataMaster e ctx message
      (.success, { s with ctx := ctx, engine := e })

/-- `sha_finalize`. -/
def shaFinalize (e : Engine) (ctx : Ctx) : Engine × Ctx :=
  let (last, blk) := closeBuffer ctx.blk ctx.blksz ctx.fullMessageSize
  (last.foldl shaOneBlock e, { ctx with blk := blk })

/-- The polling loop of `SHA_Finish` over a context no other party writes: `none` while the
loop has not left after `fuel` reads, otherwise whether the state became `hashDone`. -/
def waitHashDone : Nat → AlgoState → Option Bool
  | 0, _ => none
  | _ + 1, .hashDone => some true
  | _ + 1, .hashError => some false
  | fuel + 1, state => waitHashDone fuel state

/-- `kSHA_OutLenSha1` and `kSHA_OutLenSha256`. -/
def outLen : Algo → Nat
  | .sha1 => 20
  | .sha256 => 32

/-- The context after `SHA_Finish` zeroed its words. -/
def clearedCtx : Ctx :=
  { blk := Buf.fill 64 0, blksz := 0, algo := .sha1, state := .cleared,
    fullMessageSize := 0, remainingBlcks := 0, hashCallback := false }

/-- `sha_get_digest`: the first bytes of the eight `DIGEST` words, each byte-swapped. -/
def shaGetDigest (digestRegs : List EngineOp → List (BitVec 32)) (e : Engine) (outputSize : Nat) :
    List UInt8 :=
  (((digestRegs e.log).take 8).flatMap (fun w => leBytes32 (swapBytes w))).take outputSize

/-- `SHA_Finish`: the status, the bytes written to the output and the system left. The engine's
`DIGEST` registers are a function of what it was told; `outputSize` is `none` for `NULL`. -/
def finish (digestRegs : List EngineOp → List (BitVec 32)) (fuel : Nat) (s : Sys)
    (outputSize : Option Nat) : Option (Status × List UInt8 × Sys) :=
  let ready : Option (Engine × Bool) :=
    if s.ctx.state = .hashInit then some (shaEngineInit s.engine s.ctx.algo, true)
    else (waitHashDone fuel s.ctx.state).map (fun done => (s.engine, done))
  match ready with
  | none => none
  | some (e, false) => some (.fail, [], { s with engine := e })
  | some (e, true) =>
    let algOutSize := match outputSize with
      | none => outLen s.ctx.algo
      | some n => min (outLen s.ctx.algo) n
    let (e, _) := shaFinalize e s.ctx
    some (.success, shaGetDigest digestRegs e algOutSize, { s with ctx := clearedCtx, engine := e })

/-- `SHA_SetCallback` for the context the interrupt handler uses. -/
def setCallback (s : Sys) : Sys :=
  { s with ctx := { s.ctx with hashCallback := true } }

/-- The number of blocks the next AHB master run takes. -/
def chunkBlocks (remaining : Nat) : Nat :=
  if remaining ≥ maxHashChunk then maxHashChunk - 1 else remaining

/-- `SHA_UpdateNonBlocking` of the bytes `input` at address `addr`. -/
def updateNonBlocking (s : Sys) (addr : Nat) (input : List UInt8) : Status × Sys :=
  if input.length = 0 then (.success, s)
  else if addr % 4 ≠ 0 then (.fail, s)
  else
    let blocks := input.length / shaBlockSize
    let blksz := input.length % shaBlockSize
    let blk := if 0 < blksz ∧ blksz ≤ shaBlockSize then
        s.ctx.blk.write 0 ((input.drop (shaBlockSize * blocks)).take blksz)
      else s.ctx.blk
    let numBlocks := chunkBlocks blocks
    let ctx := { s.ctx with
      fullMessageSize := input.length, remainingBlcks := blocks - numBlocks, blksz := blksz, blk := blk }
    if numBlocks > 0 then
      let e := shaEngineInit s.engine ctx.algo
      let e := memctrlMaster { e with intEnabled := true, memaddr := input } numBlocks
      (.success, { s with ctx := { ctx with state := .hashUpdate }, engine := e })
    else (.success, { s with ctx := ctx, callbacks := s.callbacks ++ [.success] })

/-- `SHA_DriverIRQHandler` with `error` as the `ERROR` status bit. -/
def driverIRQHandler (error : Bool) (s : Sys) : Sys :=
  if error = false ∧ s.ctx.remainingBlcks > 0 then
    let numBlocks := chunkBlocks s.ctx.remainingBlcks
    { s with
      ctx := { s.ctx with remainingBlcks := s.ctx.remainingBlcks - numBlocks }
      engine := memctrlMaster s.engine numBlocks }
  else
    let s := if error = false then { s with engine := { s.engine with intEnabled := false } } else s
    let status := if error = false then Status.success else .fail
    if s.ctx.hashCallback then { s with callbacks := s.callbacks ++ [status] } else s

end McuxDrivers.Sha
