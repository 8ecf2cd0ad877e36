import McuxDrivers.Hashcrypt.Driver
import McuxDrivers.Lib.ByteMemory

/-!
# AES on the HASHCRYPT engine

The block feeding of `fsl_hashcrypt.c`: `hashcrypt_aes_one_block` with its aligned and unaligned
paths, and what the AES functions do to start the engine. Memory is a `ByteMemory`, pointers are
addresses that do not wrap, and `size_t` has 32 bits. The engine's computation is a `Core`; a
waiting loop is answered as soon as the AHB master has a block left in its run.
-/

namespace McuxDrivers.Hashcrypt.Aes
open McuxDrivers.Lib

/-- `HASHCRYPT_AES_BLOCK_SIZE` bytes. -/
abbrev Block := Buf UInt8 16

/-- The `AESMODE` field. -/
inductive AesMode
  | ecb
  | cbc
  | ctr
  deriving DecidableEq, Repr

/-- `hashcrypt_aes_keysize_t`. -/
inductive KeySize
  | aes128
  | aes192
  | aes256
  | invalidKey
  deriving DecidableEq, Repr

/-- `hashcrypt_key_t`. -/
inductive KeyType
  | userKey
  | secretKey
  deriving DecidableEq, Repr

/-- `hashcrypt_handle_t`, the words of `keyWord` as bytes. -/
structure Handle where
  keyWord : Buf UInt8 32
  keySize : KeySize
  keyType : KeyType
  deriving Repr

/-- `CRYPTCFG` without the byte order fields and `AESDECRYPT(AES_ENCRYPT)`, which are the same in
every function modelled here. -/
structure CryptCfg where
  aesMode : AesMode
  aesSecret : Bool
  aesKeySz : KeySize
  deriving DecidableEq, Repr

/-- What the engine computes: its state once the key and the initial vector are loaded, and the
digest words, the next state and the error that a block gives. -/
structure Core (σ : Type) where
  start : CryptCfg → List UInt8 → σ
  step : σ → List UInt8 → Buf (BitVec 32) 4 × σ × Bool

/-- The registers of the engine and its record of the blocks it was given and of the `COUNT`
values it was asked for. `pending` and `fetched` are the blocks of the master run that are still
to come and those that are done. -/
structure Engine (σ : Type) where
  mode : Option Algo
  cfg : CryptCfg
  keyPresent : Bool
  loaded : List UInt8
  state : σ
  digest : Buf (BitVec 32) 4
  error : Bool
  pending : Nat
  fetched : Nat
  presented : List (List UInt8)
  counts : List Nat

section Feeding

variable {σ : Type} (core : Core σ)

/-- A `MEMCTRL` write with `MASTER(1)` and `COUNT(count)`, an 11-bit field. -/
def memctrlMaster (e : Engine σ) (count : Nat) : Engine σ :=
  { e with pending := count % 2 ^ 11, fetched := 0, counts := e.counts ++ [count] }

/-- The loop that polls `STATUS` for a digest or an error; `block k` is block `k` at `MEMADDR`.
The `ERROR` flag stays set until it is cleared by a write, which the driver does not do. `none`
is a loop that does not end. -/
def awaitDigest (e : Engine σ) (block : Nat → List UInt8) : Option (Engine σ) :=
  if e.mode = some .aes ∧ e.pending ≠ 0 then
    let r := core.step e.state (block e.fetched)
    some { e with
      digest := r.1
      state := r.2.1
      error := e.error || r.2.2
      pending := e.pending - 1
      fetched := e.fetched + 1
      presented := e.presented ++ [block e.fetched] }
  else if e.error then some e
  else none

/-- The four words of `DIGEST0`, swapped and stored. -/
def digestBytes (e : Engine σ) : List UInt8 :=
  e.digest.data.flatMap (fun w => leBytes32 (swapBytes w))

def errorStatus (e : Engine σ) : Status :=
  if e.error then .fail else .success

/-- The loop of `hashcrypt_aes_one_block_aligned`; `MEMADDR` holds a word address. -/
def alignedBlocks (input output : Nat) : Nat → Nat → Engine σ → ByteMemory → Option (Engine σ × ByteMemory)
  | 0, _, e, m => some (e, m)
  | n + 1, idx, e, m =>
    match awaitDigest core e (fun k => m.read (input / 4 * 4 + 16 * k) 16) with
    | none => none
    | some e => alignedBlocks input output n (idx + 4) e (m.store (output + 4 * idx) (digestBytes e))

def oneBlockAligned (e : Engine σ) (m : ByteMemory) (input output size : Nat) :
    Option (Status × Engine σ × ByteMemory) :=
  match alignedBlocks core input output (size / 16) 0 (memctrlMaster e (size / 16)) m with
  | none => none
  | some (e, m) => some (errorStatus e, e, m)

/-- The loop over the blocks of `temp`, which the digests replace. -/
def tempBlocks : Nat → Nat → Engine σ → Buf UInt8 256 → Option (Engine σ × Buf UInt8 256)
  | 0, _, e, temp => some (e, temp)
  | n + 1, outidx, e, temp =>
    match awaitDigest core e (fun k => (temp.data.drop (16 * k)).take 16) with
    | none => none
    | some e => tempBlocks n (outidx + 4) e (temp.write (4 * outidx) (digestBytes e))

/-- The loop of `hashcrypt_aes_one_block_unaligned`; `size` is a multiple of 16. -/
def unalignedChunks (input output : Nat) (cnt size : Nat) (e : Engine σ) (m : ByteMemory) (temp : Buf UInt8 256) :
    Option (Engine σ × ByteMemory) :=
  if size = 0 then some (e, m)
  else
    let actSz := if size ≥ 256 then 256 else size
    let temp := temp.write 0 (m.read (input + 256 * cnt) actSz)
    match tempBlocks core (actSz / 16) 0 (memctrlMaster e (actSz / 16)) temp with
    | none => none
    | some (e, temp) =>
      unalignedChunks input output (cnt + 1) (size - actSz) e
        (m.store (output + 256 * cnt) (temp.data.take actSz)) temp
termination_by size
decreasing_by
  split <;> omega

def oneBlockUnaligned (e : Engine σ) (m : ByteMemory) (input output size : Nat) :
    Option (Status × Engine σ × ByteMemory) :=
  match unalignedChunks core input output 0 size e m (Buf.fill 256 0) with
  | none => none
  | some (e, m) => some (errorStatus e, e, m)

/-- The master runs of 32752 bytes and the run of what remains. -/
def masterRuns (oneRun : Engine σ → ByteMemory → Nat → Nat → Nat → Option (Status × Engine σ × ByteMemory))
    (remainingSize : Nat) :
    Nat → Engine σ → ByteMemory → Nat → Nat → Option (Status × Engine σ × ByteMemory)
  | 0, e, m, input, output => oneRun e m input output remainingSize
  | numBlock + 1, e, m, input, output =>
    match oneRun e m input output 32752 with
    | none => none
    | some (_, e, m) => masterRuns oneRun remainingSize numBlock e m (input + 32752) (output + 32752)

/-- `hashcrypt_aes_one_block`. -/
def oneBlock (e : Engine σ) (m : ByteMemory) (input output size : Nat) :
    Option (Status × Engine σ × ByteMemory) :=
  if size > 32752 then
    let numBlock := size / 32752
    let remainingSize := size - numBlock * 32752
    if input % 4 ≠ 0 ∨ output % 4 ≠ 0 then
      masterRuns (oneBlockUnaligned core) remainingSize numBlock e m input output
    else masterRuns (oneBlockAligned core) remainingSize numBlock e m input output
  else if input % 4 ≠ 0 ∨ output % 4 ≠ 0 then oneBlockUnaligned core e m input output size
  else oneBlockAligned core e m input output size

/-- `hashcrypt_engine_init` after the `CRYPTCFG` write. -/
def engineInit (e : Engine σ) (cfg : CryptCfg) : Engine σ :=
  { e with mode := some .aes, cfg := cfg, loaded := [], state := core.start cfg [] }

def engineDeinit (e : Engine σ) : Engine σ :=
  { e with mode := none }

/-- `hashcrypt_load_data`: the bytes reach the engine through `INDATA` and `ALIAS`. -/
def loadData (e : Engine σ) (src : List UInt8) : Engine σ :=
  { e with loaded := e.loaded ++ src, state := core.start e.cfg (e.loaded ++ src) }

/-- `hashcrypt_check_need_key`: with a secret key, `NEEDKEY` says that the key bus has none. -/
def checkNeedKey (e : Engine σ) (handle : Handle) : Status :=
  if handle.keyType = .secretKey then
    if e.keyPresent then .success else .fail
  else .success

end Feeding

/-- The key length that `hashcrypt_aes_load_userKey` finds for a key size. -/
def keyBytes : KeySize → Nat
  | .aes128 => 16
  | .aes192 => 24
  | .aes256 => 32
  | .invalidKey => 0

/-- `hashcrypt_aes_load_userKey`. -/
def loadUserKey {σ : Type} (core : Core σ) (e : Engine σ) (handle : Handle) : Engine σ :=
  if keyBytes handle.keySize = 0 then e
  else loadData core e (handle.keyWord.data.take (keyBytes handle.keySize))

/-- The steps that the AES functions share: `CRYPTCFG`, the engine's start, the key and the 16
bytes of the initial vector or counter. It fails when the hardware key is not available. -/
def startEngine {σ : Type} (core : Core σ) (e : Engine σ) (handle : Handle) (aesMode : AesMode)
    (iv : Block) : Status × Engine σ :=
  let cfg : CryptCfg :=
    { aesMode := aesMode
      aesSecret := handle.keyType ≠ .userKey
      aesKeySz := handle.keySize }
  let e := engineInit core e cfg
  if checkNeedKey e handle ≠ .success then (.fail, engineDeinit e)
  else
    let e := if handle.keyType = .userKey then loadUserKey core e handle else e
    (.success, loadData core e iv.data)

/-- `for (i = 0; i < n; i++) output[i] = input[i] ^ pad[i]`. -/
def xorLoop (m : ByteMemory) (output input pad n : Nat) : ByteMemory :=
  (List.range n).foldl (fun m i => m.store (output + i) [m.bytes (input + i) ^^^ m.bytes (pad + i)]) m

end McuxDrivers.Hashcrypt.Aes
