import McuxDrivers.Hashcrypt.AesFeed
import McuxDrivers.Lib.BigEndian
import McuxDrivers.Lib.ShaCompress

/-!
# The engine with a block cipher

The AES modes of the engine over an arbitrary block function for each key: what its start loads, and
what `hashcrypt_aes_one_block` leaves behind for one block.
-/

namespace McuxDrivers.Hashcrypt.Aes
open McuxDrivers.Lib

/-- The key that the cipher works with: the bytes loaded, or the one on the secret bus. -/
inductive Key
  | user (bytes : List UInt8)
  | secret (size : KeySize)
  deriving DecidableEq, Repr

/-- The engine in AES mode. `chain` is the last output in CBC mode and the counter in CTR mode. -/
structure AesState where
  aesMode : AesMode
  key : Key
  chain : Block
  deriving DecidableEq, Repr

def toBlock (l : List UInt8) : Block :=
  (Buf.fill 16 0).write 0 l

lemma toBlock_data {l : List UInt8} (h : l.length = 16) : (toBlock l).data = l := by
  rw [toBlock, Buf.data_write_fill _ _ h.le, h, Nat.sub_self, List.replicate_zero, List.append_nil]

def xorBytes (a b : List UInt8) : List UInt8 :=
  List.zipWith (· ^^^ ·) a b

@[simp]
lemma length_xorBytes (a b : List UInt8) : (xorBytes a b).length = min a.length b.length :=
  List.length_zipWith

lemma xorBytes_append {a b c d : List UInt8} (h : a.length = c.length) :
    xorBytes (a ++ b) (c ++ d) = xorBytes a c ++ xorBytes b d :=
  List.zipWith_append h

/-- The digest words of a block. -/
def digestWords (b : Block) : Buf (BitVec 32) 4 :=
  (Buf.fill 4 0).write 0 (beWords b.data)

/-- The counter after one more block. -/
def nextCounter (counter : Block) : Block :=
  toBlock (beBytes 16 (beValue counter.data + 1))

/-- The engine for the cipher `cipher`; it gives no error. -/
def aesCore (cipher : Key → Block → Block) : Core AesState where
  start cfg loaded :=
    let userBytes := if cfg.aesSecret then 0 else keyBytes cfg.aesKeySz
    { aesMode := cfg.aesMode
      key := if cfg.aesSecret then .secret cfg.aesKeySz else .user (loaded.take userBytes)
      chain := toBlock (loaded.drop userBytes) }
  step s x :=
    match s.aesMode with
    | .ecb => (digestWords (cipher s.key (toBlock x)), s, false)
    | .cbc =>
      let y := cipher s.key (toBlock (xorBytes x s.chain.data))
      (digestWords y, { s with chain := y }, false)
    | .ctr =>
      (digestWords (toBlock (xorBytes x (cipher s.key s.chain).data)), { s with chain := nextCounter s.chain }, false)

/-- The key of a handle. -/
def handleKey (handle : Handle) : Key :=
  if handle.keyType = .userKey then .user (handle.keyWord.data.take (keyBytes handle.keySize))
  else .secret handle.keySize

/-- The big-endian words of full words spell the same bytes. -/
lemma flatMap_beBytes32_beWords (n : Nat) (l : List UInt8) (h : l.length = 4 * n) :
    (beWords l).flatMap beBytes32 = l ∧ (beWords l).length = n := by
  induction n generalizing l with
  | zero =>
    obtain rfl : l = [] := List.length_eq_zero_iff.mp (by omega)
    exact ⟨rfl, rfl⟩
  | succ n ih =>
    match l, h with
    | a :: b :: c :: d :: rest, h =>
      simp only [List.length_cons] at h
      obtain ⟨hbytes, hlength⟩ := ih rest (by omega)
      have hword : beBytes32 (a.toBitVec ++ b.toBitVec ++ c.toBitVec ++ d.toBitVec) = [a, b, c, d] := by
        rw [beBytes32]
        simp only [List.cons.injEq, and_true, ← UInt8.toBitVec_inj]
        refine ⟨?_, ?_, ?_, ?_⟩ <;> ext i hi <;> simp <;> grind
      refine ⟨?_, ?_⟩
      · rw [beWords, List.flatMap_cons, hbytes, hword]
        rfl
      · rw [beWords, List.length_cons, hlength]

lemma Core.bytes_digestWords (b : Block) : Core.bytes (digestWords b) = b.data := by
  obtain ⟨hbytes, hlength⟩ := flatMap_beBytes32_beWords 4 b.data b.length_eq
  rw [Core.bytes, digestWords, Buf.data_write_fill _ _ hlength.le, hlength]
  simpa using hbytes

/-- A block function on lists of 16 bytes. -/
def onBytes (f : Block → Block) (l : List UInt8) : List UInt8 :=
  (f (toBlock l)).data

@[simp]
lemma length_onBytes (f : Block → Block) (l : List UInt8) : (onBytes f l).length = 16 :=
  (f (toBlock l)).length_eq

lemma toBlock_of_data (b : Block) : toBlock b.data = b := by
  have h := toBlock_data b.length_eq
  generalize toBlock b.data = b' at h
  cases b
  cases b'
  cases h
  rfl

/-- The engine runs in AES mode without an error, for the key and from the chaining value given. -/
structure Ready (e : Engine AesState) (aesMode : AesMode) (key : Key) (chain : List UInt8) : Prop where
  mode : e.mode = some .aes
  error : e.error = false
  aesMode : e.state.aesMode = aesMode
  key : e.state.key = key
  chain : e.state.chain.data = chain

variable (cipher : Key → Block → Block)

/-- The hardware key is there if the handle asks for it, and no error is left from before. -/
structure Startable (e : Engine AesState) (handle : Handle) : Prop where
  validKey : handle.keySize ≠ .invalidKey
  keyPresent : handle.keyType = .secretKey → e.keyPresent = true
  error : e.error = false

lemma startEngine_ready {e : Engine AesState} {handle : Handle} (h : Startable e handle) (aesMode : AesMode) (iv : Block) :
    ∃ e', startEngine (aesCore cipher) e handle aesMode iv = (.success, e') ∧
      Ready e' aesMode (handleKey handle) iv.data ∧ e'.keyPresent = e.keyPresent := by
  have hbytes : keyBytes handle.keySize ≠ 0 := by
    have := h.validKey
    cases hsize : handle.keySize <;> simp_all [keyBytes]
  have hle : keyBytes handle.keySize ≤ 32 := by
    cases handle.keySize <;> decide
  cases htype : handle.keyType with
  | userKey =>
    have hlen : (handle.keyWord.data.take (keyBytes handle.keySize)).length = keyBytes handle.keySize := by
      rw [List.length_take, handle.keyWord.length_eq]
      exact Nat.min_eq_left hle
    refine ⟨_, by rw [startEngine]; simp [htype, checkNeedKey]; rfl, ⟨?_, ?_, ?_, ?_, ?_⟩, ?_⟩
    all_goals simp only [loadUserKey, loadData, engineInit, hbytes, if_false, aesCore, List.nil_append, Bool.false_eq_true]
    · exact h.error
    · rw [handleKey, if_pos htype, List.take_left' hlen]
    · rw [List.drop_left' hlen, toBlock_data iv.length_eq]
  | secretKey =>
    have hpresent := h.keyPresent htype
    refine ⟨_, by rw [startEngine]; simp [htype, checkNeedKey, engineInit, hpresent]; rfl, ⟨?_, ?_, ?_, ?_, ?_⟩, ?_⟩
    all_goals simp only [loadData, aesCore, List.nil_append, if_true, List.drop_zero]
    · exact h.error
    · rw [handleKey, if_neg (by rw [htype]; decide)]
    · exact toBlock_data iv.length_eq
    · exact hpresent.symm

lemma aesCore_step_no_error (s : AesState) (x : List UInt8) : ((aesCore cipher).step s x).2.2 = false := by
  cases h : s.aesMode <;> simp only [aesCore, h]

lemma aesCore_run_no_error (s : AesState) (xs : List (List UInt8)) : ((aesCore cipher).run s xs).2.2 = false := by
  induction xs generalizing s with
  | nil => rfl
  | cons x xs ih => rw [Core.run, ih, aesCore_step_no_error cipher, Bool.or_false]

/-- In CBC mode one block gives the cipher of the block and the output before. -/
lemma oneBlock_cbc {e : Engine AesState} {key : Key} {chain : List UInt8} (h : Ready e .cbc key chain) (m : ByteMemory)
    {input output : Nat} (hregion : output ≤ input ∨ input + 16 ≤ output) :
    ∃ e', oneBlock (aesCore cipher) e m input output 16 =
        some (.success, e', m.store output (onBytes (cipher key) (xorBytes (m.read input 16) chain))) ∧
      Ready e' .cbc key (onBytes (cipher key) (xorBytes (m.read input 16) chain)) ∧ e'.keyPresent = e.keyPresent := by
  obtain ⟨e', heq, hfed⟩ := oneBlock_feeds (aesCore cipher) h.mode m rfl hregion
  have hblocks : m.blocks 16 input (16 / 16) = [m.read input 16] := rfl
  rw [hblocks] at heq hfed
  have hstep : (aesCore cipher).step e.state (m.read input 16) =
      (digestWords (cipher key (toBlock (xorBytes (m.read input 16) chain))),
        { e.state with chain := cipher key (toBlock (xorBytes (m.read input 16) chain)) }, false) := by
    simp only [aesCore, h.aesMode, h.key, h.chain]
  have herror : e'.error = false := by
    rw [hfed.error, h.error, aesCore_run_no_error cipher]
    rfl
  refine ⟨e', ?_, ⟨hfed.mode.trans h.mode, herror, ?_, ?_, ?_⟩, hfed.keyPresent⟩
  · rw [heq, errorStatus, herror, Core.flatten_run_cons, hstep, Core.bytes_digestWords, Core.run, List.flatten_nil,
      List.append_nil]
    rfl
  all_goals rw [hfed.state, Core.run, hstep]
  · exact h.aesMode
  · exact h.key
  · rfl

/-- The bytes of the input and of the pad are read before the output reaches them. -/
lemma xorLoop_eq (m : ByteMemory) {output input pad n : Nat} (hinput : output ≤ input ∨ input + n ≤ output)
    (hpad : output + n ≤ pad ∨ pad + n ≤ output) :
    xorLoop m output input pad n = m.store output (xorBytes (m.read input n) (m.read pad n)) := by
  induction n with
  | zero => rw [xorLoop, ByteMemory.read_zero, ByteMemory.read_zero]; exact (m.store_nil output).symm
  | succ n ih =>
    have hloop : xorLoop m output input pad (n + 1) = (xorLoop m output input pad n).store (output + n)
        [(xorLoop m output input pad n).bytes (input + n) ^^^ (xorLoop m output input pad n).bytes (pad + n)] := by
      rw [xorLoop, List.range_succ, List.foldl_append]
      rfl
    have hlen : (xorBytes (m.read input n) (m.read pad n)).length = n := by
      rw [length_xorBytes, ByteMemory.length_read, ByteMemory.length_read, Nat.min_self]
    have hkeep : ∀ x, x < output ∨ output + n ≤ x →
        (m.store output (xorBytes (m.read input n) (m.read pad n))).bytes x = m.bytes x := by
      intro x hx
      rcases hx with hx | hx
      · exact ByteMemory.store_bytes_of_lt m _ hx
      · exact ByteMemory.store_bytes_of_le m _ (by rw [hlen]; exact hx)
    have happend := m.store_append output (xorBytes (m.read input n) (m.read pad n)) [m.bytes (input + n) ^^^ m.bytes (pad + n)]
    rw [hlen] at happend
    rw [hloop, ih (by omega) (by omega), hkeep (input + n) (by omega), hkeep (pad + n) (by omega), happend,
      ByteMemory.read_add, ByteMemory.read_add, xorBytes_append (by rw [ByteMemory.length_read, ByteMemory.length_read])]
    rfl

/-- The bytes of the output are written once each, in order. -/
lemma xorLoop_written (m : ByteMemory) (output input pad n : Nat) :
    (xorLoop m output input pad n).written = m.written ++ List.range' output n := by
  induction n with
  | zero => exact (List.append_nil _).symm
  | succ n ih =>
    have hsplit := @List.range'_append output n 1 1
    rw [Nat.one_mul] at hsplit
    rw [← hsplit, ← List.append_assoc, ← ih, xorLoop, List.range_succ, List.foldl_append]
    rfl

lemma xorBytes_cancel (a b : List UInt8) (h : a.length = b.length) : xorBytes (xorBytes a b) b = a := by
  apply List.ext_getElem
  · rw [length_xorBytes, length_xorBytes]
    omega
  · intro i h₁ h₂
    simp only [xorBytes, List.getElem_zipWith]
    rw [UInt8.xor_assoc, UInt8.xor_self, UInt8.xor_zero]

lemma xorBytes_zeros (b : List UInt8) : xorBytes (List.replicate b.length 0) b = b := by
  apply List.ext_getElem
  · rw [length_xorBytes, List.length_replicate, Nat.min_self]
  · intro i h₁ h₂
    simp only [xorBytes, List.getElem_zipWith, List.getElem_replicate, UInt8.zero_xor]

/-- The stack frame of a function with two local arrays of 16 bytes. -/
def localArrays (frame : Nat) : Region :=
  ⟨frame, 32⟩

/-- The `n` bytes from `a` on are no part of the stack frame. -/
def Apart (frame a n : Nat) : Prop :=
  a + n ≤ frame ∨ frame + 32 ≤ a

/-- What a caller sees of a store outside of what it reads. -/
lemma read_of_off_store {m m' : ByteMemory} {frame a n d : Nat} {bs : List UInt8} (h : Apart frame a n)
    (hoff : m'.off (localArrays frame) = (m.off (localArrays frame)).store d bs)
    (hdisjoint : a + n ≤ d ∨ d + bs.length ≤ a) : m'.read a n = m.read a n := by
  rw [← ByteMemory.read_off m' (r := localArrays frame) h, hoff, ByteMemory.read_store_of_disjoint _ _ hdisjoint]
  exact ByteMemory.read_off m h

lemma read_of_off_stored {m m' : ByteMemory} {frame a n : Nat} {bs : List UInt8} (h : Apart frame a n)
    (hoff : m'.off (localArrays frame) = (m.off (localArrays frame)).store a bs) (hlen : bs.length = n) :
    m'.read a n = bs := by
  rw [← ByteMemory.read_off m' (r := localArrays frame) h, hoff, ← hlen, ByteMemory.read_store]

lemma blocks_of_off_store {m m' : ByteMemory} {frame a n d : Nat} {bs : List UInt8} (h : Apart frame a (n * 16))
    (hoff : m'.off (localArrays frame) = (m.off (localArrays frame)).store d bs)
    (hdisjoint : a + n * 16 ≤ d ∨ d + bs.length ≤ a) : m'.blocks 16 a n = m.blocks 16 a n :=
  ByteMemory.blocks_eq_of_read (read_of_off_store h hoff hdisjoint)

/-- The engine after a reset, and a handle with a user key of zeros. -/
def resetEngine : Engine AesState where
  mode := none
  cfg := ⟨.ecb, false, .aes128⟩
  keyPresent := false
  loaded := []
  state := ⟨.ecb, .secret .aes128, Buf.fill 16 0⟩
  digest := Buf.fill 4 0
  error := false
  pending := 0
  fetched := 0
  presented := []
  counts := []

def zeroHandle : Handle :=
  ⟨Buf.fill 32 0, .aes128, .userKey⟩

lemma zeroHandle_startable : Startable resetEngine zeroHandle :=
  ⟨by decide, by decide, rfl⟩

end McuxDrivers.Hashcrypt.Aes
