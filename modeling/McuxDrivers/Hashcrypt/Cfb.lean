import McuxDrivers.Hashcrypt.AesCipher

/-!
# AES-CFB

`HASHCRYPT_AES_EncryptCfb` and `HASHCRYPT_AES_DecryptCfb` feed zeros and then the plaintext before the
current block to the engine in CBC mode. The arrays `zeroes` and `blockOutput` lie in the stack frame at
`frame`. For every size but zero this is CFB with a feedback of 128 bits; the size zero passes the
check, and the subtraction behind the first block wraps.
-/

namespace McuxDrivers.Hashcrypt.Aes
open McuxDrivers.Lib

section Driver

variable {σ : Type} (core : Core σ)

/-- The loop over the blocks after the first one. The engine is fed from `feed`, which is the
plaintext. -/
def cfbRounds (blockOutput : Nat) : Nat → Engine σ → ByteMemory → Nat → Nat → Nat → Option (Status × Engine σ × ByteMemory)
  | 0, e, m, _, _, _ => some (.success, engineDeinit e, m)
  | n + 1, e, m, feed, src, dst =>
    match oneBlock core e m feed blockOutput 16 with
    | none => none
    | some (status, e, m) =>
      if status ≠ .success then some (status, engineDeinit e, m)
      else cfbRounds blockOutput n e (xorLoop m (dst + 16) (src + 16) blockOutput 16) (feed + 16) (src + 16) (dst + 16)

/-- The body of both functions: `src` is XORed into `dst`. -/
def cryptCfb (e : Engine σ) (m : ByteMemory) (handle : Handle) (feed src dst size : Nat) (iv : Block) (frame : Nat) :
    Option (Status × Engine σ × ByteMemory) :=
  let zeroes := frame
  let blockOutput := frame + 16
  let m := (m.store zeroes (List.replicate 16 0)).store blockOutput (List.replicate 16 0)
  if size % 16 ≠ 0 ∨ handle.keySize = .invalidKey then some (.invalidArgument, e, m)
  else
    let (status, e) := startEngine core e handle .cbc iv
    if status ≠ .success then some (.fail, e, m)
    else
      match oneBlock core e m zeroes blockOutput 16 with
      | none => none
      | some (status, e, m) =>
        if status ≠ .success then some (status, engineDeinit e, m)
        else
          let m := xorLoop m dst src blockOutput 16
          let size := (size + 2 ^ 32 - 16) % 2 ^ 32
          cfbRounds core blockOutput (size / 16) e m feed src dst

/-- `HASHCRYPT_AES_EncryptCfb`. -/
def encryptCfb (e : Engine σ) (m : ByteMemory) (handle : Handle) (plaintext ciphertext size : Nat) (iv : Block) (frame : Nat) :
    Option (Status × Engine σ × ByteMemory) :=
  cryptCfb core e m handle plaintext plaintext ciphertext size iv frame

/-- `HASHCRYPT_AES_DecryptCfb`. -/
def decryptCfb (e : Engine σ) (m : ByteMemory) (handle : Handle) (ciphertext plaintext size : Nat) (iv : Block) (frame : Nat) :
    Option (Status × Engine σ × ByteMemory) :=
  cryptCfb core e m handle plaintext ciphertext plaintext size iv frame

end Driver

/-- CFB encryption with the block function `E`: each block is XORed with `E` of the ciphertext before. -/
def cfbEncrypt (E : List UInt8 → List UInt8) : List UInt8 → List (List UInt8) → List (List UInt8)
  | _, [] => []
  | c, p :: ps => xorBytes p (E c) :: cfbEncrypt E (xorBytes p (E c)) ps

def cfbDecrypt (E : List UInt8 → List UInt8) : List UInt8 → List (List UInt8) → List (List UInt8)
  | _, [] => []
  | c, x :: xs => xorBytes x (E c) :: cfbDecrypt E x xs

lemma cfbDecrypt_cfbEncrypt {E : List UInt8 → List UInt8} {b : Nat} (hE : ∀ x, (E x).length = b) (c : List UInt8)
    (ps : List (List UInt8)) (hps : ∀ p ∈ ps, p.length = b) : cfbDecrypt E c (cfbEncrypt E c ps) = ps := by
  induction ps generalizing c with
  | nil => rfl
  | cons p ps ih =>
    rw [cfbEncrypt, cfbDecrypt, ih _ (fun q hq => hps q (List.mem_cons_of_mem p hq)), xorBytes_cancel]
    rw [hE]
    exact hps p List.mem_cons_self

lemma length_cfbEncrypt (E : List UInt8 → List UInt8) (c : List UInt8) (ps : List (List UInt8)) :
    (cfbEncrypt E c ps).length = ps.length := by
  induction ps generalizing c with
  | nil => rfl
  | cons p ps ih => rw [cfbEncrypt, List.length_cons, ih, List.length_cons]

lemma length_of_mem_cfbEncrypt {E : List UInt8 → List UInt8} {b : Nat} (hE : ∀ x, (E x).length = b) (c : List UInt8)
    (ps : List (List UInt8)) (hps : ∀ p ∈ ps, p.length = b) : ∀ x ∈ cfbEncrypt E c ps, x.length = b := by
  induction ps generalizing c with
  | nil =>
    intro x hx
    cases hx
  | cons p ps ih =>
    intro x hx
    rw [cfbEncrypt] at hx
    rcases List.mem_cons.mp hx with rfl | hx
    · rw [length_xorBytes, hE, hps p List.mem_cons_self, Nat.min_self]
    · exact ih _ (fun q hq => hps q (List.mem_cons_of_mem p hq)) x hx

section Rounds

variable (cipher : Key → Block → Block) {key : Key} {frame : Nat}

lemma length_xor_onBytes (f : Block → Block) (m : ByteMemory) (a : Nat) (x : List UInt8) :
    (xorBytes (m.read a 16) (onBytes f x)).length = 16 := by
  rw [length_xorBytes, ByteMemory.length_read, length_onBytes]
  rfl

/-- One block through the engine and the XOR behind it. What a caller sees of it is the block written to
`dst`. -/
lemma cfb_block {e : Engine AesState} {chain : List UInt8} (h : Ready e .cbc key chain) (m : ByteMemory)
    (frame feed src dst : Nat)
    (hfeed : frame + 16 ≤ feed ∨ feed + 16 ≤ frame + 16) (hsrc : Apart frame src 16) (hdst : Apart frame dst 16)
    (horder : dst ≤ src ∨ src + 16 ≤ dst) :
    ∃ e' m', oneBlock (aesCore cipher) e m feed (frame + 16) 16 = some (.success, e', m') ∧
      Ready e' .cbc key (onBytes (cipher key) (xorBytes (m.read feed 16) chain)) ∧ e'.keyPresent = e.keyPresent ∧
      (xorLoop m' dst src (frame + 16) 16).off (localArrays frame) = (m.off (localArrays frame)).store dst
        (xorBytes (m.read src 16) (onBytes (cipher key) (xorBytes (m.read feed 16) chain))) := by
  obtain ⟨e', heq, hready, hkey⟩ := oneBlock_cbc cipher h m hfeed
  refine ⟨e', _, heq, hready, hkey, ?_⟩
  unfold Apart at hsrc hdst
  have hlen' := length_xor_onBytes (cipher key) m src (xorBytes (m.read feed 16) chain)
  have hlen := length_onBytes (cipher key) (xorBytes (m.read feed 16) chain)
  generalize onBytes (cipher key) (xorBytes (m.read feed 16) chain) = y at hlen hlen'
  have hpad : (m.store (frame + 16) y).read (frame + 16) 16 = y := by
    rw [← hlen, ByteMemory.read_store]
  have hkeep : (m.store (frame + 16) y).read src 16 = m.read src 16 :=
    ByteMemory.read_store_of_disjoint m y (by omega)
  rw [xorLoop_eq _ horder (by omega), hpad, hkeep,
    ByteMemory.off_store_of_disjoint _ _ (by rw [hlen']; exact hdst),
    ByteMemory.off_store_of_within m y (by simp only [localArrays]; omega) (by simp only [localArrays]; omega)]

/-- The loop of the encryption, whose engine is fed with the plaintext before. `c` is the ciphertext block
before. -/
lemma encryptRounds {e : Engine AesState} {chain c : List UInt8} (n : Nat) (h : Ready e .cbc key chain) (m : ByteMemory)
    (src dst : Nat) (hsrc : Apart frame src (16 * (n + 1))) (hdst : Apart frame dst (16 * (n + 1)))
    (hapart : dst + 16 * (n + 1) ≤ src ∨ src + 16 * (n + 1) ≤ dst) (hc : xorBytes (m.read src 16) chain = c) :
    ∃ e' m', cfbRounds (aesCore cipher) (frame + 16) n e m src src dst = some (.success, e', m') ∧
      e'.error = false ∧ e'.keyPresent = e.keyPresent ∧
      m'.off (localArrays frame) = (m.off (localArrays frame)).store (dst + 16)
        (cfbEncrypt (onBytes (cipher key)) c (m.blocks 16 (src + 16) n)).flatten := by
  unfold Apart at hsrc hdst
  induction n generalizing e m src dst chain c with
  | zero =>
    refine ⟨engineDeinit e, m, rfl, h.error, rfl, ?_⟩
    rw [ByteMemory.blocks, cfbEncrypt, List.flatten_nil, ByteMemory.store_nil]
  | succ n ih =>
    obtain ⟨e₁, m₁, heq, hready, hkey, hoff⟩ := cfb_block cipher h m frame src (src + 16) (dst + 16) (by omega)
      (by unfold Apart; omega) (by unfold Apart; omega) (by omega)
    rw [hc] at hready hoff
    have hlen := length_xor_onBytes (cipher key) m (src + 16) c
    have hnext := read_of_off_store (a := src + 16) (n := 16) (by unfold Apart; omega) hoff (by rw [hlen]; omega)
    have hrest := blocks_of_off_store (a := src + 16 + 16) (n := n) (by unfold Apart; omega) hoff (by rw [hlen]; omega)
    obtain ⟨e₂, m₂, hrun, herror, hkey₂, hoff₂⟩ := ih hready (xorLoop m₁ (dst + 16) (src + 16) (frame + 16) 16) (src + 16)
      (dst + 16) (by omega) (by omega) (by omega) (by rw [hnext])
    refine ⟨e₂, m₂, ?_, herror, hkey₂.trans hkey, ?_⟩
    · rw [cfbRounds, heq]
      exact hrun
    · rw [hoff₂, hrest, hoff, ByteMemory.store_flatten _ _ hlen, ByteMemory.blocks, cfbEncrypt]

/-- The loop of the decryption, whose engine is fed with the plaintext that was written before. -/
lemma decryptRounds {e : Engine AesState} {chain c : List UInt8} (n : Nat) (h : Ready e .cbc key chain) (m : ByteMemory)
    (src dst : Nat) (hsrc : Apart frame src (16 * (n + 1))) (hdst : Apart frame dst (16 * (n + 1)))
    (horder : dst ≤ src ∨ src + 16 * (n + 1) ≤ dst) (hc : xorBytes (m.read dst 16) chain = c) :
    ∃ e' m', cfbRounds (aesCore cipher) (frame + 16) n e m dst src dst = some (.success, e', m') ∧
      e'.error = false ∧ e'.keyPresent = e.keyPresent ∧
      m'.off (localArrays frame) = (m.off (localArrays frame)).store (dst + 16)
        (cfbDecrypt (onBytes (cipher key)) c (m.blocks 16 (src + 16) n)).flatten := by
  unfold Apart at hsrc hdst
  induction n generalizing e m src dst chain c with
  | zero =>
    refine ⟨engineDeinit e, m, rfl, h.error, rfl, ?_⟩
    rw [ByteMemory.blocks, cfbDecrypt, List.flatten_nil, ByteMemory.store_nil]
  | succ n ih =>
    obtain ⟨e₁, m₁, heq, hready, hkey, hoff⟩ := cfb_block cipher h m frame dst (src + 16) (dst + 16) (by omega)
      (by unfold Apart; omega) (by unfold Apart; omega) (by omega)
    rw [hc] at hready hoff
    have hlen := length_xor_onBytes (cipher key) m (src + 16) c
    have hwritten := read_of_off_stored (by unfold Apart; omega) hoff hlen
    have hnext : xorBytes ((xorLoop m₁ (dst + 16) (src + 16) (frame + 16) 16).read (dst + 16) 16) (onBytes (cipher key) c) =
        m.read (src + 16) 16 := by
      rw [hwritten, xorBytes_cancel]
      rw [ByteMemory.length_read, length_onBytes]
    have hrest := blocks_of_off_store (a := src + 16 + 16) (n := n) (by unfold Apart; omega) hoff (by rw [hlen]; omega)
    obtain ⟨e₂, m₂, hrun, herror, hkey₂, hoff₂⟩ := ih hready (xorLoop m₁ (dst + 16) (src + 16) (frame + 16) 16) (src + 16)
      (dst + 16) (by omega) (by omega) (by omega) hnext
    refine ⟨e₂, m₂, ?_, herror, hkey₂.trans hkey, ?_⟩
    · rw [cfbRounds, heq]
      exact hrun
    · rw [hoff₂, hrest, hoff, ByteMemory.store_flatten _ _ hlen, ByteMemory.blocks, cfbDecrypt]

/-- The first block, which is fed with zeros. -/
lemma cryptCfb_start (frame : Nat) {e : Engine AesState} {handle : Handle} (hstart : Startable e handle) (m : ByteMemory)
    (feed src dst size : Nat) (iv : Block) (h16 : size % 16 = 0) (hsrc : Apart frame src 16) (hdst : Apart frame dst 16)
    (horder : dst ≤ src ∨ src + 16 ≤ dst) :
    ∃ e₁ m₁, cryptCfb (aesCore cipher) e m handle feed src dst size iv frame =
        cfbRounds (aesCore cipher) (frame + 16) ((size + 2 ^ 32 - 16) % 2 ^ 32 / 16) e₁ m₁ feed src dst ∧
      Ready e₁ .cbc (handleKey handle) (onBytes (cipher (handleKey handle)) iv.data) ∧ e₁.keyPresent = e.keyPresent ∧
      m₁.off (localArrays frame) = (m.off (localArrays frame)).store dst
        (xorBytes (m.read src 16) (onBytes (cipher (handleKey handle)) iv.data)) := by
  obtain ⟨e₀, hengine, hready, hkey⟩ := startEngine_ready cipher hstart .cbc iv
  obtain ⟨m₀, hm₀⟩ : ∃ m₀, m₀ = (m.store frame (List.replicate 16 0)).store (frame + 16) (List.replicate 16 0) := ⟨_, rfl⟩
  have hoff₀ : m₀.off (localArrays frame) = m.off (localArrays frame) := by
    rw [hm₀, ByteMemory.off_store_of_within _ _ (by simp only [localArrays]; omega)
      (by simp only [localArrays, List.length_replicate]; omega), ByteMemory.off_store_of_within _ _
      (by simp only [localArrays]; omega) (by simp only [localArrays, List.length_replicate]; omega)]
  have hzeroes : m₀.read frame 16 = List.replicate iv.data.length 0 := by
    rw [hm₀, ByteMemory.read_store_of_disjoint _ _ (Or.inl (Nat.le_refl _)), iv.length_eq]
    exact ByteMemory.read_store m frame (List.replicate 16 0)
  have hread : m₀.read src 16 = m.read src 16 := by
    rw [← ByteMemory.read_off m₀ (r := localArrays frame) hsrc, hoff₀]
    exact ByteMemory.read_off m hsrc
  obtain ⟨e₁, m₁, hblock, hready₁, hkey₁, hoff₁⟩ := cfb_block cipher hready m₀ frame frame src dst (by omega) hsrc hdst horder
  rw [hzeroes, xorBytes_zeros] at hready₁ hoff₁
  refine ⟨e₁, xorLoop m₁ dst src (frame + 16) 16, ?_, hready₁, hkey₁.trans hkey, ?_⟩
  · have hvalid : ¬(size % 16 ≠ 0 ∨ handle.keySize = .invalidKey) := by
      rintro (h | h)
      · exact h h16
      · exact hstart.validKey h
    rw [cryptCfb]
    simp only [hvalid, if_false, hengine, ← hm₀, ne_eq, not_true_eq_false, hblock]
  · rw [hoff₁, hoff₀, hread]

/-- The wrapped size is right for every size but zero. -/
lemma cfb_rounds_left {n : Nat} (h : 16 * (n + 1) < 2 ^ 32) : (16 * (n + 1) + 2 ^ 32 - 16) % 2 ^ 32 / 16 = n := by
  omega

lemma encryptCfb_writes {e : Engine AesState} {handle : Handle} (hstart : Startable e handle) (m : ByteMemory)
    (plaintext ciphertext n : Nat) (iv : Block) (hsize : 16 * (n + 1) < 2 ^ 32)
    (hp : Apart frame plaintext (16 * (n + 1))) (hc : Apart frame ciphertext (16 * (n + 1)))
    (hpc : plaintext + 16 * (n + 1) ≤ ciphertext ∨ ciphertext + 16 * (n + 1) ≤ plaintext) :
    ∃ e₁ m₁, encryptCfb (aesCore cipher) e m handle plaintext ciphertext (16 * (n + 1)) iv frame = some (.success, e₁, m₁) ∧
      Startable e₁ handle ∧ m₁.off (localArrays frame) = (m.off (localArrays frame)).store ciphertext
        (cfbEncrypt (onBytes (cipher (handleKey handle))) iv.data (m.blocks 16 plaintext (n + 1))).flatten := by
  unfold Apart at hp hc
  obtain ⟨e₁, m₁, heq, hready, hkey, hoff⟩ := cryptCfb_start cipher frame hstart m plaintext plaintext ciphertext
    (16 * (n + 1)) iv (by omega) (by unfold Apart; omega) (by unfold Apart; omega) (by omega)
  have hlen := length_xor_onBytes (cipher (handleKey handle)) m plaintext iv.data
  have hread := read_of_off_store (a := plaintext) (n := 16) (by unfold Apart; omega) hoff (by rw [hlen]; omega)
  have hrest := blocks_of_off_store (a := plaintext + 16) (n := n) (by unfold Apart; omega) hoff (by rw [hlen]; omega)
  obtain ⟨e₂, m₂, hrun, herror, hkey₂, hoff₂⟩ := encryptRounds cipher n hready m₁ plaintext ciphertext hp hc (by omega)
    (by rw [hread])
  refine ⟨e₂, m₂, ?_, ⟨hstart.validKey, ?_, herror⟩, ?_⟩
  · rw [encryptCfb, heq, cfb_rounds_left hsize, hrun]
  · intro h
    rw [hkey₂, hkey]
    exact hstart.keyPresent h
  · rw [hoff₂, hrest, hoff, ByteMemory.store_flatten _ _ hlen, ByteMemory.blocks, cfbEncrypt]

lemma decryptCfb_writes {e : Engine AesState} {handle : Handle} (hstart : Startable e handle) (m : ByteMemory)
    (ciphertext plaintext n : Nat) (iv : Block) (hsize : 16 * (n + 1) < 2 ^ 32)
    (hp : Apart frame plaintext (16 * (n + 1))) (hc : Apart frame ciphertext (16 * (n + 1)))
    (hcp : plaintext ≤ ciphertext ∨ ciphertext + 16 * (n + 1) ≤ plaintext) :
    ∃ e₁ m₁, decryptCfb (aesCore cipher) e m handle ciphertext plaintext (16 * (n + 1)) iv frame = some (.success, e₁, m₁) ∧
      m₁.off (localArrays frame) = (m.off (localArrays frame)).store plaintext
        (cfbDecrypt (onBytes (cipher (handleKey handle))) iv.data (m.blocks 16 ciphertext (n + 1))).flatten := by
  unfold Apart at hp hc
  obtain ⟨e₁, m₁, heq, hready, hkey, hoff⟩ := cryptCfb_start cipher frame hstart m plaintext ciphertext plaintext
    (16 * (n + 1)) iv (by omega) (by unfold Apart; omega) (by unfold Apart; omega) (by omega)
  have hlen := length_xor_onBytes (cipher (handleKey handle)) m ciphertext iv.data
  have hwritten := read_of_off_stored (by unfold Apart; omega) hoff hlen
  have hfirst : xorBytes (m₁.read plaintext 16) (onBytes (cipher (handleKey handle)) iv.data) = m.read ciphertext 16 := by
    rw [hwritten, xorBytes_cancel]
    rw [ByteMemory.length_read, length_onBytes]
  have hrest := blocks_of_off_store (a := ciphertext + 16) (n := n) (by unfold Apart; omega) hoff (by rw [hlen]; omega)
  obtain ⟨e₂, m₂, hrun, _, _, hoff₂⟩ := decryptRounds cipher n hready m₁ ciphertext plaintext hc hp (by omega) hfirst
  refine ⟨e₂, m₂, ?_, ?_⟩
  · rw [decryptCfb, heq, cfb_rounds_left hsize, hrun]
  · rw [hoff₂, hrest, hoff, ByteMemory.store_flatten _ _ hlen, ByteMemory.blocks, cfbDecrypt]

end Rounds

section Written

variable {σ : Type} {core : Core σ}

lemma prefix_store (m : ByteMemory) (a : Nat) (bs : List UInt8) : m.written <+: (m.store a bs).written :=
  List.prefix_append _ _

lemma alignedBlocks_extends {input output n idx : Nat} {e e' : Engine σ} {m m' : ByteMemory}
    (h : alignedBlocks core input output n idx e m = some (e', m')) : m.written <+: m'.written := by
  induction n generalizing idx e m with
  | zero =>
    obtain ⟨rfl, rfl⟩ := Prod.mk.inj (Option.some.inj h)
    exact List.prefix_refl _
  | succ n ih =>
    rw [alignedBlocks] at h
    split at h
    · cases h
    · exact (prefix_store _ _ _).trans (ih h)

lemma unalignedChunks_extends {input output cnt size : Nat} {e e' : Engine σ} {m m' : ByteMemory} {temp : Buf UInt8 256}
    (h : unalignedChunks core input output cnt size e m temp = some (e', m')) : m.written <+: m'.written := by
  induction size using Nat.strong_induction_on generalizing cnt e m temp with
  | _ size ih =>
    rw [unalignedChunks] at h
    by_cases hzero : size = 0
    · rw [if_pos hzero] at h
      obtain ⟨rfl, rfl⟩ := Prod.mk.inj (Option.some.inj h)
      exact List.prefix_refl _
    · rw [if_neg hzero] at h
      simp only at h
      split at h
      · cases h
      · have hless : size - (if size ≥ 256 then 256 else size) < size := by split <;> omega
        exact (prefix_store _ _ _).trans (ih _ hless h)

lemma oneBlock_extends {input output size : Nat} {e e' : Engine σ} {m m' : ByteMemory} {status : Status}
    (hsize : size ≤ 32752) (h : oneBlock core e m input output size = some (status, e', m')) : m.written <+: m'.written := by
  rw [oneBlock, if_neg (by omega)] at h
  split at h
  · rw [oneBlockUnaligned] at h
    split at h
    · cases h
    · next hchunks =>
      obtain ⟨_, rfl, rfl⟩ : _ ∧ _ ∧ _ := by simpa using h
      exact unalignedChunks_extends hchunks
  · rw [oneBlockAligned] at h
    split at h
    · cases h
    · next hblocks =>
      obtain ⟨_, rfl, rfl⟩ : _ ∧ _ ∧ _ := by simpa using h
      exact alignedBlocks_extends hblocks

lemma prefix_xorLoop (m : ByteMemory) (output input pad n : Nat) : m.written <+: (xorLoop m output input pad n).written := by
  rw [xorLoop_written]
  exact List.prefix_append _ _

lemma cfbRounds_extends {blockOutput n feed src dst : Nat} {e e' : Engine σ} {m m' : ByteMemory} {status : Status}
    (h : cfbRounds core blockOutput n e m feed src dst = some (status, e', m')) : m.written <+: m'.written := by
  induction n generalizing e m feed src dst with
  | zero =>
    obtain ⟨_, rfl, rfl⟩ : _ ∧ _ ∧ _ := by simpa [cfbRounds] using h
    exact List.prefix_refl _
  | succ n ih =>
    rw [cfbRounds] at h
    split at h
    · cases h
    · next hblock =>
      have hfirst := oneBlock_extends (by omega) hblock
      split at h
      · obtain ⟨_, rfl, rfl⟩ : _ ∧ _ ∧ _ := by simpa using h
        exact hfirst
      · exact (hfirst.trans (prefix_xorLoop _ _ _ _ _)).trans (ih h)

/-- Whatever the size is, a call that succeeds has written the first 16 bytes of its output. -/
lemma cryptCfb_written {feed src dst size frame : Nat} {iv : Block} {handle : Handle} {e e' : Engine σ} {m m' : ByteMemory}
    (h : cryptCfb core e m handle feed src dst size iv frame = some (.success, e', m')) :
    ∃ before after, m'.written = m.written ++ (before ++ List.range' dst 16) ++ after := by
  rw [cryptCfb] at h
  simp only at h
  split at h
  · cases h
  · split at h
    · cases h
    · split at h
      · cases h
      · next hblock =>
        split at h
        · next hfail =>
          obtain ⟨rfl, _⟩ : _ ∧ _ := by simpa using h
          exact absurd rfl hfail
        · obtain ⟨before, hbefore⟩ := ((prefix_store _ _ _).trans (prefix_store _ _ _)).trans
            (oneBlock_extends (by omega) hblock)
          obtain ⟨after, hafter⟩ := cfbRounds_extends h
          refine ⟨before, after, ?_⟩
          rw [← hafter, xorLoop_written, ← hbefore, List.append_assoc m.written]

lemma cryptCfb_writes_something {feed src dst size frame : Nat} {iv : Block} {handle : Handle} {e e' : Engine σ}
    {m m' : ByteMemory} (h : cryptCfb core e m handle feed src dst size iv frame = some (.success, e', m'))
    (hdst : dst < frame ∨ frame + 32 ≤ dst) : m'.off (localArrays frame) ≠ m.off (localArrays frame) := by
  intro hsame
  obtain ⟨before, after, hwritten⟩ := cryptCfb_written h
  have hlog := congrArg ByteMemory.written hsame
  simp only [ByteMemory.off, hwritten, List.filter_append, List.append_assoc] at hlog
  have hnil := List.append_right_eq_self.mp hlog
  have hfirst : dst ∈ (List.range' dst 16).filter
      (fun x => ¬((localArrays frame).address ≤ x ∧ x < (localArrays frame).address + (localArrays frame).bytes)) := by
    rw [List.mem_filter, List.mem_range'_1]
    refine ⟨by omega, decide_eq_true ?_⟩
    simp only [localArrays]
    omega
  simp only [List.append_eq_nil_iff] at hnil
  rw [hnil.2.1] at hfirst
  cases hfirst

end Written

/-- A call of the encryption and then one of the decryption with the same key and initial vector: the
first writes the `size` bytes of the CFB ciphertext, the second the plaintext, and neither writes
anything else. -/
def CfbExact (cipher : Key → Block → Block) (e : Engine AesState) (m : ByteMemory) (handle : Handle) (iv : Block)
    (plaintext ciphertext recovered size frame frame₂ : Nat) : Prop :=
  ∃ e₁ m₁ e₂ m₂,
    encryptCfb (aesCore cipher) e m handle plaintext ciphertext size iv frame = some (.success, e₁, m₁) ∧
    m₁.off (localArrays frame) = (m.off (localArrays frame)).store ciphertext
      (cfbEncrypt (onBytes (cipher (handleKey handle))) iv.data (m.blocks 16 plaintext (size / 16))).flatten ∧
    decryptCfb (aesCore cipher) e₁ m₁ handle ciphertext recovered size iv frame₂ = some (.success, e₂, m₂) ∧
    m₂.off (localArrays frame₂) = (m₁.off (localArrays frame₂)).store recovered (m.read plaintext size)

/-- The size zero is accepted, but the encryption writes all the same. -/
lemma not_cfbExact_zero {cipher : Key → Block → Block} {e : Engine AesState} {m : ByteMemory} {handle : Handle} {iv : Block}
    {plaintext ciphertext recovered frame frame₂ : Nat} (hout : ciphertext < frame ∨ frame + 32 ≤ ciphertext) :
    ¬CfbExact cipher e m handle iv plaintext ciphertext recovered 0 frame frame₂ := by
  rintro ⟨e₁, m₁, e₂, m₂, hrun, hoff, _⟩
  apply cryptCfb_writes_something hrun hout
  rw [hoff, Nat.zero_div, ByteMemory.blocks, cfbEncrypt, List.flatten_nil, ByteMemory.store_nil]

/-- For every other size they are exact. The plaintext and the ciphertext are different buffers, the
decryption may be in place. -/
theorem cfbExact_iff (cipher : Key → Block → Block) {e : Engine AesState} {m : ByteMemory} {handle : Handle} (iv : Block)
    {plaintext ciphertext recovered size frame frame₂ : Nat} (hstart : Startable e handle) (h16 : size % 16 = 0)
    (hsize : size < 2 ^ 32) (hout : ciphertext < frame ∨ frame + 32 ≤ ciphertext) (hp : Apart frame plaintext size)
    (hc : Apart frame ciphertext size) (hc₂ : Apart frame₂ ciphertext size) (hr : Apart frame₂ recovered size)
    (hpc : plaintext + size ≤ ciphertext ∨ ciphertext + size ≤ plaintext)
    (hcr : recovered ≤ ciphertext ∨ ciphertext + size ≤ recovered) :
    CfbExact cipher e m handle iv plaintext ciphertext recovered size frame frame₂ ↔ size ≠ 0 := by
  constructor
  · rintro h rfl
    exact not_cfbExact_zero hout h
  · intro hne
    obtain ⟨n, rfl⟩ : ∃ n, size = 16 * (n + 1) := ⟨size / 16 - 1, by omega⟩
    have hdiv : 16 * (n + 1) / 16 = n + 1 := by omega
    have hmul : (n + 1) * 16 = 16 * (n + 1) := by omega
    obtain ⟨e₁, m₁, hrun₁, hstart₁, hoff₁⟩ := encryptCfb_writes cipher hstart m plaintext ciphertext n iv hsize hp hc
      (by omega)
    obtain ⟨e₂, m₂, hrun₂, hoff₂⟩ := decryptCfb_writes cipher hstart₁ m₁ ciphertext recovered n iv hsize hr hc₂ hcr
    have hplain : ∀ p ∈ m.blocks 16 plaintext (n + 1), p.length = 16 := by
      intro p hmem
      exact ByteMemory.length_of_mem_blocks hmem
    have hround := cfbDecrypt_cfbEncrypt (length_onBytes (cipher (handleKey handle))) iv.data _ hplain
    have hlength := length_cfbEncrypt (onBytes (cipher (handleKey handle))) iv.data (m.blocks 16 plaintext (n + 1))
    have hblocks : m₁.blocks 16 ciphertext (n + 1) =
        cfbEncrypt (onBytes (cipher (handleKey handle))) iv.data (m.blocks 16 plaintext (n + 1)) := by
      have hstored := (m.off (localArrays frame)).blocks_store_flatten ciphertext
        (length_of_mem_cfbEncrypt (length_onBytes (cipher (handleKey handle))) iv.data _ hplain)
      rw [hlength, ByteMemory.length_blocks, ← hoff₁] at hstored
      rw [← hstored]
      apply ByteMemory.blocks_eq_of_read
      rw [hmul]
      exact (ByteMemory.read_off m₁ (r := localArrays frame) (a := ciphertext) hc).symm
    refine ⟨e₁, m₁, e₂, m₂, hrun₁, ?_, hrun₂, ?_⟩
    · rw [hoff₁, hdiv]
    · rw [hoff₂, hblocks, hround, ByteMemory.flatten_blocks, hmul]

theorem cfbExact_iff_two_blocks :
    CfbExact (fun _ b => b) resetEngine ⟨fun _ => 1, []⟩ zeroHandle (Buf.fill 16 7) 0 64 128 32 1000 1000 ↔ 32 ≠ 0 :=
  cfbExact_iff (fun _ b => b) (Buf.fill 16 7) zeroHandle_startable rfl (by decide) (by decide) (Or.inl (by decide))
    (Or.inl (by decide)) (Or.inl (by decide)) (Or.inl (by decide)) (Or.inl (by decide)) (Or.inr (by decide))

theorem encryptCfb_writes_for_size_zero :
    ¬CfbExact (fun _ b => b) resetEngine ⟨fun _ => 1, []⟩ zeroHandle (Buf.fill 16 7) 0 64 128 0 1000 1000 :=
  not_cfbExact_zero (by decide)

end McuxDrivers.Hashcrypt.Aes
