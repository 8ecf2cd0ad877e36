import McuxDrivers.Hashcrypt.AesCipher

/-!
# AES-ECB and AES-CBC

`HASHCRYPT_AES_SetKey` and the four functions that give a whole message to `hashcrypt_aes_one_block`. The
engine has two computations, between which the field `AESDECRYPT` of `CRYPTCFG` chooses.
-/

namespace McuxDrivers.Hashcrypt.Aes
open McuxDrivers.Lib

/-- What the engine computes with `AESDECRYPT(AES_ENCRYPT)` and with `AESDECRYPT(AES_DECRYPT)`. -/
structure Cores (σ : Type) where
  encrypt : Core σ
  decrypt : Core σ

/-- `hashcrypt_get_key_from_unaligned_src`, word by word; `dest` is the aligned array of the handle. -/
def getKeyFromUnalignedSrc (dest : Buf UInt8 32) (m : ByteMemory) (src size : Nat) : Buf UInt8 32 :=
  (List.range (size / 4)).foldl (fun dest i => dest.write (4 * i) (m.read (src + 4 * i) 4)) dest

/-- The `switch` over the length of a key. -/
def keySizeOf (keySize : Nat) : KeySize :=
  match keySize with
  | 16 => .aes128
  | 24 => .aes192
  | 32 => .aes256
  | _ => .invalidKey

/-- `HASHCRYPT_AES_SetKey`. -/
def setKey (handle : Handle) (m : ByteMemory) (key keySize : Nat) : Status × Handle :=
  let handle := { handle with keySize := keySizeOf keySize }
  if handle.keySize = .invalidKey then (.invalidArgument, handle)
  else
    match handle.keyType with
    | .secretKey => (.success, handle)
    | .userKey => (.success, { handle with keyWord := getKeyFromUnalignedSrc handle.keyWord m key keySize })

section Driver

variable {σ : Type}

/-- `CRYPTCFG`, the engine's start and the key, as the ECB functions do it. -/
def startKeyed (core : Core σ) (e : Engine σ) (handle : Handle) (aesMode : AesMode) : Status × Engine σ :=
  let cfg : CryptCfg :=
    { aesMode := aesMode
      aesSecret := handle.keyType ≠ .userKey
      aesKeySz := handle.keySize }
  let e := engineInit core e cfg
  if checkNeedKey e handle ≠ .success then (.fail, engineDeinit e)
  else (.success, if handle.keyType = .userKey then loadUserKey core e handle else e)

/-- The body of the ECB functions. -/
def cryptEcb (core : Core σ) (e : Engine σ) (m : ByteMemory) (handle : Handle) (input output size : Nat) :
    Option (Status × Engine σ × ByteMemory) :=
  if size % 16 ≠ 0 ∨ handle.keySize = .invalidKey then some (.invalidArgument, e, m)
  else
    let (status, e) := startKeyed core e handle .ecb
    if status ≠ .success then some (.fail, e, m)
    else
      match oneBlock core e m input output size with
      | none => none
      | some (status, e, m) => some (status, engineDeinit e, m)

/-- The body of the CBC functions. -/
def cryptCbc (core : Core σ) (e : Engine σ) (m : ByteMemory) (handle : Handle) (input output size : Nat) (iv : Block) :
    Option (Status × Engine σ × ByteMemory) :=
  if size % 16 ≠ 0 ∨ handle.keySize = .invalidKey then some (.invalidArgument, e, m)
  else
    let (status, e) := startEngine core e handle .cbc iv
    if status ≠ .success then some (.fail, e, m)
    else
      match oneBlock core e m input output size with
      | none => none
      | some (status, e, m) => some (status, engineDeinit e, m)

variable (cores : Cores σ)

/-- `HASHCRYPT_AES_EncryptEcb`. -/
def encryptEcb (e : Engine σ) (m : ByteMemory) (handle : Handle) (plaintext ciphertext size : Nat) :
    Option (Status × Engine σ × ByteMemory) :=
  cryptEcb cores.encrypt e m handle plaintext ciphertext size

/-- `HASHCRYPT_AES_DecryptEcb`. -/
def decryptEcb (e : Engine σ) (m : ByteMemory) (handle : Handle) (ciphertext plaintext size : Nat) :
    Option (Status × Engine σ × ByteMemory) :=
  cryptEcb cores.decrypt e m handle ciphertext plaintext size

/-- `HASHCRYPT_AES_EncryptCbc`. -/
def encryptCbc (e : Engine σ) (m : ByteMemory) (handle : Handle) (plaintext ciphertext size : Nat) (iv : Block) :
    Option (Status × Engine σ × ByteMemory) :=
  cryptCbc cores.encrypt e m handle plaintext ciphertext size iv

/-- `HASHCRYPT_AES_DecryptCbc`. -/
def decryptCbc (e : Engine σ) (m : ByteMemory) (handle : Handle) (ciphertext plaintext size : Nat) (iv : Block) :
    Option (Status × Engine σ × ByteMemory) :=
  cryptCbc cores.decrypt e m handle ciphertext plaintext size iv

end Driver

/-- The engine with `AESDECRYPT(AES_DECRYPT)`; `inverse` is the inverse cipher. `chain` is the last input in
CBC mode, and CTR mode is the same in both directions. -/
def aesDecryptCore (cipher inverse : Key → Block → Block) : Core AesState where
  start := (aesCore cipher).start
  step s x :=
    match s.aesMode with
    | .ecb => (digestWords (inverse s.key (toBlock x)), s, false)
    | .cbc =>
      (digestWords (toBlock (xorBytes (inverse s.key (toBlock x)).data s.chain.data)), { s with chain := toBlock x }, false)
    | .ctr => (aesCore cipher).step s x

def aesCores (cipher inverse : Key → Block → Block) : Cores AesState where
  encrypt := aesCore cipher
  decrypt := aesDecryptCore cipher inverse

/-- CBC encryption with the block function `E`, from the block `c` on. -/
def cbcEncrypt (E : List UInt8 → List UInt8) : List UInt8 → List (List UInt8) → List (List UInt8)
  | _, [] => []
  | c, p :: ps => E (xorBytes p c) :: cbcEncrypt E (E (xorBytes p c)) ps

def cbcDecrypt (D : List UInt8 → List UInt8) : List UInt8 → List (List UInt8) → List (List UInt8)
  | _, [] => []
  | c, x :: xs => xorBytes (D x) c :: cbcDecrypt D x xs

lemma cbcDecrypt_cbcEncrypt {E D : List UInt8 → List UInt8} (hE : ∀ x, (E x).length = 16)
    (hD : ∀ x, x.length = 16 → D (E x) = x) (c : List UInt8) (hc : c.length = 16) (ps : List (List UInt8))
    (hps : ∀ p ∈ ps, p.length = 16) : cbcDecrypt D c (cbcEncrypt E c ps) = ps := by
  induction ps generalizing c with
  | nil => rfl
  | cons p ps ih =>
    have hp : p.length = 16 := hps p List.mem_cons_self
    have hxor : (xorBytes p c).length = 16 := by rw [length_xorBytes, hp, hc, Nat.min_self]
    have hrest := ih (E (xorBytes p c)) (hE _) (fun q hq => hps q (List.mem_cons_of_mem p hq))
    rw [cbcEncrypt, cbcDecrypt, hD _ hxor, hrest, xorBytes_cancel]
    rw [hp, hc]

lemma length_of_mem_cbcEncrypt {E : List UInt8 → List UInt8} (hE : ∀ x, (E x).length = 16) (c : List UInt8)
    (ps : List (List UInt8)) : ∀ x ∈ cbcEncrypt E c ps, x.length = 16 := by
  induction ps generalizing c with
  | nil =>
    intro x hx
    cases hx
  | cons p ps ih =>
    intro x hx
    rw [cbcEncrypt] at hx
    rcases List.mem_cons.mp hx with rfl | hx
    · exact hE _
    · exact ih _ x hx

lemma length_cbcEncrypt (E : List UInt8 → List UInt8) (c : List UInt8) (ps : List (List UInt8)) :
    (cbcEncrypt E c ps).length = ps.length := by
  induction ps generalizing c with
  | nil => rfl
  | cons p ps ih => rw [cbcEncrypt, List.length_cons, ih, List.length_cons]

/-- The words of the key that are read one by one are its bytes. -/
lemma getKeyFromUnalignedSrc_data (dest : Buf UInt8 32) (m : ByteMemory) (src n : Nat) (hn : n ≤ 8) :
    (getKeyFromUnalignedSrc dest m src (4 * n)).data = m.read src (4 * n) ++ dest.data.drop (4 * n) := by
  have hdiv : 4 * n / 4 = n := by omega
  rw [getKeyFromUnalignedSrc, hdiv]
  induction n with
  | zero => rfl
  | succ n ih =>
    have hlen : (m.read (src + 4 * n) 4).length = 4 := ByteMemory.length_read m _ _
    have hnext : 4 * (n + 1) = 4 * n + 4 := by omega
    have hdone : (m.read src (4 * n)).length = 4 * n := ByteMemory.length_read m _ _
    have hcopy := memcpy_append_left (m.read src (4 * n)) (dest.data.drop (4 * n)) (m.read (src + 4 * n) 4)
    rw [hdone, hlen, List.drop_drop] at hcopy
    rw [List.range_succ, List.foldl_append, List.foldl_cons, List.foldl_nil, Buf.data_write _ _ _ (by omega),
      ih (by omega) (by omega), hcopy, hnext, ByteMemory.read_add]

lemma keySizeOf_valid {keySize : Nat} (h : keySizeOf keySize ≠ .invalidKey) :
    ∃ n ≤ 8, keySize = 4 * n ∧ keyBytes (keySizeOf keySize) = keySize := by
  revert h
  unfold keySizeOf
  split
  · exact fun _ => ⟨4, by decide, rfl, rfl⟩
  · exact fun _ => ⟨6, by decide, rfl, rfl⟩
  · exact fun _ => ⟨8, by decide, rfl, rfl⟩
  · exact fun h => absurd rfl h

/-- The key that a successful call of `HASHCRYPT_AES_SetKey` leaves in the handle. -/
lemma setKey_success {handle handle' : Handle} {m : ByteMemory} {key keySize : Nat}
    (h : setKey handle m key keySize = (.success, handle')) :
    handle'.keySize ≠ .invalidKey ∧ handle'.keyType = handle.keyType ∧
      (handle.keyType = .userKey → handleKey handle' = .user (m.read key keySize)) := by
  rw [setKey] at h
  simp only at h
  split at h
  · cases h
  · next hvalid =>
    split at h
    · next htype =>
      obtain ⟨_, rfl⟩ := Prod.mk.inj h
      exact ⟨hvalid, rfl, fun huser => by rw [huser] at htype; cases htype⟩
    · next htype =>
      obtain ⟨_, rfl⟩ := Prod.mk.inj h
      refine ⟨hvalid, rfl, fun _ => ?_⟩
      obtain ⟨n, hn, hkey, hbytes⟩ := keySizeOf_valid hvalid
      simp only [handleKey, htype, if_true]
      rw [hbytes, hkey, getKeyFromUnalignedSrc_data _ _ _ _ hn, List.take_left' (ByteMemory.length_read m _ _)]

variable (cipher inverse : Key → Block → Block)

lemma startKeyed_ready {e : Engine AesState} {handle : Handle} (h : Startable e handle) (aesMode : AesMode) :
    ∃ e' chain, startKeyed (aesCore cipher) e handle aesMode = (.success, e') ∧
      Ready e' aesMode (handleKey handle) chain ∧ e'.keyPresent = e.keyPresent := by
  have hbytes : keyBytes handle.keySize ≠ 0 := by
    have := h.validKey
    cases hsize : handle.keySize <;> simp_all [keyBytes]
  cases htype : handle.keyType with
  | userKey =>
    refine ⟨_, _, by rw [startKeyed]; simp [htype, checkNeedKey]; rfl, ⟨?_, ?_, ?_, ?_, rfl⟩, ?_⟩
    all_goals simp only [loadUserKey, loadData, engineInit, hbytes, if_false, aesCore, List.nil_append, Bool.false_eq_true]
    · exact h.error
    · rw [handleKey, if_pos htype, List.take_take, Nat.min_self]
  | secretKey =>
    have hpresent := h.keyPresent htype
    refine ⟨_, _, by rw [startKeyed]; simp [htype, checkNeedKey, engineInit, hpresent]; rfl, ⟨?_, ?_, ?_, ?_, rfl⟩, ?_⟩
    all_goals simp only [aesCore, if_true]
    · exact h.error
    · rw [handleKey, if_neg (by rw [htype]; decide)]
    · exact hpresent.symm

lemma aesDecryptCore_run_no_error (s : AesState) (xs : List (List UInt8)) :
    ((aesDecryptCore cipher inverse).run s xs).2.2 = false := by
  induction xs generalizing s with
  | nil => rfl
  | cons x xs ih =>
    have hstep : ((aesDecryptCore cipher inverse).step s x).2.2 = false := by
      cases h : s.aesMode <;> simp only [aesDecryptCore, aesCore, h]
    rw [Core.run, ih, hstep, Bool.or_false]

lemma run_ecb_encrypt {s : AesState} (hmode : s.aesMode = .ecb) (xs : List (List UInt8)) :
    ((aesCore cipher).run s xs).1 = xs.map (onBytes (cipher s.key)) := by
  induction xs with
  | nil => rfl
  | cons x xs ih =>
    have hstep : (aesCore cipher).step s x = (digestWords (cipher s.key (toBlock x)), s, false) := by
      simp only [aesCore, hmode]
    rw [Core.run, hstep, ih, Core.bytes_digestWords, List.map_cons, onBytes]

lemma run_ecb_decrypt {s : AesState} (hmode : s.aesMode = .ecb) (xs : List (List UInt8)) :
    ((aesDecryptCore cipher inverse).run s xs).1 = xs.map (onBytes (inverse s.key)) := by
  induction xs with
  | nil => rfl
  | cons x xs ih =>
    have hstep : (aesDecryptCore cipher inverse).step s x = (digestWords (inverse s.key (toBlock x)), s, false) := by
      simp only [aesDecryptCore, hmode]
    rw [Core.run, hstep, ih, Core.bytes_digestWords, List.map_cons, onBytes]

lemma run_cbc_encrypt {s : AesState} (hmode : s.aesMode = .cbc) (xs : List (List UInt8)) :
    ((aesCore cipher).run s xs).1 = cbcEncrypt (onBytes (cipher s.key)) s.chain.data xs := by
  induction xs generalizing s with
  | nil => rfl
  | cons x xs ih =>
    have hstep : (aesCore cipher).step s x = (digestWords (cipher s.key (toBlock (xorBytes x s.chain.data))),
        { s with chain := cipher s.key (toBlock (xorBytes x s.chain.data)) }, false) := by
      simp only [aesCore, hmode]
    have hrest := ih (s := { s with chain := cipher s.key (toBlock (xorBytes x s.chain.data)) }) hmode
    rw [Core.run, hstep, hrest, Core.bytes_digestWords, cbcEncrypt, onBytes]

lemma run_cbc_decrypt {s : AesState} (hmode : s.aesMode = .cbc) (xs : List (List UInt8)) (hxs : ∀ x ∈ xs, x.length = 16) :
    ((aesDecryptCore cipher inverse).run s xs).1 = cbcDecrypt (onBytes (inverse s.key)) s.chain.data xs := by
  induction xs generalizing s with
  | nil => rfl
  | cons x xs ih =>
    have hstep : (aesDecryptCore cipher inverse).step s x =
        (digestWords (toBlock (xorBytes (inverse s.key (toBlock x)).data s.chain.data)),
          { s with chain := toBlock x }, false) := by
      simp only [aesDecryptCore, hmode]
    have hlen : (xorBytes (inverse s.key (toBlock x)).data s.chain.data).length = 16 := by
      rw [length_xorBytes, Buf.length_eq, Buf.length_eq, Nat.min_self]
    have hrest := ih (s := { s with chain := toBlock x }) hmode (fun y hy => hxs y (List.mem_cons_of_mem x hy))
    simp only [toBlock_data (hxs x List.mem_cons_self)] at hrest
    rw [Core.run, hstep, hrest, Core.bytes_digestWords, toBlock_data hlen, cbcDecrypt, onBytes]

/-- What the two directions have in common: how they start, and that no block gives an error. -/
structure Computes (core : Core AesState) : Prop where
  start : core.start = (aesCore cipher).start
  no_error : ∀ s xs, (core.run s xs).2.2 = false

lemma computes_encrypt : Computes cipher (aesCore cipher) :=
  ⟨rfl, aesCore_run_no_error cipher⟩

lemma computes_decrypt : Computes cipher (aesDecryptCore cipher inverse) :=
  ⟨rfl, aesDecryptCore_run_no_error cipher inverse⟩

variable {core : Core AesState}

/-- Only the start of a computation is used before the first block. -/
lemma Computes.startKeyed_eq (h : Computes cipher core) (e : Engine AesState) (handle : Handle) (aesMode : AesMode) :
    startKeyed core e handle aesMode = startKeyed (aesCore cipher) e handle aesMode := by
  obtain ⟨start, step⟩ := core
  obtain rfl : start = (aesCore cipher).start := h.start
  rfl

lemma Computes.startEngine_eq (h : Computes cipher core) (e : Engine AesState) (handle : Handle) (aesMode : AesMode) (iv : Block) :
    startEngine core e handle aesMode iv = startEngine (aesCore cipher) e handle aesMode iv := by
  obtain ⟨start, step⟩ := core
  obtain rfl : start = (aesCore cipher).start := h.start
  rfl

/-- A whole message through the engine. -/
lemma oneBlock_message (hcore : Computes cipher core) {e : Engine AesState} {aesMode : AesMode} {key : Key} {chain : List UInt8}
    (h : Ready e aesMode key chain) (m : ByteMemory) {input output size : Nat} (hsize : size % 16 = 0)
    (hregion : output ≤ input ∨ input + size ≤ output) :
    ∃ e', oneBlock core e m input output size =
        some (.success, e', m.store output (core.run e.state (m.blocks 16 input (size / 16))).1.flatten) ∧
      e'.error = false ∧ e'.keyPresent = e.keyPresent := by
  obtain ⟨e', heq, hfed⟩ := oneBlock_feeds core h.mode m hsize hregion
  have herror : e'.error = false := by
    rw [hfed.error, h.error, hcore.no_error]
    rfl
  refine ⟨e', ?_, herror, hfed.keyPresent⟩
  rw [heq, errorStatus, herror]
  rfl

/-- A call of an ECB function, whatever the engine computes in the state `s`. -/
lemma cryptEcb_writes (hcore : Computes cipher core) {e : Engine AesState} {handle : Handle} (hstart : Startable e handle)
    (m : ByteMemory) {input output size : Nat} (hsize : size % 16 = 0) (hregion : output ≤ input ∨ input + size ≤ output) :
    ∃ e₁ s, cryptEcb core e m handle input output size =
        some (.success, e₁, m.store output (core.run s (m.blocks 16 input (size / 16))).1.flatten) ∧
      Startable e₁ handle ∧ s.aesMode = .ecb ∧ s.key = handleKey handle := by
  obtain ⟨e₀, chain, hengine, hready, hkey⟩ := startKeyed_ready cipher hstart .ecb
  obtain ⟨e₁, heq, herror, hkey₁⟩ := oneBlock_message cipher hcore hready m hsize hregion
  refine ⟨engineDeinit e₁, e₀.state, ?_, ⟨hstart.validKey, ?_, herror⟩, hready.aesMode, hready.key⟩
  · rw [cryptEcb, hcore.startKeyed_eq]
    simp only [hsize, hstart.validKey, ne_eq, not_true_eq_false, or_self, if_false, hengine, heq]
  · intro h
    exact (hkey₁.trans hkey).trans (hstart.keyPresent h)

/-- A call of a CBC function. -/
lemma cryptCbc_writes (hcore : Computes cipher core) {e : Engine AesState} {handle : Handle} (hstart : Startable e handle)
    (m : ByteMemory) {input output size : Nat} (iv : Block) (hsize : size % 16 = 0)
    (hregion : output ≤ input ∨ input + size ≤ output) :
    ∃ e₁ s, cryptCbc core e m handle input output size iv =
        some (.success, e₁, m.store output (core.run s (m.blocks 16 input (size / 16))).1.flatten) ∧
      Startable e₁ handle ∧ s.aesMode = .cbc ∧ s.key = handleKey handle ∧ s.chain.data = iv.data := by
  obtain ⟨e₀, hengine, hready, hkey⟩ := startEngine_ready cipher hstart .cbc iv
  obtain ⟨e₁, heq, herror, hkey₁⟩ := oneBlock_message cipher hcore hready m hsize hregion
  refine ⟨engineDeinit e₁, e₀.state, ?_, ⟨hstart.validKey, ?_, herror⟩, hready.aesMode, hready.key, hready.chain⟩
  · rw [cryptCbc, hcore.startEngine_eq]
    simp only [hsize, hstart.validKey, ne_eq, not_true_eq_false, or_self, if_false, hengine, heq]
  · intro h
    exact (hkey₁.trans hkey).trans (hstart.keyPresent h)

/-- What a caller gives to a session that encrypts and decrypts `size` bytes after `HASHCRYPT_AES_SetKey`.
Either step may be in place. -/
structure Session (e : Engine AesState) (m : ByteMemory) (handle handle' : Handle)
    (key keySize plaintext ciphertext recovered size : Nat) : Prop where
  keySet : setKey handle m key keySize = (.success, handle')
  keyPresent : handle.keyType = .secretKey → e.keyPresent = true
  noError : e.error = false
  fullBlocks : size % 16 = 0
  encrypts : ciphertext ≤ plaintext ∨ plaintext + size ≤ ciphertext
  decrypts : recovered ≤ ciphertext ∨ ciphertext + size ≤ recovered

section Sessions

variable {cipher inverse} {e : Engine AesState} {m : ByteMemory} {handle handle' : Handle}
  {key keySize plaintext ciphertext recovered size : Nat}

lemma Session.startable (h : Session e m handle handle' key keySize plaintext ciphertext recovered size) :
    Startable e handle' := by
  obtain ⟨hvalid, htype, _⟩ := setKey_success h.keySet
  refine ⟨hvalid, ?_, h.noError⟩
  rw [htype]
  exact h.keyPresent

lemma onBytes_inverse (hinverse : ∀ k b, inverse k (cipher k b) = b) (k : Key) (x : List UInt8) (hx : x.length = 16) :
    onBytes (inverse k) (onBytes (cipher k) x) = x := by
  rw [onBytes, onBytes, toBlock_of_data, hinverse, toBlock_data hx]

/-- The stored ciphertext, read back as blocks. -/
lemma blocks_store_ciphertext (m : ByteMemory) {a n : Nat} {xs : List (List UInt8)} (hxs : ∀ x ∈ xs, x.length = 16)
    (hn : xs.length = n) : (m.store a xs.flatten).blocks 16 a n = xs := by
  rw [← hn]
  exact m.blocks_store_flatten a hxs

/-- An ECB session of any length writes the blocks enciphered one by one, and then the plaintext. The key is
the one at `key`, whatever its alignment, or the one on the secret bus. -/
theorem ecb_session (cipher inverse : Key → Block → Block) (hinverse : ∀ k b, inverse k (cipher k b) = b)
    (h : Session e m handle handle' key keySize plaintext ciphertext recovered size) :
    (handle.keyType = .userKey → handleKey handle' = .user (m.read key keySize)) ∧
    ∃ e₁ e₂ m₁, encryptEcb (aesCores cipher inverse) e m handle' plaintext ciphertext size = some (.success, e₁, m₁) ∧
      m₁ = m.store ciphertext ((m.blocks 16 plaintext (size / 16)).map (onBytes (cipher (handleKey handle')))).flatten ∧
      decryptEcb (aesCores cipher inverse) e₁ m₁ handle' ciphertext recovered size =
        some (.success, e₂, m₁.store recovered (m.read plaintext size)) := by
  refine ⟨(setKey_success h.keySet).2.2, ?_⟩
  have hmul : size / 16 * 16 = size := Nat.div_mul_cancel (Nat.dvd_of_mod_eq_zero h.fullBlocks)
  obtain ⟨e₁, s₁, hrun₁, hstart₁, hmode₁, hkey₁⟩ := cryptEcb_writes cipher (computes_encrypt cipher) h.startable m h.fullBlocks h.encrypts
  rw [run_ecb_encrypt cipher hmode₁, hkey₁] at hrun₁
  obtain ⟨m₁, hm₁⟩ : ∃ m₁, m₁ = m.store ciphertext
      ((m.blocks 16 plaintext (size / 16)).map (onBytes (cipher (handleKey handle')))).flatten := ⟨_, rfl⟩
  obtain ⟨e₂, s₂, hrun₂, _, hmode₂, hkey₂⟩ := cryptEcb_writes cipher (computes_decrypt cipher inverse) hstart₁ m₁ h.fullBlocks h.decrypts
  have hblocks : m₁.blocks 16 ciphertext (size / 16) =
      (m.blocks 16 plaintext (size / 16)).map (onBytes (cipher (handleKey handle'))) := by
    rw [hm₁]
    apply blocks_store_ciphertext
    · intro x hx
      obtain ⟨y, _, rfl⟩ := List.mem_map.mp hx
      exact length_onBytes _ _
    · rw [List.length_map, ByteMemory.length_blocks]
  have hplain : ((m.blocks 16 plaintext (size / 16)).map (onBytes (cipher (handleKey handle')))).map
      (onBytes (inverse (handleKey handle'))) = m.blocks 16 plaintext (size / 16) := by
    calc _ = (m.blocks 16 plaintext (size / 16)).map id := by
          rw [List.map_map]
          apply List.map_congr_left
          intro p hp
          exact onBytes_inverse hinverse _ p (ByteMemory.length_of_mem_blocks hp)
      _ = _ := List.map_id _
  rw [hblocks, run_ecb_decrypt cipher inverse hmode₂, hkey₂, hplain, ByteMemory.flatten_blocks, hmul] at hrun₂
  exact ⟨e₁, e₂, m₁, by rw [encryptEcb, hm₁]; exact hrun₁, hm₁, hrun₂⟩

/-- A session with 32 bytes at 1 and a key of ones at 3, which is decrypted in place. -/
def onesHandle : Handle :=
  (setKey zeroHandle ⟨fun _ => 1, []⟩ 3 16).2

lemma onesSession : Session resetEngine ⟨fun _ => 1, []⟩ zeroHandle onesHandle 3 16 1 100 100 32 where
  keySet := rfl
  keyPresent := fun h => by cases h
  noError := rfl
  fullBlocks := rfl
  encrypts := Or.inr (by decide)
  decrypts := Or.inl (by decide)

theorem ecb_session_ones :
    ∃ e₁ e₂ m₁, encryptEcb (aesCores (fun _ b => b) (fun _ b => b)) resetEngine ⟨fun _ => 1, []⟩ onesHandle 1 100 32 =
        some (.success, e₁, m₁) ∧
      decryptEcb (aesCores (fun _ b => b) (fun _ b => b)) e₁ m₁ onesHandle 100 100 32 =
        some (.success, e₂, m₁.store 100 (List.replicate 32 1)) := by
  obtain ⟨_, e₁, e₂, m₁, h₁, _, h₂⟩ := ecb_session (fun _ b => b) (fun _ b => b) (fun _ _ => rfl) onesSession
  exact ⟨e₁, e₂, m₁, h₁, h₂⟩

/-- A CBC session does the same with the blocks chained from the initial vector on. -/
theorem cbc_session (cipher inverse : Key → Block → Block) (hinverse : ∀ k b, inverse k (cipher k b) = b) (iv : Block)
    (h : Session e m handle handle' key keySize plaintext ciphertext recovered size) :
    (handle.keyType = .userKey → handleKey handle' = .user (m.read key keySize)) ∧
    ∃ e₁ e₂ m₁, encryptCbc (aesCores cipher inverse) e m handle' plaintext ciphertext size iv = some (.success, e₁, m₁) ∧
      m₁ = m.store ciphertext
        (cbcEncrypt (onBytes (cipher (handleKey handle'))) iv.data (m.blocks 16 plaintext (size / 16))).flatten ∧
      decryptCbc (aesCores cipher inverse) e₁ m₁ handle' ciphertext recovered size iv =
        some (.success, e₂, m₁.store recovered (m.read plaintext size)) := by
  refine ⟨(setKey_success h.keySet).2.2, ?_⟩
  have hmul : size / 16 * 16 = size := Nat.div_mul_cancel (Nat.dvd_of_mod_eq_zero h.fullBlocks)
  have hE := length_onBytes (cipher (handleKey handle'))
  obtain ⟨e₁, s₁, hrun₁, hstart₁, hmode₁, hkey₁, hchain₁⟩ := cryptCbc_writes cipher (computes_encrypt cipher) h.startable m iv
    h.fullBlocks h.encrypts
  rw [run_cbc_encrypt cipher hmode₁, hkey₁, hchain₁] at hrun₁
  obtain ⟨m₁, hm₁⟩ : ∃ m₁, m₁ = m.store ciphertext
      (cbcEncrypt (onBytes (cipher (handleKey handle'))) iv.data (m.blocks 16 plaintext (size / 16))).flatten := ⟨_, rfl⟩
  obtain ⟨e₂, s₂, hrun₂, _, hmode₂, hkey₂, hchain₂⟩ := cryptCbc_writes cipher (computes_decrypt cipher inverse) hstart₁ m₁ iv
    h.fullBlocks h.decrypts
  have hlength := length_of_mem_cbcEncrypt hE iv.data (m.blocks 16 plaintext (size / 16))
  have hblocks : m₁.blocks 16 ciphertext (size / 16) =
      cbcEncrypt (onBytes (cipher (handleKey handle'))) iv.data (m.blocks 16 plaintext (size / 16)) := by
    rw [hm₁]
    apply blocks_store_ciphertext m hlength
    rw [length_cbcEncrypt, ByteMemory.length_blocks]
  have hplain := cbcDecrypt_cbcEncrypt hE (onBytes_inverse hinverse (handleKey handle')) iv.data iv.length_eq
    (m.blocks 16 plaintext (size / 16)) (fun p hp => ByteMemory.length_of_mem_blocks hp)
  rw [hblocks, run_cbc_decrypt cipher inverse hmode₂ _ hlength, hkey₂, hchain₂, hplain, ByteMemory.flatten_blocks, hmul] at hrun₂
  exact ⟨e₁, e₂, m₁, by rw [encryptCbc, hm₁]; exact hrun₁, hm₁, hrun₂⟩

theorem cbc_session_ones :
    ∃ e₁ e₂ m₁, encryptCbc (aesCores (fun _ b => b) (fun _ b => b)) resetEngine ⟨fun _ => 1, []⟩ onesHandle 1 100 32
        (Buf.fill 16 7) = some (.success, e₁, m₁) ∧
      decryptCbc (aesCores (fun _ b => b) (fun _ b => b)) e₁ m₁ onesHandle 100 100 32 (Buf.fill 16 7) =
        some (.success, e₂, m₁.store 100 (List.replicate 32 1)) := by
  obtain ⟨_, e₁, e₂, m₁, h₁, _, h₂⟩ := cbc_session (fun _ b => b) (fun _ b => b) (fun _ _ => rfl) (Buf.fill 16 7) onesSession
  exact ⟨e₁, e₂, m₁, h₁, h₂⟩

end Sessions

end McuxDrivers.Hashcrypt.Aes
