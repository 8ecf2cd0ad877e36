import McuxDrivers.Hashcrypt.Cfb
import McuxDrivers.Hashcrypt.Ctr

/-!
# AES-OFB

`HASHCRYPT_AES_CryptOfb` feeds zeros to the engine in CBC mode, so that each output is the input of the
next encryption, and XORs the outputs into the text. The arrays `zeroes` and `blockOutput` lie in the stack
frame at `frame`. The text may have any size and may be changed in place.
-/

namespace McuxDrivers.Hashcrypt.Aes
open McuxDrivers.Lib

section Driver

variable {σ : Type} (core : Core σ)

/-- The loop `while (size >= 16u)`, `n` times, and the `last` bytes behind it. -/
def ofbRounds (zeroes blockOutput last : Nat) :
    Nat → Status → Engine σ → ByteMemory → Nat → Nat → Option (Status × Engine σ × ByteMemory)
  | 0, status, e, m, input, output =>
    if last ≠ 0 then
      match oneBlock core e m zeroes blockOutput 16 with
      | none => none
      | some (status, e, m) =>
        if status ≠ .success then some (status, engineDeinit e, m)
        else some (status, engineDeinit e, xorLoop m output input blockOutput last)
    else some (status, engineDeinit e, m)
  | n + 1, _, e, m, input, output =>
    match oneBlock core e m zeroes blockOutput 16 with
    | none => none
    | some (status, e, m) =>
      if status ≠ .success then some (status, engineDeinit e, m)
      else ofbRounds zeroes blockOutput last n status e (xorLoop m output input blockOutput 16) (input + 16) (output + 16)

/-- `HASHCRYPT_AES_CryptOfb`. -/
def cryptOfb (e : Engine σ) (m : ByteMemory) (handle : Handle) (input output size : Nat) (iv : Block) (frame : Nat) :
    Option (Status × Engine σ × ByteMemory) :=
  let zeroes := frame
  let blockOutput := frame + 16
  let m := (m.store zeroes (List.replicate 16 0)).store blockOutput (List.replicate 16 0)
  if handle.keySize = .invalidKey then some (.invalidArgument, e, m)
  else
    let (status, e) := startEngine core e handle .cbc iv
    if status ≠ .success then some (.fail, e, m)
    else ofbRounds core zeroes blockOutput (size % 16) (size / 16) .fail e m input output

end Driver

/-- The first `n` blocks of the OFB keystream behind the block `v`. -/
def ofbKeystream (E : List UInt8 → List UInt8) : List UInt8 → Nat → List UInt8
  | _, 0 => []
  | v, n + 1 => E v ++ ofbKeystream E (E v) n

lemma length_ofbKeystream {E : List UInt8 → List UInt8} (hE : ∀ x, (E x).length = 16) (v : List UInt8) (n : Nat) :
    (ofbKeystream E v n).length = n * 16 := by
  induction n generalizing v with
  | zero => rw [ofbKeystream, List.length_nil, Nat.zero_mul]
  | succ n ih => rw [ofbKeystream, List.length_append, hE, ih, Nat.succ_mul, Nat.add_comm]

/-- The text XORed with as much of the keystream as it needs. -/
def ofbCrypt (E : List UInt8 → List UInt8) (v text : List UInt8) : List UInt8 :=
  xorBytes text (ofbKeystream E v ((text.length + 15) / 16))

lemma length_ofbCrypt {E : List UInt8 → List UInt8} (hE : ∀ x, (E x).length = 16) (v text : List UInt8) :
    (ofbCrypt E v text).length = text.length := by
  rw [ofbCrypt, length_xorBytes, length_ofbKeystream hE]
  omega

lemma ofbCrypt_ofbCrypt {E : List UInt8 → List UInt8} (hE : ∀ x, (E x).length = 16) (v text : List UInt8) :
    ofbCrypt E v (ofbCrypt E v text) = text := by
  have htake : ∀ t, t.length = text.length → ofbCrypt E v t =
      xorBytes t ((ofbKeystream E v ((text.length + 15) / 16)).take text.length) := by
    intro t ht
    rw [ofbCrypt, ← xorBytes_take, ht]
  rw [htake _ (length_ofbCrypt hE v text), htake text rfl, xorBytes_cancel]
  rw [List.length_take, length_ofbKeystream hE]
  omega

lemma ofbCrypt_append {E : List UInt8 → List UInt8} (hE : ∀ x, (E x).length = 16) (v x text : List UInt8)
    (hx : x.length = 16) : ofbCrypt E v (x ++ text) = xorBytes x (E v) ++ ofbCrypt E (E v) text := by
  have hcount : ((x ++ text).length + 15) / 16 = (text.length + 15) / 16 + 1 := by
    rw [List.length_append]
    omega
  rw [ofbCrypt, hcount, ofbKeystream, xorBytes_append (by rw [hx, hE]), ofbCrypt]

/-- A text of less than a block. -/
lemma ofbCrypt_short {E : List UInt8 → List UInt8} (v text : List UInt8) (hpos : text.length ≠ 0) (hlt : text.length < 16) :
    ofbCrypt E v text = xorBytes text (E v) := by
  have hcount : (text.length + 15) / 16 = 1 := by omega
  rw [ofbCrypt, hcount, ofbKeystream, ofbKeystream, List.append_nil]

section Rounds

variable (cipher : Key → Block → Block) {key : Key} {frame : Nat}

/-- Zeros through the engine: the next block of the keystream and the XOR of `n` bytes with it. -/
lemma ofb_block {e : Engine AesState} {v : List UInt8} (h : Ready e .cbc key v) (hv : v.length = 16) (m : ByteMemory)
    (hzeroes : m.read frame 16 = List.replicate 16 0) (input output n : Nat) (hn : n ≤ 16)
    (hinput : Apart frame input n) (houtput : Apart frame output n) (horder : output ≤ input ∨ input + n ≤ output) :
    ∃ e' m', oneBlock (aesCore cipher) e m frame (frame + 16) 16 = some (.success, e', m') ∧
      Ready e' .cbc key (onBytes (cipher key) v) ∧ e'.keyPresent = e.keyPresent ∧
      (xorLoop m' output input (frame + 16) n).off (localArrays frame) = (m.off (localArrays frame)).store output
        (xorBytes (m.read input n) (onBytes (cipher key) v)) ∧
      (xorLoop m' output input (frame + 16) n).read frame 16 = List.replicate 16 0 := by
  have hregion : frame + 16 ≤ frame ∨ frame + 16 ≤ frame + 16 := Or.inr (Nat.le_refl _)
  obtain ⟨e', heq, hready, hkey⟩ := oneBlock_cbc cipher h m hregion
  have hfed : xorBytes (m.read frame 16) v = v := by
    rw [hzeroes, ← hv, xorBytes_zeros]
  rw [hfed] at heq hready
  refine ⟨e', _, heq, hready, hkey, ?_, ?_⟩
  all_goals unfold Apart at hinput houtput
  all_goals
    have hlen := length_onBytes (cipher key) v
    generalize onBytes (cipher key) v = y at hlen
  all_goals
    have hpad : (m.store (frame + 16) y).read (frame + 16) n = y.take n := by
      rw [← read_take _ hn, ← hlen, ByteMemory.read_store]
    have hkeep : (m.store (frame + 16) y).read input n = m.read input n :=
      ByteMemory.read_store_of_disjoint m y (by omega)
    have hxor : xorBytes (m.read input n) (y.take n) = xorBytes (m.read input n) y := by
      have htake := xorBytes_take (m.read input n) y
      rwa [ByteMemory.length_read] at htake
    have hxlen : (xorBytes (m.read input n) y).length = n := by
      rw [length_xorBytes, ByteMemory.length_read, hlen, Nat.min_eq_left hn]
    rw [xorLoop_eq _ horder (by omega), hpad, hkeep, hxor]
  · rw [ByteMemory.off_store_of_disjoint _ _ (by rw [hxlen]; exact houtput),
      ByteMemory.off_store_of_within m y (by simp only [localArrays]; omega) (by simp only [localArrays]; omega)]
  · rw [ByteMemory.read_store_of_disjoint _ _ (by rw [hxlen]; omega), ByteMemory.read_store_of_disjoint _ _ (by omega), hzeroes]

/-- The blocks and the last bytes of the text, from the block `v` of the keystream on. -/
lemma ofbRounds_writes {last : Nat} (hlast : last < 16) {e : Engine AesState} {v : List UInt8} (n : Nat) (h : Ready e .cbc key v)
    (hv : v.length = 16) (m : ByteMemory) (hzeroes : m.read frame 16 = List.replicate 16 0) (status : Status)
    (input output : Nat) (hinput : Apart frame input (16 * n + last)) (houtput : Apart frame output (16 * n + last))
    (horder : output ≤ input ∨ input + (16 * n + last) ≤ output) :
    ∃ e' m', ofbRounds (aesCore cipher) frame (frame + 16) last n status e m input output =
        some (if 16 * n + last = 0 then status else .success, e', m') ∧
      e'.error = false ∧ e'.keyPresent = e.keyPresent ∧
      m'.off (localArrays frame) = (m.off (localArrays frame)).store output
        (ofbCrypt (onBytes (cipher key)) v (m.read input (16 * n + last))) := by
  have hE := length_onBytes (cipher key)
  unfold Apart at hinput houtput
  induction n generalizing e m status input output v with
  | zero =>
    rw [Nat.mul_zero, Nat.zero_add] at hinput houtput horder ⊢
    by_cases hzero : last = 0
    · subst hzero
      refine ⟨engineDeinit e, m, rfl, h.error, rfl, ?_⟩
      rw [ByteMemory.read_zero, ofbCrypt, xorBytes, List.zipWith_nil_left, ByteMemory.store_nil]
    · obtain ⟨e₁, m₁, heq, hready, hkey, hoff, _⟩ := ofb_block cipher h hv m hzeroes input output last (by omega)
        hinput houtput horder
      refine ⟨engineDeinit e₁, xorLoop m₁ output input (frame + 16) last, ?_, hready.error, hkey, ?_⟩
      · rw [ofbRounds, if_pos hzero, if_neg hzero, heq]
        rfl
      · rw [hoff, ofbCrypt_short]
        · rwa [ByteMemory.length_read]
        · rwa [ByteMemory.length_read]
  | succ n ih =>
    obtain ⟨e₁, m₁, heq, hready, hkey, hoff, hzeroes₁⟩ := ofb_block cipher h hv m hzeroes input output 16 (Nat.le_refl _)
      (by unfold Apart; omega) (by unfold Apart; omega) (by omega)
    have hlen : (xorBytes (m.read input 16) (onBytes (cipher key) v)).length = 16 := length_xor_onBytes (cipher key) m input v
    have hrest := read_of_off_store (a := input + 16) (n := 16 * n + last) (by unfold Apart; omega) hoff (by rw [hlen]; omega)
    obtain ⟨e₂, m₂, hrun, herror, hkey₂, hoff₂⟩ := ih hready (hE v) _ hzeroes₁ .success (input + 16) (output + 16)
      (by omega) (by omega) (by omega)
    have hsum : 16 * (n + 1) + last = 16 + (16 * n + last) := by omega
    refine ⟨e₂, m₂, ?_, herror, hkey₂.trans hkey, ?_⟩
    · rw [ofbRounds, heq, if_neg (by omega)]
      refine hrun.trans ?_
      rw [ite_self]
    · have happend := (m.off (localArrays frame)).store_append output (xorBytes (m.read input 16) (onBytes (cipher key) v))
        (ofbCrypt (onBytes (cipher key)) (onBytes (cipher key) v) (m.read (input + 16) (16 * n + last)))
      rw [hlen] at happend
      rw [hoff₂, hrest, hoff, happend, hsum, ByteMemory.read_add m input 16 (16 * n + last), ofbCrypt_append hE _ _ _ (ByteMemory.length_read m input 16)]

end Rounds

variable (cipher : Key → Block → Block)

/-- One call. An empty text is answered with `kStatus_Fail` and left as it is. -/
lemma cryptOfb_writes {e : Engine AesState} {handle : Handle} (hstart : Startable e handle) (m : ByteMemory)
    (input output size : Nat) (iv : Block) {frame : Nat} (hinput : Apart frame input size) (houtput : Apart frame output size)
    (horder : output ≤ input ∨ input + size ≤ output) :
    ∃ e₁ m₁, cryptOfb (aesCore cipher) e m handle input output size iv frame =
        some (if size = 0 then .fail else .success, e₁, m₁) ∧
      Startable e₁ handle ∧
      m₁.off (localArrays frame) = (m.off (localArrays frame)).store output
        (ofbCrypt (onBytes (cipher (handleKey handle))) iv.data (m.read input size)) := by
  obtain ⟨e₀, hengine, hready, hkey⟩ := startEngine_ready cipher hstart .cbc iv
  obtain ⟨m₀, hm₀⟩ : ∃ m₀, m₀ = (m.store frame (List.replicate 16 0)).store (frame + 16) (List.replicate 16 0) := ⟨_, rfl⟩
  have hoff₀ : m₀.off (localArrays frame) = m.off (localArrays frame) := by
    rw [hm₀, ByteMemory.off_store_of_within _ _ (by simp only [localArrays]; omega)
      (by simp only [localArrays, List.length_replicate]; omega), ByteMemory.off_store_of_within _ _
      (by simp only [localArrays]; omega) (by simp only [localArrays, List.length_replicate]; omega)]
  have hzeroes : m₀.read frame 16 = List.replicate 16 0 := by
    rw [hm₀, ByteMemory.read_store_of_disjoint _ _ (Or.inl (Nat.le_refl _))]
    exact ByteMemory.read_store m frame (List.replicate 16 0)
  have hread : m₀.read input size = m.read input size := by
    rw [← ByteMemory.read_off m₀ (r := localArrays frame) hinput, hoff₀]
    exact ByteMemory.read_off m hinput
  have hsum : 16 * (size / 16) + size % 16 = size := Nat.div_add_mod size 16
  obtain ⟨e₁, m₁, hrun, herror, hkey₁, hoff⟩ := ofbRounds_writes cipher (Nat.mod_lt size (by decide)) (size / 16) hready
    iv.length_eq m₀ hzeroes .fail input output (by rwa [hsum]) (by rwa [hsum]) (by rwa [hsum])
  rw [hsum] at hrun hoff
  refine ⟨e₁, m₁, ?_, ⟨hstart.validKey, ?_, herror⟩, ?_⟩
  · rw [cryptOfb]
    simp only [hstart.validKey, if_false, hengine, ← hm₀, ne_eq, not_true_eq_false]
    exact hrun
  · intro h
    rw [hkey₁, hkey]
    exact hstart.keyPresent h
  · rw [hoff, hoff₀, hread]

/-- A call writes the text XORed with the OFB keystream, and a second call with the same key and initial
vector writes the text again; nothing else of the caller's memory changes. The text may have any size, and
each call may be in place. Only the status of the empty text is `kStatus_Fail`. -/
theorem cryptOfb_twice {e : Engine AesState} {m : ByteMemory} {handle : Handle} (iv : Block)
    (input output recovered size frame frame₂ : Nat) (hstart : Startable e handle)
    (hinput : Apart frame input size) (houtput : Apart frame output size) (horder : output ≤ input ∨ input + size ≤ output)
    (houtput₂ : Apart frame₂ output size) (hrecovered : Apart frame₂ recovered size)
    (horder₂ : recovered ≤ output ∨ output + size ≤ recovered) :
    ∃ e₁ m₁ e₂ m₂,
      cryptOfb (aesCore cipher) e m handle input output size iv frame =
        some (if size = 0 then .fail else .success, e₁, m₁) ∧
      m₁.off (localArrays frame) = (m.off (localArrays frame)).store output
        (ofbCrypt (onBytes (cipher (handleKey handle))) iv.data (m.read input size)) ∧
      cryptOfb (aesCore cipher) e₁ m₁ handle output recovered size iv frame₂ =
        some (if size = 0 then .fail else .success, e₂, m₂) ∧
      m₂.off (localArrays frame₂) = (m₁.off (localArrays frame₂)).store recovered (m.read input size) := by
  have hE := length_onBytes (cipher (handleKey handle))
  obtain ⟨e₁, m₁, hrun₁, hstart₁, hoff₁⟩ := cryptOfb_writes cipher hstart m input output size iv hinput houtput horder
  obtain ⟨e₂, m₂, hrun₂, _, hoff₂⟩ := cryptOfb_writes cipher hstart₁ m₁ output recovered size iv houtput₂ hrecovered horder₂
  have hcipher : m₁.read output size = ofbCrypt (onBytes (cipher (handleKey handle))) iv.data (m.read input size) := by
    apply read_of_off_stored houtput hoff₁
    rw [length_ofbCrypt hE, ByteMemory.length_read]
  refine ⟨e₁, m₁, e₂, m₂, hrun₁, hoff₁, hrun₂, ?_⟩
  rw [hoff₂, hcipher, ofbCrypt_ofbCrypt hE]

/-- 21 bytes in place, and back. -/
theorem cryptOfb_twice_in_place :
    ∃ e₁ m₁ e₂ m₂,
      cryptOfb (aesCore (fun _ b => b)) resetEngine ⟨fun _ => 1, []⟩ zeroHandle 0 0 21 (Buf.fill 16 7) 1000 =
        some (.success, e₁, m₁) ∧
      cryptOfb (aesCore (fun _ b => b)) e₁ m₁ zeroHandle 0 0 21 (Buf.fill 16 7) 1000 = some (.success, e₂, m₂) ∧
      m₂.off (localArrays 1000) = (m₁.off (localArrays 1000)).store 0 (List.replicate 21 1) := by
  obtain ⟨e₁, m₁, e₂, m₂, h₁, _, h₂, h₃⟩ := cryptOfb_twice (fun _ b => b) (e := resetEngine) (m := ⟨fun _ => 1, []⟩)
    (Buf.fill 16 7) 0 0 0 21 1000 1000 zeroHandle_startable (Or.inl (by decide)) (Or.inl (by decide)) (Or.inl (by decide)) (Or.inl (by decide))
    (Or.inl (by decide)) (Or.inl (by decide))
  exact ⟨e₁, m₁, e₂, m₂, h₁, h₂, h₃⟩

end McuxDrivers.Hashcrypt.Aes
