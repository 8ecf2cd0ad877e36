import McuxDrivers.Hashcrypt.AesCipher

/-!
# AES-CTR in pieces

`HASHCRYPT_AES_CryptCtr` lets the engine count while it runs and counts once more itself, in the array
of the caller. A text that is given in pieces is encrypted as it is in one call.
-/

namespace McuxDrivers.Hashcrypt.Aes
open McuxDrivers.Lib

/-- The loop of `ctrIncrement` from byte `i - 1` down. -/
def ctrIncrementFrom : Nat → Block → Block
  | 0, input => input
  | i + 1, input =>
    if input.data.getD i 0 = 0xFF then ctrIncrementFrom i (input.write i [0])
    else input.write i [input.data.getD i 0 + 1]

def ctrIncrement (input : Block) : Block :=
  ctrIncrementFrom 16 input

/-- The loop `while (size != 0U)` behind the full blocks, `n` of them. -/
def skipBlocks : Nat → Block → Nat → Nat → Block × Nat × Nat
  | 0, counter, input, output => (counter, input, output)
  | n + 1, counter, input, output => skipBlocks n (ctrIncrement counter) (input + 16) (output + 16)

/-- `HASHCRYPT_AES_CryptCtr` with the array `lastBlock` at `frame`; `none` stands for `NULL` in
`counterlast` and `szLeft`. The results are the status, the engine, the memory, the counter and
`*szLeft`. -/
def cryptCtr {σ : Type} (core : Core σ) (e : Engine σ) (m : ByteMemory) (handle : Handle) (input output size : Nat)
    (counter : Block) (counterlast szLeft : Option Nat) (frame : Nat) :
    Option (Status × Engine σ × ByteMemory × Block × Option Nat) :=
  let lastBlock := frame
  let m := m.store lastBlock (List.replicate 16 0)
  if handle.keySize = .invalidKey then some (.invalidArgument, e, m, counter, szLeft)
  else
    let (status, e) := startEngine core e handle .ctr counter
    if status ≠ .success then some (.fail, e, m, counter, szLeft)
    else
      let lastSize := size % 16
      let size := size - lastSize
      match oneBlock core e m input output size with
      | none => none
      | some (status, e, m) =>
        if status ≠ .success then some (status, engineDeinit e, m, counter, szLeft)
        else
          let (counter, input, output) := skipBlocks (size / 16) counter input output
          if lastSize ≠ 0 then
            let lastEncryptedCounter := counterlast.getD lastBlock
            match oneBlock core e m lastBlock lastEncryptedCounter 16 with
            | none => none
            | some (status, e, m) =>
              if status ≠ .success then some (status, engineDeinit e, m, counter, szLeft)
              else
                let m := xorLoop m output input lastEncryptedCounter lastSize
                some (.success, engineDeinit e, m, ctrIncrement counter, szLeft.map (fun _ => 16 - lastSize))
          else
            let lastSize := 16
            let m := match counterlast with
              | none => m
              | some counterlast => m.store counterlast (List.replicate 16 0)
            some (.success, engineDeinit e, m, counter, szLeft.map (fun _ => 16 - lastSize))

/-- The blocks that the block function gives for `n` counters from `c` on. -/
def keystream (E : List UInt8 → List UInt8) (c : Nat) : Nat → List UInt8
  | 0 => []
  | n + 1 => E (beBytes 16 c) ++ keystream E (c + 1) n

lemma ctrIncrementFrom_data (i : Nat) (input : Block) (pre suf : List UInt8) (hdata : input.data = pre ++ suf)
    (hi : pre.length = i) : (ctrIncrementFrom i input).data = beBytes i (beValue pre + 1) ++ suf := by
  induction i generalizing input pre suf with
  | zero =>
    obtain rfl : pre = [] := List.length_eq_zero_iff.mp hi
    exact hdata
  | succ i ih =>
    obtain ⟨rest, x, rfl⟩ : ∃ rest x, pre = rest ++ [x] :=
      ⟨pre.dropLast, pre.getLast (List.ne_nil_of_length_eq_add_one hi), (List.dropLast_append_getLast _).symm⟩
    have hrest : rest.length = i := by
      rw [List.length_append, List.length_singleton] at hi
      omega
    have htotal := input.length_eq
    rw [hdata, List.append_assoc, List.length_append, List.length_append, List.length_singleton] at htotal
    have hget : input.data.getD i 0 = x := by
      rw [hdata, ← hrest, List.append_assoc]
      simp
    have hwrite : ∀ y : UInt8, (input.write i [y]).data = rest ++ ([y] ++ suf) := by
      intro y
      rw [Buf.data_write _ _ _ (by rw [List.length_singleton]; omega), hdata, ← hrest, List.append_assoc,
        memcpy_append_left, List.append_assoc]
      rfl
    rw [ctrIncrementFrom, hget]
    split
    · next hcarry =>
      rw [ih _ rest _ (hwrite 0) hrest, ← hrest, beBytes_succ_of_carry hcarry, List.append_assoc]
    · next hno =>
      rw [hwrite, ← hrest, beBytes_succ_of_no_carry hno, List.append_assoc]

/-- The byte loop counts modulo `2 ^ 128`. -/
lemma ctrIncrement_data (input : Block) : (ctrIncrement input).data = beBytes 16 (beValue input.data + 1) := by
  have h := ctrIncrementFrom_data 16 input input.data [] (List.append_nil _).symm input.length_eq
  rwa [List.append_nil] at h

lemma keystream_add (E : List UInt8 → List UInt8) (c n k : Nat) :
    keystream E c (n + k) = keystream E c n ++ keystream E (c + n) k := by
  induction n generalizing c with
  | zero => rw [Nat.zero_add, Nat.add_zero, keystream, List.nil_append]
  | succ n ih =>
    have hnext : c + 1 + n = c + (n + 1) := by omega
    rw [Nat.succ_add, keystream, keystream, ih, hnext, List.append_assoc]

lemma length_keystream {E : List UInt8 → List UInt8} (hE : ∀ x, (E x).length = 16) (c n : Nat) :
    (keystream E c n).length = n * 16 := by
  induction n generalizing c with
  | zero => rw [keystream, List.length_nil, Nat.zero_mul]
  | succ n ih => rw [keystream, List.length_append, hE, ih, Nat.succ_mul, Nat.add_comm]

lemma keystream_congr {E : List UInt8 → List UInt8} {c c' : Nat} (h : c % 256 ^ 16 = c' % 256 ^ 16) (n : Nat) :
    keystream E c n = keystream E c' n := by
  induction n generalizing c c' with
  | zero => rfl
  | succ n ih =>
    have hnext : (c + 1) % 256 ^ 16 = (c' + 1) % 256 ^ 16 := by omega
    rw [keystream, keystream, ih hnext, ← beBytes_mod 16 c, h, beBytes_mod]

lemma beBytes_next (k c : Nat) : beBytes k (beValue (beBytes k c) + 1) = beBytes k (c + 1) := by
  rw [beValue_beBytes, ← beBytes_mod k (c % 256 ^ k + 1), Nat.mod_add_mod, beBytes_mod]

lemma skipBlocks_eq (n : Nat) {counter : Block} {c : Nat} (hc : counter.data = beBytes 16 c) (input output : Nat) :
    ∃ counter', skipBlocks n counter input output = (counter', input + 16 * n, output + 16 * n) ∧
      counter'.data = beBytes 16 (c + n) := by
  induction n generalizing counter c input output with
  | zero => exact ⟨counter, rfl, hc⟩
  | succ n ih =>
    have hnext : (ctrIncrement counter).data = beBytes 16 (c + 1) := by
      rw [ctrIncrement_data, hc, beBytes_next]
    obtain ⟨counter', heq, hdata⟩ := ih hnext (input + 16) (output + 16)
    refine ⟨counter', ?_, ?_⟩
    · rw [skipBlocks, heq]
      congr 2 <;> omega
    · rw [hdata]
      congr 1
      omega

section Call

variable (cipher : Key → Block → Block)

/-- In CTR mode the engine XORs the keystream into the blocks and counts them. -/
lemma run_ctr (s : AesState) (hmode : s.aesMode = .ctr) {c : Nat} (hc : s.chain.data = beBytes 16 c)
    (xs : List (List UInt8)) (hxs : ∀ x ∈ xs, x.length = 16) :
    ((aesCore cipher).run s xs).1.flatten = xorBytes xs.flatten (keystream (onBytes (cipher s.key)) c xs.length) ∧
      ((aesCore cipher).run s xs).2.1.aesMode = .ctr ∧ ((aesCore cipher).run s xs).2.1.key = s.key ∧
      ((aesCore cipher).run s xs).2.1.chain.data = beBytes 16 (c + xs.length) := by
  induction xs generalizing s c with
  | nil => exact ⟨rfl, hmode, rfl, hc⟩
  | cons x xs ih =>
    have hx : x.length = 16 := hxs x List.mem_cons_self
    have hpad : (cipher s.key s.chain).data = onBytes (cipher s.key) (beBytes 16 c) := by
      rw [onBytes, ← hc, toBlock_of_data]
    have hstep : (aesCore cipher).step s x =
        (digestWords (toBlock (xorBytes x (onBytes (cipher s.key) (beBytes 16 c)))),
          { s with chain := nextCounter s.chain }, false) := by
      simp only [aesCore, hmode, hpad]
    have hlen : (xorBytes x (onBytes (cipher s.key) (beBytes 16 c))).length = 16 := by
      rw [length_xorBytes, hx, length_onBytes, Nat.min_self]
    have hnext : (nextCounter s.chain).data = beBytes 16 (c + 1) := by
      rw [nextCounter, toBlock_data (length_beBytes _ _), hc, beBytes_next]
    obtain ⟨hout, hmode', hkey, hchain⟩ := ih { s with chain := nextCounter s.chain } hmode hnext
      (fun y hy => hxs y (List.mem_cons_of_mem x hy))
    have hcount : c + 1 + xs.length = c + (x :: xs).length := by rw [List.length_cons]; omega
    rw [Core.flatten_run_cons, Core.run, hstep, Core.bytes_digestWords, toBlock_data hlen]
    refine ⟨?_, hmode', hkey, ?_⟩
    · rw [hout, List.flatten_cons, List.length_cons, keystream, xorBytes_append]
      rw [hx, length_onBytes]
    · rw [hchain, hcount]

lemma oneBlock_ctr {e : Engine AesState} {key : Key} {c : Nat} (h : Ready e .ctr key (beBytes 16 c)) (m : ByteMemory)
    (input output size : Nat) (hsize : size % 16 = 0) (hregion : output ≤ input ∨ input + size ≤ output) :
    ∃ e', oneBlock (aesCore cipher) e m input output size = some (.success, e',
        m.store output (xorBytes (m.read input size) (keystream (onBytes (cipher key)) c (size / 16)))) ∧
      Ready e' .ctr key (beBytes 16 (c + size / 16)) ∧ e'.keyPresent = e.keyPresent := by
  obtain ⟨e', heq, hfed⟩ := oneBlock_feeds (aesCore cipher) h.mode m hsize hregion
  have hxs : ∀ x ∈ m.blocks 16 input (size / 16), x.length = 16 := by
    intro x hx
    exact ByteMemory.length_of_mem_blocks hx
  have hmul : size / 16 * 16 = size := Nat.div_mul_cancel (Nat.dvd_of_mod_eq_zero hsize)
  obtain ⟨hout, hmode, hkey, hchain⟩ := run_ctr cipher e.state h.aesMode h.chain _ hxs
  have herror : e'.error = false := by
    rw [hfed.error, h.error, aesCore_run_no_error cipher]
    rfl
  rw [ByteMemory.flatten_blocks, ByteMemory.length_blocks, hmul, h.key] at hout
  refine ⟨e', ?_, ⟨hfed.mode.trans h.mode, herror, ?_, ?_, ?_⟩, hfed.keyPresent⟩
  · rw [heq, errorStatus, herror, hout]
    rfl
  all_goals rw [hfed.state]
  · exact hmode
  · exact hkey.trans h.key
  · rw [hchain, ByteMemory.length_blocks]

/-- The byte `x` is no part of what a call may write. -/
def Untouched (frame : Nat) (counterlast : Option Nat) (output size x : Nat) : Prop :=
  (x < output ∨ output + size ≤ x) ∧ (x < frame ∨ frame + 16 ≤ x) ∧ ∀ a, counterlast = some a → x < a ∨ a + 16 ≤ x

/-- The buffers of a call do not meet, but for the output, which may be the input. -/
structure CtrPlaced (frame : Nat) (counterlast : Option Nat) (input output size : Nat) : Prop where
  order : output ≤ input ∨ input + size ≤ output
  inputApart : input + size ≤ frame ∨ frame + 16 ≤ input
  outputApart : output + size ≤ frame ∨ frame + 16 ≤ output
  lastApart : ∀ a, counterlast = some a → (a + 16 ≤ frame ∨ frame + 16 ≤ a) ∧ (a + 16 ≤ input ∨ input + size ≤ a) ∧
    (a + 16 ≤ output ∨ output + size ≤ a)

/-- What a call in CTR mode does, and what it leaves for the next one: the output is the input XORed with
the keystream of the counter, the counter went on by the blocks that were begun, and the bytes of the
last block that were not used are the last `*szLeft` bytes of `counterlast`. -/
structure CtrCall (E : List UInt8 → List UInt8) (frame : Nat) (counterlast : Option Nat) (input output size : Nat)
    (m : ByteMemory) (counter : Block) (left : Option Nat) (m' : ByteMemory) (counter' : Block) (left' : Option Nat) :
    Prop where
  encrypted : m'.read output size = xorBytes (m.read input size) (keystream E (beValue counter.data) ((size + 15) / 16))
  counted : beValue counter'.data = (beValue counter.data + (size + 15) / 16) % 2 ^ 128
  szLeft : left' = left.map (fun _ => (16 - size % 16) % 16)
  unused : ∀ a, counterlast = some a → (m'.read a 16).drop (16 - (16 - size % 16) % 16) =
    (keystream E (beValue counter.data) ((size + 15) / 16)).drop size
  kept : ∀ x, Untouched frame counterlast output size x → m'.bytes x = m.bytes x

lemma store_bytes_outside (m : ByteMemory) {a n x : Nat} {bs : List UInt8} (hn : bs.length = n) (h : x < a ∨ a + n ≤ x) :
    (m.store a bs).bytes x = m.bytes x := by
  rcases h with h | h
  · exact ByteMemory.store_bytes_of_lt m bs h
  · exact ByteMemory.store_bytes_of_le m bs (by rw [hn]; exact h)

/-- The memory behind the full blocks of a call. -/
def afterBlocks (m : ByteMemory) (E : List UInt8 → List UInt8) (c frame input output size : Nat) : ByteMemory :=
  (m.store frame (List.replicate 16 0)).store output
    (xorBytes (m.read input (size - size % 16)) (keystream E c (size / 16)))

/-- Every call starts the engine at the counter and feeds it with the full blocks. -/
lemma cryptCtr_blocks {e : Engine AesState} {handle : Handle} (hstart : Startable e handle) (m : ByteMemory)
    {frame input output size : Nat} {counterlast : Option Nat} (hplaced : CtrPlaced frame counterlast input output size)
    (counter : Block) :
    ∃ e₁ e₂ counter', startEngine (aesCore cipher) e handle .ctr counter = (.success, e₁) ∧
      oneBlock (aesCore cipher) e₁ (m.store frame (List.replicate 16 0)) input output (size - size % 16) =
        some (.success, e₂,
          afterBlocks m (onBytes (cipher (handleKey handle))) (beValue counter.data) frame input output size) ∧
      skipBlocks ((size - size % 16) / 16) counter input output =
        (counter', input + (size - size % 16), output + (size - size % 16)) ∧
      counter'.data = beBytes 16 (beValue counter.data + size / 16) ∧
      Ready e₂ .ctr (handleKey handle) (beBytes 16 (beValue counter.data + size / 16)) ∧ e₂.keyPresent = e.keyPresent := by
  obtain ⟨e₁, hengine, hready, hkey₁⟩ := startEngine_ready cipher hstart .ctr counter
  have hcounter : counter.data = beBytes 16 (beValue counter.data) := by
    have h := beBytes_beValue counter.data
    rwa [counter.length_eq, eq_comm] at h
  rw [hcounter] at hready
  have hdiv : (size - size % 16) / 16 = size / 16 := by omega
  have hmul : 16 * (size / 16) = size - size % 16 := by omega
  have hread : (m.store frame (List.replicate 16 0)).read input (size - size % 16) = m.read input (size - size % 16) := by
    have := hplaced.inputApart
    exact ByteMemory.read_store_of_disjoint m _ (by rw [List.length_replicate]; omega)
  have horder := hplaced.order
  obtain ⟨e₂, hblocks, hready₂, hkey₂⟩ := oneBlock_ctr cipher hready (m.store frame (List.replicate 16 0))
    input output (size - size % 16) (by omega) (by omega)
  obtain ⟨counter', hskip, hcounter'⟩ := skipBlocks_eq (size / 16) hcounter input output
  rw [hread, hdiv] at hblocks
  rw [hdiv] at hready₂
  rw [hmul] at hskip
  rw [hdiv]
  exact ⟨e₁, e₂, counter', hengine, hblocks, hskip, hcounter', hready₂, hkey₂.trans hkey₁⟩

lemma length_fullBlocks {E : List UInt8 → List UInt8} (hE : ∀ x, (E x).length = 16) (m : ByteMemory) (c input size : Nat) :
    (xorBytes (m.read input (size - size % 16)) (keystream E c (size / 16))).length = size - size % 16 := by
  rw [length_xorBytes, ByteMemory.length_read, length_keystream hE]
  omega

lemma afterBlocks_bytes (m : ByteMemory) {E : List UInt8 → List UInt8} (hE : ∀ x, (E x).length = 16)
    (c frame input output size x : Nat) (hframe : x < frame ∨ frame + 16 ≤ x)
    (hout : x < output ∨ output + (size - size % 16) ≤ x) :
    (afterBlocks m E c frame input output size).bytes x = m.bytes x := by
  rw [afterBlocks, store_bytes_outside _ (length_fullBlocks hE m c input size) hout,
    store_bytes_outside m List.length_replicate hframe]

lemma afterBlocks_read (m : ByteMemory) {E : List UInt8 → List UInt8} (hE : ∀ x, (E x).length = 16)
    (c frame input output size : Nat) :
    (afterBlocks m E c frame input output size).read output (size - size % 16) =
      xorBytes (m.read input (size - size % 16)) (keystream E c (size / 16)) := by
  have h := ByteMemory.read_store (m.store frame (List.replicate 16 0)) output
    (xorBytes (m.read input (size - size % 16)) (keystream E c (size / 16)))
  rwa [length_fullBlocks hE] at h

lemma startable_engineDeinit {e e' : Engine AesState} {handle : Handle} (hstart : Startable e handle)
    (hkey : e'.keyPresent = e.keyPresent) (herror : e'.error = false) : Startable (engineDeinit e') handle :=
  ⟨hstart.validKey, fun h => hkey.trans (hstart.keyPresent h), herror⟩

lemma cryptCtr_whole {e : Engine AesState} {handle : Handle} (hstart : Startable e handle) (m : ByteMemory)
    {frame input output size : Nat} {counterlast : Option Nat} (hplaced : CtrPlaced frame counterlast input output size)
    (hsize : size % 16 = 0) (counter : Block) (left : Option Nat) :
    ∃ e' m' counter' left',
      cryptCtr (aesCore cipher) e m handle input output size counter counterlast left frame =
        some (.success, e', m', counter', left') ∧ Startable e' handle ∧
      CtrCall (onBytes (cipher (handleKey handle))) frame counterlast input output size m counter left m' counter' left' := by
  obtain ⟨e₁, e₂, counter', hengine, hblocks, hskip, hcounter', hready₂, hkey₂⟩ :=
    cryptCtr_blocks cipher hstart m hplaced counter
  have hE := length_onBytes (cipher (handleKey handle))
  generalize onBytes (cipher (handleKey handle)) = E at hE hblocks ⊢
  have hceil : (size + 15) / 16 = size / 16 := by omega
  have hmul : size / 16 * 16 = size := by omega
  have hread := afterBlocks_read m hE (beValue counter.data) frame input output size
  have hkept : ∀ x, Untouched frame counterlast output size x →
      (afterBlocks m E (beValue counter.data) frame input output size).bytes x = m.bytes x := by
    intro x hx
    exact afterBlocks_bytes m hE _ _ _ _ _ x hx.2.1 (by rw [hsize]; exact hx.1)
  have hdrop : (keystream E (beValue counter.data) (size / 16)).drop size = [] := by
    apply List.drop_eq_nil_of_le
    rw [length_keystream hE, hmul]
  have hvalue : beValue counter'.data = (beValue counter.data + size / 16) % 2 ^ 128 := by
    rw [hcounter', beValue_beBytes]
    rfl
  have hstart' := startable_engineDeinit hstart hkey₂ hready₂.error
  rw [hsize, Nat.sub_zero] at hblocks hskip hread
  generalize afterBlocks m E (beValue counter.data) frame input output size = m₁ at hblocks hread hkept
  cases counterlast with
  | none =>
    refine ⟨engineDeinit e₂, m₁, counter', left.map (fun _ => 16 - 16), ?_, hstart', ?_⟩
    · rw [cryptCtr]
      simp only [hstart.validKey, if_false, hengine, ne_eq, not_true_eq_false, hsize, Nat.sub_zero, hblocks, hskip]
    · refine ⟨?_, ?_, ?_, ?_, hkept⟩
      · rw [hread, hceil]
      · rw [hvalue, hceil]
      · rw [hsize]
      · intro a ha
        cases ha
  | some a =>
    obtain ⟨hframe, hinput, houtput⟩ := hplaced.lastApart a rfl
    refine ⟨engineDeinit e₂, m₁.store a (List.replicate 16 0), counter', left.map (fun _ => 16 - 16), ?_, hstart', ?_⟩
    · rw [cryptCtr]
      simp only [hstart.validKey, if_false, hengine, ne_eq, not_true_eq_false, hsize, Nat.sub_zero, hblocks, hskip]
    · refine ⟨?_, ?_, ?_, ?_, ?_⟩
      · rw [ByteMemory.read_store_of_disjoint _ _ (by rw [List.length_replicate]; omega), hread, hceil]
      · rw [hvalue, hceil]
      · rw [hsize]
      · intro b hb
        obtain rfl := Option.some.inj hb
        rw [hceil, hdrop, hsize]
        exact List.drop_eq_nil_of_le (by rw [ByteMemory.length_read])
      · intro x hx
        rw [store_bytes_outside _ List.length_replicate (hx.2.2 a rfl), hkept x hx]

lemma read_take (m : ByteMemory) {a n k : Nat} (h : n ≤ k) : (m.read a k).take n = m.read a n := by
  obtain ⟨d, rfl⟩ := Nat.exists_eq_add_of_le h
  rw [ByteMemory.read_add]
  exact List.take_left' (ByteMemory.length_read m a n)

lemma xorBytes_take (a b : List UInt8) : xorBytes a (b.take a.length) = xorBytes a b := by
  apply List.ext_getElem
  · simp only [length_xorBytes, List.length_take]
    omega
  · intro i h₁ h₂
    simp only [xorBytes, List.getElem_zipWith, List.getElem_take]

/-- The memory behind a call that ends within a block: the last block of the keystream at `last`, and the
input that is left, XORed with it. -/
def afterLast (m : ByteMemory) (E : List UInt8 → List UInt8) (c frame input output size last : Nat) : ByteMemory :=
  let ks := E (beBytes 16 (c + size / 16))
  ((afterBlocks m E c frame input output size).store last ks).store (output + (size - size % 16))
    (xorBytes (m.read (input + (size - size % 16)) (size % 16)) ks)

lemma length_lastBytes {E : List UInt8 → List UInt8} (hE : ∀ x, (E x).length = 16) (m : ByteMemory) (c input size : Nat) :
    (xorBytes (m.read (input + (size - size % 16)) (size % 16)) (E (beBytes 16 (c + size / 16)))).length = size % 16 := by
  rw [length_xorBytes, ByteMemory.length_read, hE]
  omega

lemma afterLast_bytes (m : ByteMemory) {E : List UInt8 → List UInt8} (hE : ∀ x, (E x).length = 16)
    (c frame input output size last x : Nat) (hframe : x < frame ∨ frame + 16 ≤ x) (hlast : x < last ∨ last + 16 ≤ x)
    (hout : x < output ∨ output + size ≤ x) :
    (afterLast m E c frame input output size last).bytes x = m.bytes x := by
  rw [afterLast, store_bytes_outside _ (length_lastBytes hE m c input size) (by omega), store_bytes_outside _ (hE _) hlast,
    afterBlocks_bytes m hE _ _ _ _ _ x hframe (by omega)]

lemma afterLast_last (m : ByteMemory) {E : List UInt8 → List UInt8} (hE : ∀ x, (E x).length = 16)
    (c frame input output size last : Nat) (hlast : last + 16 ≤ output ∨ output + size ≤ last) :
    (afterLast m E c frame input output size last).read last 16 = E (beBytes 16 (c + size / 16)) := by
  have hstored := ByteMemory.read_store (afterBlocks m E c frame input output size) last (E (beBytes 16 (c + size / 16)))
  rw [hE] at hstored
  rw [afterLast, ByteMemory.read_store_of_disjoint _ _ (by rw [length_lastBytes hE]; omega), hstored]

lemma afterLast_read (m : ByteMemory) {E : List UInt8 → List UInt8} (hE : ∀ x, (E x).length = 16)
    (c frame input output size last : Nat) (hlast : last + 16 ≤ output ∨ output + size ≤ last) :
    (afterLast m E c frame input output size last).read output size =
      xorBytes (m.read input size) (keystream E c (size / 16 + 1)) := by
  have hsplit : size - size % 16 + size % 16 = size := by omega
  have hlow : (afterLast m E c frame input output size last).read output (size - size % 16) =
      xorBytes (m.read input (size - size % 16)) (keystream E c (size / 16)) := by
    rw [afterLast, ByteMemory.read_store_of_disjoint _ _ (Or.inl (Nat.le_refl _)),
      ByteMemory.read_store_of_disjoint _ _ (by rw [hE]; omega), afterBlocks_read m hE]
  have hhigh : (afterLast m E c frame input output size last).read (output + (size - size % 16)) (size % 16) =
      xorBytes (m.read (input + (size - size % 16)) (size % 16)) (E (beBytes 16 (c + size / 16))) := by
    have hstored := ByteMemory.read_store ((afterBlocks m E c frame input output size).store last
      (E (beBytes 16 (c + size / 16)))) (output + (size - size % 16))
      (xorBytes (m.read (input + (size - size % 16)) (size % 16)) (E (beBytes 16 (c + size / 16))))
    rwa [length_lastBytes hE] at hstored
  have hboth := ByteMemory.read_add (afterLast m E c frame input output size last) output (size - size % 16) (size % 16)
  have hin := m.read_add input (size - size % 16) (size % 16)
  rw [hsplit] at hboth hin
  rw [hboth, hlow, hhigh, hin, keystream_add, keystream, keystream, List.append_nil, xorBytes_append]
  rw [ByteMemory.length_read, length_keystream hE]
  omega

/-- What the last block of the keystream has left behind `size` bytes. -/
lemma keystream_drop {E : List UInt8 → List UInt8} (hE : ∀ x, (E x).length = 16) (c size : Nat) :
    (keystream E c (size / 16 + 1)).drop size = (E (beBytes 16 (c + size / 16))).drop (size % 16) := by
  have hlen : (keystream E c (size / 16)).length = size - size % 16 := by
    rw [length_keystream hE]
    omega
  have hnil : (keystream E c (size / 16)).drop size = [] := List.drop_eq_nil_of_le (by omega)
  have hbehind : size - (size - size % 16) = size % 16 := by omega
  rw [keystream_add, keystream, keystream, List.append_nil, List.drop_append, hnil, hlen, hbehind, List.nil_append]

/-- Where the last block of the keystream goes, `frame` if there is no `counterlast`. -/
lemma CtrPlaced.last {frame input output size : Nat} {counterlast : Option Nat}
    (h : CtrPlaced frame counterlast input output size) :
    (counterlast.getD frame ≤ frame ∨ frame + 16 ≤ counterlast.getD frame) ∧
      (counterlast.getD frame + 16 ≤ input ∨ input + size ≤ counterlast.getD frame) ∧
      (counterlast.getD frame + 16 ≤ output ∨ output + size ≤ counterlast.getD frame) ∧
      ∀ x, Untouched frame counterlast output size x → x < counterlast.getD frame ∨ counterlast.getD frame + 16 ≤ x := by
  have hin := h.inputApart
  have hout := h.outputApart
  cases counterlast with
  | none =>
    rw [Option.getD_none]
    exact ⟨Or.inl (Nat.le_refl _), by omega, by omega, fun x hx => hx.2.1⟩
  | some a =>
    obtain ⟨hframe, hinput, houtput⟩ := h.lastApart a rfl
    rw [Option.getD_some]
    exact ⟨by omega, hinput, houtput, fun x hx => hx.2.2 a rfl⟩

lemma xorLoop_afterLast (m : ByteMemory) {E : List UInt8 → List UInt8} (hE : ∀ x, (E x).length = 16) (c : Nat)
    {frame input output size : Nat} {counterlast : Option Nat} (hplaced : CtrPlaced frame counterlast input output size) :
    xorLoop ((afterBlocks m E c frame input output size).store (counterlast.getD frame) (E (beBytes 16 (c + size / 16))))
      (output + (size - size % 16)) (input + (size - size % 16)) (counterlast.getD frame) (size % 16) =
      afterLast m E c frame input output size (counterlast.getD frame) := by
  obtain ⟨_, hlastIn, hlastOut, _⟩ := hplaced.last
  have horder := hplaced.order
  have hin := hplaced.inputApart
  have hkslen := hE (beBytes 16 (c + size / 16))
  rw [afterLast]
  generalize E (beBytes 16 (c + size / 16)) = ks at hkslen ⊢
  have hinput : ((afterBlocks m E c frame input output size).store (counterlast.getD frame) ks).read
      (input + (size - size % 16)) (size % 16) = m.read (input + (size - size % 16)) (size % 16) := by
    apply ByteMemory.read_congr
    intro x hle hlt
    rw [store_bytes_outside _ hkslen (by omega), afterBlocks_bytes m hE _ _ _ _ _ x (by omega) (by omega)]
  have hlast := ByteMemory.read_store (afterBlocks m E c frame input output size) (counterlast.getD frame) ks
  have hless : size % 16 ≤ 16 := by omega
  have htake := xorBytes_take (m.read (input + (size - size % 16)) (size % 16)) ks
  rw [hkslen] at hlast
  rw [ByteMemory.length_read] at htake
  rw [xorLoop_eq _ (by omega) (by omega), hinput, ← read_take _ (a := counterlast.getD frame) hless, hlast, htake]

/-- The engine gives one more block of the keystream, on zeros. -/
lemma cryptCtr_partial_run {e : Engine AesState} {handle : Handle} (hstart : Startable e handle) (m : ByteMemory)
    {frame input output size : Nat} {counterlast : Option Nat} (hplaced : CtrPlaced frame counterlast input output size)
    (hsize : size % 16 ≠ 0) (counter : Block) (left : Option Nat) :
    ∃ e' counter', cryptCtr (aesCore cipher) e m handle input output size counter counterlast left frame =
        some (.success, e', afterLast m (onBytes (cipher (handleKey handle))) (beValue counter.data) frame input output size
          (counterlast.getD frame), ctrIncrement counter', left.map (fun _ => 16 - size % 16)) ∧
      Startable e' handle ∧ counter'.data = beBytes 16 (beValue counter.data + size / 16) := by
  obtain ⟨e₁, e₂, counter', hengine, hblocks, hskip, hcounter', hready₂, hkey₂⟩ :=
    cryptCtr_blocks cipher hstart m hplaced counter
  obtain ⟨hframe, _⟩ := hplaced.last
  have hout := hplaced.outputApart
  have hE := length_onBytes (cipher (handleKey handle))
  have hkslen := hE (beBytes 16 (beValue counter.data + size / 16))
  have hzeros : (afterBlocks m (onBytes (cipher (handleKey handle))) (beValue counter.data) frame input output size).read
      frame 16 = List.replicate 16 0 := by
    rw [afterBlocks, ByteMemory.read_store_of_disjoint _ _ (by rw [length_fullBlocks hE]; omega)]
    exact ByteMemory.read_store m frame (List.replicate 16 0)
  obtain ⟨e₃, hblock₃, hready₃, hkey₃⟩ := oneBlock_ctr cipher hready₂
    (afterBlocks m (onBytes (cipher (handleKey handle))) (beValue counter.data) frame input output size)
    frame (counterlast.getD frame) 16 rfl (by omega)
  refine ⟨engineDeinit e₃, counter', ?_, startable_engineDeinit hstart (hkey₃.trans hkey₂) hready₃.error, hcounter'⟩
  have hpad : xorBytes (List.replicate 16 0) (keystream (onBytes (cipher (handleKey handle)))
      (beValue counter.data + size / 16) (16 / 16)) =
      onBytes (cipher (handleKey handle)) (beBytes 16 (beValue counter.data + size / 16)) := by
    have hone := xorBytes_zeros (onBytes (cipher (handleKey handle)) (beBytes 16 (beValue counter.data + size / 16)))
    rw [hkslen] at hone
    rw [show 16 / 16 = 1 from rfl, keystream, keystream, List.append_nil, hone]
  rw [hzeros, hpad] at hblock₃
  have hxor := xorLoop_afterLast m hE (beValue counter.data) hplaced
  rw [cryptCtr]
  simp only [hstart.validKey, if_false, hengine, ne_eq, not_true_eq_false, hsize, hblocks, hskip, hblock₃, hxor,
    not_false_eq_true, if_true]

lemma cryptCtr_partial {e : Engine AesState} {handle : Handle} (hstart : Startable e handle) (m : ByteMemory)
    {frame input output size : Nat} {counterlast : Option Nat} (hplaced : CtrPlaced frame counterlast input output size)
    (hsize : size % 16 ≠ 0) (counter : Block) (left : Option Nat) :
    ∃ e' m' counter' left',
      cryptCtr (aesCore cipher) e m handle input output size counter counterlast left frame =
        some (.success, e', m', counter', left') ∧ Startable e' handle ∧
      CtrCall (onBytes (cipher (handleKey handle))) frame counterlast input output size m counter left m' counter' left' := by
  obtain ⟨e', counter', hrun, hstart', hcounter'⟩ := cryptCtr_partial_run cipher hstart m hplaced hsize counter left
  refine ⟨e', _, _, _, hrun, hstart', ?_⟩
  obtain ⟨_, _, hlastOut, huntouched⟩ := hplaced.last
  have hE := length_onBytes (cipher (handleKey handle))
  have hceil : (size + 15) / 16 = size / 16 + 1 := by omega
  constructor
  · rw [hceil]
    exact afterLast_read m hE _ _ _ _ _ _ hlastOut
  · rw [ctrIncrement_data, hcounter', beBytes_next, beValue_beBytes, hceil]
    rfl
  · rw [Nat.mod_eq_of_lt (by omega : 16 - size % 16 < 16)]
  · intro a ha
    have hleft : 16 - (16 - size % 16) % 16 = size % 16 := by omega
    rw [ha, Option.getD_some] at hlastOut ⊢
    rw [afterLast_last m hE _ _ _ _ _ _ hlastOut, hleft, hceil, keystream_drop hE]
  · intro x hx
    exact afterLast_bytes m hE _ _ _ _ _ _ x hx.2.1 (huntouched x hx) hx.1

lemma cryptCtr_call {e : Engine AesState} {handle : Handle} (hstart : Startable e handle) (m : ByteMemory)
    {frame input output size : Nat} {counterlast : Option Nat} (hplaced : CtrPlaced frame counterlast input output size)
    (counter : Block) (left : Option Nat) :
    ∃ e' m' counter' left',
      cryptCtr (aesCore cipher) e m handle input output size counter counterlast left frame =
        some (.success, e', m', counter', left') ∧ Startable e' handle ∧
      CtrCall (onBytes (cipher (handleKey handle))) frame counterlast input output size m counter left m' counter' left' := by
  by_cases hsize : size % 16 = 0
  · exact cryptCtr_whole cipher hstart m hplaced hsize counter left
  · exact cryptCtr_partial cipher hstart m hplaced hsize counter left

end Call

lemma Untouched.mono {frame output size output' size' x : Nat} {counterlast : Option Nat}
    (h : Untouched frame counterlast output size x) (hlow : output ≤ output') (hhigh : output' + size' ≤ output + size) :
    Untouched frame counterlast output' size' x := by
  obtain ⟨hout, hframe, hlast⟩ := h
  exact ⟨by omega, hframe, hlast⟩

/-- A call over full blocks and a call behind it are one call. -/
lemma CtrCall.append {E : List UInt8 → List UInt8} (hE : ∀ x, (E x).length = 16) {frame input output s₁ s₂ : Nat}
    {counterlast : Option Nat} {m m₁ m₂ : ByteMemory} {c c₁ c₂ : Block} {l l₁ l₂ : Option Nat}
    (h₁ : CtrCall E frame counterlast input output s₁ m c l m₁ c₁ l₁)
    (h₂ : CtrCall E frame counterlast (input + s₁) (output + s₁) s₂ m₁ c₁ l₁ m₂ c₂ l₂) (hs₁ : s₁ % 16 = 0)
    (hplaced : CtrPlaced frame counterlast input output (s₁ + s₂)) :
    CtrCall E frame counterlast input output (s₁ + s₂) m c l m₂ c₂ l₂ := by
  obtain ⟨horder, hin, hout, hlast⟩ := hplaced
  have hceil₁ : (s₁ + 15) / 16 = s₁ / 16 := by omega
  have hceil : (s₁ + s₂ + 15) / 16 = s₁ / 16 + (s₂ + 15) / 16 := by omega
  have hmod : (s₁ + s₂) % 16 = s₂ % 16 := by omega
  have hcounted := h₁.counted
  rw [hceil₁] at hcounted
  have hstream : keystream E (beValue c.data) ((s₁ + s₂ + 15) / 16) =
      keystream E (beValue c.data) (s₁ / 16) ++ keystream E (beValue c₁.data) ((s₂ + 15) / 16) := by
    rw [hceil, keystream_add]
    congr 1
    apply keystream_congr
    rw [hcounted]
    exact (Nat.mod_mod _ _).symm
  have hlength : (keystream E (beValue c.data) (s₁ / 16)).length = s₁ := by
    rw [length_keystream hE]
    omega
  refine ⟨?_, ?_, ?_, ?_, ?_⟩
  · have hfirst : m₂.read output s₁ = m₁.read output s₁ := by
      apply ByteMemory.read_congr
      intro x hle hlt
      apply h₂.kept
      refine ⟨Or.inl hlt, by omega, ?_⟩
      intro a ha
      have := hlast a ha
      omega
    have hsecond : m₁.read (input + s₁) s₂ = m.read (input + s₁) s₂ := by
      apply ByteMemory.read_congr
      intro x hle hlt
      apply h₁.kept
      refine ⟨by omega, by omega, ?_⟩
      intro a ha
      have := hlast a ha
      omega
    rw [ByteMemory.read_add, ByteMemory.read_add, hfirst, h₁.encrypted, h₂.encrypted, hsecond, hstream, hceil₁,
      xorBytes_append]
    rw [ByteMemory.length_read, hlength]
  · rw [h₂.counted, hcounted, hceil, Nat.mod_add_mod, Nat.add_assoc]
  · rw [h₂.szLeft, h₁.szLeft, Option.map_map, hmod]
    rfl
  · intro a ha
    have hbehind : s₁ + s₂ - s₁ = s₂ := by omega
    have hnil : (keystream E (beValue c.data) (s₁ / 16)).drop (s₁ + s₂) = [] := by
      apply List.drop_eq_nil_of_le
      omega
    rw [hmod, h₂.unused a ha, hstream, List.drop_append, hlength, hbehind, hnil, List.nil_append]
  · intro x hx
    rw [h₂.kept x (hx.mono (by omega) (by omega)), h₁.kept x (hx.mono (by omega) (by omega))]

/-- The calls for a text given in pieces, each with the counter that the one before has left. -/
def cryptPieces {σ : Type} (core : Core σ) (handle : Handle) (counterlast : Option Nat) (frame : Nat) :
    List Nat → Engine σ → ByteMemory → Nat → Nat → Block → Option Nat → Option (Engine σ × ByteMemory × Block × Option Nat)
  | [], e, m, _, _, counter, left => some (e, m, counter, left)
  | size :: sizes, e, m, input, output, counter, left =>
    match cryptCtr core e m handle input output size counter counterlast left frame with
    | some (.success, e, m, counter, left) =>
      cryptPieces core handle counterlast frame sizes e m (input + size) (output + size) counter left
    | _ => none

section Pieces

variable (cipher : Key → Block → Block)

lemma CtrPlaced.first {frame input output s₁ s₂ : Nat} {counterlast : Option Nat}
    (h : CtrPlaced frame counterlast input output (s₁ + s₂)) : CtrPlaced frame counterlast input output s₁ := by
  obtain ⟨horder, hin, hout, hlast⟩ := h
  refine ⟨by omega, by omega, by omega, ?_⟩
  intro a ha
  have := hlast a ha
  omega

lemma CtrPlaced.rest {frame input output s₁ s₂ : Nat} {counterlast : Option Nat}
    (h : CtrPlaced frame counterlast input output (s₁ + s₂)) :
    CtrPlaced frame counterlast (input + s₁) (output + s₁) s₂ := by
  obtain ⟨horder, hin, hout, hlast⟩ := h
  refine ⟨by omega, by omega, by omega, ?_⟩
  intro a ha
  have := hlast a ha
  omega

lemma cryptPieces_call {e : Engine AesState} {handle : Handle} (hstart : Startable e handle) (m : ByteMemory)
    {frame input output : Nat} {counterlast : Option Nat} (size : Nat) (sizes : List Nat)
    (hmul : ∀ s ∈ (size :: sizes).dropLast, s % 16 = 0)
    (hplaced : CtrPlaced frame counterlast input output (size :: sizes).sum) (counter : Block) (left : Option Nat) :
    ∃ e' m' counter' left',
      cryptPieces (aesCore cipher) handle counterlast frame (size :: sizes) e m input output counter left =
        some (e', m', counter', left') ∧
      CtrCall (onBytes (cipher (handleKey handle))) frame counterlast input output (size :: sizes).sum m counter left m'
        counter' left' := by
  induction sizes generalizing size e m input output counter left with
  | nil =>
    rw [List.sum_singleton] at hplaced ⊢
    obtain ⟨e', m', counter', left', hrun, _, hcall⟩ := cryptCtr_call cipher hstart m hplaced counter left
    refine ⟨e', m', counter', left', ?_, hcall⟩
    rw [cryptPieces, hrun]
    rfl
  | cons next sizes ih =>
    rw [List.sum_cons] at hplaced ⊢
    rw [List.dropLast_cons_cons] at hmul
    obtain ⟨e₁, m₁, c₁, l₁, hrun₁, hstart₁, hcall₁⟩ := cryptCtr_call cipher hstart m hplaced.first counter left
    obtain ⟨e₂, m₂, c₂, l₂, hrun₂, hcall₂⟩ := ih hstart₁ m₁ next (fun s hs => hmul s (List.mem_cons_of_mem size hs))
      hplaced.rest c₁ l₁
    refine ⟨e₂, m₂, c₂, l₂, ?_, ?_⟩
    · rw [cryptPieces, hrun₁]
      exact hrun₂
    · exact hcall₁.append (length_onBytes _) hcall₂ (hmul size List.mem_cons_self) hplaced

/-- A text in pieces, all but the last of full blocks, is encrypted as in one call, and leaves the same
counter, the same number of unused bytes and these bytes in the same place. -/
theorem cryptPieces_eq_cryptCtr (e : Engine AesState) (handle : Handle) (hstart : Startable e handle) (m : ByteMemory)
    (frame input output : Nat) (counterlast : Option Nat) (size : Nat) (sizes : List Nat)
    (hmul : ∀ s ∈ (size :: sizes).dropLast, s % 16 = 0)
    (hplaced : CtrPlaced frame counterlast input output (size :: sizes).sum) (counter : Block) (left : Option Nat) :
    ∃ e₁ m₁ c₁ l₁ e₂ m₂ c₂ l₂,
      cryptPieces (aesCore cipher) handle counterlast frame (size :: sizes) e m input output counter left =
        some (e₁, m₁, c₁, l₁) ∧
      cryptCtr (aesCore cipher) e m handle input output (size :: sizes).sum counter counterlast left frame =
        some (.success, e₂, m₂, c₂, l₂) ∧
      CtrCall (onBytes (cipher (handleKey handle))) frame counterlast input output (size :: sizes).sum m counter left m₁ c₁ l₁ ∧
      CtrCall (onBytes (cipher (handleKey handle))) frame counterlast input output (size :: sizes).sum m counter left m₂ c₂ l₂ ∧
      m₁.read output (size :: sizes).sum = m₂.read output (size :: sizes).sum ∧ c₁.data = c₂.data ∧ l₁ = l₂ := by
  obtain ⟨e₁, m₁, c₁, l₁, hrun₁, hcall₁⟩ := cryptPieces_call cipher hstart m size sizes hmul hplaced counter left
  obtain ⟨e₂, m₂, c₂, l₂, hrun₂, _, hcall₂⟩ := cryptCtr_call cipher hstart m hplaced counter left
  refine ⟨e₁, m₁, c₁, l₁, e₂, m₂, c₂, l₂, hrun₁, hrun₂, hcall₁, hcall₂, ?_, ?_, ?_⟩
  · rw [hcall₁.encrypted, hcall₂.encrypted]
  · have h₁ := beBytes_beValue c₁.data
    have h₂ := beBytes_beValue c₂.data
    rw [c₁.length_eq, hcall₁.counted] at h₁
    rw [c₂.length_eq, hcall₂.counted] at h₂
    rw [← h₁, h₂]
  · rw [hcall₁.szLeft, hcall₂.szLeft]

theorem cryptPieces_eq_cryptCtr_wrapping :
    ∃ e₁ m₁ c₁ l₁ e₂ m₂ c₂ l₂,
      cryptPieces (aesCore (fun _ b => b)) zeroHandle (some 500) 1000 [16, 20] resetEngine ⟨fun _ => 1, []⟩ 0 64
        (Buf.fill 16 0xFF) (some 0) = some (e₁, m₁, c₁, l₁) ∧
      cryptCtr (aesCore (fun _ b => b)) resetEngine ⟨fun _ => 1, []⟩ zeroHandle 0 64 36 (Buf.fill 16 0xFF) (some 500)
        (some 0) 1000 = some (.success, e₂, m₂, c₂, l₂) ∧ m₁.read 64 36 = m₂.read 64 36 := by
  have hplaced : CtrPlaced 1000 (some 500) 0 64 [16, 20].sum := by
    refine ⟨by decide, by decide, by decide, ?_⟩
    intro a ha
    obtain rfl := Option.some.inj ha
    decide
  obtain ⟨e₁, m₁, c₁, l₁, e₂, m₂, c₂, l₂, h₁, h₂, _, _, hread, _⟩ := cryptPieces_eq_cryptCtr (fun _ b => b) resetEngine
    zeroHandle zeroHandle_startable ⟨fun _ => 1, []⟩ 1000 0 64 (some 500) 16 [20] (by decide) hplaced
    (Buf.fill 16 0xFF) (some 0)
  exact ⟨e₁, m₁, c₁, l₁, e₂, m₂, c₂, l₂, h₁, h₂, hread⟩

end Pieces

end McuxDrivers.Hashcrypt.Aes
