import McuxDrivers.Hashcrypt.Aes

/-!
# The blocks reach the engine in order

Both paths of `hashcrypt_aes_one_block`, and its split into master runs, present the blocks of the
input one after the other and store what the engine answers.
-/

namespace McuxDrivers.Hashcrypt.Aes
open McuxDrivers.Lib

variable {σ : Type} (core : Core σ)

/-- The bytes of a digest as the driver stores them. -/
def Core.bytes (digest : Buf (BitVec 32) 4) : List UInt8 :=
  digest.data.flatMap beBytes32

/-- What the engine answers to the blocks `xs` one after the other: the outputs, its state
afterwards and whether one of them gave an error. -/
def Core.run : σ → List (List UInt8) → List (List UInt8) × σ × Bool
  | s, [] => ([], s, false)
  | s, x :: xs =>
    let r := core.step s x
    let rest := Core.run r.2.1 xs
    (Core.bytes r.1 :: rest.1, rest.2.1, r.2.2 || rest.2.2)

lemma Core.length_bytes (digest : Buf (BitVec 32) 4) : (Core.bytes digest).length = 16 := by
  have h : ∀ l : List (BitVec 32), (l.flatMap beBytes32).length = 4 * l.length := by
    intro l
    induction l with
    | nil => rfl
    | cons w l ih => simp only [List.flatMap_cons, List.length_append, ih, List.length_cons, beBytes32, List.length_nil]; omega
  rw [Core.bytes, h, digest.length_eq]

lemma digestBytes_eq (e : Engine σ) : digestBytes e = Core.bytes e.digest :=
  congrArg (e.digest.data.flatMap ·) (funext leBytes32_swapBytes)

lemma Core.run_append (s : σ) (xs ys : List (List UInt8)) :
    core.run s (xs ++ ys) =
      ((core.run s xs).1 ++ (core.run (core.run s xs).2.1 ys).1, (core.run (core.run s xs).2.1 ys).2.1,
        (core.run s xs).2.2 || (core.run (core.run s xs).2.1 ys).2.2) := by
  induction xs generalizing s with
  | nil => rfl
  | cons x xs ih => simp only [List.cons_append, Core.run, ih, Bool.or_assoc]

lemma Core.run_concat_state (s : σ) (xs : List (List UInt8)) (x : List UInt8) :
    (core.run s (xs ++ [x])).2.1 = (core.step (core.run s xs).2.1 x).2.1 := by
  rw [Core.run_append]
  rfl

lemma Core.flatten_run_cons (s : σ) (x : List UInt8) (xs : List (List UInt8)) :
    (core.run s (x :: xs)).1.flatten = Core.bytes (core.step s x).1 ++ (core.run (core.step s x).2.1 xs).1.flatten := by
  rw [Core.run, List.flatten_cons]

lemma Core.length_flatten_run (s : σ) (xs : List (List UInt8)) : (core.run s xs).1.flatten.length = xs.length * 16 := by
  induction xs generalizing s with
  | nil => rfl
  | cons x xs ih =>
    rw [Core.flatten_run_cons, List.length_append, ih, Core.length_bytes, List.length_cons]
    omega

/-- The engine `e'` is `e` after it was presented with the blocks `xs`, in runs that `COUNT` can
hold. -/
structure Fed (e : Engine σ) (xs : List (List UInt8)) (e' : Engine σ) : Prop where
  mode : e'.mode = e.mode
  keyPresent : e'.keyPresent = e.keyPresent
  state : e'.state = (core.run e.state xs).2.1
  error : e'.error = (e.error || (core.run e.state xs).2.2)
  presented : e'.presented = e.presented ++ xs
  counts : ∃ cs, e'.counts = e.counts ++ cs ∧ cs.sum = xs.length ∧ ∀ c ∈ cs, c ≤ 2047

lemma Fed.append {e₁ e₂ e₃ : Engine σ} {xs ys : List (List UInt8)} (h₁ : Fed core e₁ xs e₂) (h₂ : Fed core e₂ ys e₃) :
    Fed core e₁ (xs ++ ys) e₃ where
  mode := h₂.mode.trans h₁.mode
  keyPresent := h₂.keyPresent.trans h₁.keyPresent
  state := by rw [h₂.state, h₁.state, Core.run_append]
  error := by rw [h₂.error, h₁.error, h₁.state, Core.run_append, Bool.or_assoc]
  presented := by rw [h₂.presented, h₁.presented, List.append_assoc]
  counts := by
    obtain ⟨cs, hcs, hsum, hle⟩ := h₁.counts
    obtain ⟨ds, hds, hsum', hle'⟩ := h₂.counts
    refine ⟨cs ++ ds, ?_, ?_, ?_⟩
    · rw [hds, hcs, List.append_assoc]
    · rw [List.sum_append, hsum, hsum', List.length_append]
    · intro c hc
      rcases List.mem_append.mp hc with hc | hc
      · exact hle c hc
      · exact hle' c hc

/-- The engine in the middle of a master run, `xs` of whose blocks were presented since `e`. -/
structure Running (e : Engine σ) (xs : List (List UInt8)) (left : Nat) (e' : Engine σ) : Prop where
  mode : e'.mode = e.mode
  keyPresent : e'.keyPresent = e.keyPresent
  state : e'.state = (core.run e.state xs).2.1
  error : e'.error = (e.error || (core.run e.state xs).2.2)
  presented : e'.presented = e.presented ++ xs
  fetched : e'.fetched = xs.length
  pending : e'.pending = left
  counts : e'.counts = e.counts ++ [xs.length + left]

lemma running_start (e : Engine σ) {n : Nat} (hn : n ≤ 2047) : Running core e [] n (memctrlMaster e n) where
  mode := rfl
  keyPresent := rfl
  state := rfl
  error := (Bool.or_false _).symm
  presented := (List.append_nil _).symm
  fetched := rfl
  pending := Nat.mod_eq_of_lt (by omega)
  counts := by rw [List.length_nil, Nat.zero_add]; rfl

lemma Running.fed {e e' : Engine σ} {xs : List (List UInt8)} (h : Running core e xs 0 e') (hn : xs.length ≤ 2047) :
    Fed core e xs e' where
  mode := h.mode
  keyPresent := h.keyPresent
  state := h.state
  error := h.error
  presented := h.presented
  counts := by
    refine ⟨[xs.length], h.counts, ?_, ?_⟩
    · rw [List.sum_singleton]
    · intro c hc
      rw [List.mem_singleton] at hc
      omega

/-- One wait of the driver: the next block is presented and its output can be read. -/
lemma Running.await {e e' : Engine σ} {xs : List (List UInt8)} {n : Nat} (h : Running core e xs (n + 1) e')
    (hmode : e.mode = some .aes) (block : Nat → List UInt8) {x : List UInt8} (hx : block xs.length = x) :
    ∃ e'', awaitDigest core e' block = some e'' ∧ Running core e (xs ++ [x]) n e'' ∧
      digestBytes e'' = Core.bytes (core.step (core.run e.state xs).2.1 x).1 := by
  have hgo : e'.mode = some .aes ∧ e'.pending ≠ 0 := ⟨h.mode.trans hmode, by rw [h.pending]; omega⟩
  refine ⟨_, if_pos hgo, ?_, ?_⟩
  · constructor
    · exact h.mode
    · exact h.keyPresent
    · rw [Core.run_append, h.state, h.fetched, hx]
      rfl
    · show (e'.error || (core.step e'.state (block e'.fetched)).2.2) = _
      rw [Core.run_append, h.state, h.fetched, hx, h.error, Bool.or_assoc]
      simp only [Core.run, Bool.or_false]
    · show e'.presented ++ [block e'.fetched] = _
      rw [h.presented, h.fetched, hx, List.append_assoc]
    · show e'.fetched + 1 = _
      rw [h.fetched, List.length_append, List.length_singleton]
    · show e'.pending - 1 = n
      rw [h.pending, Nat.add_sub_cancel]
    · show e'.counts = _
      rw [h.counts, List.length_append, List.length_singleton, Nat.add_right_comm, Nat.add_assoc]
  · rw [digestBytes_eq]
    show Core.bytes (core.step e'.state (block e'.fetched)).1 = _
    rw [h.state, h.fetched, hx]

/-- The outputs of `xs` stored at `a` reach up to `a + 16 * xs.length`. -/
lemma store_run_cons (m : ByteMemory) (a : Nat) (s : σ) (x : List UInt8) (xs : List (List UInt8)) :
    (m.store a (Core.bytes (core.step s x).1)).store (a + 16) (core.run (core.step s x).2.1 xs).1.flatten =
      m.store a (core.run s (x :: xs)).1.flatten := by
  have happend := m.store_append a (Core.bytes (core.step s x).1) (core.run (core.step s x).2.1 xs).1.flatten
  rw [Core.length_bytes] at happend
  rw [happend, Core.flatten_run_cons]

/-- A run over the aligned input, from any of its blocks on. What is left of the input is read
before the outputs reach it. -/
lemma alignedBlocks_eq {e : Engine σ} (hmode : e.mode = some .aes) {input output : Nat} (haligned : input % 4 = 0)
    (n : Nat) (e' : Engine σ) (m : ByteMemory) (xs : List (List UInt8)) (hrun : Running core e xs n e')
    (hregion : output ≤ input ∨ input + 16 * xs.length + n * 16 ≤ output + 16 * xs.length) :
    ∃ e'', alignedBlocks core input output n (4 * xs.length) e' m = some (e'',
        m.store (output + 16 * xs.length)
          (core.run (core.run e.state xs).2.1 (m.blocks 16 (input + 16 * xs.length) n)).1.flatten) ∧
      Running core e (xs ++ m.blocks 16 (input + 16 * xs.length) n) 0 e'' := by
  induction n generalizing e' m xs with
  | zero =>
    refine ⟨e', ?_, ?_⟩
    · simp only [alignedBlocks, ByteMemory.blocks, Core.run, List.flatten_nil, ByteMemory.store_nil]
    · rw [ByteMemory.blocks, List.append_nil]
      exact hrun
  | succ n ih =>
    have hbase : input / 4 * 4 = input := by omega
    obtain ⟨e₁, hawait, hrun₁, hdigest⟩ := hrun.await core hmode
      (fun k => m.read (input / 4 * 4 + 16 * k) 16) (x := m.read (input + 16 * xs.length) 16) (by rw [hbase])
    have hlen : (xs ++ [m.read (input + 16 * xs.length) 16]).length = xs.length + 1 := by
      rw [List.length_append, List.length_singleton]
    have hin : input + 16 * (xs.length + 1) = input + 16 * xs.length + 16 := by omega
    have hout : output + 16 * (xs.length + 1) = output + 16 * xs.length + 16 := by omega
    have hidx : output + 4 * (4 * xs.length) = output + 16 * xs.length := by omega
    have hnext : 4 * xs.length + 4 = 4 * (xs.length + 1) := by omega
    obtain ⟨e₂, heq, hrun₂⟩ := ih e₁ (m.store (output + 16 * xs.length) (digestBytes e₁)) _ hrun₁ (by rw [hlen]; omega)
    have hrest : (m.store (output + 16 * xs.length) (digestBytes e₁)).blocks 16 (input + 16 * xs.length + 16) n =
        m.blocks 16 (input + 16 * xs.length + 16) n := by
      apply ByteMemory.blocks_store_of_disjoint
      rw [hdigest, Core.length_bytes]
      omega
    rw [hlen, hin, hrest] at hrun₂ heq
    rw [hout] at heq
    refine ⟨e₂, ?_, ?_⟩
    · rw [alignedBlocks, hawait]
      simp only [hidx, hnext]
      rw [heq, Core.run_concat_state, hdigest, store_run_cons, ByteMemory.blocks]
    · rw [List.append_assoc, List.singleton_append] at hrun₂
      rw [ByteMemory.blocks]
      exact hrun₂

/-- A run over the bounce buffer, each of whose blocks is read before its output replaces it. -/
lemma tempBlocks_eq {e : Engine σ} (hmode : e.mode = some .aes) (ys : List (List UInt8)) (hys : ∀ y ∈ ys, y.length = 16)
    (e' : Engine σ) (temp : Buf UInt8 256) (xs : List (List UInt8)) (done tail : List UInt8)
    (hdone : done.length = 16 * xs.length) (htemp : temp.data = done ++ (ys.flatten ++ tail))
    (hrun : Running core e xs ys.length e') :
    ∃ e'' temp', tempBlocks core ys.length (4 * xs.length) e' temp = some (e'', temp') ∧
      temp'.data = done ++ ((core.run (core.run e.state xs).2.1 ys).1.flatten ++ tail) ∧
      Running core e (xs ++ ys) 0 e'' := by
  induction ys generalizing e' temp xs done with
  | nil =>
    refine ⟨e', temp, rfl, htemp, ?_⟩
    rw [List.append_nil]
    exact hrun
  | cons y ys ih =>
    have hy : y.length = 16 := hys y List.mem_cons_self
    have hfetch : (temp.data.drop (16 * xs.length)).take 16 = y := by
      rw [htemp, ← hdone, List.drop_left, List.flatten_cons, List.append_assoc, ← hy, List.take_left]
    obtain ⟨e₁, hawait, hrun₁, hdigest⟩ := hrun.await core hmode (fun k => (temp.data.drop (16 * k)).take 16) hfetch
    have htotal := temp.length_eq
    rw [htemp, List.flatten_cons] at htotal
    simp only [List.length_append, hy, hdone] at htotal
    have hwrite : (temp.write (16 * xs.length) (digestBytes e₁)).data =
        (done ++ digestBytes e₁) ++ (ys.flatten ++ tail) := by
      have hlen : (digestBytes e₁).length = y.length := by rw [hdigest, Core.length_bytes, hy]
      rw [Buf.data_write _ _ _ (by omega), htemp, ← hdone, memcpy_append_left, hlen, List.flatten_cons,
        List.append_assoc y, List.drop_left]
    obtain ⟨e₂, temp₂, heq, hdata, hrun₂⟩ := ih (fun z hz => hys z (List.mem_cons_of_mem y hz)) e₁ _ (xs ++ [y])
      (done ++ digestBytes e₁)
      (by rw [List.length_append, List.length_append, hdone, hdigest, Core.length_bytes, List.length_singleton]; omega)
      hwrite hrun₁
    refine ⟨e₂, temp₂, ?_, ?_, ?_⟩
    · have hidx : 4 * (4 * xs.length) = 16 * xs.length := by omega
      have hnext : 4 * xs.length + 4 = 4 * (xs ++ [y]).length := by rw [List.length_append, List.length_singleton]; omega
      rw [List.length_cons, tempBlocks, hawait]
      simp only [hidx, hnext]
      exact heq
    · rw [hdata, hdigest, Core.run_concat_state, Core.flatten_run_cons, List.append_assoc, List.append_assoc]
    · rw [List.append_assoc] at hrun₂
      exact hrun₂

/-- What a run of the driver over `size` bytes does when every block goes to the engine in order. -/
def FeedsBlocks (e : Engine σ) (m : ByteMemory) (input output size : Nat)
    (result : Option (Status × Engine σ × ByteMemory)) : Prop :=
  ∃ e', result = some (errorStatus e', e',
      m.store output (core.run e.state (m.blocks 16 input (size / 16))).1.flatten) ∧
    Fed core e (m.blocks 16 input (size / 16)) e'

lemma oneBlockAligned_feeds {e : Engine σ} (hmode : e.mode = some .aes) (m : ByteMemory) {input output size : Nat}
    (haligned : input % 4 = 0) (hsize : size % 16 = 0) (hmax : size ≤ 32752)
    (hregion : output ≤ input ∨ input + size ≤ output) :
    FeedsBlocks core e m input output size (oneBlockAligned core e m input output size) := by
  have hstart : Running core e [] (size / 16) (memctrlMaster e (size / 16)) := running_start core e (by omega)
  have hregion' : output ≤ input ∨ input + 16 * 0 + size / 16 * 16 ≤ output + 16 * 0 := by omega
  obtain ⟨e', heq, hrun⟩ := alignedBlocks_eq core hmode haligned (size / 16) _ m [] hstart hregion'
  refine ⟨e', ?_, ?_⟩
  · rw [oneBlockAligned, show (0 : Nat) = 4 * ([] : List (List UInt8)).length from rfl, heq]
    rfl
  · apply hrun.fed
    rw [List.nil_append, ByteMemory.length_blocks]
    omega

/-- The outputs of two consecutive ranges of the input, stored one behind the other. -/
lemma store_run_append (m : ByteMemory) (a : Nat) (s : σ) (xs ys : List (List UInt8)) :
    (m.store a (core.run s xs).1.flatten).store (a + xs.length * 16) (core.run (core.run s xs).2.1 ys).1.flatten =
      m.store a (core.run s (xs ++ ys)).1.flatten := by
  have happend := m.store_append a (core.run s xs).1.flatten (core.run (core.run s xs).2.1 ys).1.flatten
  rw [Core.length_flatten_run] at happend
  rw [happend, Core.run_append, List.flatten_append]

/-- A range of the input that was fed and the range behind it that is fed next. -/
lemma FeedsBlocks.append {e : Engine σ} {m : ByteMemory} {input output first rest : Nat}
    (next : Engine σ → ByteMemory → Option (Status × Engine σ × ByteMemory)) {e₁ : Engine σ}
    (hfirst : first % 16 = 0) (hrest : rest % 16 = 0) (hregion : output ≤ input ∨ input + (first + rest) ≤ output)
    (hfed : Fed core e (m.blocks 16 input (first / 16)) e₁)
    (hnext : ∀ m', FeedsBlocks core e₁ m' (input + first) (output + first) rest (next e₁ m')) :
    FeedsBlocks core e m input output (first + rest)
      (next e₁ (m.store output (core.run e.state (m.blocks 16 input (first / 16))).1.flatten)) := by
  have hmul : first / 16 * 16 = first := Nat.div_mul_cancel (Nat.dvd_of_mod_eq_zero hfirst)
  have hdiv : (first + rest) / 16 = first / 16 + rest / 16 := by omega
  have hsplit := m.blocks_add 16 input (first / 16) (rest / 16)
  rw [hmul] at hsplit
  obtain ⟨e₂, heq, hfed₂⟩ := hnext (m.store output (core.run e.state (m.blocks 16 input (first / 16))).1.flatten)
  have hsame : (m.store output (core.run e.state (m.blocks 16 input (first / 16))).1.flatten).blocks 16
      (input + first) (rest / 16) = m.blocks 16 (input + first) (rest / 16) := by
    apply ByteMemory.blocks_store_of_disjoint
    rw [Core.length_flatten_run, ByteMemory.length_blocks]
    omega
  rw [hsame] at heq hfed₂
  have hstore := store_run_append core m output e.state (m.blocks 16 input (first / 16))
    (m.blocks 16 (input + first) (rest / 16))
  rw [ByteMemory.length_blocks, hmul] at hstore
  refine ⟨e₂, ?_, ?_⟩
  · rw [heq, hfed.state, hstore, hdiv, hsplit]
  · rw [hdiv, hsplit]
    exact hfed.append core hfed₂

/-- A chunk that goes through `temp`: what is read is fed, and the outputs are in its place. -/
lemma chunk_fed (input actSz : Nat) (hle : actSz ≤ 256) (hmod : actSz % 16 = 0) (e : Engine σ)
    (hmode : e.mode = some .aes) (m : ByteMemory) (temp : Buf UInt8 256) :
    ∃ e' temp', tempBlocks core (actSz / 16) 0 (memctrlMaster e (actSz / 16)) (temp.write 0 (m.read input actSz)) =
        some (e', temp') ∧
      Fed core e (m.blocks 16 input (actSz / 16)) e' ∧
      temp'.data.take actSz = (core.run e.state (m.blocks 16 input (actSz / 16))).1.flatten := by
  have hmul : actSz / 16 * 16 = actSz := Nat.div_mul_cancel (Nat.dvd_of_mod_eq_zero hmod)
  have htemp : (temp.write 0 (m.read input actSz)).data =
      [] ++ ((m.blocks 16 input (actSz / 16)).flatten ++ temp.data.drop actSz) := by
    rw [Buf.data_write _ _ _ (by rw [ByteMemory.length_read]; omega), ByteMemory.flatten_blocks, hmul, memcpy,
      ByteMemory.length_read, Nat.zero_add]
    rfl
  have hlength : ∀ y ∈ m.blocks 16 input (actSz / 16), y.length = 16 := by
    intro y hy
    exact ByteMemory.length_of_mem_blocks hy
  have hstart : Running core e [] (m.blocks 16 input (actSz / 16)).length (memctrlMaster e (actSz / 16)) := by
    rw [ByteMemory.length_blocks]
    exact running_start core e (by omega)
  obtain ⟨e', temp', heq, hdata, hrun⟩ := tempBlocks_eq core hmode _ hlength _ _ [] [] _ rfl htemp hstart
  rw [ByteMemory.length_blocks, List.length_nil, Nat.mul_zero] at heq
  refine ⟨e', temp', heq, ?_, ?_⟩
  · apply hrun.fed
    rw [List.nil_append, ByteMemory.length_blocks]
    omega
  · have hlen : (core.run e.state (m.blocks 16 input (actSz / 16))).1.flatten.length = actSz := by
      rw [Core.length_flatten_run, ByteMemory.length_blocks, hmul]
    rw [hdata, List.nil_append]
    exact List.take_left' hlen

/-- The loop over the bounce buffer. The last chunk may be shorter, the ones before it are full. -/
lemma unalignedChunks_feeds (input output cnt size : Nat) (hsize : size % 16 = 0) (e : Engine σ)
    (hmode : e.mode = some .aes) (m : ByteMemory) (temp : Buf UInt8 256)
    (hregion : output ≤ input ∨ input + 256 * cnt + size ≤ output + 256 * cnt) :
    FeedsBlocks core e m (input + 256 * cnt) (output + 256 * cnt) size
      ((unalignedChunks core input output cnt size e m temp).map (fun r => (errorStatus r.1, r))) := by
  induction hk : size using Nat.strong_induction_on generalizing cnt size e m temp with
  | _ k ih =>
    subst hk
    by_cases hzero : size = 0
    · subst hzero
      rw [unalignedChunks, if_pos rfl]
      refine ⟨e, ?_, ?_⟩
      · rw [Nat.zero_div, ByteMemory.blocks, Core.run, List.flatten_nil, ByteMemory.store_nil]
        rfl
      · exact ⟨rfl, rfl, rfl, (Bool.or_false _).symm, (List.append_nil _).symm, [], (List.append_nil _).symm, rfl,
          by simp⟩
    · obtain ⟨actSz, hact⟩ : ∃ actSz, actSz = if size ≥ 256 then 256 else size := ⟨_, rfl⟩
      have hbound : actSz ≤ 256 ∧ actSz ≤ size ∧ actSz % 16 = 0 ∧ (size ≠ 0 → 0 < actSz) ∧
          (actSz = 256 ∨ actSz = size) := by
        rw [hact]
        split <;> omega
      obtain ⟨hle, hle', hmod, hpos, hfull⟩ := hbound
      obtain ⟨e₁, temp₁, heq, hfed, hout⟩ := chunk_fed core (input + 256 * cnt) actSz hle hmod e hmode m temp
      rw [unalignedChunks, if_neg hzero]
      simp only [← hact, heq, hout]
      rcases hfull with hfull | hfull
      · have hsum : size = actSz + (size - actSz) := by omega
        have hcnt : ∀ a, a + 256 * (cnt + 1) = a + 256 * cnt + actSz := by intro a; omega
        have hrest : ∀ m', FeedsBlocks core e₁ m' (input + 256 * cnt + actSz) (output + 256 * cnt + actSz) (size - actSz)
            ((unalignedChunks core input output (cnt + 1) (size - actSz) e₁ m' temp₁).map
              (fun r => (errorStatus r.1, r))) := by
          intro m'
          have hnext := ih (size - actSz) (by omega) (cnt + 1) (size - actSz) (by omega) e₁ (hfed.mode.trans hmode) m'
            temp₁ (by omega) rfl
          rw [hcnt, hcnt] at hnext
          exact hnext
        have happend := FeedsBlocks.append core (fun e m =>
          (unalignedChunks core input output (cnt + 1) (size - actSz) e m temp₁).map (fun r => (errorStatus r.1, r)))
          hmod (by omega) (by omega) hfed hrest
        rw [← hsum] at happend
        exact happend
      · rw [hfull, Nat.sub_self, unalignedChunks, if_pos rfl]
        rw [hfull] at hfed
        exact ⟨e₁, rfl, hfed⟩

lemma oneBlockUnaligned_feeds {e : Engine σ} (hmode : e.mode = some .aes) (m : ByteMemory) {input output size : Nat}
    (hsize : size % 16 = 0) (hregion : output ≤ input ∨ input + size ≤ output) :
    FeedsBlocks core e m input output size (oneBlockUnaligned core e m input output size) := by
  obtain ⟨e', heq, hfed⟩ := unalignedChunks_feeds core input output 0 size hsize e hmode m (Buf.fill 256 0) (by omega)
  simp only [Nat.mul_zero, Nat.add_zero] at heq hfed
  refine ⟨e', ?_, hfed⟩
  rw [← heq, oneBlockUnaligned]
  cases unalignedChunks core input output 0 size e m (Buf.fill 256 0) with
  | none => rfl
  | some r => rfl

/-- The split into master runs, for either path. -/
lemma masterRuns_feeds
    (oneRun : Engine σ → ByteMemory → Nat → Nat → Nat → Option (Status × Engine σ × ByteMemory)) (valid : Nat → Prop)
    (hvalid : ∀ input, valid input → valid (input + 32752))
    (hone : ∀ e m input output size, e.mode = some .aes → valid input → size % 16 = 0 → size ≤ 32752 →
      (output ≤ input ∨ input + size ≤ output) → FeedsBlocks core e m input output size (oneRun e m input output size))
    {remainingSize : Nat} (hmod : remainingSize % 16 = 0) (hmax : remainingSize ≤ 32752) (numBlock : Nat) {e : Engine σ}
    (hmode : e.mode = some .aes) (m : ByteMemory) {input output : Nat} (hinput : valid input)
    (hregion : output ≤ input ∨ input + (numBlock * 32752 + remainingSize) ≤ output) :
    FeedsBlocks core e m input output (numBlock * 32752 + remainingSize)
      (masterRuns oneRun remainingSize numBlock e m input output) := by
  induction numBlock generalizing e m input output with
  | zero =>
    rw [Nat.zero_mul, Nat.zero_add] at hregion ⊢
    exact hone e m input output remainingSize hmode hinput hmod hmax hregion
  | succ numBlock ih =>
    obtain ⟨e₁, heq, hfed⟩ := hone e m input output 32752 hmode hinput rfl (Nat.le_refl _) (by omega)
    rw [masterRuns, heq]
    have hsum : (numBlock + 1) * 32752 + remainingSize = 32752 + (numBlock * 32752 + remainingSize) := by omega
    rw [hsum] at hregion ⊢
    apply FeedsBlocks.append core (fun e m =>
      masterRuns oneRun remainingSize numBlock e m (input + 32752) (output + 32752)) rfl (by omega) hregion hfed
    intro m'
    exact ih (hfed.mode.trans hmode) m' (hvalid input hinput) (by omega)

/-- Whatever the alignment and however many runs: the blocks of the input are fed in order. -/
lemma oneBlock_feeds {e : Engine σ} (hmode : e.mode = some .aes) (m : ByteMemory) {input output size : Nat}
    (hsize : size % 16 = 0) (hregion : output ≤ input ∨ input + size ≤ output) :
    FeedsBlocks core e m input output size (oneBlock core e m input output size) := by
  have hsum : size / 32752 * 32752 + (size - size / 32752 * 32752) = size := by omega
  have hmod : (size - size / 32752 * 32752) % 16 = 0 := by omega
  have hmax : size - size / 32752 * 32752 ≤ 32752 := by omega
  have hregion' : output ≤ input ∨ input + (size / 32752 * 32752 + (size - size / 32752 * 32752)) ≤ output := by
    rwa [hsum]
  unfold oneBlock
  simp only
  split
  · split
    · have hruns := masterRuns_feeds core (oneBlockUnaligned core) (fun _ => True) (fun _ _ => trivial)
        (fun _ _ _ _ _ hm _ hs _ hr => oneBlockUnaligned_feeds core hm _ hs hr) hmod hmax (size / 32752) hmode m
        trivial hregion'
      rwa [hsum] at hruns
    · have hruns := masterRuns_feeds core (oneBlockAligned core) (fun input => input % 4 = 0) (fun _ h => by omega)
        (fun _ _ _ _ _ hm hi hs hx hr => oneBlockAligned_feeds core hm _ hi hs hx hr) hmod hmax (size / 32752) hmode m
        (by omega) hregion'
      rwa [hsum] at hruns
  · split
    · exact oneBlockUnaligned_feeds core hmode m hsize hregion
    · exact oneBlockAligned_feeds core hmode m (by omega) hsize (by omega) hregion

lemma Core.length_of_mem_run {s : σ} {xs : List (List UInt8)} {y : List UInt8} (hy : y ∈ (core.run s xs).1) : y.length = 16 := by
  induction xs generalizing s with
  | nil => cases hy
  | cons x xs ih =>
    rcases List.mem_cons.mp hy with rfl | hy
    · exact Core.length_bytes _
    · exact ih hy

lemma Core.length_run (s : σ) (xs : List (List UInt8)) : (core.run s xs).1.length = xs.length := by
  induction xs generalizing s with
  | nil => rfl
  | cons x xs ih => rw [Core.run, List.length_cons, ih, List.length_cons]

/-- The blocks of the input reach the engine in order, each of them once and in runs of at most 2047,
output `i` is stored at `16 * i`, nothing else is written, and an error of any block fails the call.
Another call on the same bytes at other addresses answers the same. -/
theorem oneBlock_presents_in_order (e : Engine σ) (hmode : e.mode = some .aes) (m : ByteMemory) (input output size : Nat)
    (hsize : size % 16 = 0) (hregion : output ≤ input ∨ input + size ≤ output) :
    ∃ e' m', oneBlock core e m input output size =
        some (if e.error ∨ (core.run e.state (m.blocks 16 input (size / 16))).2.2 then .fail else .success, e', m') ∧
      e'.presented = e.presented ++ m.blocks 16 input (size / 16) ∧
      (∃ cs, e'.counts = e.counts ++ cs ∧ ∀ c ∈ cs, c ≤ 2047) ∧
      m'.blocks 16 output (size / 16) = (core.run e.state (m.blocks 16 input (size / 16))).1 ∧
      m'.written = m.written ++ List.range' output size ∧
      (∀ x, x < output ∨ output + size ≤ x → m'.bytes x = m.bytes x) ∧
      ∀ m₂ input₂ output₂, (output₂ ≤ input₂ ∨ input₂ + size ≤ output₂) → m₂.read input₂ size = m.read input size →
        ∃ status e₂ m₂', oneBlock core e m₂ input₂ output₂ size = some (status, e₂, m₂') ∧
          (oneBlock core e m input output size).map Prod.fst = some status ∧
          e₂.state = e'.state ∧ e₂.error = e'.error ∧ e₂.presented = e'.presented ∧
          m₂'.read output₂ size = m'.read output size := by
  have hmul : size / 16 * 16 = size := Nat.div_mul_cancel (Nat.dvd_of_mod_eq_zero hsize)
  obtain ⟨e', heq, hfed⟩ := oneBlock_feeds core hmode m hsize hregion
  have hlen : (core.run e.state (m.blocks 16 input (size / 16))).1.flatten.length = size := by
    rw [Core.length_flatten_run, ByteMemory.length_blocks, hmul]
  have hcount : (core.run e.state (m.blocks 16 input (size / 16))).1.length = size / 16 := by
    rw [Core.length_run, ByteMemory.length_blocks]
  have hread : ∀ (m : ByteMemory) a bs, bs.length = size → (m.store a bs).read a size = bs := by
    intro m a bs hbs
    rw [← hbs, ByteMemory.read_store]
  refine ⟨e', m.store output (core.run e.state (m.blocks 16 input (size / 16))).1.flatten, ?_, hfed.presented, ?_, ?_,
    ?_, ?_, ?_⟩
  · rw [heq, errorStatus, hfed.error]
    simp only [Bool.or_eq_true]
  · obtain ⟨cs, hcs, _, hle⟩ := hfed.counts
    exact ⟨cs, hcs, hle⟩
  · have hlength : ∀ y ∈ (core.run e.state (m.blocks 16 input (size / 16))).1, y.length = 16 := by
      intro y hy
      exact Core.length_of_mem_run core hy
    have hblocks := m.blocks_store_flatten output hlength
    rwa [hcount] at hblocks
  · rw [ByteMemory.store, hlen]
  · intro x hx
    rcases hx with hx | hx
    · exact ByteMemory.store_bytes_of_lt m _ hx
    · exact ByteMemory.store_bytes_of_le m _ (by rw [hlen]; exact hx)
  · intro m₂ input₂ output₂ hregion₂ hsame
    have hblocks : m₂.blocks 16 input₂ (size / 16) = m.blocks 16 input (size / 16) := by
      apply ByteMemory.blocks_eq_of_read
      rw [hmul]
      exact hsame
    obtain ⟨e₂, heq₂, hfed₂⟩ := oneBlock_feeds core hmode m₂ hsize hregion₂
    rw [hblocks] at heq₂ hfed₂
    refine ⟨errorStatus e₂, e₂, m₂.store output₂ (core.run e.state (m.blocks 16 input (size / 16))).1.flatten, heq₂, ?_,
      ?_, ?_, ?_, ?_⟩
    · rw [heq, Option.map_some, errorStatus, errorStatus, hfed.error, hfed₂.error]
    · rw [hfed.state, hfed₂.state]
    · rw [hfed.error, hfed₂.error]
    · rw [hfed.presented, hfed₂.presented]
    · rw [hread _ _ _ hlen, hread _ _ _ hlen]

theorem oneBlock_presents_in_order_two_blocks :
    ∃ e' m', oneBlock ⟨fun _ _ => (), fun _ _ => (Buf.fill 4 0, (), false)⟩
        ⟨some .aes, ⟨.ecb, false, .aes128⟩, true, [], (), Buf.fill 4 0, false, 0, 0, [], []⟩ ⟨fun _ => 7, []⟩ 1 64 32 =
        some (.success, e', m') ∧ e'.presented = [List.replicate 16 7, List.replicate 16 7] := by
  obtain ⟨e', m', heq, hpresented, _⟩ := oneBlock_presents_in_order
    ⟨fun _ _ => (), fun _ _ => (Buf.fill 4 0, (), false)⟩
    ⟨some .aes, ⟨.ecb, false, .aes128⟩, true, [], (), Buf.fill 4 0, false, 0, 0, [], []⟩ rfl ⟨fun _ => 7, []⟩ 1 64 32
    rfl (Or.inr (by decide))
  exact ⟨e', m', heq, hpresented⟩

end McuxDrivers.Hashcrypt.Aes
