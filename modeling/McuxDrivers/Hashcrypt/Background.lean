import McuxDrivers.Hashcrypt.Contexts

/-!
# Hashing in the background

`HASHCRYPT_SHA_UpdateNonBlocking` hands the full blocks of a message to the AHB master, in runs that its
counter can hold, and `HASHCRYPT_DriverIRQHandler` starts the next run or ends the update. After the callback
the context is one that was updated with the same message by `HASHCRYPT_SHA_Update`.
-/

namespace McuxDrivers.Hashcrypt
open McuxDrivers.Lib

/-- The contexts and the engine with what the background update adds: `s_ctx`, the fields
`remainingBlcks` and `hashCallback` of the contexts, the bytes from `MEMADDR` on, which moves with the
master, the enabled interrupt and the finished run that raises it, and the callbacks made. -/
structure NonBlocking (ι : Type) where
  sys : Sys ι
  sCtx : Option ι
  remainingBlcks : ι → Nat
  hashCallback : ι → Bool
  unread : List UInt8
  intEnabled : Bool
  digestReady : Bool
  callbacks : List (ι × Status)

section Driver

variable (core : HashCore) {ι : Type} [DecidableEq ι]

/-- `HASHCRYPT_SHA_SetCallback`; `callback` is false for `NULL`. -/
def shaSetCallback (s : NonBlocking ι) (i : ι) (callback : Bool) : NonBlocking ι :=
  { s with sCtx := some i, hashCallback := Function.update s.hashCallback i callback }

/-- The blocks of the next run, for `SHA_MASTER_MAX_BLOCKS`. -/
def masterBlocks (remainingBlcks : Nat) : Nat :=
  if remainingBlcks ≥ 2048 then 2048 - 1 else remainingBlcks

/-- The `MEMCTRL` write that starts a run, and the end of the run. -/
def runMaster (s : NonBlocking ι) (numBlocks : Nat) : NonBlocking ι :=
  { s with
    sys := { s.sys with engine := memctrlMaster core s.sys.engine s.unread numBlocks }
    unread := s.unread.drop (numBlocks % 2 ^ 11 * 64)
    digestReady := true }

/-- `HASHCRYPT_SHA_UpdateNonBlocking`. Without a full block the callback is made at once; `none` is the
call of a `NULL` callback. -/
def shaUpdateNonBlocking (s : NonBlocking ι) (i : ι) (addr : Nat) (input : List UInt8) : Option (Status × NonBlocking ι) :=
  if input.length = 0 then some (.success, s)
  else if addr % 4 ≠ 0 then some (.fail, s)
  else
    let ctx := s.sys.contexts i
    if ¬ (ctx.algo = .sha1 ∨ ctx.algo = .sha256) then some (.invalidArgument, s)
    else
      let remaining := input.length / shaBlockSize
      let blksz := input.length % shaBlockSize
      let blk := if blksz > 0 ∧ blksz ≤ shaBlockSize then ctx.blk.write 0 (input.drop (shaBlockSize * remaining)) else ctx.blk
      let ctx := { ctx with fullMessageSize := input.length, blksz := blksz, blk := blk }
      let numBlocks := masterBlocks remaining
      let s := { s with remainingBlcks := Function.update s.remainingBlcks i (remaining - numBlocks) }
      if numBlocks > 0 then
        let ctx := { ctx with state := .hashUpdate }
        let s := { s with
          sys := { contexts := Function.update s.sys.contexts i ctx, engine := engineInit core s.sys.engine ctx.algo }
          intEnabled := true
          unread := input }
        some (.success, runMaster core s numBlocks)
      else if s.hashCallback i then
        some (.success, { s with
          sys := { s.sys with contexts := Function.update s.sys.contexts i ctx }
          callbacks := s.callbacks ++ [(i, .success)] })
      else none

/-- The callback at the end of the handler, if there is one. -/
def notify (s : NonBlocking ι) (i : ι) (status : Status) : NonBlocking ι :=
  if s.hashCallback i then { s with callbacks := s.callbacks ++ [(i, status)] } else s

/-- `HASHCRYPT_DriverIRQHandler`. -/
def shaDriverIRQHandler (s : NonBlocking ι) : Option (NonBlocking ι) :=
  match s.sCtx with
  | none => none
  | some i =>
    if s.sys.engine.error = false then
      if s.remainingBlcks i > 0 then
        let numBlocks := masterBlocks (s.remainingBlcks i)
        let s := { s with remainingBlcks := Function.update s.remainingBlcks i (s.remainingBlcks i - numBlocks) }
        some (runMaster core s numBlocks)
      else
        let (status, ctx) := saveRunningHash s.sys.engine (s.sys.contexts i)
        let s := { s with
          sys := { s.sys with contexts := Function.update s.sys.contexts i ctx }
          intEnabled := false }
        some (notify s i status)
    else some (notify s i .fail)

/-- The handler as long as the interrupt is raised; `none` when the fuel runs out before. -/
def serveInterrupts : Nat → NonBlocking ι → Option (NonBlocking ι)
  | 0, s => if s.intEnabled ∧ s.digestReady then none else some s
  | fuel + 1, s =>
    if s.intEnabled ∧ s.digestReady then (shaDriverIRQHandler core s).bind (serveInterrupts fuel) else some s

end Driver

section Blocks

lemma masterBlocks_le (n : Nat) : masterBlocks n ≤ n ∧ masterBlocks n ≤ 2047 ∧ (0 < n → 0 < masterBlocks n) := by
  unfold masterBlocks
  split <;> omega

/-- The blocks of a message up to the block `k + c`. -/
lemma blocksOf_take_add {α : Type} {l : List α} {k c : Nat} (h : k + c ≤ l.length / 64) :
    blocksOf 64 (l.take ((k + c) * 64)) = blocksOf 64 (l.take (k * 64)) ++ blocksOf 64 ((l.drop (k * 64)).take (c * 64)) := by
  have hlen : (l.take (k * 64)).length = k * 64 := by
    rw [List.length_take]
    omega
  rw [Nat.add_mul, List.take_add, (blocksOf_append_mul (by decide) k _ _ hlen).1]

/-- All full blocks are up to the last one, and the rest is what is buffered. -/
lemma blocksOf_take_full {α : Type} (l : List α) :
    blocksOf 64 (l.take (l.length / 64 * 64)) = blocksOf 64 l ∧ l.drop (64 * (l.length / 64)) = tailOf 64 l := by
  have hlen : (l.take (l.length / 64 * 64)).length = l.length / 64 * 64 := by
    rw [List.length_take]
    omega
  have hshort : (l.drop (l.length / 64 * 64)).length < 64 := by
    rw [List.length_drop]
    omega
  obtain ⟨hblocks, htail⟩ := blocksOf_append_mul (n := 64) (by decide) (l.length / 64) _ (l.drop (l.length / 64 * 64)) hlen
  rw [List.take_append_drop, blocksOf_of_length_lt hshort, List.append_nil] at hblocks
  rw [List.take_append_drop, tailOf_of_length_lt hshort] at htail
  rw [Nat.mul_comm 64, hblocks, htail]
  exact ⟨rfl, rfl⟩

end Blocks

section Runs

variable (core : HashCore) {ι : Type} [DecidableEq ι]

/-- The context `i` has handed `done` blocks of the message to the master, whose run is over; `s₀` is the
state before the update. -/
structure Handed (s₀ s : NonBlocking ι) (i : ι) (algo : Algo) (input : List UInt8) (done : Nat) : Prop where
  runs : Runs s.sys.engine algo (hashBlocks core algo (blocksOf 64 (input.take (done * 64))))
  le : done ≤ input.length / 64
  unread : s.unread = input.drop (done * 64)
  remaining : s.remainingBlcks i = input.length / 64 - done
  raised : s.intEnabled = true ∧ s.digestReady = true
  buffers : (s.sys.contexts i).blk.Holds (s.sys.contexts i).blksz (tailOf 64 input)
  state : (s.sys.contexts i).state = .hashUpdate
  algo_eq : (s.sys.contexts i).algo = algo
  size : (s.sys.contexts i).fullMessageSize = input.length
  others : ∀ j, j ≠ i → s.sys.contexts j = s₀.sys.contexts j
  sCtx : s.sCtx = some i
  hashCallback : s.hashCallback i = true
  callbacks : s.callbacks = s₀.callbacks

/-- The update of the context `i` is over: the callback was made once, and the context holds the message. -/
structure Updated (s₀ s : NonBlocking ι) (i : ι) (algo : Algo) (input : List UInt8) : Prop where
  tracks : Tracks core (s.sys.contexts i) algo (blocksOf 64 input, tailOf 64 input) input
  ok : s.sys.engine.error = false
  others : ∀ j, j ≠ i → s.sys.contexts j = s₀.sys.contexts j
  quiet : ¬(s.intEnabled = true ∧ s.digestReady = true)
  callbacks : s.callbacks = s₀.callbacks ++ [(i, .success)]

variable {core}

lemma absorbed_blocksOf (input : List UInt8) : Absorbed 64 (blocksOf 64 input, tailOf 64 input) input where
  full _ hb := length_of_mem_blocksOf hb
  bounded := (length_tailOf_lt (by decide) input).le
  spelled := flatten_blocksOf_append_tailOf (by decide) input

lemma Runs.memctrlMaster {e : Engine} {algo : Algo} {input : List UInt8} {k c : Nat} (hsha : algo ≠ .aes)
    (h : Runs e algo (hashBlocks core algo (blocksOf 64 (input.take (k * 64))))) (hk : k + c ≤ input.length / 64)
    (hc : c ≤ 2047) :
    Runs (Hashcrypt.memctrlMaster core e (input.drop (k * 64)) c) algo
      (hashBlocks core algo (blocksOf 64 (input.take ((k + c) * 64)))) := by
  have hcount : c % 2 ^ 11 = c := Nat.mod_eq_of_lt (by omega)
  rw [Hashcrypt.memctrlMaster, hcount, blocksOf_take_add hk, hashBlocks_append]
  exact h.foldl core hsha _

/-- A run of the master that the handler starts. -/
lemma Handed.next {s₀ s : NonBlocking ι} {i : ι} {algo : Algo} {input : List UInt8} {k : Nat} (hsha : algo ≠ .aes)
    (h : Handed core s₀ s i algo input k) (hleft : k < input.length / 64) :
    ∃ s' k', shaDriverIRQHandler core s = some s' ∧ Handed core s₀ s' i algo input k' ∧ k < k' := by
  have hpos : s.remainingBlcks i > 0 := by
    rw [h.remaining]
    omega
  obtain ⟨hle, hmax, hnz⟩ := masterBlocks_le (s.remainingBlcks i)
  obtain ⟨c, hc⟩ : ∃ c, c = masterBlocks (s.remainingBlcks i) := ⟨_, rfl⟩
  rw [← hc] at hle hmax hnz
  have hc0 := hnz hpos
  rw [h.remaining] at hle
  have hcount : c % 2 ^ 11 = c := Nat.mod_eq_of_lt (by omega)
  have hstep : shaDriverIRQHandler core s = some (runMaster core
      { s with remainingBlcks := Function.update s.remainingBlcks i (s.remainingBlcks i - c) } c) := by
    simp only [shaDriverIRQHandler, h.sCtx, h.runs.ok, if_true, hpos, ← hc]
  refine ⟨_, k + c, hstep, ?_, Nat.lt_add_of_pos_right hc0⟩
  exact {
    runs := by
      show Runs (memctrlMaster core s.sys.engine s.unread c) algo _
      rw [h.unread]
      exact Runs.memctrlMaster hsha h.runs (by omega) hmax
    le := by omega
    unread := by
      show s.unread.drop (c % 2 ^ 11 * 64) = _
      rw [hcount, h.unread, List.drop_drop, ← Nat.add_mul]
    remaining := by
      show Function.update s.remainingBlcks i (s.remainingBlcks i - c) i = _
      rw [Function.update_self, h.remaining]
      omega
    raised := ⟨h.raised.1, rfl⟩
    buffers := h.buffers
    state := h.state
    algo_eq := h.algo_eq
    size := h.size
    others := h.others
    sCtx := h.sCtx
    hashCallback := h.hashCallback
    callbacks := h.callbacks }

/-- The handler after the last run. -/
lemma Handed.finish {s₀ s : NonBlocking ι} {i : ι} {algo : Algo} {input : List UInt8} (hsha : algo ≠ .aes)
    (hlen : input.length < 2 ^ 32) (h : Handed core s₀ s i algo input (input.length / 64)) :
    ∃ s', shaDriverIRQHandler core s = some s' ∧ Updated core s₀ s' i algo input := by
  have hnone : ¬ s.remainingBlcks i > 0 := by
    rw [h.remaining]
    omega
  have hruns := h.runs
  rw [(blocksOf_take_full input).1] at hruns
  have hstatus : errorStatus s.sys.engine = .success := by rw [errorStatus, hruns.ok]; rfl
  have hstep : shaDriverIRQHandler core s = some
      { s with
        sys := { s.sys with
          contexts := Function.update s.sys.contexts i (saveRunningHash s.sys.engine (s.sys.contexts i)).2 }
        intEnabled := false
        callbacks := s.callbacks ++ [(i, .success)] } := by
    simp only [shaDriverIRQHandler, h.sCtx, h.runs.ok, if_true, hnone, if_false, saveRunningHash, hstatus, notify,
      h.hashCallback]
  refine ⟨_, hstep, ?_⟩
  exact {
    tracks := by
      simp only [Function.update_self, saveRunningHash]
      refine ⟨h.buffers, absorbed_blocksOf input, h.algo_eq, hsha, ?_, .inr ⟨h.state, ?_⟩⟩
      · rw [Nat.mod_eq_of_lt hlen]
        exact h.size
      · simp only [h.algo_eq, hruns.digest.take_eq]
        exact holds_hashLen _ hruns.digest.size_eq.symm
    ok := hruns.ok
    others := by
      intro j hj
      simp only [Function.update_of_ne hj]
      exact h.others j hj
    quiet := fun hraised => Bool.false_ne_true hraised.1
    callbacks := by
      simp only [h.callbacks] }

/-- The interrupts from any run of the update on. -/
lemma Handed.serve {s₀ s : NonBlocking ι} {i : ι} {algo : Algo} {input : List UInt8} {k : Nat} (hsha : algo ≠ .aes)
    (hlen : input.length < 2 ^ 32) (h : Handed core s₀ s i algo input k) :
    ∃ fuel s', serveInterrupts core fuel s = some s' ∧ Updated core s₀ s' i algo input := by
  obtain ⟨left, hleft⟩ : ∃ left, left = input.length / 64 - k := ⟨_, rfl⟩
  induction left using Nat.strong_induction_on generalizing s k with
  | _ left ih =>
    by_cases hdone : k = input.length / 64
    · subst hdone
      obtain ⟨s', hstep, hupdated⟩ := h.finish hsha hlen
      refine ⟨1, s', ?_, hupdated⟩
      simp only [serveInterrupts, h.raised, and_self, if_true, hstep, Option.bind_some, hupdated.quiet, if_false]
    · have hle := h.le
      obtain ⟨s₁, k₁, hstep, hhanded, hlt⟩ := h.next hsha (by omega)
      obtain ⟨fuel, s', hserve, hupdated⟩ := ih (input.length / 64 - k₁) (by omega) hhanded rfl
      refine ⟨fuel + 1, s', ?_, hupdated⟩
      simp only [serveInterrupts, h.raised, and_self, if_true, hstep, Option.bind_some, hserve]

/-- The context of a message that has not begun. -/
lemma Tracks.fresh {ctx : Ctx} {algo : Algo} {a : List (List UInt8) × List UInt8} (h : Tracks core ctx algo a []) :
    a.1 = [] := by
  have hspelled := h.absorbed.spelled
  have hnil := (List.append_eq_nil_iff.mp hspelled).1
  cases hblocks : a.1 with
  | nil => rfl
  | cons b bs =>
    have hb := h.absorbed.full b (by rw [hblocks]; exact List.mem_cons_self)
    rw [hblocks, List.flatten_cons] at hnil
    rw [(List.append_eq_nil_iff.mp hnil).1] at hb
    cases hb

/-- The call of an update, and the interrupts that follow. -/
lemma shaUpdateNonBlocking_updated {s : NonBlocking ι} {i : ι} {algo : Algo} {a : List (List UInt8) × List UInt8}
    (h : Tracks core (s.sys.contexts i) algo a []) (hok : s.sys.engine.error = false) (hctx : s.sCtx = some i)
    (hcallback : s.hashCallback i = true) (hidle : s.intEnabled = false) {addr : Nat} (haddr : addr % 4 = 0)
    {input : List UInt8} (hne : input ≠ []) (hlen : input.length < 2 ^ 32) :
    ∃ s₁ fuel s₂, shaUpdateNonBlocking core s i addr input = some (.success, s₁) ∧
      serveInterrupts core fuel s₁ = some s₂ ∧ Updated core s s₂ i algo input := by
  have hpos : input.length ≠ 0 := fun hzero => hne (List.length_eq_zero_iff.mp hzero)
  have halgo : (s.sys.contexts i).algo = .sha1 ∨ (s.sys.contexts i).algo = .sha256 := by
    rw [h.algo_eq]
    cases halgo : algo with
    | sha1 => exact .inl rfl
    | sha256 => exact .inr rfl
    | aes => exact absurd halgo h.sha
  obtain ⟨hblocks, htail⟩ := blocksOf_take_full input
  have hmod : (tailOf 64 input).length = input.length % 64 := by
    rw [← htail, List.length_drop]
    omega
  -- the buffer holds the bytes behind the last full block
  have hbuffers : ((if input.length % shaBlockSize > 0 ∧ input.length % shaBlockSize ≤ shaBlockSize then
      (s.sys.contexts i).blk.write 0 (input.drop (shaBlockSize * (input.length / shaBlockSize)))
      else (s.sys.contexts i).blk)).Holds (input.length % shaBlockSize) (tailOf 64 input) := by
    rw [shaBlockSize, htail]
    split
    · rw [← hmod]
      exact Buf.holds_write_zero _ _ (length_tailOf_lt (by decide) input).le
    next hempty =>
      have hzero : input.length % 64 = 0 := by omega
      rw [hzero] at hmod ⊢
      rw [List.length_eq_zero_iff.mp hmod]
      exact Buf.holds_nil _
  generalize hblk : (if input.length % shaBlockSize > 0 ∧ input.length % shaBlockSize ≤ shaBlockSize then
    (s.sys.contexts i).blk.write 0 (input.drop (shaBlockSize * (input.length / shaBlockSize)))
    else (s.sys.contexts i).blk) = blk at hbuffers
  obtain ⟨hle, hmax, hnz⟩ := masterBlocks_le (input.length / 64)
  obtain ⟨c, hc⟩ : ∃ c, c = masterBlocks (input.length / 64) := ⟨_, rfl⟩
  rw [← hc] at hle hmax hnz
  by_cases hfull : c > 0
  · -- the first run of the master
    obtain ⟨s₁, hs₁⟩ : ∃ s₁, s₁ = runMaster core
        { s with
          remainingBlcks := Function.update s.remainingBlcks i (input.length / 64 - c)
          sys :=
            { contexts := Function.update s.sys.contexts i
                { s.sys.contexts i with
                  fullMessageSize := input.length, blksz := input.length % shaBlockSize, blk := blk, state := .hashUpdate }
              engine := engineInit core s.sys.engine (s.sys.contexts i).algo }
          intEnabled := true
          unread := input } c := ⟨_, rfl⟩
    have hstep : shaUpdateNonBlocking core s i addr input = some (.success, s₁) := by
      rw [hs₁]
      simp only [shaUpdateNonBlocking, hpos, haddr, halgo, hblk, ne_eq, not_true_eq_false, if_false]
      simp only [shaBlockSize, ← hc, hfull, if_true]
    have hinit : Runs (memctrlMaster core (engineInit core s.sys.engine algo) input c) algo
        (hashBlocks core algo (blocksOf 64 (input.take (c * 64)))) := by
      have hnone : Runs (engineInit core s.sys.engine algo) algo (hashBlocks core algo (blocksOf 64 (input.take (0 * 64)))) := by
        rw [Nat.zero_mul, List.take_zero, blocksOf_nil]
        exact runs_engineInit core h.sha hok
      have hrun := Runs.memctrlMaster h.sha hnone (show 0 + c ≤ input.length / 64 by omega) hmax
      rwa [Nat.zero_mul, List.drop_zero, Nat.zero_add] at hrun
    have hcount : c % 2 ^ 11 = c := Nat.mod_eq_of_lt (by omega)
    have hhanded : Handed core s s₁ i algo input c := by
      subst hs₁
      exact {
        runs := by simpa only [runMaster, h.algo_eq] using hinit
        le := hle
        unread := by simp only [runMaster, hcount]
        remaining := by simp only [runMaster, Function.update_self]
        raised := ⟨rfl, rfl⟩
        buffers := by simpa only [runMaster, Function.update_self] using hbuffers
        state := by simp only [runMaster, Function.update_self]
        algo_eq := by simpa only [runMaster, Function.update_self] using h.algo_eq
        size := by simp only [runMaster, Function.update_self]
        others := by
          intro j hj
          simp only [runMaster, Function.update_of_ne hj]
        sCtx := hctx
        hashCallback := hcallback
        callbacks := rfl }
    obtain ⟨fuel, s₂, hserve, hupdated⟩ := hhanded.serve h.sha hlen
    exact ⟨s₁, fuel, s₂, hstep, hserve, hupdated⟩
  · -- the message waits in the context
    have hshort : input.length / 64 = 0 := by omega
    have hnone : blocksOf 64 input = [] := blocksOf_of_length_lt (by omega)
    obtain ⟨s₁, hs₁⟩ : ∃ s₁, s₁ =
        { s with
          remainingBlcks := Function.update s.remainingBlcks i (input.length / 64 - c)
          sys := { s.sys with
            contexts := Function.update s.sys.contexts i
              { s.sys.contexts i with fullMessageSize := input.length, blksz := input.length % shaBlockSize, blk := blk } }
          callbacks := s.callbacks ++ [(i, Status.success)] } := ⟨_, rfl⟩
    have hstep : shaUpdateNonBlocking core s i addr input = some (.success, s₁) := by
      rw [hs₁]
      simp only [shaUpdateNonBlocking, hpos, haddr, halgo, hblk, ne_eq, not_true_eq_false, if_false]
      simp only [shaBlockSize, ← hc, hfull, hcallback, if_true, if_false]
    have hquiet : ¬(s₁.intEnabled = true ∧ s₁.digestReady = true) := by
      rw [hs₁]
      simp only [hidle, Bool.false_eq_true, false_and, not_false_eq_true]
    refine ⟨s₁, 0, s₁, hstep, if_neg hquiet, ?_⟩
    subst hs₁
    exact {
      tracks := by
        simp only [Function.update_self]
        refine ⟨hbuffers, absorbed_blocksOf input, h.algo_eq, h.sha, (Nat.mod_eq_of_lt hlen).symm, ?_⟩
        have hrunning := h.running
        rw [h.fresh] at hrunning
        rw [hnone]
        exact hrunning
      ok := hok
      others := by
        intro j hj
        simp only [Function.update_of_ne hj]
      quiet := hquiet
      callbacks := rfl }

/-- A message that is hashed in the background, after any calls, in a context that was initialised and has
received nothing yet. The callback is made once and with success, no interrupt is left, and from then on every
context, whatever calls follow, finishes with the digest of its own message: the one hashed in the background
continues with the bytes of later updates. -/
theorem background_update (core : HashCore) (s₀ : Sys ι) (ops : List (Op ι)) (s : NonBlocking ι) (i : ι) (algo : Algo)
    (addr : Nat) (input : List UInt8) (hok : s₀.engine.error = false) (hsys : s.sys = run core s₀ ops)
    (hfresh : messageOf i ops = some (algo, [])) (hidle : s.intEnabled = false) (haddr : addr % 4 = 0) (hne : input ≠ [])
    (hlen : input.length < 2 ^ 32) :
    ∃ s₁ fuel s₂, shaUpdateNonBlocking core (shaSetCallback s i true) i addr input = some (.success, s₁) ∧
      serveInterrupts core fuel s₁ = some s₂ ∧ s₂.callbacks = s.callbacks ++ [(i, .success)] ∧
      ¬(s₂.intEnabled = true ∧ s₂.digestReady = true) ∧
      ∀ later j algo' m outputSize,
        later.foldl (receive j) (if j = i then some (algo, input) else messageOf j ops) = some (algo', m) →
        m.length < 2 ^ 29 →
        (shaFinish core (run core s₂.sys later).engine ((run core s₂.sys later).contexts j) outputSize).1 =
          (.success, cut outputSize (digestOf core algo' m)) := by
  have hstart : Separate core s₀ (fun _ => none) := ⟨hok, by simp⟩
  obtain ⟨hok', htracks⟩ := separate_run core ops hstart
  rw [← hsys] at hok' htracks
  obtain ⟨a, ha⟩ := htracks i algo [] hfresh
  obtain ⟨s₁, fuel, s₂, hcall, hserve, hupdated⟩ := shaUpdateNonBlocking_updated (s := shaSetCallback s i true) ha hok' rfl
    (Function.update_self ..) hidle haddr hne hlen
  refine ⟨s₁, fuel, s₂, hcall, hserve, hupdated.callbacks, hupdated.quiet, ?_⟩
  intro later j algo' m outputSize hm hshort
  have hseparate : Separate core s₂.sys (fun j => if j = i then some (algo, input) else messageOf j ops) := by
    refine ⟨hupdated.ok, ?_⟩
    intro j algo' m hm
    by_cases hj : j = i
    · subst hj
      simp only [if_true] at hm
      obtain ⟨rfl, rfl⟩ := Prod.mk.inj (Option.some.inj hm)
      exact ⟨_, hupdated.tracks⟩
    · simp only [hj, if_false] at hm
      rw [hupdated.others j hj]
      exact htracks j algo' m hm
  obtain ⟨hlater, htracks'⟩ := separate_run core later hseparate
  obtain ⟨a', ha'⟩ := htracks' j algo' m hm
  exact shaFinish_output core ha' hlater hshort outputSize

end Runs

/-- The contexts of `freshSys`, one of them initialised, and no callback. -/
def freshNonBlocking : NonBlocking Bool where
  sys := run shaCore freshSys [.init true .sha256]
  sCtx := none
  remainingBlcks := fun _ => 0
  hashCallback := fun _ => false
  unread := []
  intEnabled := false
  digestReady := false
  callbacks := []

/-- 2100 blocks and a byte in the background, which need two runs of the master, and a byte more. -/
theorem background_update_two_runs :
    ∃ s₁ fuel s₂, shaUpdateNonBlocking shaCore (shaSetCallback freshNonBlocking true true) true 0
        (List.replicate 134401 7) = some (.success, s₁) ∧
      serveInterrupts shaCore fuel s₁ = some s₂ ∧ s₂.callbacks = [(true, .success)] ∧
      (shaFinish shaCore (run shaCore s₂.sys [.update true 1 [8]]).engine
        ((run shaCore s₂.sys [.update true 1 [8]]).contexts true) none).1 =
          (.success, digestOf shaCore .sha256 (List.replicate 134401 7 ++ [8])) := by
  obtain ⟨s₁, fuel, s₂, hcall, hserve, hcallbacks, _, hfinish⟩ := background_update shaCore freshSys [.init true .sha256]
    freshNonBlocking true .sha256 0 (List.replicate 134401 7) rfl rfl rfl rfl rfl
    (List.ne_nil_of_length_pos (by rw [List.length_replicate]; decide)) (by rw [List.length_replicate]; decide)
  refine ⟨s₁, fuel, s₂, hcall, hserve, hcallbacks, hfinish [.update true 1 [8]] true .sha256 _ none rfl ?_⟩
  rw [List.length_append, List.length_replicate]
  decide

end McuxDrivers.Hashcrypt
