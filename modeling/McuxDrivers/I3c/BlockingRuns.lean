import McuxDrivers.I3c.Transaction

/-!
# The blocking master on an error-free bus

The waits end, and the blocking master puts its transaction on the bus.
-/

namespace McuxDrivers.I3c.Blocking
open McuxDrivers.Lib NonBlocking

/-- The poll ends the wait. -/
def Await.AnsweredBy : Await → Shown → Prop
  | .controlDone, p => p.controlDone = true
  | .idle, p => p.state = .idle
  | .room byteCounts, p => byteCounts ≤ p.txRoom
  | .complete, p => p.complete = true
  | .receive forData forEnd, p => forEnd = true ∧ p.complete = true ∨ forData = true ∧ p.rx.isSome = true

/-- A bus without errors and IBIs, on which every wait for something ends. The target's answer to a read is `reply`. -/
structure ErrorFree (c : Controller) (masterState : MasterState) (reply : Nat → BitVec 8) : Prop where
  state : ∀ cs, c.state cs = (link masterState cs).state
  noIbi : ∀ cs, c.arbitrationWon cs = false
  errors : ∀ await cs read, ∀ p ∈ c.shows await cs read, p.errors = noErrors
  reply : ∀ await cs read, ∀ p ∈ c.shows await cs read, ∀ b, p.rx = some b → b = reply read
  answers : ∀ await cs read, await ≠ .receive false false → ∃ p ∈ c.shows await cs read, await.AnsweredBy p

section Waits

variable {polls : List Shown}

lemma ctrlDoneLoop_success (waitIdle : Bool) (herrors : ∀ p ∈ polls, p.errors = noErrors)
    (hanswers : ∃ p ∈ polls, (if waitIdle then Await.idle else .controlDone).AnsweredBy p) :
    ctrlDoneLoop waitIdle polls = some .success := by
  induction polls with
  | nil => simp at hanswers
  | cons p polls ih =>
    have herror : checkAndClearError p.errors = .success := by rw [herrors p List.mem_cons_self]; rfl
    have hrest := ih (fun q hq => herrors q (List.mem_cons_of_mem p hq))
    simp only [ctrlDoneLoop, herror, ne_eq, not_true_eq_false, if_false]
    obtain ⟨q, hq, hanswer⟩ := hanswers
    rcases List.mem_cons.mp hq with rfl | hq
    · cases waitIdle with
      | false =>
        have hdone : q.controlDone = true := hanswer
        simp [hdone]
      | true =>
        have hidle : q.state = .idle := hanswer
        simp [hidle]
    · rw [hrest ⟨q, hq, hanswer⟩]
      simp

lemma txReadyLoop_success {byteCounts : Nat} (herrors : ∀ p ∈ polls, p.errors = noErrors)
    (hanswers : ∃ p ∈ polls, (Await.room byteCounts).AnsweredBy p) : txReadyLoop byteCounts polls = some .success := by
  induction polls with
  | nil => simp at hanswers
  | cons p polls ih =>
    have herror : checkAndClearError p.errors = .success := by rw [herrors p List.mem_cons_self]; rfl
    simp only [txReadyLoop, herror, ne_eq, not_true_eq_false, if_false]
    split
    next hroom =>
      obtain ⟨q, hq, hanswer⟩ := hanswers
      rcases List.mem_cons.mp hq with rfl | hq
      · exact absurd hanswer (Nat.not_le.mpr hroom)
      · exact ih (fun q hq => herrors q (List.mem_cons_of_mem p hq)) ⟨q, hq, hanswer⟩
    next => rfl

lemma completeLoop_success (herrors : ∀ p ∈ polls, p.errors = noErrors)
    (hanswers : ∃ p ∈ polls, Await.complete.AnsweredBy p) : completeLoop polls = some .success := by
  induction polls with
  | nil => simp at hanswers
  | cons p polls ih =>
    have herror : checkAndClearError p.errors = .success := by rw [herrors p List.mem_cons_self]; rfl
    simp only [completeLoop, herror, and_true]
    split
    next hcomplete =>
      obtain ⟨q, hq, hanswer⟩ := hanswers
      rcases List.mem_cons.mp hq with rfl | hq
      · have hdone : q.complete = true := hanswer
        rw [hdone] at hcomplete
        cases hcomplete
      · exact ih (fun q hq => herrors q (List.mem_cons_of_mem p hq)) ⟨q, hq, hanswer⟩
    next => rfl

lemma idleLoop_success (hanswers : ∃ p ∈ polls, Await.idle.AnsweredBy p) : idleLoop polls = some .success := by
  induction polls with
  | nil => simp at hanswers
  | cons p polls ih =>
    rw [idleLoop]
    split
    next hbusy =>
      obtain ⟨q, hq, hanswer⟩ := hanswers
      rcases List.mem_cons.mp hq with rfl | hq
      · exact absurd hanswer hbusy
      · exact ih ⟨q, hq, hanswer⟩
    next => rfl

/-- The rounds of a read get to the end of the message or to a byte. -/
lemma receiveLoop_found {data complete : Bool} (herrors : ∀ p ∈ polls, p.errors = noErrors)
    (hanswers : ∃ p ∈ polls, (Await.receive data complete).AnsweredBy p) :
    ∃ p ∈ polls, receiveLoop data complete polls = some p ∧ (Await.receive data complete).AnsweredBy p := by
  induction polls with
  | nil => simp at hanswers
  | cons p polls ih =>
    have herror : checkAndClearError p.errors = .success := by rw [herrors p List.mem_cons_self]; rfl
    simp only [receiveLoop, herror, ne_eq, not_true_eq_false, false_or]
    split
    next hfound => exact ⟨p, List.mem_cons_self, rfl, hfound⟩
    next hnot =>
      obtain ⟨q, hq, hanswer⟩ := hanswers
      rcases List.mem_cons.mp hq with rfl | hq
      · exact absurd hanswer hnot
      · obtain ⟨r, hr, hloop, hr'⟩ := ih (fun q hq => herrors q (List.mem_cons_of_mem p hq)) ⟨q, hq, hanswer⟩
        exact ⟨r, List.mem_cons_of_mem p hr, hloop, hr'⟩

end Waits

lemma andThen_success (s : Run) (f : Run → Result) : andThen (some (s, .success)) f = f s := rfl

/-- Commands that leave the state of the bus as it is. -/
def Quiet (cs : List Command) : Prop :=
  ∀ c ∈ cs, ∀ l : Link, (l.after c).state = l.state

lemma Quiet.link_state {cs : List Command} (h : Quiet cs) (masterState : MasterState) (before : List Command) :
    (link masterState (before ++ cs)).state = (link masterState before).state := by
  induction cs generalizing before with
  | nil => rw [List.append_nil]
  | cons c cs ih =>
    have hrest : Quiet cs := fun c' hc' => h c' (List.mem_cons_of_mem c hc')
    rw [List.append_cons, ih hrest, link_append, h c List.mem_cons_self]

lemma Quiet.append {cs cs' : List Command} (h : Quiet cs) (h' : Quiet cs') : Quiet (cs ++ cs') := by
  intro c hc
  rcases List.mem_append.mp hc with hc | hc
  · exact h c hc
  · exact h' c hc

lemma quiet_nil : Quiet [] := by
  intro c hc
  cases hc

lemma quiet_byte (b : BitVec 8) : Quiet [.byte b] := by
  intro c hc l
  rw [List.mem_singleton.mp hc]
  rfl

lemma quiet_lastByte (b : BitVec 8) : Quiet [.lastByte b] := by
  intro c hc l
  rw [List.mem_singleton.mp hc]
  rfl

lemma quiet_readTerm : Quiet [.readTerm] := by
  intro c hc l
  rw [List.mem_singleton.mp hc]
  rfl

section Functions

variable {c : Controller} {masterState : MasterState} {reply : Nat → BitVec 8}

lemma ErrorFree.waitForCtrlDone (h : ErrorFree c masterState reply) (waitIdle : Bool) (s : Run) :
    waitForCtrlDone c waitIdle s = some (s, .success) := by
  rw [Blocking.waitForCtrlDone, ctrlDoneLoop_success waitIdle (h.errors _ _ _) (h.answers _ _ _ (by cases waitIdle <;> simp))]
  rfl

lemma ErrorFree.waitForTxReady (h : ErrorFree c masterState reply) (byteCounts : Nat) (s : Run) :
    waitForTxReady c byteCounts s = some (s, .success) := by
  rw [Blocking.waitForTxReady, txReadyLoop_success (h.errors _ _ _) (h.answers _ _ _ (by simp))]
  rfl

lemma ErrorFree.waitForComplete (h : ErrorFree c masterState reply) (s : Run) :
    waitForComplete c s = some (s, .success) := by
  rw [Blocking.waitForComplete, completeLoop_success (h.errors _ _ _) (h.answers _ _ _ (by simp))]
  rfl

lemma ErrorFree.startPolling (h : ErrorFree c masterState reply) (type : BusType) (address : Nat) (dir : Direction)
    (tSize : Nat) (s : Run) :
    startPolling c type address dir tSize s = some (s.tell [.start type address dir tSize], .success) := by
  rw [Blocking.startPolling, h.waitForCtrlDone, andThen_success, h.noIbi]
  rfl

/-- A message ends with what the state of the bus says. -/
lemma ErrorFree.endMessage (h : ErrorFree c masterState reply) (waitIdle : Bool) (s : Run) :
    ∃ cs result, endMessage c waitIdle s = some (s.tell cs, result) ∧
      trace cs = (if (link masterState s.commands).state = .ddr then [BusEvent.exit]
        else if (link masterState s.commands).state = .normAct then [.stop] else []) ∧
      ((link masterState s.commands).state = .ddr ∨ (link masterState s.commands).state = .normAct →
        result = .success) ∧ result ≠ .nak := by
  unfold Blocking.endMessage emitStop
  rw [h.state]
  by_cases hddr : (link masterState s.commands).state = .ddr
  · rw [if_pos hddr, if_pos hddr, h.waitForCtrlDone]
    exact ⟨[.forceExit], .success, rfl, by simp [busEvents], fun _ => rfl, by decide⟩
  · rw [if_neg hddr, if_neg hddr]
    by_cases hnorm : (link masterState s.commands).state = .normAct
    · rw [if_neg (not_not.mpr hnorm), if_pos hnorm, h.waitForCtrlDone]
      exact ⟨[.stop], .success, rfl, by simp [busEvents], fun _ => rfl, by decide⟩
    · rw [if_pos hnorm, if_neg hnorm]
      refine ⟨[], .invalidReq, ?_, rfl, ?_, by decide⟩
      · simp [Run.tell]
      · rintro (hstate | hstate)
        · exact absurd hstate hddr
        · exact absurd hstate hnorm

lemma tell_tell (s : Run) (cs cs' : List Command) : (s.tell cs).tell cs' = s.tell (cs ++ cs') := by
  simp [Run.tell]

lemma ErrorFree.sendSubaddress (h : ErrorFree c masterState reply) (t : Transfer) (hsize : t.dataSize ≠ 0) (n : Nat)
    (s : Run) :
    ∃ cs, sendSubaddress c t n s = some (s.tell cs, .success) ∧ Quiet cs ∧
      trace cs = subaddressEvents t.subaddress (t.direction = .read ∧ t.busType ≠ .i3cDdr) n := by
  induction n generalizing s with
  | zero => exact ⟨[], by simp [Blocking.sendSubaddress, Run.tell], quiet_nil, rfl⟩
  | succ n ih =>
    rw [Blocking.sendSubaddress, h.waitForTxReady, andThen_success]
    dsimp only
    obtain ⟨b, hb⟩ : ∃ b, b = (t.subaddress >>> (8 * n)).setWidth 8 := ⟨_, rfl⟩
    rw [← hb]
    by_cases hmark : n = 0 ∧ (t.direction = .read ∨ t.dataSize = 0) ∧ t.busType ≠ .i3cDdr
    · obtain ⟨hn, hread, htype⟩ := hmark
      have hread' := hread.resolve_right hsize
      rw [if_pos ⟨hn, hread, htype⟩, h.waitForComplete, andThen_success]
      subst hn
      refine ⟨[.lastByte b], ?_, quiet_lastByte b, ?_⟩
      · simp [Blocking.sendSubaddress]
      · simp [subaddressEvents, busEvents, hread', htype, hb]
    · rw [if_neg hmark]
      obtain ⟨cs, hrun, hquiet, htrace⟩ := ih (s.tell [.byte b])
      refine ⟨[.byte b] ++ cs, ?_, (quiet_byte b).append hquiet, ?_⟩
      · rw [hrun, tell_tell]
      · have hno : (decide (n = 0) && decide (t.direction = .read ∧ t.busType ≠ .i3cDdr)) = false := by
          by_contra htrue
          simp only [Bool.not_eq_false, Bool.and_eq_true, decide_eq_true_eq] at htrue
          exact hmark ⟨htrue.1, Or.inl htrue.2.1, htrue.2.2⟩
        rw [trace_append, htrace, subaddressEvents, hno, ← hb]
        rfl

/-- The data of a write, in bytes or in words. -/
lemma ErrorFree.sendLoop (h : ErrorFree c masterState reply) (enableWord : Bool) (n buffer : Nat) (s : Run) :
    ∃ cs, sendLoop c enableWord n buffer s = some (s.tell cs, .success) ∧ Quiet cs ∧
      trace cs = dataEvents s.memory buffer (if enableWord then 2 * n else n) := by
  induction n generalizing buffer s with
  | zero => exact ⟨[], by simp [Blocking.sendLoop, Run.tell], quiet_nil, by cases enableWord <;> rfl⟩
  | succ n ih =>
    rw [Blocking.sendLoop, h.waitForTxReady, andThen_success]
    obtain ⟨cs, hrun, hquiet, htrace⟩ := ih (buffer + if enableWord then 2 else 1)
      (s.tell (dataUnit enableWord (n = 0) s.memory buffer))
    have hunit : Quiet (dataUnit enableWord (n = 0) s.memory buffer) ∧
        trace (dataUnit enableWord (n = 0) s.memory buffer) =
          if enableWord then [.byte (s.memory buffer) false, .byte (s.memory (buffer + 1)) (n = 0)]
          else [.byte (s.memory buffer) (n = 0)] := by
      cases enableWord <;> by_cases hn : n = 0 <;>
        simp [dataUnit, hn, trace, busEvents, Quiet, Link.after]
    refine ⟨dataUnit enableWord (n = 0) s.memory buffer ++ cs, ?_, hunit.1.append hquiet, ?_⟩
    · rw [hrun, tell_tell]
    · rw [trace_append, hunit.2, htrace]
      cases enableWord with
      | false => rfl
      | true =>
        have hdouble : 2 * (n + 1) = 2 * n + 1 + 1 := by omega
        have hfirst : decide (2 * n + 1 = 0) = false := rfl
        have hmark : decide (2 * n = 0) = decide (n = 0) := by simp
        simp only [if_true, hdouble, dataEvents, hfirst, hmark]
        rfl

end Functions

/-- What ends a message in a state of the bus. -/
def endEvents (flags : Flags) (state : MasterState) : List BusEvent :=
  if flags.noStop then [] else if state = .ddr then [.exit] else if state = .normAct then [.stop] else []

/-- A read so far, from the state `start` of the run on. -/
structure Receiving (masterState : MasterState) (reply : Nat → BitVec 8) (flags : Flags) (size : Nat) (start : Run)
    (x : Receive) : Prop where
  read : x.run.read + x.rxSize = size
  memory : ∀ i, x.run.memory i = if i < x.run.read then reply i else start.memory i
  commands : trace x.run.commands =
    trace start.commands ++ if x.completed then endEvents flags (link masterState start.commands).state else []
  state : x.completed = false → (link masterState x.run.commands).state = (link masterState start.commands).state

section Receive

variable {c : Controller} {masterState : MasterState} {reply : Nat → BitVec 8} {flags : Flags} {size : Nat} {start : Run}
  {x : Receive} {p : Shown}

lemma Receiving.receiveData (h : Receiving masterState reply flags size start x) (isRxAutoTerm : Bool)
    (hreply : ∀ b, p.rx = some b → b = reply x.run.read) :
    Receiving masterState reply flags size start (receiveData flags isRxAutoTerm p x) ∧
      (receiveData flags isRxAutoTerm p x).completed = x.completed ∧
      (receiveData flags isRxAutoTerm p x).rxSize = x.rxSize - if p.rx.isSome then 1 else 0 := by
  unfold Blocking.receiveData
  cases hrx : p.rx with
  | none => exact ⟨h, rfl, rfl⟩
  | some b =>
    dsimp only
    by_cases hzero : x.rxSize = 0
    · rw [if_neg (not_not.mpr hzero)]
      exact ⟨h, rfl, by simp [hzero]⟩
    · rw [if_pos hzero]
      refine ⟨?_, rfl, rfl⟩
      have hread := h.read
      -- the termination is no event, and the bus stays in its state
      obtain ⟨cs, hquiet, htrace, hrun⟩ : ∃ cs, Quiet cs ∧ trace cs = [] ∧
          (takeByte flags isRxAutoTerm b x).run = ⟨Function.update x.run.memory x.run.read b, x.run.commands ++ cs,
            x.run.read + 1⟩ := by
        unfold takeByte
        dsimp only
        split_ifs
        · exact ⟨[.readTerm], quiet_readTerm, rfl, rfl⟩
        · exact ⟨[], quiet_nil, rfl, by rw [List.append_nil]⟩
      constructor
      · rw [hrun]
        change x.run.read + 1 + (x.rxSize - 1) = size
        omega
      · intro i
        rw [hrun]
        dsimp only
        by_cases hi : i = x.run.read
        · subst hi
          rw [Function.update_self, if_pos (Nat.lt_succ_self _), hreply b hrx]
        · rw [Function.update_of_ne hi, h.memory i]
          by_cases hlt : i < x.run.read
          · rw [if_pos hlt, if_pos (by omega)]
          · rw [if_neg hlt, if_neg (by omega)]
      · rw [hrun, trace_append, htrace, List.append_nil]
        exact h.commands
      · intro hcompleted
        rw [hrun, hquiet.link_state]
        exact h.state hcompleted

/-- The rounds that are left at most. -/
def receiveVariant (x : Receive) : Nat :=
  x.rxSize + if x.completed then 0 else 1

/-- One round ends the read, or goes on with less left to do. -/
lemma receiveRound_spec (hfree : ErrorFree c masterState reply) (isRxAutoTerm : Bool)
    (hstate : (link masterState start.commands).state = .ddr ∨ (link masterState start.commands).state = .normAct)
    (h : Receiving masterState reply flags size start x) :
    (∃ x', receiveRound c flags isRxAutoTerm x = .inl x' ∧ Receiving masterState reply flags size start x' ∧
        receiveVariant x' < receiveVariant x) ∨
      (x.rxSize = 0 ∧ x.completed = true ∧ receiveRound c flags isRxAutoTerm x = .inr (some (x.run, .success))) := by
  unfold receiveRound
  by_cases hend : x.rxSize = 0 ∧ x.completed = true
  · rw [if_pos hend]
    exact Or.inr ⟨hend.1, hend.2, rfl⟩
  · rw [if_neg hend]
    left
    have hasks : Await.receive (x.rxSize ≠ 0) (!x.completed) ≠ .receive false false := by
      intro heq
      obtain ⟨hdata, hcompleted⟩ := Await.receive.inj heq
      exact hend ⟨by simpa using hdata, by simpa using hcompleted⟩
    obtain ⟨p, hp, hloop, hanswer⟩ := receiveLoop_found (hfree.errors _ _ _)
      (hfree.answers (.receive (x.rxSize ≠ 0) (!x.completed)) x.run.commands x.run.read hasks)
    have herror : checkAndClearError p.errors = .success := by rw [hfree.errors _ _ _ p hp]; rfl
    have hreply := hfree.reply _ _ _ p hp
    simp only [hloop, herror, ne_eq, not_true_eq_false, if_false]
    by_cases hcomplete : x.completed = false ∧ p.complete = true
    · rw [if_pos hcomplete]
      obtain ⟨s, hs, hends⟩ : ∃ s : Run, (if flags.noStop = false then endMessage c false x.run
          else some (x.run, .success)) = some (s, .success) ∧ s.memory = x.run.memory ∧ s.read = x.run.read ∧
            trace s.commands = trace x.run.commands ++ endEvents flags (link masterState start.commands).state := by
        cases hstop : flags.noStop with
        | true => exact ⟨x.run, by simp, rfl, rfl, by simp [endEvents, hstop]⟩
        | false =>
          obtain ⟨cs, result, hrun, htrace, hresult, -⟩ := hfree.endMessage false x.run
          rw [h.state hcomplete.1] at htrace hresult
          refine ⟨x.run.tell cs, ?_, rfl, rfl, ?_⟩
          · rw [if_pos rfl, hrun, hresult hstate]
          · change trace (x.run.commands ++ cs) = _
            rw [trace_append, htrace]
            simp [endEvents, hstop]
      obtain ⟨hmemory, hread, htrace⟩ := hends
      rw [hs]
      simp only [not_true_eq_false, if_false]
      have hnext : Receiving masterState reply flags size start { x with run := s, completed := true } := by
        constructor
        · dsimp only
          rw [hread]
          exact h.read
        · intro i
          dsimp only
          rw [hmemory, hread]
          exact h.memory i
        · dsimp only
          have hbefore := h.commands
          rw [hcomplete.1, if_neg Bool.false_ne_true, List.append_nil] at hbefore
          rw [htrace, hbefore, if_pos rfl]
        · intro hfalse
          cases hfalse
      obtain ⟨hdata, hcompleted, hsize⟩ := hnext.receiveData isRxAutoTerm (p := p) (by
        dsimp only
        rw [hread]
        exact hreply)
      refine ⟨_, rfl, hdata, ?_⟩
      rw [receiveVariant, receiveVariant, hcompleted, hsize, hcomplete.1]
      simp only [if_true, Bool.false_eq_true, if_false]
      omega
    · rw [if_neg hcomplete]
      obtain ⟨hdata, hcompleted, hsize⟩ := h.receiveData isRxAutoTerm hreply
      refine ⟨_, rfl, hdata, ?_⟩
      rcases hanswer with ⟨hwaits, hdone⟩ | ⟨hwaits, hbyte⟩
      · exact absurd ⟨by simpa using hwaits, hdone⟩ hcomplete
      · have hpos : x.rxSize ≠ 0 := by simpa using hwaits
        rw [receiveVariant, receiveVariant, hcompleted, hsize, hbyte, if_pos rfl]
        omega

/-- A read stores the answer of the target, and ends its message. -/
lemma masterReceive_returns (start : Run) (hfree : ErrorFree c masterState reply) (flags : Flags) (isRxAutoTerm : Bool) (hsize : size ≠ 0)
    (hread : start.read = 0)
    (hstate : (link masterState start.commands).state = .ddr ∨ (link masterState start.commands).state = .normAct) :
    ∃ s : Run, Returns (fun fuel => masterReceive c fuel size isRxAutoTerm flags start) (s, .success) ∧
      (∀ i, s.memory i = if i < size then reply i else start.memory i) ∧
      trace s.commands = trace start.commands ++ endEvents flags (link masterState start.commands).state := by
  have hstart : Receiving masterState reply flags size start ⟨start, size, false⟩ := by
    constructor
    · rw [hread, Nat.zero_add]
    · intro i
      rw [hread, if_neg (Nat.not_lt_zero i)]
    · simp
    · exact fun _ => rfl
  have hyields : Yields (fun fuel => loop (receiveRound c flags isRxAutoTerm) fuel ⟨start, size, false⟩) fun r =>
      ∃ x, r = some (x.run, .success) ∧ Receiving masterState reply flags size start x ∧ x.rxSize = 0 ∧
        x.completed = true := by
    apply loop_yields (I := Receiving masterState reply flags size start) receiveVariant _ _ hstart
    · intro x x' h hround
      rcases receiveRound_spec hfree isRxAutoTerm hstate h with ⟨x'', hnext, h'', hless⟩ | ⟨-, -, hleave⟩
      · rw [hnext] at hround
        cases hround
        exact ⟨h'', hless⟩
      · rw [hleave] at hround
        cases hround
    · intro x r h hround
      rcases receiveRound_spec hfree isRxAutoTerm hstate h with ⟨x'', hnext, -⟩ | ⟨hzero, hcompleted, hleave⟩
      · rw [hnext] at hround
        cases hround
      · rw [hleave] at hround
        cases hround
        exact ⟨x, rfl, h, hzero, hcompleted⟩
  obtain ⟨r, ⟨bound, hbound⟩, x, rfl, hx, hzero, hcompleted⟩ := hyields
  refine ⟨x.run, ⟨bound, ?_⟩, ?_, ?_⟩
  · intro fuel hfuel
    have hloop := hbound fuel hfuel
    dsimp only at hloop ⊢
    rw [masterReceive, if_neg hsize, hloop, Option.join_some, andThen_success,
      idleLoop_success (hfree.answers .idle x.run.commands x.run.read (by simp))]
    split_ifs <;> rfl
  · intro i
    have hall := hx.read
    rw [hzero, Nat.add_zero] at hall
    rw [hx.memory, hall]
  · rw [hx.commands, hcompleted, if_pos rfl]

/-- A write sends its data, and ends its message. -/
lemma masterSend_returns (start : Run) (hfree : ErrorFree c masterState reply) (flags : Flags) (enableWord : Bool)
    (heven : enableWord = true → size % 2 = 0) :
    ∃ s result, masterSend c size enableWord flags start = some (s, result) ∧ result ≠ .nak ∧ s.memory = start.memory ∧
      trace s.commands = trace start.commands ++
        (dataEvents start.memory 0 size ++ endEvents flags (link masterState start.commands).state) := by
  obtain ⟨cs, hrun, hquiet, htrace⟩ := hfree.sendLoop enableWord (if enableWord then size / 2 else size) 0 start
  have hall : (if enableWord then 2 * if enableWord then size / 2 else size else if enableWord then size / 2 else size) =
      size := by
    cases enableWord with
    | false => rfl
    | true =>
      have h := heven rfl
      simp only [if_true]
      omega
  rw [hall] at htrace
  rw [masterSend, hrun, andThen_success, hfree.waitForComplete, andThen_success]
  cases hstop : flags.noStop with
  | true =>
    refine ⟨start.tell cs, .success, by simp, by decide, rfl, ?_⟩
    change trace (start.commands ++ cs) = _
    simp [htrace, endEvents, hstop]
  | false =>
    obtain ⟨cs', result, hend, htrace', -, hnak⟩ := hfree.endMessage true (start.tell cs)
    have hstate : (link masterState (start.tell cs).commands).state = (link masterState start.commands).state :=
      hquiet.link_state _ _
    rw [hstate] at htrace'
    rw [if_pos rfl, hend, tell_tell]
    refine ⟨_, result, rfl, hnak, rfl, ?_⟩
    change trace (start.commands ++ (cs ++ cs')) = _
    simp [htrace, htrace', endEvents, hstop]

end Receive

/-- What the assertions of the two masters admit, for a transfer with data. -/
structure Accepted (t : Transfer) (enableWord : Bool) : Prop where
  broadcast : t.flags.startWithBroadcastAddr = true → t.flags.noStart = false ∧ t.flags.repeatedStart = false
  noStart : t.flags.noStart = true → Sys.startDirection t = .write
  subaddressSize_le : t.subaddressSize ≤ 4
  even : enableWord = true → t.direction = .write → t.dataSize.toNat % 2 = 0
  dataSize_pos : t.dataSize ≠ 0

section Transfers

variable {c : Controller} {masterState : MasterState} {reply : Nat → BitVec 8} {t : Transfer} {memory : Nat → BitVec 8}

/-- The addresses at the start, and the state of the bus after them. -/
lemma opening_commands (masterState : MasterState) (haccepted : t.flags.startWithBroadcastAddr = true → t.flags.noStart = false) (tSize : Nat) :
    let cs : List Command := (if t.flags.startWithBroadcastAddr then [.start t.busType 0x7E .write 0] else []) ++
      if t.flags.noStart then [] else [.start t.busType t.slaveAddress (Sys.startDirection t) tSize]
    trace cs = opening t ∧
      (link masterState cs).state = if t.flags.noStart then masterState else activeState t.busType := by
  dsimp only
  cases hno : t.flags.noStart with
  | true =>
    have hbroadcast : t.flags.startWithBroadcastAddr = false := by
      by_contra htrue
      have hfalse := haccepted (Bool.eq_true_of_not_eq_false htrue)
      rw [hno] at hfalse
      cases hfalse
    simp [opening, hno, hbroadcast, link]
  | false =>
    constructor
    · cases hbroadcast : t.flags.startWithBroadcastAddr <;> simp [opening, hno, hbroadcast, busEvents]
    · rw [if_neg Bool.false_ne_true, if_neg Bool.false_ne_true, link_append]
      rfl

lemma ErrorFree.transferPrepare (memory : Nat → BitVec 8) (hfree : ErrorFree c masterState reply)
    (haccepted : t.flags.startWithBroadcastAddr = true → t.flags.noStart = false) (hsize : t.dataSize ≠ 0)
    (isRxAutoTerm : Bool) :
    ∃ cs, transferPrepare c t isRxAutoTerm ⟨memory, [], 0⟩ = some (⟨memory, cs, 0⟩, .success) ∧
      trace cs = opening t ++ (subaddressEvents t.subaddress (t.direction = .read ∧ t.busType ≠ .i3cDdr) t.subaddressSize ++
        if TurnsAround t then [.address t.slaveAddress .read] else []) ∧
      (link masterState cs).state = stateAtEnd t masterState := by
  obtain ⟨htrace, hlink⟩ := opening_commands masterState haccepted (termSize t isRxAutoTerm)
  -- the two addresses
  obtain ⟨cs, hcs⟩ : ∃ cs : List Command, cs = (if t.flags.startWithBroadcastAddr then [.start t.busType 0x7E .write 0] else []) ++
      if t.flags.noStart then [] else
        [.start t.busType t.slaveAddress (Sys.startDirection t) (termSize t isRxAutoTerm)] := ⟨_, rfl⟩
  rw [← hcs] at htrace hlink
  have hstart (f : Run → Result) : (andThen
      (if t.flags.startWithBroadcastAddr then Blocking.startPolling c t.busType 0x7E .write 0 ⟨memory, [], 0⟩
        else some (⟨memory, [], 0⟩, .success)) fun s =>
      andThen
        (if t.flags.noStart = false then
          Blocking.startPolling c t.busType t.slaveAddress (Sys.startDirection t) (termSize t isRxAutoTerm) s
        else some (s, .success)) f) = f ⟨memory, cs, 0⟩ := by
    rw [hcs]
    cases t.flags.startWithBroadcastAddr <;> cases t.flags.noStart <;> simp [hfree.startPolling, andThen, Run.tell]
  rw [Blocking.transferPrepare, hstart]
  by_cases hsub : t.subaddressSize = 0
  · rw [if_neg (not_not.mpr hsub)]
    have hturn : ¬ TurnsAround t := fun h => h.1 hsub
    refine ⟨cs, rfl, ?_, ?_⟩
    · rw [htrace, hsub, if_neg hturn]
      simp [subaddressEvents]
    · rw [hlink, stateAtEnd]
      simp [hturn]
  · rw [if_pos hsub]
    obtain ⟨cs', hrun, hquiet, htrace'⟩ := hfree.sendSubaddress t hsize t.subaddressSize ⟨memory, cs, 0⟩
    rw [hrun, andThen_success]
    have hlink' : (link masterState (cs ++ cs')).state = if t.flags.noStart then masterState else activeState t.busType :=
      (hquiet.link_state masterState cs).trans hlink
    by_cases hturn : t.busType ≠ .i3cDdr ∧ t.direction = .read
    · have hturns : TurnsAround t := ⟨hsub, hturn.1, hturn.2⟩
      rw [if_pos hturn, hfree.startPolling, if_pos hturns]
      refine ⟨_, rfl, ?_, ?_⟩
      · change trace (cs ++ cs' ++ [_]) = _
        simp [htrace, htrace', busEvents]
      · change (link masterState (cs ++ cs' ++ [_])).state = _
        rw [link_append, stateAtEnd, if_neg (fun h => h.2 hturns)]
        rfl
    · have hturns : ¬ TurnsAround t := fun h => hturn h.2
      rw [if_neg hturn, if_neg hturns]
      refine ⟨cs ++ cs', rfl, ?_, ?_⟩
      · simp [htrace, htrace']
      · rw [hlink', stateAtEnd]
        simp [hturns]

/-- A read has been started. -/
lemma stateAtEnd_of_read (masterState : MasterState) (haccepted : t.flags.noStart = true → Sys.startDirection t = .write)
    (hread : t.direction = .read) : stateAtEnd t masterState = activeState t.busType := by
  rw [stateAtEnd, if_neg]
  rintro ⟨hno, hturn⟩
  have hwrite := haccepted hno
  unfold Sys.startDirection at hwrite
  unfold TurnsAround at hturn
  by_cases htype : t.busType = .i3cDdr <;> by_cases hsub : t.subaddressSize = 0 <;> simp_all

/-- The blocking master puts its transaction on the bus, and a read stores the answer of the target. -/
theorem transferBlocking_returns (hfree : ErrorFree c masterState reply) {enableWord : Bool}
    (haccepted : Accepted t enableWord) (havailable : Sys.busAvailable t.busType masterState = true)
    (memory : Nat → BitVec 8) :
    ∃ s result, Returns (fun fuel => transferBlocking c fuel t enableWord ⟨memory, [], 0⟩) (s, result) ∧
      trace s.commands = blockingTransaction t memory masterState ∧
      ∀ i, s.memory i = if t.direction = .read ∧ i < t.dataSize.toNat then reply i else memory i := by
  have hsize : t.dataSize.toNat ≠ 0 := by
    intro hzero
    exact haccepted.dataSize_pos (BitVec.eq_of_toNat_eq hzero)
  obtain ⟨isRxAutoTerm, hterm⟩ : ∃ isRxAutoTerm, isRxAutoTerm = decide (t.flags.disableRxTerm = false ∧ t.dataSize ≤ 255) :=
    ⟨_, rfl⟩
  obtain ⟨cs, hprepare, htrace, hstate⟩ := hfree.transferPrepare memory (fun h => (haccepted.broadcast h).1)
    haccepted.dataSize_pos isRxAutoTerm
  have hbus : Sys.busAvailable t.busType (c.state []) = true := by
    rw [hfree.state]
    exact havailable
  -- the data, after the addresses
  have hall : ∃ s result, Returns (fun fuel => andThen (transferPrepare c t isRxAutoTerm ⟨memory, [], 0⟩) fun s =>
      if t.direction = .write ∧ t.dataSize ≠ 0 then masterSend c t.dataSize.toNat enableWord t.flags s
      else if t.direction = .read then masterReceive c fuel t.dataSize.toNat isRxAutoTerm t.flags s
      else if t.flags.noStop = false then emitStop c true s
      else some (s, .success)) (s, result) ∧ result ≠ .nak ∧
      trace s.commands = blockingTransaction t memory masterState ∧
      ∀ i, s.memory i = if t.direction = .read ∧ i < t.dataSize.toNat then reply i else memory i := by
    simp only [hprepare, andThen_success]
    cases hdir : t.direction with
    | write =>
      obtain ⟨s, result, hsend, hnak, hmemory, htrace'⟩ := masterSend_returns ⟨memory, cs, 0⟩ hfree t.flags
        enableWord (fun h => haccepted.even h hdir)
      refine ⟨s, result, ⟨0, fun fuel _ => ?_⟩, hnak, ?_, fun i => ?_⟩
      · simp only [true_and, if_pos haccepted.dataSize_pos]
        exact hsend
      · have hturn : ¬ TurnsAround t := fun h => by
          have hread := h.2.2
          rw [hdir] at hread
          cases hread
        rw [htrace', htrace, hstate]
        simp [blockingTransaction, transaction, payload, hturn, hdir, endEvents, blockingEnding]
      · rw [hmemory]
        simp
    | read =>
      have hactive := stateAtEnd_of_read masterState haccepted.noStart hdir
      obtain ⟨s, hreceive, hmemory, htrace'⟩ := masterReceive_returns ⟨memory, cs, 0⟩ hfree t.flags isRxAutoTerm
        hsize rfl (by
          rw [hstate, hactive]
          unfold activeState
          split_ifs
          · exact Or.inl rfl
          · exact Or.inr rfl)
      refine ⟨s, .success, ?_, by decide, ?_, fun i => ?_⟩
      · simpa using hreceive
      · rw [htrace', htrace, hstate]
        simp [blockingTransaction, transaction, payload, hdir, endEvents, blockingEnding]
      · rw [hmemory]
        simp
  obtain ⟨s, result, ⟨bound, hbound⟩, hnak, hpost⟩ := hall
  refine ⟨s, result, ⟨bound, ?_⟩, hpost⟩
  intro fuel hfuel
  have hrun := hbound fuel hfuel
  dsimp only at hrun ⊢
  rw [transferBlocking, if_neg (by rw [hbus]; decide)]
  dsimp only
  rw [← hterm, hrun, stopAfterNak, Option.bind_some]
  exact if_neg hnak

end Transfers

end McuxDrivers.I3c.Blocking
