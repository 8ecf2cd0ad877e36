import McuxDrivers.Lin.Flags

/-!
# Sending after other transfers

`LIN_SendFrameData` keeps the `isTxBlocking` of the transfers before it, which the readback errors and the timeout
ask for. `Sender` is a transfer on its own; a node whose flag is clear follows it.
-/

namespace McuxDrivers.Lin

/-- What happens to a transfer: a byte is read back, with or without an empty transmit register, a framing error,
or a tick of the timeout. -/
inductive SendEvent where
  | readback (txEmpty : Bool) (b : UInt8)
  | framingError
  | timeoutService

def SendEvent.op : SendEvent → Op
  | .readback txEmpty b => .irqHandler { byteIrq b with txDataRegEmpty := txEmpty }
  | .framingError => .irqHandler framingErrorIrq
  | .timeoutService => .timeoutService

/-- A call of `LIN_SendFrameData` and what happens then. -/
def sendRun (n : Node) (txBuff txSize : Nat) (events : List SendEvent) : Node :=
  events.foldl (fun n e => step n e.op) (n.sendFrameData txBuff txSize).1

/-- The bytes of a transfer that are not read back yet. -/
structure Progress where
  txBuff : Nat
  txSize : Nat
  cntByte : Nat
  checkSum : UInt8

/-- The byte is not the one that was sent. -/
def Progress.Mismatch (p : Progress) (memory : Nat → UInt8) (b : UInt8) : Prop :=
  (memory p.txBuff ≠ b ∧ (p.txSize + 256 - p.cntByte) % 256 ≠ 1) ∨
    ((p.txSize + 256 - p.cntByte) % 256 = 1 ∧ p.checkSum ≠ b)

instance (p : Progress) (memory : Nat → UInt8) (b : UInt8) : Decidable (p.Mismatch memory b) :=
  inferInstanceAs (Decidable (_ ∨ _))

/-- A transfer without a history: what is under way, the flags, and the events that the callback is called for. -/
structure Sender where
  progress : Option Progress
  isBusBusy : Bool
  isTxBusy : Bool
  timeoutCounter : Nat
  reports : List EventId

namespace Sender

def report (callback : Bool) (s : Sender) (e : EventId) : Sender :=
  { s with reports := s.reports ++ if callback then [e] else [] }

/-- The end of a transfer that frees the bus. -/
def finish (callback : Bool) (s : Sender) (e : EventId) : Sender :=
  { s.report callback e with progress := none, isBusBusy := false, isTxBusy := false }

def start (n : Node) (txBuff txSize : Nat) : Sender :=
  if 8 < txSize ∨ txSize = 0 then
    { progress := none, isBusBusy := false, isTxBusy := false, timeoutCounter := n.timeoutCounter, reports := [] }
  else
    { progress := some
        { txBuff := txBuff
          txSize := txSize + 1
          cntByte := 0
          checkSum := makeChecksumByte (readBytes n.memory txBuff txSize) n.currentPid }
      isBusBusy := true
      isTxBusy := true
      timeoutCounter := n.timeoutCounter
      reports := [] }

/-- The next byte, or the end, after one was read back. -/
def advance (callback : Bool) (s : Sender) (p : Progress) : Sender :=
  let p := { p with txBuff := p.txBuff + 1, cntByte := (p.cntByte + 1) % 256 }
  if p.cntByte < p.txSize then { s with progress := some p } else s.finish callback .txCompleted

def step (memory : Nat → UInt8) (callback : Bool) (s : Sender) (e : SendEvent) : Sender :=
  match s.progress, e with
  | none, .framingError => { s with isBusBusy := false }
  | none, _ => s
  | some p, .readback txEmpty b =>
    if txEmpty = false ∨ p.Mismatch memory b then s.finish callback .readbackError else s.advance callback p
  | some _, .framingError => { s.report callback .frameError with progress := none, isBusBusy := false }
  | some _, .timeoutService =>
    if s.timeoutCounter = 0 then s.finish callback .noEvent else { s with timeoutCounter := s.timeoutCounter - 1 }

end Sender

/-- The node is idle and no transfer is under way. -/
structure Free (n : Node) : Prop where
  state : n.currentNodeState = .idle
  bus : n.isBusBusy = false
  tx : n.isTxBusy = false

/-- What the node `n`, which was `start` before the call, shares with the transfer `s` all the time. -/
structure Shares (start n : Node) (s : Sender) : Prop where
  memory : n.memory = start.memory
  callback : n.callback = start.callback
  blocking : n.isTxBlocking = false
  timeout : n.timeoutCounter = s.timeoutCounter
  reports : n.reports = start.reports ++ s.reports

/-- The node follows the transfer. -/
structure Follows (start n : Node) (s : Sender) : Prop extends Shares start n s where
  bus : n.isBusBusy = s.isBusBusy
  tx : n.isTxBusy = s.isTxBusy
  idle : s.progress = none → n.currentNodeState = .idle
  sending : ∀ p, s.progress = some p → n.currentNodeState = .sendData ∧ n.currentEventId = .noEvent ∧
    n.txBuff = p.txBuff ∧ n.txSize = p.txSize ∧ n.cntByte = p.cntByte ∧ n.checkSum = p.checkSum

section Steps

variable {start n : Node} {s : Sender} {p : Progress}

lemma follows_start {n : Node} (hfree : Free n) (hblocking : n.isTxBlocking = false) (txBuff txSize : Nat) :
    Follows n (n.sendFrameData txBuff txSize).1 (Sender.start n txBuff txSize) := by
  have hawake : n.currentNodeState ≠ .sleepMode := by
    rw [hfree.state]
    decide
  unfold Node.sendFrameData Sender.start
  by_cases hsize : 8 < txSize ∨ txSize = 0
  · rw [if_pos (hsize.imp_right Or.inl), if_pos hsize]
    refine ⟨⟨rfl, rfl, hblocking, rfl, (List.append_nil _).symm⟩, hfree.bus, hfree.tx, fun _ => hfree.state, ?_⟩
    intro p hp
    cases hp
  · have hfit : ¬ (8 < txSize ∨ txSize = 0 ∨ n.currentNodeState = .sleepMode) := by
      rintro (h | h | h)
      · exact hsize (Or.inl h)
      · exact hsize (Or.inr h)
      · exact hawake h
    rw [if_neg hfit, if_neg hsize, if_neg (by rw [hfree.bus]; decide)]
    refine ⟨⟨rfl, rfl, hblocking, rfl, (List.append_nil _).symm⟩, rfl, rfl, ?_, ?_⟩
    · intro hp
      cases hp
    · intro p hp
      cases hp
      exact ⟨rfl, rfl, rfl, rfl, rfl, rfl⟩

lemma Shares.report (h : Shares start n s) (e : EventId) :
    Shares start { n with currentEventId := e }.report (s.report start.callback e) := by
  refine ⟨?_, ?_, ?_, ?_, ?_⟩
  · rw [Node.report_memory]
    exact h.memory
  · rw [Node.report_callback]
    exact h.callback
  · rw [Node.report_isTxBlocking]
    exact h.blocking
  · rw [Node.report_timeoutCounter]
    exact h.timeout
  · unfold Node.report Sender.report
    simp only [h.callback]
    by_cases hcallback : start.callback = true
    · rw [if_pos hcallback, if_pos hcallback, h.reports, List.append_assoc]
    · rw [if_neg hcallback, if_neg hcallback, List.append_nil]
      exact h.reports

/-- The paths that report an event and free the bus. -/
lemma Shares.finish (h : Shares start n s) (e : EventId) :
    Follows start { { n with currentEventId := e }.report with isBusBusy := false, isTxBusy := false }.gotoIdleState
      (s.finish start.callback e) := by
  obtain ⟨hmemory, hcallback, hblocking, htimeout, hreports⟩ := h.report e
  refine ⟨⟨hmemory, hcallback, hblocking, htimeout, hreports⟩, rfl, rfl, fun _ => rfl, ?_⟩
  intro p hp
  cases hp

lemma follows_idle (h : Follows start n s) (hnone : s.progress = none) (e : SendEvent) :
    Follows start (step n e.op) (s.step start.memory start.callback e) := by
  have hstate := h.idle hnone
  unfold Sender.step
  rw [hnone]
  cases e with
  | readback txEmpty b =>
    have hkept : step n (SendEvent.readback txEmpty b).op = n := by
      simp [SendEvent.op, step, Node.irqHandler, byteIrq, breakIrq, Node.processFrame, hstate]
    rw [hkept]
    exact h
  | framingError =>
    have hchanged : step n SendEvent.framingError.op =
        { n with currentEventId := .frameError, isBusBusy := false }.gotoIdleState := by
      simp [SendEvent.op, step, Node.irqHandler, framingErrorIrq, byteIrq, breakIrq, Node.framingError, hstate]
    rw [hchanged]
    refine ⟨⟨h.memory, h.callback, h.blocking, h.timeout, h.reports⟩, rfl, h.tx, fun _ => rfl, ?_⟩
    intro p hp
    cases hp
  | timeoutService =>
    have hkept : step n SendEvent.timeoutService.op = n := by
      simp [SendEvent.op, step, Node.timeoutService, hstate]
    rw [hkept]
    exact h

lemma follows_advance (h : Follows start n s) (hsome : s.progress = some p) :
    Follows start { n with txBuff := n.txBuff + 1, cntByte := (n.cntByte + 1) % 256 }.sendNext
      (s.advance start.callback p) := by
  obtain ⟨hstate, hevent, hbuff, hsize, hcount, hsum⟩ := h.sending p hsome
  have hmore_iff : (n.cntByte + 1) % 256 < n.txSize ↔ (p.cntByte + 1) % 256 < p.txSize := by
    rw [hsize, hcount]
  unfold Node.sendNext Sender.advance
  by_cases hmore : (p.cntByte + 1) % 256 < p.txSize
  · rw [if_pos (hmore_iff.mpr hmore), if_pos hmore]
    have hnext (b : UInt8) : Follows start
        (Node.writeByte { n with txBuff := n.txBuff + 1, cntByte := (n.cntByte + 1) % 256 } b)
        { s with progress := some { p with txBuff := p.txBuff + 1, cntByte := (p.cntByte + 1) % 256 } } := by
      refine ⟨⟨h.memory, h.callback, h.blocking, h.timeout, h.reports⟩, h.bus, h.tx, ?_, ?_⟩
      · intro hp
        cases hp
      · intro q hq
        cases hq
        exact ⟨hstate, hevent, congrArg (· + 1) hbuff, hsize, congrArg (fun c => (c + 1) % 256) hcount, hsum⟩
    split_ifs
    · exact hnext _
    · exact hnext _
  · rw [if_neg (mt hmore_iff.mp hmore), if_neg hmore]
    have hdone : Shares start { n with
        txBuff := n.txBuff + 1
        cntByte := (n.cntByte + 1) % 256
        currentNodeState := .sendDataCompleted } s :=
      ⟨h.memory, h.callback, h.blocking, h.timeout, h.reports⟩
    have hblocking := (hdone.report .txCompleted).blocking
    dsimp only
    rw [if_neg (by rw [hblocking]; decide)]
    exact hdone.finish .txCompleted

lemma follows_readback (h : Follows start n s) (hsome : s.progress = some p) (txEmpty : Bool) (b : UInt8) :
    Follows start (n.processSendFrameData txEmpty b)
      (if txEmpty = false ∨ p.Mismatch start.memory b then s.finish start.callback .readbackError
        else s.advance start.callback p) := by
  obtain ⟨-, -, hbuff, hsize, hcount, hsum⟩ := h.sending p hsome
  have herror : Follows start n.readbackError (s.finish start.callback .readbackError) := by
    unfold Node.readbackError
    dsimp only
    rw [if_pos (h.toShares.report .readbackError).blocking]
    exact h.toShares.finish .readbackError
  have hmismatch : (n.memory n.txBuff ≠ b ∧ (n.txSize + 256 - n.cntByte) % 256 ≠ 1) ∨
      ((n.txSize + 256 - n.cntByte) % 256 = 1 ∧ n.checkSum ≠ b) ↔ p.Mismatch start.memory b := by
    rw [h.memory, hbuff, hsize, hcount, hsum]
    rfl
  unfold Node.processSendFrameData
  cases txEmpty with
  | false =>
    rw [if_pos rfl, if_pos (Or.inl rfl)]
    exact herror
  | true =>
    rw [if_neg (by decide)]
    dsimp only
    by_cases hb : p.Mismatch start.memory b
    · rw [if_pos (hmismatch.mpr hb), if_pos (Or.inr hb)]
      exact herror
    · have hgood : ¬ (true = false ∨ p.Mismatch start.memory b) := by
        rintro (habsurd | hbad)
        · cases habsurd
        · exact hb hbad
      rw [if_neg (mt hmismatch.mp hb), if_neg hgood]
      exact follows_advance h hsome

lemma follows_sending (h : Follows start n s) (hsome : s.progress = some p) (e : SendEvent) :
    Follows start (step n e.op) (s.step start.memory start.callback e) := by
  obtain ⟨hstate, hevent, -⟩ := h.sending p hsome
  unfold Sender.step
  rw [hsome]
  cases e with
  | readback txEmpty b =>
    have hread : step n (SendEvent.readback txEmpty b).op = n.processSendFrameData txEmpty b := by
      simp [SendEvent.op, step, Node.irqHandler, byteIrq, breakIrq, Node.processFrame, hstate]
    rw [hread]
    exact follows_readback h hsome txEmpty b
  | framingError =>
    have hframe : step n SendEvent.framingError.op =
        { { n with currentEventId := .frameError }.report with isBusBusy := false }.gotoIdleState := by
      simp [SendEvent.op, step, Node.irqHandler, framingErrorIrq, byteIrq, breakIrq, Node.framingError, hstate]
    obtain ⟨hmemory, hcallback, hblocking, htimeout, hreports⟩ := h.toShares.report .frameError
    rw [hframe]
    refine ⟨⟨hmemory, hcallback, hblocking, htimeout, hreports⟩, rfl, ?_, fun _ => rfl, ?_⟩
    · exact (Node.report_isTxBusy _).trans h.tx
    · intro q hq
      cases hq
  | timeoutService =>
    have hzero : n.timeoutCounter = 0 ↔ s.timeoutCounter = 0 := by
      rw [h.timeout]
    have htick : step n SendEvent.timeoutService.op =
        if n.timeoutCounter = 0 then
          { { { n with timeoutCounterFlag := true, txCompleted := true } with currentEventId := .noEvent }.report with
            isBusBusy := false, isTxBusy := false }.gotoIdleState
        else { n with timeoutCounter := n.timeoutCounter - 1 } := by
      by_cases hnow : n.timeoutCounter = 0 <;> by_cases hcallback : n.callback = true <;>
        simp [SendEvent.op, step, Node.timeoutService, Node.report, Node.gotoIdleState, hstate, hevent, h.blocking,
          hnow, hcallback]
    rw [htick]
    dsimp only
    by_cases hnow : s.timeoutCounter = 0
    · rw [if_pos (hzero.mpr hnow), if_pos hnow]
      have hshared : Shares start { n with timeoutCounterFlag := true, txCompleted := true } s :=
        ⟨h.memory, h.callback, h.blocking, h.timeout, h.reports⟩
      exact hshared.finish .noEvent
    · rw [if_neg (mt hzero.mp hnow), if_neg hnow]
      refine ⟨⟨h.memory, h.callback, h.blocking, congrArg (· - 1) h.timeout, h.reports⟩, h.bus, h.tx, ?_, ?_⟩
      · intro hp
        cases hp
      · intro q hq
        exact h.sending q (hsome.trans hq)

lemma follows_step (h : Follows start n s) (e : SendEvent) :
    Follows start (step n e.op) (s.step start.memory start.callback e) := by
  rcases hprogress : s.progress with _ | p
  · exact follows_idle h hprogress e
  · exact follows_sending h hprogress e

/-- The transfer that a whole run of `LIN_SendFrameData` follows. -/
def Sender.run (n : Node) (txBuff txSize : Nat) (events : List SendEvent) : Sender :=
  events.foldl (Sender.step n.memory n.callback) (Sender.start n txBuff txSize)

lemma Sender.run_concat (n : Node) (txBuff txSize : Nat) (events : List SendEvent) (e : SendEvent) :
    Sender.run n txBuff txSize (events ++ [e]) =
      (Sender.run n txBuff txSize events).step n.memory n.callback e := by
  unfold Sender.run
  rw [List.foldl_append]
  rfl

lemma follows_events (events : List SendEvent) {n : Node} {s : Sender} (h : Follows start n s) :
    Follows start (events.foldl (fun n e => step n e.op) n)
      (events.foldl (Sender.step start.memory start.callback) s) := by
  induction events generalizing n s with
  | nil => exact h
  | cons e events ih => exact ih (follows_step h e)

end Steps

lemma follows_run {n : Node} (hfree : Free n) (hblocking : n.isTxBlocking = false) (txBuff txSize : Nat)
    (events : List SendEvent) : Follows n (sendRun n txBuff txSize events) (Sender.run n txBuff txSize events) :=
  follows_events events (follows_start hfree hblocking txBuff txSize)

/-- What is left of the transfer of a node. -/
def Node.progress (n : Node) : Progress :=
  { txBuff := n.txBuff, txSize := n.txSize, cntByte := n.cntByte, checkSum := n.checkSum }

/-- A readback error or a timeout. -/
def SendEvent.Fails (n : Node) : SendEvent → Prop
  | .readback txEmpty b => txEmpty = false ∨ n.progress.Mismatch n.memory b
  | .framingError => False
  | .timeoutService => n.timeoutCounter = 0

/-- No readback error and no timeout of a transfer leaves the bus busy. -/
def FreesBus (n : Node) : Prop :=
  ∀ (txBuff txSize : Nat) (events : List SendEvent) (e : SendEvent),
    (sendRun n txBuff txSize events).currentNodeState = .sendData → e.Fails (sendRun n txBuff txSize events) →
    Free (sendRun n txBuff txSize (events ++ [e]))

/-- The callbacks since `start`, the node state and the flags. -/
def observed (start n : Node) : List EventId × NodeState × Bool × Bool :=
  (n.reports.drop start.reports.length, n.currentNodeState, n.isBusBusy, n.isTxBusy)

section Histories

variable {n : Node} {s : Sender}

lemma Follows.observed_eq {start : Node} (h : Follows start n s) : observed start n =
    (s.reports, (if s.progress.isSome then .sendData else .idle), s.isBusBusy, s.isTxBusy) := by
  have hreports : n.reports.drop start.reports.length = s.reports := by
    rw [h.reports, List.drop_left]
  have hstate : n.currentNodeState = if s.progress.isSome then .sendData else .idle := by
    rcases hprogress : s.progress with _ | p
    · exact h.idle hprogress
    · exact (h.sending p hprogress).1
  unfold observed
  rw [hreports, hstate, h.bus, h.tx]

lemma freesBus_of_not_blocking (hfree : Free n) (hblocking : n.isTxBlocking = false) : FreesBus n := by
  intro txBuff txSize events e hsending hfails
  have hrun := follows_run hfree hblocking txBuff txSize events
  have hnext := follows_run hfree hblocking txBuff txSize (events ++ [e])
  rcases hprogress : (Sender.run n txBuff txSize events).progress with _ | p
  · exact absurd ((hrun.idle hprogress).symm.trans hsending) (by decide)
  obtain ⟨-, -, hbuff, hsize, hcount, hsum⟩ := hrun.sending p hprogress
  have hfinish : ∃ id, Sender.run n txBuff txSize (events ++ [e]) =
      (Sender.run n txBuff txSize events).finish n.callback id := by
    rw [Sender.run_concat]
    unfold Sender.step
    rw [hprogress]
    cases e with
    | readback txEmpty b =>
      have hbad : txEmpty = false ∨ p.Mismatch n.memory b := by
        refine hfails.imp_right ?_
        intro hmismatch
        unfold Progress.Mismatch at hmismatch ⊢
        rw [← hbuff, ← hsize, ← hcount, ← hsum, ← hrun.memory]
        exact hmismatch
      exact ⟨.readbackError, if_pos hbad⟩
    | framingError => exact hfails.elim
    | timeoutService => exact ⟨.noEvent, if_pos (hrun.timeout.symm.trans hfails)⟩
  obtain ⟨id, hid⟩ := hfinish
  rw [hid] at hnext
  exact ⟨hnext.idle rfl, hnext.bus, hnext.tx⟩

/-- A blocking transfer of the past keeps the bus after a readback error. -/
lemma not_freesBus_of_blocking (hfree : Free n) (hblocking : n.isTxBlocking = true) : ¬ FreesBus n := by
  intro hfrees
  have hstart : (n.sendFrameData 0 1).1.currentNodeState = .sendData ∧
      (n.sendFrameData 0 1).1.isTxBlocking = true ∧ (n.sendFrameData 0 1).1.isBusBusy = true := by
    simp [Node.sendFrameData, Node.writeByte, hfree.state, hfree.bus, hblocking]
  obtain ⟨hstate, hstill, hbus⟩ := hstart
  have hidle := (hfrees 0 1 [] (.readback false 0) hstate (Or.inl rfl)).bus
  simp [sendRun, SendEvent.op, step, Node.irqHandler, byteIrq, breakIrq, Node.processFrame, hstate,
    Node.processSendFrameData, Node.readbackError, hstill, hbus] at hidle

/-- Ticks of the timeout, and nothing else. -/
lemma run_ticks (n : Node) {k : ℕ} (hk : k ≤ n.timeoutCounter) :
    (Sender.run n 0 1 (List.replicate k .timeoutService)).progress.isSome = true ∧
      (Sender.run n 0 1 (List.replicate k .timeoutService)).timeoutCounter = n.timeoutCounter - k := by
  induction k with
  | zero => exact ⟨rfl, rfl⟩
  | succ k ih =>
    obtain ⟨hsome, hcount⟩ := ih (by omega)
    rw [List.replicate_succ', Sender.run_concat]
    obtain ⟨p, hp⟩ := Option.isSome_iff_exists.mp hsome
    unfold Sender.step
    rw [hp]
    dsimp only
    rw [if_neg (by omega)]
    refine ⟨rfl, ?_⟩
    dsimp only
    omega

lemma run_ticks_expired (n : Node) :
    (Sender.run n 0 1 (List.replicate (n.timeoutCounter + 1) .timeoutService)).progress.isSome = false := by
  obtain ⟨hsome, hcount⟩ := run_ticks n (Nat.le_refl _)
  rw [List.replicate_succ', Sender.run_concat]
  obtain ⟨p, hp⟩ := Option.isSome_iff_exists.mp hsome
  unfold Sender.step
  rw [hp]
  dsimp only
  rw [if_pos (by omega)]
  rfl

end Histories

section TwoHistories

variable {n₁ n₂ : Node}

lemma start_eq (hmemory : n₁.memory = n₂.memory) (hpid : n₁.currentPid = n₂.currentPid)
    (htimeout : n₁.timeoutCounter = n₂.timeoutCounter) (txBuff txSize : Nat) :
    Sender.start n₁ txBuff txSize = Sender.start n₂ txBuff txSize := by
  unfold Sender.start
  rw [hmemory, hpid, htimeout]

/-- The node with the lower counter is idle at the tick at which it expires, the other one is not. -/
lemma observed_ne_of_timeout_lt (h₁ : Free n₁) (h₂ : Free n₂) (hblocking₁ : n₁.isTxBlocking = false)
    (hblocking₂ : n₂.isTxBlocking = false) (hlt : n₁.timeoutCounter < n₂.timeoutCounter) :
    observed n₁ (sendRun n₁ 0 1 (List.replicate (n₁.timeoutCounter + 1) .timeoutService)) ≠
      observed n₂ (sendRun n₂ 0 1 (List.replicate (n₁.timeoutCounter + 1) .timeoutService)) := by
  rw [(follows_run h₁ hblocking₁ _ _ _).observed_eq, (follows_run h₂ hblocking₂ _ _ _).observed_eq]
  intro heq
  have hstates := congrArg (fun o => o.2.1) heq
  dsimp only at hstates
  rw [run_ticks_expired n₁, (run_ticks n₂ hlt).1] at hstates
  exact absurd hstates (by decide)

/-- Two idle nodes that only differ in their histories send alike, and free the bus after every error, exactly when
neither has the flag of a blocking transfer and the timeout counters agree. -/
theorem sends_alike_iff (h₁ : Free n₁) (h₂ : Free n₂) (hmemory : n₁.memory = n₂.memory)
    (hcallback : n₁.callback = n₂.callback) (hpid : n₁.currentPid = n₂.currentPid) :
    ((∀ (txBuff txSize : Nat) (events : List SendEvent),
        observed n₁ (sendRun n₁ txBuff txSize events) = observed n₂ (sendRun n₂ txBuff txSize events)) ∧
      FreesBus n₁ ∧ FreesBus n₂) ↔
      n₁.isTxBlocking = false ∧ n₂.isTxBlocking = false ∧ n₁.timeoutCounter = n₂.timeoutCounter := by
  refine ⟨?_, ?_⟩
  · rintro ⟨hsame, hfrees₁, hfrees₂⟩
    have hblocking₁ : n₁.isTxBlocking = false := by
      rw [← Bool.not_eq_true]
      exact fun hblocking => not_freesBus_of_blocking h₁ hblocking hfrees₁
    have hblocking₂ : n₂.isTxBlocking = false := by
      rw [← Bool.not_eq_true]
      exact fun hblocking => not_freesBus_of_blocking h₂ hblocking hfrees₂
    refine ⟨hblocking₁, hblocking₂, ?_⟩
    rcases Nat.lt_trichotomy n₁.timeoutCounter n₂.timeoutCounter with hlt | heq | hlt
    · exact absurd (hsame _ _ _) (observed_ne_of_timeout_lt h₁ h₂ hblocking₁ hblocking₂ hlt)
    · exact heq
    · exact absurd (hsame _ _ _).symm (observed_ne_of_timeout_lt h₂ h₁ hblocking₂ hblocking₁ hlt)
  · rintro ⟨hblocking₁, hblocking₂, htimeout⟩
    refine ⟨?_, freesBus_of_not_blocking h₁ hblocking₁, freesBus_of_not_blocking h₂ hblocking₂⟩
    intro txBuff txSize events
    have hrun : Sender.run n₁ txBuff txSize events = Sender.run n₂ txBuff txSize events := by
      unfold Sender.run
      rw [start_eq hmemory hpid htimeout, hmemory, hcallback]
    rw [(follows_run h₁ hblocking₁ _ _ _).observed_eq, (follows_run h₂ hblocking₂ _ _ _).observed_eq, hrun]

end TwoHistories

/-- A slave after a header and a response of one byte, which it sends in one call or the other. -/
def respond (send : Op) : Node :=
  [.irqHandler breakIrq, .irqHandler (byteIrq 0x55), .irqHandler (byteIrq (makeParity 5)), send,
    .irqHandler (byteIrq 0), .irqHandler (byteIrq (makeChecksumByte [0] (makeParity 5)))].foldl step
    (blankNode false).init

/-- Two nodes that have sent their responses without a blocking call. -/
theorem sends_alike_iff_respond :
    observed (respond (.sendFrameData 0 1)) (sendRun (respond (.sendFrameData 0 1)) 0 1 [.readback true 1]) =
      observed (respond (.sendFrameData 3 1)) (sendRun (respond (.sendFrameData 3 1)) 0 1 [.readback true 1]) :=
  ((sends_alike_iff ⟨by decide +kernel, by decide +kernel, by decide +kernel⟩
    ⟨by decide +kernel, by decide +kernel, by decide +kernel⟩ rfl rfl (by decide +kernel)).mpr
    ⟨by decide +kernel, by decide +kernel, by decide +kernel⟩).1 0 1 [.readback true 1]

/-- The same readback error ends the transfer of the one node and leaves the other one, which has sent a response
with the blocking call before, in SEND_DATA with a busy bus. -/
theorem readbackError_after_blocking :
    Free (respond (.sendFrameData 0 1)) ∧ Free (respond (.sendFrameDataBlocking 0 1 0)) ∧
      (respond (.sendFrameData 0 1)).currentPid = (respond (.sendFrameDataBlocking 0 1 0)).currentPid ∧
      observed (respond (.sendFrameData 0 1)) (sendRun (respond (.sendFrameData 0 1)) 0 1 [.readback true 1]) =
        ([.readbackError], .idle, false, false) ∧
      observed (respond (.sendFrameDataBlocking 0 1 0))
        (sendRun (respond (.sendFrameDataBlocking 0 1 0)) 0 1 [.readback true 1]) =
        ([.readbackError], .sendData, true, true) :=
  ⟨⟨by decide +kernel, by decide +kernel, by decide +kernel⟩,
    ⟨by decide +kernel, by decide +kernel, by decide +kernel⟩, by decide +kernel, by decide +kernel,
    by decide +kernel⟩

end McuxDrivers.Lin
