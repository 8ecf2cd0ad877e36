import McuxDrivers.Lin.TransferPhases

/-!
# The status of a transfer

The steps of a node from the start of a non-blocking transfer to the next one, and the runs in which the status
functions stay truthful.
-/

namespace McuxDrivers.Lin
open McuxDrivers.Lib

section Steps

variable {d : Direction} {n : Node} {buff size : Nat} {l : Log} {c : Call}

lemma processFrame_sendData (hstate : n.currentNodeState = .sendData) {txEmpty : Bool} {b : UInt8} :
    n.processFrame txEmpty b = n.processSendFrameData txEmpty b := by
  unfold Node.processFrame
  rw [hstate]

lemma processFrame_recvData (hstate : n.currentNodeState = .recvData) {txEmpty : Bool} {b : UInt8} :
    n.processFrame txEmpty b = n.processReceiveFrameData b := by
  unfold Node.processFrame
  rw [hstate]

/-- An interrupt that does not bring a byte. -/
lemma logStep_irq {irq : Irq} (hnot : ¬ irq.Byte l.node) :
    d.logStep l (.op (.irqHandler irq)) = { l with node := l.node.irqHandler irq } := by
  have hbyte : d.byte l.node (.op (.irqHandler irq)) = [] := if_neg (fun hand => hnot hand.2)
  unfold Direction.logStep
  rw [hbyte, List.append_nil]
  exact congrArg (Log.mk _ _) (Bool.or_false _)

lemma Pending.not_truthful (h : Pending d n buff size l) {m : Node}
    (hevent : m.currentEventId ≠ .noEvent ∧ m.currentEventId ≠ .timeoutError) :
    ¬ d.Truthful n buff size { l with node := m } := by
  refine not_truthful_of_told hevent ?_
  intro hcomplete
  have hlength := hcomplete.length
  have hmore := h.more
  dsimp only at hlength
  omega

lemma Pending.state_ne (h : Pending d n buff size l) :
    l.node.currentNodeState ≠ .sleepMode ∧ l.node.currentNodeState ≠ .sendBreakField := by
  rw [h.state]
  cases d <;> decide

/-- A break: the master goes on, the slave turns to the next header. -/
lemma pending_break (h : Pending d n buff size l) {irq : Irq} (hbreak : irq.linBreak = true) :
    (¬ Raises l.node (.op (.irqHandler irq)) → Phase d n buff size (d.logStep l (.op (.irqHandler irq)))) ∧
      (Raises l.node (.op (.irqHandler irq)) → ¬ d.Truthful n buff size (d.logStep l (.op (.irqHandler irq)))) := by
  have hproc : l.node.irqHandler irq = l.node.processBreakDetect := if_pos hbreak
  rw [logStep_irq (fun hbyte => absurd hbyte.1 (by simp [hbreak])), hproc]
  by_cases hmaster : l.node.master = true
  · have hbusy : l.node.processBreakDetect = { l.node with isBusBusy := true } := by
      unfold Node.processBreakDetect
      dsimp only
      rw [if_neg h.state_ne.1, if_pos hmaster, if_neg h.state_ne.2]
    have hkept : l.node.processBreakDetect.unfinished = l.node.unfinished := by
      rw [hbusy]
      unfold Node.unfinished
      rw [h.busy]
    refine ⟨fun _ => Or.inl (h.of_node hkept ?_), fun hraises => ?_⟩
    · rw [hbusy]
      exact h.flag
    · simp [Raises, Irq.Byte, hbreak, hmaster] at hraises
  · have hevent : l.node.processBreakDetect.currentEventId = .recvBreakFieldOk := by
      unfold Node.processBreakDetect
      dsimp only
      rw [if_neg h.state_ne.1, if_neg hmaster]
      simp
    refine ⟨fun hsilent => ?_, fun _ => h.not_truthful ?_⟩
    · exact absurd (Or.inl ⟨hbreak, h.state_ne.1, Bool.not_eq_true _ ▸ hmaster⟩) hsilent
    · rw [hevent]
      decide

/-- A byte: the transfer of its direction gets it. -/
lemma pending_byte (h : Pending d n buff size l) (hsize : size ≤ 8) {irq : Irq} (hbyte : irq.Byte l.node) :
    (¬ Raises l.node (.op (.irqHandler irq)) → Phase d n buff size (d.logStep l (.op (.irqHandler irq)))) ∧
      (Raises l.node (.op (.irqHandler irq)) → ¬ d.Truthful n buff size (d.logStep l (.op (.irqHandler irq)))) := by
  obtain ⟨hbreak, hedge, hframe, hfull⟩ := hbyte
  have hraises_iff : Raises l.node (.op (.irqHandler irq)) ↔ RaisesByte l.node irq.txDataRegEmpty irq.data := by
    simp [Raises, Irq.Byte, hbreak, hedge, hframe, hfull]
  have hproc : l.node.irqHandler irq = l.node.processFrame irq.txDataRegEmpty irq.data := by
    unfold Node.irqHandler
    rw [if_neg (by simp [hbreak]), if_neg hedge, if_neg (by simp [hframe]), if_pos hfull]
  rw [hraises_iff]
  cases d with
  | transmit =>
    have hstate : l.node.currentNodeState = .sendData := h.state
    have hstep : Direction.logStep .transmit l (.op (.irqHandler irq)) =
        { node := l.node.processSendFrameData irq.txDataRegEmpty irq.data
          taken := l.taken ++ if irq.txDataRegEmpty then [irq.data] else [], expired := l.expired } := by
      have hdata : Direction.byte l.node .transmit (.op (.irqHandler irq)) =
          if irq.txDataRegEmpty then [irq.data] else [] := if_pos ⟨hstate, hbreak, hedge, hframe, hfull⟩
      have hnode : call l.node (.op (.irqHandler irq)) = l.node.processSendFrameData irq.txDataRegEmpty irq.data :=
        hproc.trans (processFrame_sendData hstate)
      unfold Direction.logStep
      rw [hdata, hnode]
      exact congrArg (Log.mk _ _) (Bool.or_false _)
    have hbad : RaisesByte l.node irq.txDataRegEmpty irq.data ↔
        irq.txDataRegEmpty = false ∨ l.node.progress.Mismatch l.node.memory irq.data := by
      simp [RaisesByte, hstate]
    rw [hstep, hbad]
    refine ⟨fun hgood => ?_, sending_told h hsize⟩
    obtain ⟨hempty, hmatch⟩ := not_or.mp hgood
    rw [Bool.not_eq_false] at hempty
    rw [hempty]
    exact sending_byte h hsize hmatch
  | receive =>
    have hstate : l.node.currentNodeState = .recvData := h.state
    have hstep : Direction.logStep .receive l (.op (.irqHandler irq)) =
        { node := l.node.processReceiveFrameData irq.data, taken := l.taken ++ [irq.data], expired := l.expired } := by
      have hdata : Direction.byte l.node .receive (.op (.irqHandler irq)) = [irq.data] :=
        if_pos ⟨hstate, hbreak, hedge, hframe, hfull⟩
      have hnode : call l.node (.op (.irqHandler irq)) = l.node.processReceiveFrameData irq.data :=
        hproc.trans (processFrame_recvData hstate)
      unfold Direction.logStep
      rw [hdata, hnode]
      exact congrArg (Log.mk _ _) (Bool.or_false _)
    rw [hstep]
    exact ⟨receiving_byte h hsize, receiving_told h hsize⟩

/-- An interrupt in a transfer: it gives a byte, or an event, or nothing. -/
lemma pending_irq (h : Pending d n buff size l) (hsize : size ≤ 8) (irq : Irq) :
    (¬ Raises l.node (.op (.irqHandler irq)) → Phase d n buff size (d.logStep l (.op (.irqHandler irq)))) ∧
      (Raises l.node (.op (.irqHandler irq)) → ¬ d.Truthful n buff size (d.logStep l (.op (.irqHandler irq)))) := by
  have hidle (hnot : ¬ irq.Byte l.node) (hsame : l.node.irqHandler irq = l.node) :
      Phase d n buff size (d.logStep l (.op (.irqHandler irq))) := by
    rw [logStep_irq hnot, hsame]
    exact Or.inl h
  by_cases hbreak : irq.linBreak = true
  · exact pending_break h hbreak
  have hnobreak : irq.linBreak = false := Bool.not_eq_true _ ▸ hbreak
  by_cases hedge : irq.rxActiveEdge = true ∧ l.node.activeEdgeInt = true
  · have hsame : l.node.irqHandler irq = l.node := by
      unfold Node.irqHandler
      rw [if_neg hbreak, if_pos hedge, if_neg h.state_ne.1]
    refine ⟨fun _ => hidle (fun hbyte => hbyte.2.1 hedge) hsame, fun hraises => ?_⟩
    simp [Raises, Irq.Byte, hnobreak, hedge, h.state_ne.1] at hraises
  by_cases hframe : irq.framingError = true
  · have hproc : l.node.irqHandler irq = l.node.framingError := by
      unfold Node.irqHandler
      rw [if_neg hbreak, if_neg hedge, if_pos hframe]
    rw [logStep_irq (fun hbyte => absurd hbyte.2.2.1 (by simp [hframe])), hproc]
    refine ⟨fun hsilent => ?_, fun _ => h.not_truthful ?_⟩
    · exact absurd (Or.inr (Or.inr (Or.inl ⟨hnobreak, hedge, hframe⟩))) hsilent
    · rw [framingError_event]
      decide
  by_cases hfull : irq.rxDataRegFull = true
  · exact pending_byte h hsize ⟨hnobreak, hedge, Bool.not_eq_true _ ▸ hframe, hfull⟩
  · have hsame : l.node.irqHandler irq = l.node := by
      unfold Node.irqHandler
      rw [if_neg hbreak, if_neg hedge, if_neg hframe, if_neg hfull]
    refine ⟨fun _ => hidle (fun hbyte => hfull hbyte.2.2.2) hsame, fun hraises => ?_⟩
    simp [Raises, Irq.Byte, hnobreak, hedge, hframe, hfull] at hraises

/-- A tick of the timeout counts down or ends the transfer. -/
lemma pending_timeoutService (h : Pending d n buff size l) : Phase d n buff size (d.logStep l (.op .timeoutService)) := by
  have hexpires : d.expires l.node (.op .timeoutService) = decide (l.node.timeoutCounter = 0) := by
    simp [Direction.expires, h.state]
  have hbyte : d.byte l.node (.op .timeoutService) = [] := rfl
  unfold Direction.logStep
  rw [hbyte, List.append_nil, hexpires]
  by_cases hzero : l.node.timeoutCounter = 0
  · rw [decide_eq_true hzero, Bool.or_true]
    have hended : Outside l.node.timeoutService ∧ l.node.timeoutService.transfer = l.node.transfer ∧
        l.node.timeoutService.currentEventId = l.node.currentEventId := by
      have hstate := h.state
      unfold Node.timeoutService
      cases d with
      | transmit =>
        rw [hstate]
        dsimp only [Direction.state]
        rw [if_pos hzero]
        refine ⟨Outside.of_eq (s := .idle) rfl (by decide), ?_, ?_⟩
        · split_ifs
          · exact Node.report_transfer _
          · exact Node.report_transfer _
        · split_ifs <;> simp [Node.gotoIdleState]
      | receive =>
        rw [hstate]
        dsimp only [Direction.state]
        rw [if_pos hzero]
        refine ⟨Outside.of_eq (s := .idle) rfl (by decide), ?_, ?_⟩
        · split_ifs
          · exact Node.report_transfer _
          · exact Node.report_transfer _
        · split_ifs <;> simp [Node.gotoIdleState]
    exact h.ended hended.1 hended.2.1 hended.2.2 (fun _ => rfl)
  · rw [decide_eq_false hzero, Bool.or_false]
    have hcounted : l.node.timeoutService = { l.node with timeoutCounter := l.node.timeoutCounter - 1 } := by
      cases d with
      | transmit =>
        have hstate : l.node.currentNodeState = .sendData := h.state
        simp [Node.timeoutService, hstate, hzero]
      | receive =>
        have hstate : l.node.currentNodeState = .recvData := h.state
        simp [Node.timeoutService, hstate, hzero]
    rw [call, step, hcounted]
    exact Or.inl (h.of_node rfl h.flag)

lemma autoBaudCapture_transfer (hstate : n.currentNodeState = d.state) (tmpTime : Nat) :
    (n.autoBaudCapture tmpTime).1.unfinished = n.unfinished ∧
      (n.autoBaudCapture tmpTime).1.timeoutCounterFlag = n.timeoutCounterFlag ∧
      ¬ Raises n (.op (.autoBaudCapture tmpTime)) := by
  have hother : n.currentNodeState ≠ .sleepMode ∧ n.currentNodeState ≠ .idle ∧ n.currentNodeState ≠ .recvSync := by
    rw [hstate]
    cases d <;> decide
  have hkept : (n.autoBaudCapture tmpTime).1.unfinished = n.unfinished ∧
      (n.autoBaudCapture tmpTime).1.timeoutCounterFlag = n.timeoutCounterFlag := by
    have hcapture := autoBaudCapture_captured n tmpTime
    generalize (n.autoBaudCapture tmpTime).1 = m at hcapture ⊢
    cases hcapture with
    | disabled => exact ⟨rfl, rfl⟩
    | overflow => exact ⟨rfl, rfl⟩
    | first => exact ⟨rfl, rfl⟩
    | wakeup _ _ hsleep => exact absurd hsleep hother.1
    | breakField _ _ hidle => exact absurd hidle hother.2.1
    | noise => exact ⟨rfl, rfl⟩
    | measured =>
      unfold Node.autobaudTimerValEval Node.counted
      rw [if_neg hother.2.2]
      exact ⟨rfl, rfl⟩
  refine ⟨hkept.1, hkept.2, ?_⟩
  rintro ⟨-, -, -, hedge⟩
  rcases hedge with ⟨hsleep, -⟩ | ⟨hidle, -⟩ | ⟨hsync, -⟩
  · exact hother.1 hsleep
  · exact hother.2.1 hidle
  · exact hother.2.2 hsync

/-- One step of a transfer that has no fault so far. -/
lemma pending_step (h : Pending d n buff size l) (hsize : size ≤ 8) (hstarts : ¬ Starts l.node c) :
    (¬ Raises l.node c → Phase d n buff size (d.logStep l c)) ∧
      (Raises l.node c → ¬ d.Truthful n buff size (d.logStep l c)) := by
  have hplain (c : Call) (hc : d.byte l.node c = [] ∧ d.expires l.node c = false) :
      d.logStep l c = { l with node := call l.node c } := by
    unfold Direction.logStep
    rw [hc.1, hc.2, List.append_nil, Bool.or_false]
  have hsame (c : Call) (hc : d.byte l.node c = [] ∧ d.expires l.node c = false) (hnode : call l.node c = l.node) :
      Phase d n buff size (d.logStep l c) := by
    rw [hplain c hc, hnode]
    exact Or.inl h
  cases c with
  | op op =>
    cases op with
    | sendFrameData txBuff txSize =>
      exact ⟨fun _ => hsame _ ⟨rfl, rfl⟩ (sendFrameData_not_started hstarts), False.elim⟩
    | sendFrameDataBlocking txBuff txSize timeoutMSec =>
      exact ⟨fun _ => hsame _ ⟨rfl, rfl⟩ (sendFrameDataBlocking_not_started hstarts), False.elim⟩
    | receiveFrameData rxBuff rxSize =>
      exact ⟨fun _ => hsame _ ⟨rfl, rfl⟩ (recvFrmData_not_started hstarts), False.elim⟩
    | receiveFrameDataBlocking rxBuff rxSize timeoutMSec =>
      exact ⟨fun _ => hsame _ ⟨rfl, rfl⟩ (recvFrmDataBlocking_not_started hstarts), False.elim⟩
    | masterSendHeader id =>
      have hbusy : (l.node.masterSendHeader id).1 = l.node := by
        unfold Node.masterSendHeader
        split_ifs with hid hbus
        · rfl
        · rfl
        · exact absurd h.busy hbus
      exact ⟨fun _ => hsame _ ⟨rfl, rfl⟩ hbusy, False.elim⟩
    | abortTransferData =>
      refine ⟨fun _ => ?_, False.elim⟩
      have habort : l.node.abortTransferData =
          { l.node.gotoIdleState with isTxBusy := false, isRxBusy := false, isBusBusy := false } := if_pos h.busy
      rw [hplain _ ⟨rfl, rfl⟩, call, step, habort]
      exact h.ended (Outside.of_eq (s := .idle) rfl (by decide)) rfl rfl h.flag
    | ignoreResponse =>
      refine ⟨fun _ => ?_, False.elim⟩
      rw [hplain _ ⟨rfl, rfl⟩]
      exact h.ended (Outside.of_eq (s := .idle) rfl (by decide)) rfl rfl h.flag
    | timeoutService => exact ⟨fun _ => pending_timeoutService h, False.elim⟩
    | autoBaudCapture tmpTime =>
      obtain ⟨hkept, hflag, hsilent⟩ := autoBaudCapture_transfer h.state tmpTime
      refine ⟨fun _ => ?_, fun hraises => absurd hraises hsilent⟩
      rw [hplain _ ⟨rfl, rfl⟩]
      exact Or.inl (h.of_node hkept (fun hset => h.flag (hflag.symm.trans hset)))
    | irqHandler irq => exact pending_irq h hsize irq
  | init =>
    refine ⟨fun _ => ?_, False.elim⟩
    rw [hplain _ ⟨rfl, rfl⟩]
    exact h.ended kept_init.outside kept_init.transfer init_event (fun hset => h.flag (kept_init.flag hset))
  | installCallback callback =>
    refine ⟨fun _ => ?_, False.elim⟩
    rw [hplain _ ⟨rfl, rfl⟩]
    exact Or.inl (h.of_node rfl h.flag)
  | goToSleepMode =>
    refine ⟨fun _ => ?_, False.elim⟩
    rw [hplain _ ⟨rfl, rfl⟩]
    exact h.ended (Outside.of_eq (s := .sleepMode) rfl (by decide)) rfl rfl h.flag
  | sendWakeupSignal =>
    have hbusy : l.node.sendWakeupSignal.1 = l.node := by
      unfold Node.sendWakeupSignal
      rw [if_neg]
      rw [h.busy]
      decide
    exact ⟨fun _ => hsame _ ⟨rfl, rfl⟩ hbusy, False.elim⟩
  | setTimeoutCounter timeoutValue =>
    refine ⟨fun _ => ?_, False.elim⟩
    rw [hplain _ ⟨rfl, rfl⟩]
    exact Or.inl (h.of_node rfl (fun hset => absurd hset Bool.false_ne_true))

lemma phase_truthful (hsize : size ≤ 8) (h : Phase d n buff size l) : d.Truthful n buff size l := by
  rcases h with h | h | h
  · refine truthful_of_noEvent h.event h.total ?_ hsize h.flag
    rw [h.count]
    exact h.more
  · exact truthful_of_noEvent h.event h.total h.count hsize h.flag
  · exact done_truthful h

/-- A step keeps the status right exactly if it is not misreported. -/
lemma phase_step (hsize : size ≤ 8) (h : Phase d n buff size l) (hstarts : ¬ Starts l.node c) :
    (¬ Misreported d l.node c → Phase d n buff size (d.logStep l c)) ∧
      (Misreported d l.node c → ¬ d.Truthful n buff size (d.logStep l c)) := by
  rcases h with h | h | h
  · rw [h.misreported_iff]
    exact pending_step h hsize hstarts
  · have hopen : l.node.cntByte ≠ d.size l.node := by
      have hcount := h.count
      rw [h.total]
      omega
    have hmisreported : Misreported d l.node c ↔ Raises l.node c := and_iff_right hopen
    rw [hmisreported]
    exact ⟨fun hsilent => Or.inr (Or.inl (ended_step h hstarts hsilent)), ended_told h hstarts⟩
  · refine ⟨fun _ => Or.inr (Or.inr (done_step h hstarts)), fun hmisreported => ?_⟩
    exact absurd (h.count.trans h.total.symm) hmisreported.1

end Steps

section Runs

variable {d : Direction} {n : Node} {buff size : Nat}

lemma start_size (hstart : (d.start n buff size).2 = .success) : size ≤ 8 := by
  cases d with
  | transmit =>
    unfold Direction.start Node.sendFrameData at hstart
    dsimp only at hstart
    split_ifs at hstart with herror
    omega
  | receive =>
    unfold Direction.start Node.recvFrmData at hstart
    dsimp only at hstart
    split_ifs at hstart with herror
    omega

lemma pending_start (hstart : (d.start n buff size).2 = .success) (hflag : n.timeoutCounterFlag = false) :
    Pending d n buff size (d.startLog n buff size) := by
  cases d with
  | transmit =>
    have hfirst (hsize : size ≠ 0) : (response n buff size).take 1 = [n.memory buff] := by
      rw [response_take_succ (response_data (by omega))]
      rfl
    unfold Direction.start Node.sendFrameData at hstart
    unfold Direction.startLog Direction.start Node.sendFrameData
    dsimp only at hstart ⊢
    split_ifs at hstart with herror hbusy
    rw [if_neg herror, if_neg hbusy]
    refine ⟨rfl, rfl, rfl, rfl, rfl, Nat.zero_le _, ⟨rfl, rfl, rfl, rfl, ?_⟩, fun hset => ?_⟩
    · exact congrArg (n.written ++ ·) (hfirst (by omega)).symm
    · exact absurd (hflag.symm.trans hset) Bool.false_ne_true
  | receive =>
    have hmemory : stored n.memory buff [] = n.memory := by
      funext x
      exact stored_outside (Nat.lt_or_ge x buff)
    unfold Direction.start Node.recvFrmData at hstart
    unfold Direction.startLog Direction.start Node.recvFrmData
    dsimp only at hstart ⊢
    split_ifs at hstart with herror hbusy
    rw [if_neg herror, if_neg hbusy]
    refine ⟨rfl, rfl, rfl, rfl, rfl, Nat.zero_le _, ⟨rfl, rfl, hmemory.symm⟩, fun hset => ?_⟩
    exact absurd (hflag.symm.trans hset) Bool.false_ne_true

/-- Right after the start, only a timeout flag that is left from before makes the status wrong. -/
lemma start_flag (hstart : (d.start n buff size).2 = .success)
    (htruthful : d.Truthful n buff size (d.startLog n buff size)) : n.timeoutCounterFlag = false := by
  have hsize := start_size hstart
  have hfields : (d.startLog n buff size).node.currentEventId = .noEvent ∧
      d.size (d.startLog n buff size).node = size + 1 ∧ (d.startLog n buff size).node.cntByte = 0 ∧
      (d.startLog n buff size).node.timeoutCounterFlag = n.timeoutCounterFlag := by
    cases d with
    | transmit =>
      unfold Direction.start Node.sendFrameData at hstart
      unfold Direction.startLog Direction.start Node.sendFrameData
      dsimp only at hstart ⊢
      split_ifs at hstart with herror hbusy
      rw [if_neg herror, if_neg hbusy]
      exact ⟨rfl, rfl, rfl, rfl⟩
    | receive =>
      unfold Direction.start Node.recvFrmData at hstart
      unfold Direction.startLog Direction.start Node.recvFrmData
      dsimp only at hstart ⊢
      split_ifs at hstart with herror hbusy
      rw [if_neg herror, if_neg hbusy]
      exact ⟨rfl, rfl, rfl, rfl⟩
  obtain ⟨hevent, htotal, hcount, hflag⟩ := hfields
  rw [← Bool.not_eq_true]
  intro hset
  have hremaining : (d.status (d.startLog n buff size).node).2 ≠ 0 := by
    rw [remaining_eq, htotal, hcount]
    omega
  have htimeout := htruthful.timeout (status_timeout_iff.mpr (Or.inr ⟨hevent, hremaining, hflag.trans hset⟩))
  exact absurd htimeout Bool.false_ne_true

/-- The status of a transfer is right in every state up to the next one, exactly if the timeout flag is clear at the
start and no event comes that is not the end of the transfer before its last byte. -/
theorem status_truthful_iff (d : Direction) (hstart : (d.start n buff size).2 = .success) {calls : List Call}
    (hcalls : EachStep d.logStep (fun l c => ¬ Starts l.node c) (d.startLog n buff size) calls) :
    (∀ front, front <+: calls → d.Truthful n buff size (front.foldl d.logStep (d.startLog n buff size))) ↔
      n.timeoutCounterFlag = false ∧
        EachStep d.logStep (fun l c => ¬ Misreported d l.node c) (d.startLog n buff size) calls := by
  have hsize := start_size hstart
  have hruns (hflag : n.timeoutCounterFlag = false) := forall_front_iff (I := Phase d n buff size)
    (P := d.Truthful n buff size) (fun l h => phase_truthful hsize h)
    (fun l c h hstarts hok => (phase_step hsize h hstarts).1 hok)
    (fun l c h hstarts hbad => (phase_step hsize h hstarts).2 (not_not.mp hbad)) calls
    (Or.inl (pending_start hstart hflag)) hcalls
  refine ⟨fun hall => ?_, fun hok => (hruns hok.1).mpr hok.2⟩
  have hflag := start_flag hstart (hall [] List.nil_prefix)
  exact ⟨hflag, (hruns hflag).mp hall⟩

end Runs

/-- A slave that has got a header. -/
def addressed : Node :=
  [.irqHandler breakIrq, .irqHandler (byteIrq 0x55), .irqHandler (byteIrq (makeParity 5))].foldl step
    (blankNode false).init

/-- The bytes of a response that come back as they were sent. -/
def goodReadback : List Call :=
  [.op (.irqHandler (byteIrq 0)), .op (.irqHandler (byteIrq (makeChecksumByte [0] (makeParity 5))))]

theorem status_truthful_addressed : Direction.Truthful .transmit addressed 0 1
    (goodReadback.foldl (Direction.logStep .transmit) (Direction.startLog .transmit addressed 0 1)) := by
  have hstart : (Direction.start addressed 0 1 .transmit).2 = .success := by decide +kernel
  have hcalls : EachStep (Direction.logStep .transmit) (fun l c => ¬ Starts l.node c)
      (Direction.startLog .transmit addressed 0 1) goodReadback := ⟨fun h => h, fun h => h, trivial⟩
  have hgood : EachStep (Direction.logStep .transmit) (fun l c => ¬ Misreported .transmit l.node c)
      (Direction.startLog .transmit addressed 0 1) goodReadback := by
    refine ⟨?_, ?_, trivial⟩
    · rintro ⟨-, hraises⟩
      unfold Raises at hraises
      revert hraises
      decide +kernel
    · rintro ⟨-, hraises⟩
      unfold Raises at hraises
      revert hraises
      decide +kernel
  exact (status_truthful_iff .transmit hstart hcalls).mpr ⟨by decide +kernel, hgood⟩ _ (List.prefix_refl _)

/-- After a readback error, `LIN_LPUART_GetTransmitStatus` returns `LIN_SUCCESS` with two bytes remaining. -/
theorem getTransmitStatus_readbackError :
    (addressed.sendFrameData 0 1).2 = .success ∧
      (Direction.logStep .transmit (Direction.startLog .transmit addressed 0 1)
        (.op (.irqHandler (byteIrq 1)))).node.getTransmitStatus = (.success, 2) ∧
      ¬ Direction.Complete addressed 0 1 (Direction.logStep .transmit (Direction.startLog .transmit addressed 0 1)
        (.op (.irqHandler (byteIrq 1)))) .transmit := by
  refine ⟨by decide +kernel, by decide +kernel, ?_⟩
  rintro ⟨htaken, -⟩
  revert htaken
  decide +kernel

end McuxDrivers.Lin
