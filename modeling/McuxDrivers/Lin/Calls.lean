import McuxDrivers.Lin.SendHistory

/-!
# The calls of a node outside of a transfer

The whole interface of the driver. `Kept` is what a call leaves of the last transfer when none is under way, and
`Raises` says which calls and interrupts give an event.
-/

namespace McuxDrivers.Lin

namespace Node

/-- `LIN_LPUART_GoToSleepMode`. -/
def goToSleepMode (n : Node) : Node :=
  { n with currentNodeState := .sleepMode, rxDataPolarity := false, activeEdgeInt := true }

/-- `LIN_LPUART_SendWakeupSignal`. -/
def sendWakeupSignal (n : Node) : Node × Status :=
  if n.isBusBusy = false then (n.writeByte (UInt8.ofNat n.wakeupSignal), .success) else (n, .busBusy)

end Node

/-- The calls and the interrupts of a node, with the rest of the interface. -/
inductive Call where
  | op (op : Op)
  | init
  | installCallback (callback : Bool)
  | goToSleepMode
  | sendWakeupSignal
  | setTimeoutCounter (timeoutValue : Nat)

def call (n : Node) : Call → Node
  | .op op => step n op
  | .init => n.init
  | .installCallback callback => { n with callback := callback }
  | .goToSleepMode => n.goToSleepMode
  | .sendWakeupSignal => n.sendWakeupSignal.1
  | .setTimeoutCounter timeoutValue => n.setTimeoutCounter timeoutValue

/-- The call starts a transfer. -/
def Starts (n : Node) : Call → Prop
  | .op (.sendFrameData txBuff txSize) => (n.sendFrameData txBuff txSize).2 = .success
  | .op (.sendFrameDataBlocking txBuff txSize timeoutMSec) =>
      (n.sendFrameDataBlocking txBuff txSize timeoutMSec).2 = .success
  | .op (.receiveFrameData rxBuff rxSize) => (n.recvFrmData rxBuff rxSize).2 = .success
  | .op (.receiveFrameDataBlocking rxBuff rxSize timeoutMSec) =>
      (n.recvFrmDataBlocking rxBuff rxSize timeoutMSec).2 = .success
  | _ => False

/-- The interrupt is handled as one for a byte. -/
def Irq.Byte (n : Node) (irq : Irq) : Prop :=
  irq.linBreak = false ∧ ¬ (irq.rxActiveEdge = true ∧ n.activeEdgeInt = true) ∧ irq.framingError = false ∧
    irq.rxDataRegFull = true

instance (n : Node) (irq : Irq) : Decidable (irq.Byte n) :=
  inferInstanceAs (Decidable (_ ∧ _ ∧ _ ∧ _))

/-- The byte gives an event that is not the good end of a transfer. -/
def RaisesByte (n : Node) (txEmpty : Bool) (b : UInt8) : Prop :=
  n.currentNodeState = .recvSync ∨ n.currentNodeState = .recvPid ∨ (n.currentNodeState = .sendPid ∧ b ≠ 0x55) ∨
    (n.currentNodeState = .sendData ∧ (txEmpty = false ∨ n.progress.Mismatch n.memory b)) ∨
    (n.currentNodeState = .recvData ∧ (n.cntByte + 1) % 256 = n.rxSize ∧
      makeChecksumByte (readBytes n.memory (n.rxBuff - (n.rxSize - 1)) (n.rxSize - 1)) n.currentPid ≠ b)

instance (n : Node) (txEmpty : Bool) (b : UInt8) : Decidable (RaisesByte n txEmpty b) :=
  inferInstanceAs (Decidable (_ ∨ _ ∨ _ ∨ _ ∨ _))

/-- The edge, with its interval, is a wakeup signal, a break or the last one of a good sync byte. -/
def RaisesEdge (n : Node) (tmpTime : Nat) : Prop :=
  (n.currentNodeState = .sleepMode ∧ tmpTime ≥ 150000 ∧ tmpTime ≤ 5000000) ∨
    (n.currentNodeState = .idle ∧ tmpTime ≥ 13 * bitDurationMin 192) ∨
    (n.currentNodeState = .recvSync ∧
      (n.evalTwoBitTimeLength (n.timeMeasure + tmpTime)).fallingEdgeInterruptCount > 4 ∧
      masterBaudrate (n.timeMeasure + tmpTime) ≠ 0)

instance (n : Node) (tmpTime : Nat) : Decidable (RaisesEdge n tmpTime) :=
  inferInstanceAs (Decidable (_ ∨ _ ∨ _))

/-- The call, or the interrupt, gives an event that is not the good end of a transfer. -/
def Raises (n : Node) : Call → Prop
  | .op (.autoBaudCapture tmpTime) =>
      n.baudrateEvalEnable = true ∧ n.timeMeasure ≤ 0xFFFFFFFF - tmpTime ∧ (n.countMeasure + 1) % 256 > 1 ∧
        RaisesEdge n tmpTime
  | .op (.irqHandler irq) =>
      (irq.linBreak = true ∧ n.currentNodeState ≠ .sleepMode ∧ n.master = false) ∨
        (irq.linBreak = false ∧ (irq.rxActiveEdge = true ∧ n.activeEdgeInt = true) ∧
          n.currentNodeState = .sleepMode ∧ n.rxDataPolarity = true ∧ irq.interval ≥ 150000 ∧
          irq.interval ≤ 5000000) ∨
        (irq.linBreak = false ∧ ¬ (irq.rxActiveEdge = true ∧ n.activeEdgeInt = true) ∧ irq.framingError = true) ∨
        (irq.Byte n ∧ RaisesByte n irq.txDataRegEmpty irq.data)
  | _ => False

namespace Node

variable (n : Node)

/-- What the status of a transfer and its bytes are read from. -/
def transfer : Nat × Nat × Nat × (Nat → UInt8) :=
  (n.cntByte, n.txSize, n.rxSize, n.memory)

@[simp]
lemma report_transfer : n.report.transfer = n.transfer := by
  unfold report
  split_ifs <;> rfl

@[simp]
lemma report_currentEventId : n.report.currentEventId = n.currentEventId := by
  unfold report
  split_ifs <;> rfl

@[simp]
lemma report_timeoutCounterFlag : n.report.timeoutCounterFlag = n.timeoutCounterFlag := by
  unfold report
  split_ifs <;> rfl

end Node

/-- The node has no transfer under way. -/
def Outside (n : Node) : Prop :=
  n.currentNodeState ≠ .sendData ∧ n.currentNodeState ≠ .recvData

/-- What a step that leaves `m` keeps of the last transfer of `n`. -/
structure Kept (n m : Node) : Prop where
  outside : Outside m
  transfer : m.transfer = n.transfer
  written : n.written <+: m.written
  flag : m.timeoutCounterFlag = true → n.timeoutCounterFlag = true

section Outside

variable {n m k : Node}

lemma Outside.of_eq {s : NodeState} (hstate : m.currentNodeState = s) (hs : s ≠ .sendData ∧ s ≠ .recvData) :
    Outside m := by
  unfold Outside
  rw [hstate]
  exact hs

lemma Kept.refl (h : Outside n) : Kept n n :=
  ⟨h, rfl, List.prefix_refl _, id⟩

lemma Kept.of_same (h : Outside n) (hm : m = n) : Kept n m :=
  hm.symm ▸ Kept.refl h

lemma Kept.trans (h : Kept n m) (h' : Kept m k) : Kept n k :=
  ⟨h'.outside, h'.transfer.trans h.transfer, h.written.trans h'.written, h.flag ∘ h'.flag⟩

/-- A change of the state of the node and of what a transfer does not depend on. -/
lemma Kept.of_eq (h : Outside m) (htransfer : m.transfer = n.transfer) (hwritten : m.written = n.written)
    (hflag : m.timeoutCounterFlag = n.timeoutCounterFlag) : Kept n m := by
  refine ⟨h, htransfer, ?_, ?_⟩
  · exact hwritten.symm ▸ List.prefix_refl _
  · rw [hflag]
    exact id

lemma Kept.of_report {k : Node} (h : Outside m) (htransfer : m.transfer = k.report.transfer)
    (hwritten : m.written = k.report.written) (hflag : m.timeoutCounterFlag = k.report.timeoutCounterFlag)
    (hk : k.transfer = n.transfer ∧ k.written = n.written ∧ k.timeoutCounterFlag = n.timeoutCounterFlag) : Kept n m := by
  rw [Node.report_transfer] at htransfer
  rw [Node.report_written] at hwritten
  rw [Node.report_timeoutCounterFlag] at hflag
  exact Kept.of_eq h (htransfer.trans hk.1) (hwritten.trans hk.2.1) (hflag.trans hk.2.2)

lemma kept_masterSendHeader (h : Outside n) (id : UInt8) : Kept n (n.masterSendHeader id).1 := by
  unfold Node.masterSendHeader
  split_ifs
  · exact Kept.refl h
  · exact Kept.refl h
  · exact Kept.of_eq (Outside.of_eq (s := .sendBreakField) rfl (by decide)) rfl rfl rfl

lemma kept_gotoIdleState : Kept n n.gotoIdleState :=
  Kept.of_eq (Outside.of_eq (s := .idle) rfl (by decide)) rfl rfl rfl

lemma kept_abortTransferData (h : Outside n) : Kept n n.abortTransferData := by
  unfold Node.abortTransferData
  split_ifs
  · exact Kept.of_eq (Outside.of_eq (s := .idle) rfl (by decide)) rfl rfl rfl
  · exact Kept.refl h

lemma timeoutService_outside (h : Outside n) : n.timeoutService = n := by
  unfold Node.timeoutService
  split
  · rename_i hstate
    exact absurd hstate h.1
  · rename_i hstate
    exact absurd hstate h.2
  · rfl

lemma kept_sendWakeupSignal (h : Outside n) : Kept n n.sendWakeupSignal.1 := by
  unfold Node.sendWakeupSignal
  split_ifs
  · exact ⟨h, rfl, List.prefix_append _ _, id⟩
  · exact Kept.refl h

lemma kept_processBreakDetect (h : Outside n) : Kept n n.processBreakDetect := by
  unfold Node.processBreakDetect
  dsimp only
  split_ifs with hsleep hmaster hheader hrecv
  · exact kept_gotoIdleState
  · exact ⟨Outside.of_eq (s := .sendPid) rfl (by decide), rfl, List.prefix_append _ _, id⟩
  · exact Kept.of_eq h rfl rfl rfl
  · exact absurd hrecv (not_or.mpr ⟨h.2, h.1⟩)
  · exact Kept.of_report (Outside.of_eq (s := .recvSync) rfl (by decide)) rfl rfl rfl ⟨rfl, rfl, rfl⟩

lemma kept_checkWakeupSignal (h : Outside n) (wakeupSignalLength : Nat) :
    Kept n (n.checkWakeupSignal wakeupSignalLength) := by
  unfold Node.checkWakeupSignal
  split_ifs
  · exact Kept.of_eq h rfl rfl rfl
  · exact Kept.refl h
  · exact Kept.of_report (Outside.of_eq (s := .idle) rfl (by decide)) rfl rfl rfl ⟨rfl, rfl, rfl⟩
  · exact Kept.of_eq h rfl rfl rfl

lemma kept_processFrameHeader (h : Outside n) (tmpByte : UInt8) : Kept n (n.processFrameHeader tmpByte) := by
  have hrecvPid (hstate : n.currentNodeState = .recvPid) (m : Node) (hm : m.currentNodeState = n.currentNodeState) :
      Outside m.report :=
    Outside.of_eq ((Node.report_currentNodeState _).trans (hm.trans hstate)) (by decide)
  have hidle (m : Node) (hm : m.currentNodeState = .idle) : Outside m.report :=
    Outside.of_eq ((Node.report_currentNodeState _).trans hm) (by decide)
  unfold Node.processFrameHeader
  split
  · split_ifs
    · exact Kept.of_eq (Outside.of_eq (s := .recvPid) rfl (by decide)) rfl rfl rfl
    · exact Kept.of_report (Outside.of_eq (s := .idle) rfl (by decide)) rfl rfl rfl ⟨rfl, rfl, rfl⟩
  · split_ifs
    · exact ⟨Outside.of_eq (s := .recvPid) rfl (by decide), rfl, List.prefix_append _ _, id⟩
    · exact Kept.of_report (hidle _ rfl) rfl rfl rfl ⟨rfl, rfl, rfl⟩
  · rename_i hstate
    dsimp only
    split_ifs
    · exact Kept.of_report (hrecvPid hstate _ rfl) rfl rfl rfl ⟨rfl, rfl, rfl⟩
    · exact Kept.of_report (hidle _ rfl) rfl rfl rfl ⟨rfl, rfl, rfl⟩
    · exact Kept.of_report (hrecvPid hstate _ rfl) rfl rfl rfl ⟨rfl, rfl, rfl⟩
    · exact Kept.of_report (Outside.of_eq (s := .idle) rfl (by decide)) rfl rfl rfl ⟨rfl, rfl, rfl⟩
  · exact Kept.refl h

lemma kept_framingError (h : Outside n) : Kept n n.framingError := by
  unfold Node.framingError
  dsimp only
  rw [if_neg h.1, if_neg (fun hand => h.2 hand.2)]
  exact Kept.of_eq (Outside.of_eq (s := .idle) rfl (by decide)) rfl rfl rfl

lemma kept_processFrame (h : Outside n) (txEmpty : Bool) (tmpByte : UInt8) :
    Kept n (n.processFrame txEmpty tmpByte) := by
  unfold Node.processFrame
  split
  · exact kept_processFrameHeader h tmpByte
  · exact kept_processFrameHeader h tmpByte
  · exact kept_processFrameHeader h tmpByte
  · rename_i hstate
    exact absurd hstate h.2
  · rename_i hstate
    exact absurd hstate h.1
  · exact Kept.refl h

lemma kept_irqHandler (h : Outside n) (irq : Irq) : Kept n (n.irqHandler irq) := by
  unfold Node.irqHandler
  split_ifs
  · exact kept_processBreakDetect h
  · exact kept_checkWakeupSignal h _
  · exact Kept.refl h
  · exact kept_framingError h
  · exact kept_processFrame h _ _
  · exact Kept.refl h

lemma kept_evalTwoBitTimeLength (h : Outside n) (length : Nat) : Kept n (n.evalTwoBitTimeLength length) := by
  unfold Node.evalTwoBitTimeLength
  split_ifs
  · exact Kept.of_eq (Outside.of_eq (s := .idle) rfl (by decide)) rfl rfl rfl
  · exact Kept.of_eq (Outside.of_eq (s := .idle) rfl (by decide)) rfl rfl rfl
  · exact Kept.of_eq h rfl rfl rfl
  · exact Kept.of_eq h rfl rfl rfl

lemma kept_autobaudTimerValEval (h : Outside n) (length : Nat) : Kept n (n.autobaudTimerValEval length) := by
  have hkept := kept_evalTwoBitTimeLength h length
  unfold Node.autobaudTimerValEval
  generalize n.evalTwoBitTimeLength length = m at hkept ⊢
  have adjusted (wakeupSignal baudRate : Nat) : Kept n
      { Node.report { m with
          baudRate := baudRate
          wakeupSignal := wakeupSignal
          currentEventId := .baudrateAdjusted
          baudrateEvalEnable := false } with currentNodeState := .recvPid, currentEventId := .syncOk } :=
    hkept.trans (Kept.of_report (Outside.of_eq (s := .recvPid) rfl (by decide)) rfl rfl rfl ⟨rfl, rfl, rfl⟩)
  dsimp only
  split_ifs
  · exact adjusted 0x80 _
  · exact adjusted 0xF8 _
  · exact adjusted m.wakeupSignal m.baudRate
  · exact hkept.trans (Kept.of_eq (Outside.of_eq (s := .idle) rfl (by decide)) rfl rfl rfl)
  · exact hkept
  · exact Kept.refl h

lemma kept_autoBaudCapture (h : Outside n) (tmpTime : Nat) : Kept n (n.autoBaudCapture tmpTime).1 := by
  have hcounted : Kept n (n.counted tmpTime) := Kept.of_eq h rfl rfl rfl
  have hcapture := autoBaudCapture_captured n tmpTime
  generalize (n.autoBaudCapture tmpTime).1 = m at hcapture ⊢
  cases hcapture with
  | disabled => exact Kept.of_eq h rfl rfl rfl
  | overflow => exact Kept.refl h
  | first => exact hcounted
  | wakeup => exact Kept.of_report (Outside.of_eq (s := .idle) rfl (by decide)) rfl rfl rfl ⟨rfl, rfl, rfl⟩
  | breakField => exact Kept.of_report (Outside.of_eq (s := .recvSync) rfl (by decide)) rfl rfl rfl ⟨rfl, rfl, rfl⟩
  | noise => exact Kept.of_eq h rfl rfl rfl
  | measured =>
    have heval := kept_autobaudTimerValEval hcounted.outside (n.timeMeasure + tmpTime)
    exact (hcounted.trans heval).trans (Kept.of_eq heval.outside rfl rfl rfl)

end Outside

section Starts

variable {n : Node}

/-- A transfer that is not started leaves the node as it is. -/
lemma sendFrameData_not_started {txBuff txSize : Nat} (h : (n.sendFrameData txBuff txSize).2 ≠ .success) :
    (n.sendFrameData txBuff txSize).1 = n := by
  unfold Node.sendFrameData at h ⊢
  split_ifs at h ⊢
  · rfl
  · rfl
  · exact absurd rfl h

lemma sendFrameDataBlocking_not_started {txBuff txSize timeoutMSec : Nat}
    (h : (n.sendFrameDataBlocking txBuff txSize timeoutMSec).2 ≠ .success) :
    (n.sendFrameDataBlocking txBuff txSize timeoutMSec).1 = n := by
  unfold Node.sendFrameDataBlocking at h ⊢
  split_ifs at h ⊢
  · rfl
  · rfl
  · exact absurd rfl h

lemma recvFrmData_not_started {rxBuff rxSize : Nat} (h : (n.recvFrmData rxBuff rxSize).2 ≠ .success) :
    (n.recvFrmData rxBuff rxSize).1 = n := by
  unfold Node.recvFrmData at h ⊢
  split_ifs at h ⊢
  · rfl
  · rfl
  · exact absurd rfl h

lemma recvFrmDataBlocking_not_started {rxBuff rxSize timeoutMSec : Nat}
    (h : (n.recvFrmDataBlocking rxBuff rxSize timeoutMSec).2 ≠ .success) :
    (n.recvFrmDataBlocking rxBuff rxSize timeoutMSec).1 = n := by
  unfold Node.recvFrmDataBlocking at h ⊢
  split_ifs at h ⊢
  · rfl
  · rfl
  · exact absurd rfl h

lemma kept_init : Kept n n.init := by
  unfold Node.init
  dsimp only
  split_ifs
  all_goals exact ⟨Outside.of_eq (s := .idle) rfl (by decide), rfl, List.prefix_refl _, fun hflag => absurd hflag Bool.false_ne_true⟩

/-- Outside of a transfer, no call that does not start one changes what the status of the last one is read from. -/
lemma kept_call (h : Outside n) {c : Call} (hstarts : ¬ Starts n c) : Kept n (call n c) := by
  cases c with
  | op op =>
    cases op with
    | sendFrameData txBuff txSize => exact Kept.of_same h (sendFrameData_not_started hstarts)
    | sendFrameDataBlocking txBuff txSize timeoutMSec =>
      exact Kept.of_same h (sendFrameDataBlocking_not_started hstarts)
    | receiveFrameData rxBuff rxSize => exact Kept.of_same h (recvFrmData_not_started hstarts)
    | receiveFrameDataBlocking rxBuff rxSize timeoutMSec =>
      exact Kept.of_same h (recvFrmDataBlocking_not_started hstarts)
    | masterSendHeader id => exact kept_masterSendHeader h id
    | abortTransferData => exact kept_abortTransferData h
    | ignoreResponse => exact kept_gotoIdleState
    | timeoutService => exact Kept.of_same h (timeoutService_outside h)
    | autoBaudCapture tmpTime => exact kept_autoBaudCapture h tmpTime
    | irqHandler irq => exact kept_irqHandler h irq
  | init => exact kept_init
  | installCallback callback => exact Kept.of_eq h rfl rfl rfl
  | goToSleepMode => exact Kept.of_eq (Outside.of_eq (s := .sleepMode) rfl (by decide)) rfl rfl rfl
  | sendWakeupSignal => exact kept_sendWakeupSignal h
  | setTimeoutCounter timeoutValue => exact ⟨h, rfl, List.prefix_refl _, fun hflag => absurd hflag Bool.false_ne_true⟩

end Starts

/-- A step gives an event that the status functions take for a success, exactly if `raised`; else it leaves the
event or clears it. -/
structure EventIf (raised : Prop) (before after : EventId) : Prop where
  silent : ¬ raised → after = before ∨ after = .noEvent
  told : raised → after ≠ .noEvent ∧ after ≠ .timeoutError

section Events

variable {n : Node} {raised raised' : Prop} {before after : EventId}

lemma eventIf_of_same (hsame : after = before) (hnot : ¬ raised) : EventIf raised before after :=
  ⟨fun _ => Or.inl hsame, fun hraised => absurd hraised hnot⟩

lemma eventIf_of_told (htold : after ≠ .noEvent ∧ after ≠ .timeoutError) (hraised : raised) :
    EventIf raised before after :=
  ⟨fun hnot => absurd hraised hnot, fun _ => htold⟩

lemma EventIf.congr (h : EventIf raised before after) (hiff : raised ↔ raised') : EventIf raised' before after :=
  ⟨fun hnot => h.silent (mt hiff.mp hnot), fun hraised => h.told (hiff.mpr hraised)⟩

lemma processBreakDetect_event (h : Outside n) :
    EventIf (n.currentNodeState ≠ .sleepMode ∧ n.master = false) n.currentEventId n.processBreakDetect.currentEventId := by
  unfold Node.processBreakDetect
  dsimp only
  split_ifs with hsleep hmaster hheader hrecv
  · exact eventIf_of_same rfl (fun hand => hand.1 hsleep)
  · exact eventIf_of_same rfl (fun hand => by simp [hmaster] at hand)
  · exact eventIf_of_same rfl (fun hand => by simp [hmaster] at hand)
  · exact absurd hrecv (not_or.mpr ⟨h.2, h.1⟩)
  · refine eventIf_of_told ?_ ⟨hsleep, Bool.not_eq_true _ ▸ hmaster⟩
    simp

lemma checkWakeupSignal_event (wakeupSignalLength : Nat) :
    EventIf (n.rxDataPolarity = true ∧ wakeupSignalLength ≥ 150000 ∧ wakeupSignalLength ≤ 5000000)
      n.currentEventId (n.checkWakeupSignal wakeupSignalLength).currentEventId := by
  unfold Node.checkWakeupSignal
  dsimp only
  split_ifs with hpolarity htimer hlength
  · exact eventIf_of_same rfl (fun hand => by simp [hpolarity] at hand)
  · exact eventIf_of_same rfl (fun hand => by simp [hpolarity] at hand)
  · refine eventIf_of_told ?_ ⟨Bool.not_eq_false _ ▸ hpolarity, hlength⟩
    simp [Node.gotoIdleState]
  · exact eventIf_of_same rfl (fun hand => hlength hand.2)

lemma framingError_event : n.framingError.currentEventId = .frameError := by
  unfold Node.framingError
  dsimp only
  split_ifs
  all_goals simp [Node.gotoIdleState]

lemma not_raisesByte {txEmpty : Bool} {b : UInt8} (hsync : n.currentNodeState ≠ .recvSync)
    (hpid : n.currentNodeState ≠ .recvPid) (hown : n.currentNodeState ≠ .sendPid)
    (hsend : n.currentNodeState ≠ .sendData) (hrecv : n.currentNodeState ≠ .recvData) : ¬ RaisesByte n txEmpty b := by
  rintro (h | h | ⟨h, -⟩ | ⟨h, -⟩ | ⟨h, -⟩)
  · exact hsync h
  · exact hpid h
  · exact hown h
  · exact hsend h
  · exact hrecv h

lemma processFrameHeader_event (h : Outside n) (txEmpty : Bool) (b : UInt8) :
    EventIf (RaisesByte n txEmpty b) n.currentEventId (n.processFrameHeader b).currentEventId := by
  unfold Node.processFrameHeader
  split
  · rename_i hstate
    refine eventIf_of_told ?_ (Or.inl hstate)
    split_ifs <;> simp [Node.gotoIdleState]
  · rename_i hstate
    by_cases hb : b = 0x55
    · rw [if_pos hb]
      exact eventIf_of_same rfl (by simp [RaisesByte, hstate, hb])
    · rw [if_neg hb]
      exact eventIf_of_told (by simp) (Or.inr (Or.inr (Or.inl ⟨hstate, hb⟩)))
  · rename_i hstate
    refine eventIf_of_told ?_ (Or.inr (Or.inl hstate))
    dsimp only
    split_ifs <;> simp [Node.gotoIdleState]
  · rename_i hsync hown hpid
    exact eventIf_of_same rfl (not_raisesByte hsync hpid hown h.1 h.2)

lemma processFrame_event (h : Outside n) (txEmpty : Bool) (b : UInt8) :
    EventIf (RaisesByte n txEmpty b) n.currentEventId (n.processFrame txEmpty b).currentEventId := by
  have hheader := processFrameHeader_event h txEmpty b
  unfold Node.processFrame
  split
  · exact hheader
  · exact hheader
  · exact hheader
  · rename_i hstate
    exact absurd hstate h.2
  · rename_i hstate
    exact absurd hstate h.1
  · rename_i hsync hown hpid _ _
    exact eventIf_of_same rfl (not_raisesByte hsync hpid hown h.1 h.2)

lemma irqHandler_event (h : Outside n) (irq : Irq) :
    EventIf (Raises n (.op (.irqHandler irq))) n.currentEventId (n.irqHandler irq).currentEventId := by
  unfold Node.irqHandler Raises Irq.Byte
  split_ifs with hbreak hedge hsleep hframe hfull
  · exact (processBreakDetect_event h).congr (by simp [hbreak])
  · exact (checkWakeupSignal_event _).congr (by simp [hbreak, hedge, hsleep])
  · exact eventIf_of_same rfl (by simp [hbreak, hedge, hsleep])
  · rw [framingError_event]
    exact eventIf_of_told (by decide) (by simp [hbreak, hedge, hframe])
  · exact (processFrame_event h _ _).congr (by simp [hbreak, hedge, hframe, hfull])
  · exact eventIf_of_same rfl (by simp [hbreak, hedge, hframe, hfull])

lemma evalTwoBitTimeLength_event (length : Nat) :
    (n.evalTwoBitTimeLength length).currentEventId = n.currentEventId := by
  unfold Node.evalTwoBitTimeLength
  split_ifs <;> rfl

lemma autobaudTimerValEval_event (length : Nat) :
    EventIf (n.currentNodeState = .recvSync ∧ (n.evalTwoBitTimeLength length).fallingEdgeInterruptCount > 4 ∧
        masterBaudrate length ≠ 0) n.currentEventId (n.autobaudTimerValEval length).currentEventId := by
  have hkept := evalTwoBitTimeLength_event (n := n) length
  unfold Node.autobaudTimerValEval
  by_cases hstate : n.currentNodeState = .recvSync
  · rw [if_pos hstate]
    dsimp only
    by_cases hcount : (n.evalTwoBitTimeLength length).fallingEdgeInterruptCount > 4
    · rw [if_pos hcount]
      by_cases hrate : masterBaudrate length ≠ 0
      · rw [if_pos hrate]
        exact eventIf_of_told (by simp) ⟨hstate, hcount, hrate⟩
      · rw [if_neg hrate]
        exact eventIf_of_same hkept (fun hand => hrate hand.2.2)
    · rw [if_neg hcount]
      exact eventIf_of_same hkept (fun hand => hcount hand.2.1)
  · rw [if_neg hstate]
    exact eventIf_of_same rfl (fun hand => hstate hand.1)

/-- The count of edges does not depend on the measurement. -/
lemma evalTwoBitTimeLength_counted (tmpTime length : Nat) :
    ((n.counted tmpTime).evalTwoBitTimeLength length).fallingEdgeInterruptCount =
      (n.evalTwoBitTimeLength length).fallingEdgeInterruptCount := by
  unfold Node.evalTwoBitTimeLength Node.counted
  split_ifs <;> rfl

lemma raises_counted {tmpTime : Nat} (hcounts : Counts n tmpTime) (hsecond : (n.countMeasure + 1) % 256 > 1) :
    Raises n (.op (.autoBaudCapture tmpTime)) ↔ RaisesEdge n tmpTime := by
  unfold Raises
  dsimp only
  rw [and_iff_right hcounts.1, and_iff_right (Nat.not_lt.mp hcounts.2), and_iff_right hsecond]

lemma autoBaudCapture_event (tmpTime : Nat) :
    EventIf (Raises n (.op (.autoBaudCapture tmpTime))) n.currentEventId (n.autoBaudCapture tmpTime).1.currentEventId := by
  have hcapture := autoBaudCapture_captured n tmpTime
  generalize (n.autoBaudCapture tmpTime).1 = m at hcapture ⊢
  cases hcapture with
  | disabled _ hoff => exact eventIf_of_same rfl (fun hand => hoff hand.1)
  | overflow _ hover => exact eventIf_of_same rfl (fun hand => Nat.not_lt.mpr hand.2.1 hover)
  | first _ hfirst => exact eventIf_of_same rfl (fun hand => hfirst hand.2.2.1)
  | wakeup hcounts hsecond hsleep hlength =>
    rw [raises_counted hcounts hsecond]
    exact eventIf_of_told (by simp [Node.gotoIdleState]) (Or.inl ⟨hsleep, hlength⟩)
  | breakField hcounts hsecond hidle hlength =>
    rw [raises_counted hcounts hsecond]
    exact eventIf_of_told (by simp) (Or.inr (Or.inl ⟨hidle, hlength⟩))
  | noise hcounts hsecond hnoise =>
    rw [raises_counted hcounts hsecond]
    unfold RaisesEdge
    rcases hnoise with ⟨hsleep, hlength⟩ | ⟨hidle, hlength⟩
    · exact eventIf_of_same rfl (by simpa [hsleep] using hlength)
    · exact eventIf_of_same rfl (by simpa [hidle] using hlength)
  | measured hcounts hsecond hsleep hidle =>
    have heval := autobaudTimerValEval_event (n := n.counted tmpTime) (n.timeMeasure + tmpTime)
    rw [evalTwoBitTimeLength_counted] at heval
    rw [raises_counted hcounts hsecond]
    unfold RaisesEdge
    rw [or_iff_right (fun hand => hsleep hand.1), or_iff_right (fun hand => hidle hand.1)]
    exact heval

lemma masterSendHeader_event (id : UInt8) : (n.masterSendHeader id).1.currentEventId = n.currentEventId ∨
    (n.masterSendHeader id).1.currentEventId = .noEvent := by
  unfold Node.masterSendHeader
  split_ifs
  · exact Or.inl rfl
  · exact Or.inl rfl
  · exact Or.inr rfl

lemma abortTransferData_event : n.abortTransferData.currentEventId = n.currentEventId := by
  unfold Node.abortTransferData
  split_ifs <;> rfl

lemma init_event : n.init.currentEventId = n.currentEventId := by
  unfold Node.init
  split_ifs <;> rfl

lemma sendWakeupSignal_event : n.sendWakeupSignal.1.currentEventId = n.currentEventId := by
  unfold Node.sendWakeupSignal
  split_ifs <;> rfl

/-- Outside of a transfer, `Raises` says when a call that starts none gives an event. -/
lemma call_event (h : Outside n) {c : Call} (hstarts : ¬ Starts n c) :
    EventIf (Raises n c) n.currentEventId (call n c).currentEventId := by
  cases c with
  | op op =>
    cases op with
    | sendFrameData txBuff txSize =>
      exact eventIf_of_same ((congrArg Node.currentEventId (sendFrameData_not_started hstarts))) id
    | sendFrameDataBlocking txBuff txSize timeoutMSec =>
      exact eventIf_of_same ((congrArg Node.currentEventId (sendFrameDataBlocking_not_started hstarts))) id
    | receiveFrameData rxBuff rxSize =>
      exact eventIf_of_same ((congrArg Node.currentEventId (recvFrmData_not_started hstarts))) id
    | receiveFrameDataBlocking rxBuff rxSize timeoutMSec =>
      exact eventIf_of_same ((congrArg Node.currentEventId (recvFrmDataBlocking_not_started hstarts))) id
    | masterSendHeader id => exact ⟨fun _ => masterSendHeader_event id, False.elim⟩
    | abortTransferData => exact eventIf_of_same (abortTransferData_event) id
    | ignoreResponse => exact eventIf_of_same rfl id
    | timeoutService => exact eventIf_of_same ((congrArg Node.currentEventId (timeoutService_outside h))) id
    | autoBaudCapture tmpTime => exact autoBaudCapture_event tmpTime
    | irqHandler irq => exact irqHandler_event h irq
  | init => exact eventIf_of_same (init_event) id
  | installCallback callback => exact eventIf_of_same rfl id
  | goToSleepMode => exact eventIf_of_same rfl id
  | sendWakeupSignal => exact eventIf_of_same (sendWakeupSignal_event) id
  | setTimeoutCounter timeoutValue => exact eventIf_of_same rfl id

end Events

end McuxDrivers.Lin
