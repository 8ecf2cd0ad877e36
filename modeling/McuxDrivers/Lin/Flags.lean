import McuxDrivers.Lin.Driver
import McuxDrivers.Lib.Runs

/-!
# The busy flags of a LIN node

Each path of the driver that returns a node to IDLE clears some of the busy flags. `Settled` is what the paths
that clear enough of them keep, and `Harmless` says which steps take such a path.
-/

namespace McuxDrivers.Lin
open McuxDrivers.Lib

/-- The calls and the interrupts of a node. -/
inductive Op where
  | sendFrameData (txBuff txSize : Nat)
  | sendFrameDataBlocking (txBuff txSize timeoutMSec : Nat)
  | receiveFrameData (rxBuff rxSize : Nat)
  | receiveFrameDataBlocking (rxBuff rxSize timeoutMSec : Nat)
  | masterSendHeader (id : UInt8)
  | abortTransferData
  | ignoreResponse
  | timeoutService
  | autoBaudCapture (tmpTime : Nat)
  | irqHandler (irq : Irq)

def step (n : Node) : Op → Node
  | .sendFrameData txBuff txSize => (n.sendFrameData txBuff txSize).1
  | .sendFrameDataBlocking txBuff txSize timeoutMSec => (n.sendFrameDataBlocking txBuff txSize timeoutMSec).1
  | .receiveFrameData rxBuff rxSize => (n.recvFrmData rxBuff rxSize).1
  | .receiveFrameDataBlocking rxBuff rxSize timeoutMSec => (n.recvFrmDataBlocking rxBuff rxSize timeoutMSec).1
  | .masterSendHeader id => (n.masterSendHeader id).1
  | .abortTransferData => n.abortTransferData
  | .ignoreResponse => n.gotoIdleState
  | .timeoutService => n.timeoutService
  | .autoBaudCapture tmpTime => (n.autoBaudCapture tmpTime).1
  | .irqHandler irq => n.irqHandler irq

/-- No flag is set in IDLE, and a transfer is marked busy only in its own state. -/
def FlagsConsistent (n : Node) : Prop :=
  (n.currentNodeState = .idle → n.isBusBusy = false ∧ n.isTxBusy = false ∧ n.isRxBusy = false) ∧
    (n.isTxBusy = true → n.currentNodeState = .sendData) ∧
    (n.isRxBusy = true → n.currentNodeState = .recvData)

instance (n : Node) : Decidable (FlagsConsistent n) :=
  inferInstanceAs (Decidable (_ ∧ _))

/-- A transfer is in progress exactly in its own state, and the bus is busy then and while a header arrives. -/
structure Settled (n : Node) : Prop where
  idle : n.currentNodeState = .idle → n.isBusBusy = false
  tx : n.isTxBusy = true ↔ n.currentNodeState = .sendData
  rx : n.isRxBusy = true ↔ n.currentNodeState = .recvData
  busy : n.currentNodeState = .sendData ∨ n.currentNodeState = .recvData ∨ n.currentNodeState = .recvSync →
    n.isBusBusy = true
  awake : n.currentNodeState ≠ .sleepMode

lemma Settled.flagsConsistent {n : Node} (h : Settled n) : FlagsConsistent n := by
  obtain ⟨hidle, htx, hrx, -, -⟩ := h
  refine ⟨fun hi => ⟨hidle hi, ?_, ?_⟩, htx.mp, hrx.mp⟩
  · rw [← Bool.not_eq_true, htx, hi]
    decide
  · rw [← Bool.not_eq_true, hrx, hi]
    decide

/-- The measurement of the sync byte fails with this length. -/
def MeasurementFails (n : Node) (length : Nat) : Prop :=
  (0 < n.fallingEdgeInterruptCount ∧ n.fallingEdgeInterruptCount < 5 ∧
    (outOfRange length ∨
      n.fallingEdgeInterruptCount > 1 ∧ unsynchronised n.previousTwoBitTimeLength length)) ∨
    (4 < (n.fallingEdgeInterruptCount + 1) % 256 ∧ masterBaudrate length = 0)

instance (n : Node) (length : Nat) : Decidable (MeasurementFails n length) :=
  inferInstanceAs (Decidable (_ ∨ _))

/-- The step returns to IDLE, or leaves a transfer, on a path that clears the flags. -/
def Harmless (n : Node) : Op → Prop
  | .ignoreResponse => n.isBusBusy = false
  | .timeoutService => n.timeoutCounter = 0 →
      ¬ (n.currentNodeState = .sendData ∧ n.isTxBlocking = true) ∧
      ¬ (n.currentNodeState = .recvData ∧ n.isRxBlocking = true)
  | .autoBaudCapture tmpTime =>
      n.baudrateEvalEnable = true → n.timeMeasure ≤ 0xFFFFFFFF - tmpTime → 1 < (n.countMeasure + 1) % 256 →
      n.currentNodeState = .recvSync → ¬ MeasurementFails n (n.timeMeasure + tmpTime)
  | .irqHandler irq =>
      (irq.linBreak = true → n.master = true → n.currentNodeState ≠ .idle) ∧
      (irq.linBreak = true → n.master = false → n.currentNodeState ≠ .sendData ∧ n.currentNodeState ≠ .recvData) ∧
      (irq.linBreak = false → irq.framingError = true → ¬ (irq.rxActiveEdge = true ∧ n.activeEdgeInt = true) →
        n.currentNodeState ≠ .sendData ∧ n.currentNodeState ≠ .recvData)
  | _ => True

instance (n : Node) : (op : Op) → Decidable (Harmless n op)
  | .ignoreResponse => inferInstanceAs (Decidable (_ = _))
  | .timeoutService => inferInstanceAs (Decidable (_ → _))
  | .autoBaudCapture _ => inferInstanceAs (Decidable (_ → _ → _ → _ → ¬ _))
  | .irqHandler _ => inferInstanceAs (Decidable (_ ∧ _ ∧ _))
  | .sendFrameData _ _ => isTrue trivial
  | .sendFrameDataBlocking _ _ _ => isTrue trivial
  | .receiveFrameData _ _ => isTrue trivial
  | .receiveFrameDataBlocking _ _ _ => isTrue trivial
  | .masterSendHeader _ => isTrue trivial
  | .abortTransferData => isTrue trivial

namespace Node

variable (n : Node)

@[simp]
lemma report_currentNodeState : n.report.currentNodeState = n.currentNodeState := by
  unfold report
  split_ifs <;> rfl

@[simp]
lemma report_isBusBusy : n.report.isBusBusy = n.isBusBusy := by
  unfold report
  split_ifs <;> rfl

@[simp]
lemma report_isTxBusy : n.report.isTxBusy = n.isTxBusy := by
  unfold report
  split_ifs <;> rfl

@[simp]
lemma report_isRxBusy : n.report.isRxBusy = n.isRxBusy := by
  unfold report
  split_ifs <;> rfl

@[simp]
lemma report_isTxBlocking : n.report.isTxBlocking = n.isTxBlocking := by
  unfold report
  split_ifs <;> rfl

@[simp]
lemma report_isRxBlocking : n.report.isRxBlocking = n.isRxBlocking := by
  unfold report
  split_ifs <;> rfl

@[simp]
lemma report_callback : n.report.callback = n.callback := by
  unfold report
  split_ifs <;> rfl

@[simp]
lemma report_timeoutCounter : n.report.timeoutCounter = n.timeoutCounter := by
  unfold report
  split_ifs <;> rfl

@[simp]
lemma report_memory : n.report.memory = n.memory := by
  unfold report
  split_ifs <;> rfl

@[simp]
lemma report_written : n.report.written = n.written := by
  unfold report
  split_ifs <;> rfl

variable {n} in
lemma report_reports (hcallback : n.callback = true) : n.report.reports = n.reports ++ [n.currentEventId] := by
  rw [report, if_pos hcallback]

end Node

section Settled

variable {n m : Node}

lemma Settled.of_idle (hstate : m.currentNodeState = .idle) (hbus : m.isBusBusy = false) (htx : m.isTxBusy = false)
    (hrx : m.isRxBusy = false) : Settled m := by
  constructor <;> simp [hstate, hbus, htx, hrx]

lemma Settled.of_sendData (hstate : m.currentNodeState = .sendData) (hbus : m.isBusBusy = true)
    (htx : m.isTxBusy = true) (hrx : m.isRxBusy = false) : Settled m := by
  constructor <;> simp [hstate, hbus, htx, hrx]

lemma Settled.of_recvData (hstate : m.currentNodeState = .recvData) (hbus : m.isBusBusy = true)
    (htx : m.isTxBusy = false) (hrx : m.isRxBusy = true) : Settled m := by
  constructor <;> simp [hstate, hbus, htx, hrx]

lemma Settled.of_header
    (hstate : m.currentNodeState = .sendBreakField ∨ m.currentNodeState = .sendPid ∨ m.currentNodeState = .recvPid ∨
      m.currentNodeState = .recvSync ∧ m.isBusBusy = true)
    (htx : m.isTxBusy = false) (hrx : m.isRxBusy = false) : Settled m := by
  rcases hstate with hstate | hstate | hstate | ⟨hstate, hbus⟩
  · constructor <;> simp [hstate, htx, hrx]
  · constructor <;> simp [hstate, htx, hrx]
  · constructor <;> simp [hstate, htx, hrx]
  · constructor <;> simp [hstate, hbus, htx, hrx]

lemma Settled.tx_eq_false (h : Settled n) (hstate : n.currentNodeState ≠ .sendData) : n.isTxBusy = false := by
  rw [← Bool.not_eq_true, h.tx]
  exact hstate

lemma Settled.rx_eq_false (h : Settled n) (hstate : n.currentNodeState ≠ .recvData) : n.isRxBusy = false := by
  rw [← Bool.not_eq_true, h.rx]
  exact hstate

lemma Settled.no_transfer (h : Settled n) (hbus : n.isBusBusy = false) : n.isTxBusy = false ∧ n.isRxBusy = false := by
  refine ⟨h.tx_eq_false ?_, h.rx_eq_false ?_⟩
  · intro hstate
    rw [h.busy (Or.inl hstate)] at hbus
    exact absurd hbus (by decide)
  · intro hstate
    rw [h.busy (Or.inr (Or.inl hstate))] at hbus
    exact absurd hbus (by decide)

end Settled

section Calls

variable {n : Node} (h : Settled n)

include h

lemma settled_sendFrameData (txBuff txSize : Nat) : Settled (n.sendFrameData txBuff txSize).1 := by
  unfold Node.sendFrameData
  split_ifs with hsize hbus
  · exact h
  · exact h
  · exact Settled.of_sendData rfl rfl rfl (h.no_transfer (Bool.not_eq_true _ ▸ hbus)).2

lemma settled_sendFrameDataBlocking (txBuff txSize timeoutMSec : Nat) :
    Settled (n.sendFrameDataBlocking txBuff txSize timeoutMSec).1 := by
  unfold Node.sendFrameDataBlocking
  split_ifs with hsize hbus
  · exact h
  · exact h
  · exact Settled.of_sendData rfl rfl rfl (h.no_transfer (Bool.not_eq_true _ ▸ hbus)).2

lemma settled_recvFrmData (rxBuff rxSize : Nat) : Settled (n.recvFrmData rxBuff rxSize).1 := by
  unfold Node.recvFrmData
  split_ifs with hsize hbus
  · exact h
  · exact h
  · exact Settled.of_recvData rfl rfl (h.no_transfer (Bool.not_eq_true _ ▸ hbus)).1 rfl

lemma settled_recvFrmDataBlocking (rxBuff rxSize timeoutMSec : Nat) :
    Settled (n.recvFrmDataBlocking rxBuff rxSize timeoutMSec).1 := by
  unfold Node.recvFrmDataBlocking
  split_ifs with hsize hbus
  · exact h
  · exact h
  · exact Settled.of_recvData rfl rfl (h.no_transfer (Bool.not_eq_true _ ▸ hbus)).1 rfl

lemma settled_masterSendHeader (id : UInt8) : Settled (n.masterSendHeader id).1 := by
  unfold Node.masterSendHeader
  split_ifs with hid hbus
  · exact h
  · exact h
  · have hnone := h.no_transfer (Bool.not_eq_true _ ▸ hbus)
    exact Settled.of_header (Or.inl rfl) hnone.1 hnone.2

lemma settled_abortTransferData : Settled n.abortTransferData := by
  unfold Node.abortTransferData
  split_ifs
  · exact Settled.of_idle rfl rfl rfl rfl
  · exact h

lemma settled_gotoIdleState (hbus : n.isBusBusy = false) : Settled n.gotoIdleState :=
  Settled.of_idle rfl hbus (h.no_transfer hbus).1 (h.no_transfer hbus).2

/-- A tick of the timeout, when it does not end a blocking transfer. -/
lemma settled_timeoutService (hblocking : Harmless n .timeoutService) : Settled n.timeoutService := by
  unfold Node.timeoutService
  split
  · rename_i hstate
    by_cases hzero : n.timeoutCounter = 0
    · have hfree : n.isTxBlocking = false := by
        have := (hblocking hzero).1
        simpa [hstate] using this
      have hrx := h.rx_eq_false (by simp [hstate])
      rw [if_pos hzero]
      exact Settled.of_idle rfl (by simp [Node.gotoIdleState, hfree]) (by simp [Node.gotoIdleState, hfree])
        (by simp [Node.gotoIdleState, hfree, hrx])
    · rw [if_neg hzero]
      exact ⟨h.idle, h.tx, h.rx, h.busy, h.awake⟩
  · rename_i hstate
    by_cases hzero : n.timeoutCounter = 0
    · have hfree : n.isRxBlocking = false := by
        have := (hblocking hzero).2
        simpa [hstate] using this
      have htx := h.tx_eq_false (by simp [hstate])
      rw [if_pos hzero]
      exact Settled.of_idle rfl (by simp [Node.gotoIdleState, hfree]) (by simp [Node.gotoIdleState, hfree, htx])
        (by simp [Node.gotoIdleState, hfree])
    · rw [if_neg hzero]
      exact ⟨h.idle, h.tx, h.rx, h.busy, h.awake⟩
  · exact h

end Calls

section Interrupts

variable {n : Node} (h : Settled n)

include h

lemma settled_processBreakDetect (hmaster : n.master = true → n.currentNodeState ≠ .idle)
    (hslave : n.master = false → n.currentNodeState ≠ .sendData ∧ n.currentNodeState ≠ .recvData) :
    Settled n.processBreakDetect := by
  unfold Node.processBreakDetect
  rw [if_neg h.awake]
  dsimp only
  by_cases hm : n.master = true
  · rw [if_pos hm]
    split_ifs with hstate
    · exact Settled.of_header (Or.inr (Or.inl rfl)) (h.tx_eq_false (by simp [hstate]))
        (h.rx_eq_false (by simp [hstate]))
    · exact ⟨fun hidle => absurd hidle (hmaster hm), h.tx, h.rx, fun _ => rfl, h.awake⟩
  · obtain ⟨hsend, hrecv⟩ := hslave (Bool.not_eq_true _ ▸ hm)
    rw [if_neg hm, if_neg (not_or.mpr ⟨hrecv, hsend⟩)]
    refine Settled.of_header (Or.inr (Or.inr (Or.inr ⟨rfl, ?_⟩))) ?_ ?_
    · simp
    · simpa using h.tx_eq_false hsend
    · simpa using h.rx_eq_false hrecv

lemma settled_framingError (hsend : n.currentNodeState ≠ .sendData) (hrecv : n.currentNodeState ≠ .recvData) :
    Settled n.framingError := by
  unfold Node.framingError
  dsimp only
  rw [if_neg hsend, if_neg (fun hand => hrecv hand.2)]
  exact Settled.of_idle rfl rfl (h.tx_eq_false hsend) (h.rx_eq_false hrecv)

lemma settled_processFrameHeader (tmpByte : UInt8) : Settled (n.processFrameHeader tmpByte) := by
  unfold Node.processFrameHeader
  split
  · rename_i hstate
    have htx := h.tx_eq_false (by simp [hstate])
    have hrx := h.rx_eq_false (by simp [hstate])
    split_ifs
    · exact Settled.of_header (Or.inr (Or.inr (Or.inl rfl))) htx hrx
    · exact Settled.of_idle rfl rfl (by simpa [Node.gotoIdleState] using htx)
        (by simpa [Node.gotoIdleState] using hrx)
  · rename_i hstate
    have htx := h.tx_eq_false (by simp [hstate])
    have hrx := h.rx_eq_false (by simp [hstate])
    split_ifs
    · exact Settled.of_header (Or.inr (Or.inr (Or.inl rfl))) htx hrx
    · exact Settled.of_idle (by simp) (by simp) (by simpa using htx) (by simpa using hrx)
  · rename_i hstate
    have htx := h.tx_eq_false (by simp [hstate])
    have hrx := h.rx_eq_false (by simp [hstate])
    dsimp only
    split_ifs
    · exact Settled.of_header (Or.inr (Or.inr (Or.inl (by simpa using hstate)))) (by simpa using htx)
        (by simpa using hrx)
    · exact Settled.of_idle (by simp) (by simp) (by simpa using htx) (by simpa using hrx)
    · exact Settled.of_header (Or.inr (Or.inr (Or.inl (by simpa using hstate)))) (by simpa using htx)
        (by simpa using hrx)
    · exact Settled.of_idle rfl rfl (by simpa [Node.gotoIdleState] using htx)
        (by simpa [Node.gotoIdleState] using hrx)
  · exact h

lemma settled_storeByte (tmpByte : UInt8) : Settled (n.storeByte tmpByte) := by
  unfold Node.storeByte
  dsimp only
  split_ifs <;> exact ⟨h.idle, h.tx, h.rx, h.busy, h.awake⟩

lemma settled_completeReception (hstate : n.currentNodeState = .recvData) : Settled n.completeReception := by
  have htx := h.tx_eq_false (by simp [hstate])
  unfold Node.completeReception
  dsimp only
  split_ifs with hsum hblocking hsleep hsleep
  · exact Settled.of_idle rfl rfl (by simpa [Node.gotoIdleState] using htx) rfl
  · exact absurd hsleep (by simp)
  · exact Settled.of_idle rfl rfl (by simpa [Node.gotoIdleState] using htx) rfl
  · exact absurd hsleep (by simp)
  · exact Settled.of_idle rfl rfl (by simpa [Node.gotoIdleState] using htx) rfl

lemma settled_processReceiveFrameData (hstate : n.currentNodeState = .recvData) (tmpByte : UInt8) :
    Settled (n.processReceiveFrameData tmpByte) := by
  have hstored := settled_storeByte h tmpByte
  have hkept : (n.storeByte tmpByte).currentNodeState = n.currentNodeState := by
    unfold Node.storeByte
    dsimp only
    split_ifs <;> rfl
  unfold Node.processReceiveFrameData
  dsimp only
  split_ifs
  · exact settled_completeReception hstored (hkept.trans hstate)
  · exact hstored

lemma settled_readbackError (hstate : n.currentNodeState = .sendData) : Settled n.readbackError := by
  have hrx := h.rx_eq_false (by simp [hstate])
  have hbus := h.busy (Or.inl hstate)
  unfold Node.readbackError
  dsimp only
  split_ifs
  · exact Settled.of_idle rfl rfl rfl (by simpa [Node.gotoIdleState] using hrx)
  · exact Settled.of_sendData (by simpa using hstate) (by simpa using hbus) (by simpa using h.tx.mpr hstate)
      (by simpa using hrx)

lemma settled_sendNext (hstate : n.currentNodeState = .sendData) : Settled n.sendNext := by
  have hrx := h.rx_eq_false (by simp [hstate])
  have hbus := h.busy (Or.inl hstate)
  have htx := h.tx.mpr hstate
  unfold Node.sendNext
  dsimp only
  split_ifs
  · exact Settled.of_sendData hstate hbus htx hrx
  · exact Settled.of_sendData hstate hbus htx hrx
  · exact Settled.of_idle rfl rfl rfl (by simpa [Node.gotoIdleState] using hrx)
  · exact Settled.of_idle rfl rfl rfl (by simpa [Node.gotoIdleState] using hrx)

lemma settled_processSendFrameData (hstate : n.currentNodeState = .sendData) (txEmpty : Bool) (tmpByte : UInt8) :
    Settled (n.processSendFrameData txEmpty tmpByte) := by
  unfold Node.processSendFrameData
  dsimp only
  split_ifs
  · exact settled_readbackError h hstate
  · exact settled_readbackError h hstate
  · have hcounted : Settled { n with txBuff := n.txBuff + 1, cntByte := (n.cntByte + 1) % 256 } :=
      ⟨h.idle, h.tx, h.rx, h.busy, h.awake⟩
    exact settled_sendNext hcounted hstate

lemma settled_processFrame (txEmpty : Bool) (tmpByte : UInt8) : Settled (n.processFrame txEmpty tmpByte) := by
  unfold Node.processFrame
  split
  · exact settled_processFrameHeader h tmpByte
  · exact settled_processFrameHeader h tmpByte
  · exact settled_processFrameHeader h tmpByte
  · rename_i hstate
    exact settled_processReceiveFrameData h hstate tmpByte
  · rename_i hstate
    exact settled_processSendFrameData h hstate txEmpty tmpByte
  · exact h

lemma settled_irqHandler {irq : Irq} (hharmless : Harmless n (.irqHandler irq)) : Settled (n.irqHandler irq) := by
  obtain ⟨hmaster, hslave, hframing⟩ := hharmless
  unfold Node.irqHandler
  split_ifs with hbreak hedge hsleep hframe hfull
  · exact settled_processBreakDetect h (hmaster hbreak) (hslave hbreak)
  · exact absurd hsleep h.awake
  · exact h
  · have hstates := hframing (Bool.not_eq_true _ ▸ hbreak) hframe hedge
    exact settled_framingError h hstates.1 hstates.2
  · exact settled_processFrame h irq.txDataRegEmpty irq.data
  · exact h

end Interrupts

section Autobaud

variable {n : Node} {length : Nat}

/-- A length that does not cancel the capturing counts the edge and leaves the flags. -/
lemma evalTwoBitTimeLength_fields (hok : ¬ (0 < n.fallingEdgeInterruptCount ∧ n.fallingEdgeInterruptCount < 5 ∧
    (outOfRange length ∨ n.fallingEdgeInterruptCount > 1 ∧ unsynchronised n.previousTwoBitTimeLength length))) :
    (n.evalTwoBitTimeLength length).currentNodeState = n.currentNodeState ∧
      (n.evalTwoBitTimeLength length).isBusBusy = n.isBusBusy ∧
      (n.evalTwoBitTimeLength length).isTxBusy = n.isTxBusy ∧
      (n.evalTwoBitTimeLength length).isRxBusy = n.isRxBusy ∧
      (n.evalTwoBitTimeLength length).fallingEdgeInterruptCount = (n.fallingEdgeInterruptCount + 1) % 256 := by
  unfold Node.evalTwoBitTimeLength
  by_cases hcount : n.fallingEdgeInterruptCount < 5 ∧ n.fallingEdgeInterruptCount > 0
  · have hrange : ¬ outOfRange length := fun hout => hok ⟨hcount.2, hcount.1, Or.inl hout⟩
    have hsync : ¬ (n.fallingEdgeInterruptCount > 1 ∧ unsynchronised n.previousTwoBitTimeLength length) :=
      fun hun => hok ⟨hcount.2, hcount.1, Or.inr hun⟩
    rw [if_pos hcount, if_neg hrange, if_neg hsync]
    exact ⟨rfl, rfl, rfl, rfl, rfl⟩
  · rw [if_neg hcount]
    exact ⟨rfl, rfl, rfl, rfl, rfl⟩

lemma settled_autobaudTimerValEval (length : Nat) (h : Settled n)
    (hok : n.currentNodeState = .recvSync → ¬ MeasurementFails n length) :
    Settled (n.autobaudTimerValEval length) := by
  unfold Node.autobaudTimerValEval
  by_cases hstate : n.currentNodeState = .recvSync
  · obtain ⟨hs, hbus, htx, hrx, hcount⟩ := evalTwoBitTimeLength_fields (not_or.mp (hok hstate)).1
    have htx' := htx.trans (h.tx_eq_false (by simp [hstate]))
    have hrx' := hrx.trans (h.rx_eq_false (by simp [hstate]))
    rw [if_pos hstate]
    dsimp only
    by_cases hedges : (n.evalTwoBitTimeLength length).fallingEdgeInterruptCount > 4
    · have hrate : masterBaudrate length ≠ 0 := by
        rw [hcount] at hedges
        exact fun hnone => hok hstate (Or.inr ⟨hedges, hnone⟩)
      rw [if_pos hedges, if_pos hrate]
      split_ifs <;>
        exact Settled.of_header (Or.inr (Or.inr (Or.inl rfl))) (by simpa using htx') (by simpa using hrx')
    · rw [if_neg hedges]
      exact Settled.of_header (Or.inr (Or.inr (Or.inr
        ⟨hs.trans hstate, hbus.trans (h.busy (Or.inr (Or.inr hstate)))⟩))) htx' hrx'
  · rw [if_neg hstate]
    exact h

/-- The node with one more edge in its measurement. -/
def Node.counted (n : Node) (tmpTime : Nat) : Node :=
  { n with timeMeasure := n.timeMeasure + tmpTime, countMeasure := (n.countMeasure + 1) % 256 }

/-- `LIN_LPUART_AutoBaudCapture` counts the edge. -/
def Counts (n : Node) (tmpTime : Nat) : Prop :=
  n.baudrateEvalEnable = true ∧ ¬ n.timeMeasure > 0xFFFFFFFF - tmpTime

/-- Each way in which `LIN_LPUART_AutoBaudCapture` leaves the node. -/
inductive Captured (n : Node) (tmpTime : Nat) : Node → Prop where
  | disabled (edges : Nat) (hoff : ¬ n.baudrateEvalEnable = true)
      (hedges : edges = n.fallingEdgeInterruptCount ∨ edges = 0) :
      Captured n tmpTime { n with fallingEdgeInterruptCount := edges }
  | overflow (hon : n.baudrateEvalEnable = true) (hover : n.timeMeasure > 0xFFFFFFFF - tmpTime) : Captured n tmpTime n
  | first (hcounts : Counts n tmpTime) (hfirst : ¬ (n.countMeasure + 1) % 256 > 1) :
      Captured n tmpTime (n.counted tmpTime)
  | wakeup (hcounts : Counts n tmpTime) (hsecond : (n.countMeasure + 1) % 256 > 1)
      (hsleep : n.currentNodeState = .sleepMode) (hlength : tmpTime ≥ 150000 ∧ tmpTime ≤ 5000000) :
      Captured n tmpTime
        { { n.counted tmpTime with currentEventId := .wakeupSignal }.report.gotoIdleState with countMeasure := 0 }
  | breakField (hcounts : Counts n tmpTime) (hsecond : (n.countMeasure + 1) % 256 > 1)
      (hidle : n.currentNodeState = .idle) (hlength : tmpTime ≥ 13 * bitDurationMin 192) :
      Captured n tmpTime
        { { n.counted tmpTime with isBusBusy := true, currentEventId := .recvBreakFieldOk }.report with
          currentNodeState := .recvSync, fallingEdgeInterruptCount := 0, countMeasure := 1 }
  | noise (hcounts : Counts n tmpTime) (hsecond : (n.countMeasure + 1) % 256 > 1)
      (hstate : n.currentNodeState = .sleepMode ∧ ¬ (tmpTime ≥ 150000 ∧ tmpTime ≤ 5000000) ∨
        n.currentNodeState = .idle ∧ ¬ tmpTime ≥ 13 * bitDurationMin 192) :
      Captured n tmpTime { n.counted tmpTime with countMeasure := 0 }
  | measured (hcounts : Counts n tmpTime) (hsecond : (n.countMeasure + 1) % 256 > 1)
      (hsleep : n.currentNodeState ≠ .sleepMode) (hidle : n.currentNodeState ≠ .idle) :
      Captured n tmpTime
        { (n.counted tmpTime).autobaudTimerValEval (n.timeMeasure + tmpTime) with countMeasure := 0, timeMeasure := 0 }

lemma autoBaudCapture_captured (n : Node) (tmpTime : Nat) : Captured n tmpTime (n.autoBaudCapture tmpTime).1 := by
  unfold Node.autoBaudCapture
  by_cases hon : n.baudrateEvalEnable = true
  · rw [if_pos hon]
    by_cases hover : n.timeMeasure > 0xFFFFFFFF - tmpTime
    · rw [if_pos hover]
      exact Captured.overflow hon hover
    rw [if_neg hover]
    dsimp only
    by_cases hsecond : (n.countMeasure + 1) % 256 > 1
    · rw [if_pos hsecond]
      split
      · rename_i hsleep
        split_ifs with hlength
        · exact Captured.wakeup ⟨hon, hover⟩ hsecond hsleep hlength
        · exact Captured.noise ⟨hon, hover⟩ hsecond (Or.inl ⟨hsleep, hlength⟩)
      · rename_i hidle
        split_ifs with hlength
        · exact Captured.breakField ⟨hon, hover⟩ hsecond hidle hlength
        · exact Captured.noise ⟨hon, hover⟩ hsecond (Or.inr ⟨hidle, hlength⟩)
      · rename_i hsleep hidle
        exact Captured.measured ⟨hon, hover⟩ hsecond hsleep hidle
    · rw [if_neg hsecond]
      exact Captured.first ⟨hon, hover⟩ hsecond
  · rw [if_neg hon]
    dsimp only
    split_ifs
    · exact Captured.disabled 0 hon (Or.inr rfl)
    · exact Captured.disabled n.fallingEdgeInterruptCount hon (Or.inl rfl)

lemma settled_counted (h : Settled n) (tmpTime : Nat) : Settled (n.counted tmpTime) :=
  ⟨h.idle, h.tx, h.rx, h.busy, h.awake⟩

lemma settled_autoBaudCapture (h : Settled n) {tmpTime : Nat} (hok : Harmless n (.autoBaudCapture tmpTime)) :
    Settled (n.autoBaudCapture tmpTime).1 := by
  have hcapture := autoBaudCapture_captured n tmpTime
  generalize (n.autoBaudCapture tmpTime).1 = m at hcapture ⊢
  cases hcapture with
  | disabled => exact ⟨h.idle, h.tx, h.rx, h.busy, h.awake⟩
  | overflow => exact h
  | first => exact settled_counted h tmpTime
  | wakeup _ _ hsleep => exact absurd hsleep h.awake
  | breakField _ _ hidle =>
    have htx := h.tx_eq_false (by simp [hidle])
    have hrx := h.rx_eq_false (by simp [hidle])
    exact Settled.of_header (Or.inr (Or.inr (Or.inr ⟨rfl, by simp⟩))) (by simpa [Node.counted] using htx)
      (by simpa [Node.counted] using hrx)
  | noise => exact ⟨h.idle, h.tx, h.rx, h.busy, h.awake⟩
  | measured hcounts hsecond =>
    have heval := settled_autobaudTimerValEval (n.timeMeasure + tmpTime) (settled_counted h tmpTime)
      (hok hcounts.1 (Nat.not_lt.mp hcounts.2) hsecond)
    exact ⟨heval.idle, heval.tx, heval.rx, heval.busy, heval.awake⟩

end Autobaud

section Steps

variable {n : Node} {op : Op}

lemma settled_init (n : Node) : Settled n.init :=
  Settled.of_idle rfl rfl rfl rfl

lemma settled_step (h : Settled n) (hharmless : Harmless n op) : Settled (step n op) := by
  cases op with
  | sendFrameData txBuff txSize => exact settled_sendFrameData h txBuff txSize
  | sendFrameDataBlocking txBuff txSize timeoutMSec => exact settled_sendFrameDataBlocking h txBuff txSize timeoutMSec
  | receiveFrameData rxBuff rxSize => exact settled_recvFrmData h rxBuff rxSize
  | receiveFrameDataBlocking rxBuff rxSize timeoutMSec =>
    exact settled_recvFrmDataBlocking h rxBuff rxSize timeoutMSec
  | masterSendHeader id => exact settled_masterSendHeader h id
  | abortTransferData => exact settled_abortTransferData h
  | ignoreResponse => exact settled_gotoIdleState h hharmless
  | timeoutService => exact settled_timeoutService h hharmless
  | autoBaudCapture tmpTime => exact settled_autoBaudCapture h hharmless
  | irqHandler irq => exact settled_irqHandler h hharmless

/-- A break on the bus of an idle master. -/
lemma processBreakDetect_master_idle (hm : n.master = true) (hidle : n.currentNodeState = .idle) :
    ¬ FlagsConsistent n.processBreakDetect := by
  rintro ⟨hflags, -, -⟩
  simp [Node.processBreakDetect, hm, hidle] at hflags

/-- A break in a response of a slave. -/
lemma processBreakDetect_slave_transfer (h : Settled n) (hm : n.master = false)
    (hstate : n.currentNodeState = .sendData ∨ n.currentNodeState = .recvData) :
    ¬ FlagsConsistent n.processBreakDetect := by
  rintro ⟨-, htx, hrx⟩
  rcases hstate with hstate | hstate
  · have hbusy := h.tx.mpr hstate
    simp [Node.processBreakDetect, hm, hstate, hbusy] at htx
  · have hbusy := h.rx.mpr hstate
    simp [Node.processBreakDetect, hm, hstate, hbusy] at hrx

lemma framingError_transfer (h : Settled n)
    (hstate : n.currentNodeState = .sendData ∨ n.currentNodeState = .recvData) : ¬ FlagsConsistent n.framingError := by
  rintro ⟨hflags, -, -⟩
  rcases hstate with hstate | hstate
  · have hbusy := h.tx.mpr hstate
    simp [Node.framingError, Node.gotoIdleState, hstate, hbusy] at hflags
  · have hbusy := h.rx.mpr hstate
    unfold Node.framingError at hflags
    dsimp only at hflags
    split_ifs at hflags <;> simp [Node.gotoIdleState, hbusy] at hflags

/-- The end of a measurement that fails leaves the bus busy. -/
lemma autobaudTimerValEval_fails {length : Nat} (h : Settled n) (hstate : n.currentNodeState = .recvSync)
    (hfail : MeasurementFails n length) : (n.autobaudTimerValEval length).currentNodeState = .idle ∧
      (n.autobaudTimerValEval length).isBusBusy = true := by
  have hbus := h.busy (Or.inr (Or.inr hstate))
  unfold Node.autobaudTimerValEval
  rw [if_pos hstate]
  dsimp only
  by_cases hfirst : 0 < n.fallingEdgeInterruptCount ∧ n.fallingEdgeInterruptCount < 5 ∧ (outOfRange length ∨
      n.fallingEdgeInterruptCount > 1 ∧ unsynchronised n.previousTwoBitTimeLength length)
  · have hcancel : n.evalTwoBitTimeLength length =
        { n.cancelCapturing with previousTwoBitTimeLength := length, fallingEdgeInterruptCount := 1 } := by
      unfold Node.evalTwoBitTimeLength
      rw [if_pos ⟨hfirst.2.1, hfirst.1⟩]
      rcases hfirst.2.2 with hout | hun
      · rw [if_pos hout]
        rfl
      · split_ifs <;> rfl
    rw [hcancel, if_neg (show ¬ 1 > 4 by decide)]
    exact ⟨rfl, hbus⟩
  · have hrate := hfail.resolve_left hfirst
    obtain ⟨-, hbusy, -, -, hcount⟩ := evalTwoBitTimeLength_fields hfirst
    rw [if_pos (hcount.symm ▸ hrate.1), if_neg (not_not.mpr hrate.2)]
    exact ⟨rfl, hbusy.trans hbus⟩

lemma autoBaudCapture_harmless (h : Settled n) {tmpTime : Nat}
    (hflags : FlagsConsistent (n.autoBaudCapture tmpTime).1) : Harmless n (.autoBaudCapture tmpTime) := by
  intro heval hover hedge hstate hfail
  have hend := autobaudTimerValEval_fails (settled_counted h tmpTime) hstate hfail
  have hcapture := autoBaudCapture_captured n tmpTime
  generalize (n.autoBaudCapture tmpTime).1 = m at hcapture hflags
  cases hcapture with
  | disabled _ hoff => exact hoff heval
  | overflow _ hover' => exact absurd hover (Nat.not_le.mpr hover')
  | first _ hfirst => exact hfirst hedge
  | wakeup _ _ hsleep => exact h.awake hsleep
  | breakField _ _ hidle => exact absurd (hidle.symm.trans hstate) (by decide)
  | noise _ _ hnoise =>
    rcases hnoise with ⟨hsleep, -⟩ | ⟨hidle, -⟩
    · exact h.awake hsleep
    · exact absurd (hidle.symm.trans hstate) (by decide)
  | measured => exact absurd ((hflags.1 hend.1).1.symm.trans hend.2) (by decide)

/-- The flags stay consistent in exactly the steps that are harmless. -/
theorem flagsConsistent_step_iff (h : Settled n) : FlagsConsistent (step n op) ↔ Harmless n op := by
  refine ⟨?_, fun hharmless => (settled_step h hharmless).flagsConsistent⟩
  intro hflags
  cases op with
  | sendFrameData txBuff txSize => exact trivial
  | sendFrameDataBlocking txBuff txSize timeoutMSec => exact trivial
  | receiveFrameData rxBuff rxSize => exact trivial
  | receiveFrameDataBlocking rxBuff rxSize timeoutMSec => exact trivial
  | masterSendHeader id => exact trivial
  | abortTransferData => exact trivial
  | ignoreResponse => exact (hflags.1 rfl).1
  | timeoutService =>
    intro hzero
    refine ⟨?_, ?_⟩
    · rintro ⟨hstate, hblocking⟩
      have hbus := h.busy (Or.inl hstate)
      have hidle := hflags.1
      simp [step, Node.timeoutService, Node.gotoIdleState, hstate, hzero, hblocking, hbus] at hidle
    · rintro ⟨hstate, hblocking⟩
      have hbus := h.busy (Or.inr (Or.inl hstate))
      have hidle := hflags.1
      simp [step, Node.timeoutService, Node.gotoIdleState, hstate, hzero, hblocking, hbus] at hidle
  | autoBaudCapture tmpTime => exact autoBaudCapture_harmless h hflags
  | irqHandler irq =>
    refine ⟨?_, ?_, ?_⟩
    · intro hbreak hm hidle
      refine processBreakDetect_master_idle hm hidle ?_
      simpa only [step, Node.irqHandler, if_pos hbreak] using hflags
    · intro hbreak hm
      rw [← not_or]
      intro hstate
      refine processBreakDetect_slave_transfer h hm hstate ?_
      simpa only [step, Node.irqHandler, if_pos hbreak] using hflags
    · intro hbreak hframe hedge
      rw [← not_or]
      intro hstate
      refine framingError_transfer h hstate ?_
      have hbreak' : ¬ irq.linBreak = true := by
        rw [hbreak]
        decide
      simpa only [step, Node.irqHandler, if_neg hbreak', if_neg hedge, if_pos hframe] using hflags

/-- In every run of harmless steps the flags are consistent in every state reached. -/
theorem flagsConsistent_run (n : Node) (ops : List Op) (hrun : EachStep step Harmless n.init ops) :
    FlagsConsistent (ops.foldl step n.init) :=
  (hrun.invariant (fun _ _ hs hop => settled_step hs hop) ops (settled_init n)).flagsConsistent

end Steps

/-- A state structure of zeros for a node with a callback. -/
def blankNode (master : Bool) : Node :=
  { txBuff := 0, rxBuff := 0, cntByte := 0, txSize := 0, rxSize := 0, checkSum := 0, isTxBusy := false
    isRxBusy := false, isBusBusy := false, isTxBlocking := false, isRxBlocking := false, callback := true
    currentId := 0, currentPid := 0, currentEventId := .noEvent, currentNodeState := .uninit, timeoutCounter := 0
    timeoutCounterFlag := false, baudrateEvalEnable := false, fallingEdgeInterruptCount := 0, txCompleted := false
    rxCompleted := false, master := master, autobaudEnable := false, baudRate := 19200, timerCallback := false
    previousTwoBitTimeLength := 0, wakeupSignal := 0, countMeasure := 0, timeMeasure := 0, rxDataPolarity := false
    activeEdgeInt := false, memory := fun _ => 0, written := [], reports := [] }

/-- The interrupt for a break. -/
def breakIrq : Irq :=
  { linBreak := true, rxActiveEdge := false, framingError := false, rxDataRegFull := false, txDataRegEmpty := true
    data := 0, interval := 0 }

/-- The interrupt for a byte. -/
def byteIrq (b : UInt8) : Irq :=
  { breakIrq with linBreak := false, rxDataRegFull := true, data := b }

/-- The interrupt for a byte with a framing error. -/
def framingErrorIrq : Irq :=
  { byteIrq 0 with framingError := true }

/-- A master that sends a header and a response. -/
theorem flagsConsistent_run_master :
    FlagsConsistent ([.masterSendHeader 5, .irqHandler breakIrq, .irqHandler (byteIrq 0x55),
      .irqHandler (byteIrq (makeParity 5)), .sendFrameData 0 1, .irqHandler (byteIrq 0), .timeoutService].foldl step
      (blankNode true).init) :=
  flagsConsistent_run (blankNode true) _ (by decide +kernel)

/-- A framing error in the response that a slave receives. -/
theorem flagsConsistent_framingError :
    ¬ FlagsConsistent ([.irqHandler breakIrq, .irqHandler (byteIrq 0x55), .irqHandler (byteIrq (makeParity 5)),
      .receiveFrameData 0 2, .irqHandler framingErrorIrq].foldl step (blankNode false).init) := by
  decide +kernel

end McuxDrivers.Lin
