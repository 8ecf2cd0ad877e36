import McuxDrivers.Lin.Calls

/-!
# The measurement of the sync byte

`LIN_LPUART_AutoBaudCapture` adds the captured intervals up until two bits of the sync byte are measured. In IDLE
and in SLEEP it starts the count again, but not the sum. `Captures` records what has been captured.
-/

namespace McuxDrivers.Lin
open McuxDrivers.Lib

/-- The edge is the second one of a pair. -/
def Evaluates (n : Node) : Prop :=
  (n.countMeasure + 1) % 256 > 1

instance (n : Node) : Decidable (Evaluates n) :=
  inferInstanceAs (Decidable (_ > _))

/-- `LIN_LPUART_EvalTwoBitTimeLength` compares the length at this edge. -/
def Compares (n : Node) : Prop :=
  Evaluates n ∧ n.currentNodeState = .recvSync ∧ 0 < n.fallingEdgeInterruptCount ∧ n.fallingEdgeInterruptCount < 5

instance (n : Node) : Decidable (Compares n) :=
  inferInstanceAs (Decidable (_ ∧ _))

/-- A node with the last interval that was captured, the sum of those since the last measurement of two bits, and how
much of it IDLE or SLEEP has taken for pulses. -/
structure Captures where
  node : Node
  last : Nat
  total : Nat
  stale : Nat

def startCaptures (n : Node) : Captures :=
  { node := n.init, last := 0, total := 0, stale := 0 }

def captureStep (t : Captures) : Call → Captures
  | .op (.autoBaudCapture tmpTime) =>
    let node := (t.node.autoBaudCapture tmpTime).1
    if t.node.baudrateEvalEnable then
      if Evaluates t.node then
        if t.node.currentNodeState = .sleepMode ∨ t.node.currentNodeState = .idle then
          { node := node, last := tmpTime, total := t.total + tmpTime, stale := t.total + tmpTime }
        else { node := node, last := tmpTime, total := 0, stale := 0 }
      else { node := node, last := tmpTime, total := t.total + tmpTime, stale := t.stale }
    else { t with node := node }
  | .init =>
    if t.node.autobaudEnable = true ∧ t.node.master = false then startCaptures t.node
    else { t with node := t.node.init }
  | c => { t with node := call t.node c }

/-- The edge is counted, and a length that is compared is the sum of the last two intervals. -/
def Present (t : Captures) : Call → Prop
  | .op (.autoBaudCapture tmpTime) => t.node.baudrateEvalEnable = true →
      ¬ t.node.timeMeasure > 0xFFFFFFFF - tmpTime ∧
        (Compares t.node → t.node.timeMeasure + tmpTime = t.last + tmpTime)
  | _ => True

/-- The intervals since the last measurement of two bits fit into 32 bits, and there are none of pulses in IDLE or
SLEEP when a length is compared. -/
def Fresh (t : Captures) : Call → Prop
  | .op (.autoBaudCapture tmpTime) => t.node.baudrateEvalEnable = true →
      t.total + tmpTime < 2 ^ 32 ∧ (Compares t.node → t.stale = 0)
  | _ => True

instance (t : Captures) : (c : Call) → Decidable (Fresh t c)
  | .op (.autoBaudCapture _) => inferInstanceAs (Decidable (_ → _))
  | .op (.sendFrameData _ _) => isTrue trivial
  | .op (.sendFrameDataBlocking _ _ _) => isTrue trivial
  | .op (.receiveFrameData _ _) => isTrue trivial
  | .op (.receiveFrameDataBlocking _ _ _) => isTrue trivial
  | .op (.masterSendHeader _) => isTrue trivial
  | .op .abortTransferData => isTrue trivial
  | .op .ignoreResponse => isTrue trivial
  | .op .timeoutService => isTrue trivial
  | .op (.irqHandler _) => isTrue trivial
  | .init => isTrue trivial
  | .installCallback _ => isTrue trivial
  | .goToSleepMode => isTrue trivial
  | .sendWakeupSignal => isTrue trivial
  | .setTimeoutCounter _ => isTrue trivial

namespace Node

variable (n : Node)

/-- What the measurement depends on besides the state of the node. -/
def measurement : Nat × Nat × Nat × Bool :=
  (n.timeMeasure, n.countMeasure, n.fallingEdgeInterruptCount, n.baudrateEvalEnable)

@[simp]
lemma report_measurement : n.report.measurement = n.measurement := by
  unfold report
  split_ifs <;> rfl

@[simp]
lemma report_baudRate : n.report.baudRate = n.baudRate := by
  unfold report
  split_ifs <;> rfl

end Node

section Measurement

variable {n : Node}

lemma measurement_transfers (buff size timeout : Nat) :
    (n.sendFrameData buff size).1.measurement = n.measurement ∧
      (n.sendFrameDataBlocking buff size timeout).1.measurement = n.measurement ∧
      (n.recvFrmData buff size).1.measurement = n.measurement ∧
      (n.recvFrmDataBlocking buff size timeout).1.measurement = n.measurement := by
  refine ⟨?_, ?_, ?_, ?_⟩
  · unfold Node.sendFrameData
    split_ifs <;> rfl
  · unfold Node.sendFrameDataBlocking
    split_ifs <;> rfl
  · unfold Node.recvFrmData
    split_ifs <;> rfl
  · unfold Node.recvFrmDataBlocking
    split_ifs <;> rfl

lemma measurement_masterSendHeader (id : UInt8) : (n.masterSendHeader id).1.measurement = n.measurement := by
  unfold Node.masterSendHeader
  split_ifs <;> rfl

lemma measurement_abortTransferData : n.abortTransferData.measurement = n.measurement := by
  unfold Node.abortTransferData
  split_ifs <;> rfl

lemma measurement_timeoutService : n.timeoutService.measurement = n.measurement := by
  unfold Node.timeoutService
  split
  · dsimp only
    split_ifs
    · exact Node.report_measurement _
    · exact Node.report_measurement _
    · rfl
  · dsimp only
    split_ifs
    · exact Node.report_measurement _
    · exact Node.report_measurement _
    · rfl
  · rfl

lemma measurement_processBreakDetect : n.processBreakDetect.measurement = n.measurement := by
  unfold Node.processBreakDetect
  dsimp only
  split_ifs
  · rfl
  · rfl
  · rfl
  · exact (Node.report_measurement _).trans (Node.report_measurement _)
  · exact Node.report_measurement _

lemma measurement_checkWakeupSignal (length : Nat) : (n.checkWakeupSignal length).measurement = n.measurement := by
  unfold Node.checkWakeupSignal
  split_ifs
  · rfl
  · rfl
  · exact Node.report_measurement _
  · rfl

lemma measurement_framingError : n.framingError.measurement = n.measurement := by
  unfold Node.framingError
  dsimp only
  split_ifs
  · exact (Node.report_measurement _).trans (Node.report_measurement _)
  · exact Node.report_measurement _
  · exact Node.report_measurement _
  · rfl

lemma measurement_processFrameHeader (b : UInt8) : (n.processFrameHeader b).measurement = n.measurement := by
  unfold Node.processFrameHeader
  split
  · split_ifs
    · rfl
    · exact Node.report_measurement _
  · split_ifs
    · rfl
    · exact Node.report_measurement _
  · dsimp only
    split_ifs
    · exact Node.report_measurement _
    · exact Node.report_measurement _
    · exact Node.report_measurement _
    · exact Node.report_measurement _
  · rfl

lemma measurement_processReceiveFrameData (b : UInt8) :
    (n.processReceiveFrameData b).measurement = n.measurement := by
  have hstore : (n.storeByte b).measurement = n.measurement := by
    unfold Node.storeByte
    dsimp only
    split_ifs <;> rfl
  unfold Node.processReceiveFrameData
  dsimp only
  split_ifs
  · refine Eq.trans ?_ hstore
    generalize n.storeByte b = m
    unfold Node.completeReception
    dsimp only
    split_ifs
    · exact Node.report_measurement _
    · exact Node.report_measurement _
    · exact Node.report_measurement _
    · exact Node.report_measurement _
    · exact Node.report_measurement _
  · exact hstore

lemma measurement_processSendFrameData (txEmpty : Bool) (b : UInt8) :
    (n.processSendFrameData txEmpty b).measurement = n.measurement := by
  have herror : n.readbackError.measurement = n.measurement := by
    unfold Node.readbackError
    dsimp only
    split_ifs
    · exact Node.report_measurement _
    · exact Node.report_measurement _
  have hnext (m : Node) : m.sendNext.measurement = m.measurement := by
    unfold Node.sendNext
    dsimp only
    split_ifs
    · rfl
    · rfl
    · exact Node.report_measurement _
    · exact Node.report_measurement _
  unfold Node.processSendFrameData
  dsimp only
  split_ifs
  · exact herror
  · exact herror
  · exact hnext _

lemma measurement_irqHandler (irq : Irq) : (n.irqHandler irq).measurement = n.measurement := by
  unfold Node.irqHandler
  split_ifs
  · exact measurement_processBreakDetect
  · exact measurement_checkWakeupSignal _
  · rfl
  · exact measurement_framingError
  · unfold Node.processFrame
    split
    · exact measurement_processFrameHeader _
    · exact measurement_processFrameHeader _
    · exact measurement_processFrameHeader _
    · exact measurement_processReceiveFrameData _
    · exact measurement_processSendFrameData _ _
    · rfl
  · rfl

/-- Only the capture and the initialisation change a measurement. -/
lemma measurement_call {c : Call} (hcapture : ∀ tmpTime, c ≠ .op (.autoBaudCapture tmpTime)) (hinit : c ≠ .init) :
    (call n c).measurement = n.measurement := by
  cases c with
  | op op =>
    cases op with
    | sendFrameData txBuff txSize => exact (measurement_transfers txBuff txSize 0).1
    | sendFrameDataBlocking txBuff txSize timeoutMSec => exact (measurement_transfers txBuff txSize timeoutMSec).2.1
    | receiveFrameData rxBuff rxSize => exact (measurement_transfers rxBuff rxSize 0).2.2.1
    | receiveFrameDataBlocking rxBuff rxSize timeoutMSec =>
      exact (measurement_transfers rxBuff rxSize timeoutMSec).2.2.2
    | masterSendHeader id => exact measurement_masterSendHeader id
    | abortTransferData => exact measurement_abortTransferData
    | ignoreResponse => rfl
    | timeoutService => exact measurement_timeoutService
    | autoBaudCapture tmpTime => exact absurd rfl (hcapture tmpTime)
    | irqHandler irq => exact measurement_irqHandler irq
  | init => exact absurd rfl hinit
  | installCallback callback => rfl
  | goToSleepMode => rfl
  | sendWakeupSignal =>
    change n.sendWakeupSignal.1.measurement = n.measurement
    unfold Node.sendWakeupSignal
    split_ifs <;> rfl
  | setTimeoutCounter timeoutValue => rfl

end Measurement

/-- The record fits the node. With one interval counted, the sum is that interval and the stale part, unless IDLE has
just taken it for a break. -/
structure Recorded (t : Captures) : Prop where
  total : t.node.timeMeasure = t.total
  count : t.node.countMeasure ≤ 1
  closed : t.node.countMeasure = 0 → t.total = t.stale
  opened : t.node.countMeasure = 1 → t.node.fallingEdgeInterruptCount = 0 ∨ t.total = t.stale + t.last

section Captures

variable {t : Captures} {tmpTime : Nat} {n : Node}

lemma Recorded.of_measurement (h : Recorded t) {m : Node} (hm : m.measurement = t.node.measurement) :
    Recorded { t with node := m } := by
  simp only [Node.measurement, Prod.mk.injEq] at hm
  obtain ⟨htime, hcount, hedges, -⟩ := hm
  refine ⟨htime.trans h.total, Nat.le_trans (Nat.le_of_eq hcount) h.count, fun hzero => h.closed (hcount.symm.trans hzero), ?_⟩
  intro hone
  dsimp only at hone ⊢
  rw [hedges]
  exact h.opened (hcount.symm.trans hone)

lemma recorded_start (n : Node) (hslave : n.autobaudEnable = true ∧ n.master = false) : Recorded (startCaptures n) := by
  have hmeasurement : n.init.timeMeasure = 0 ∧ n.init.countMeasure = 0 := by
    unfold Node.init
    dsimp only
    rw [if_pos hslave]
    exact ⟨rfl, rfl⟩
  refine ⟨hmeasurement.1, ?_, fun _ => rfl, fun hone => ?_⟩
  · unfold startCaptures
    dsimp only
    rw [hmeasurement.2]
    exact Nat.zero_le _
  · exact absurd (hmeasurement.2.symm.trans hone) (by decide)

lemma Recorded.evaluates_iff (h : Recorded t) : Evaluates t.node ↔ t.node.countMeasure = 1 := by
  have hcount := h.count
  unfold Evaluates
  omega

/-- What IDLE and SLEEP leave of an edge: the interval is part of the sum, and the count starts again. -/
lemma recorded_pulse (h : Recorded t) {m : Node} (htime : m.timeMeasure = t.node.timeMeasure + tmpTime)
    (hcount : m.countMeasure = 0 ∨ m.countMeasure = 1 ∧ m.fallingEdgeInterruptCount = 0) :
    Recorded { node := m, last := tmpTime, total := t.total + tmpTime, stale := t.total + tmpTime } := by
  refine ⟨htime.trans (congrArg (· + tmpTime) h.total), ?_, fun _ => rfl, fun hone => Or.inl ?_⟩
  · dsimp only
    omega
  · dsimp only at hone ⊢
    omega

lemma recorded_capture (h : Recorded t) (hpresent : Present t (.op (.autoBaudCapture tmpTime))) :
    Recorded (captureStep t (.op (.autoBaudCapture tmpTime))) := by
  have hcapture := autoBaudCapture_captured t.node tmpTime
  unfold captureStep
  dsimp only
  generalize (t.node.autoBaudCapture tmpTime).1 = m at hcapture ⊢
  cases hcapture with
  | disabled edges hoff hedges =>
    rw [if_neg hoff]
    refine ⟨h.total, h.count, h.closed, fun hone => ?_⟩
    rcases hedges with rfl | rfl
    · exact h.opened hone
    · exact Or.inl rfl
  | overflow hon hover => exact absurd hover (hpresent hon).1
  | first hcounts hfirst =>
    have hnot : ¬ Evaluates t.node := hfirst
    have hcount := h.count
    have hzero : t.node.countMeasure = 0 := by omega
    rw [if_pos hcounts.1, if_neg hnot]
    refine ⟨congrArg (· + tmpTime) h.total, ?_, fun hone => ?_, fun _ => Or.inr ?_⟩
    · unfold Node.counted
      dsimp only
      omega
    · unfold Node.counted at hone
      dsimp only at hone
      omega
    · dsimp only
      rw [h.closed hzero]
  | wakeup hcounts hsecond hsleep =>
    have hevaluates : Evaluates t.node := hsecond
    rw [if_pos hcounts.1, if_pos hevaluates, if_pos (Or.inl hsleep)]
    exact recorded_pulse h (congrArg Prod.fst (Node.report_measurement _)) (Or.inl rfl)
  | breakField hcounts hsecond hidle =>
    have hevaluates : Evaluates t.node := hsecond
    rw [if_pos hcounts.1, if_pos hevaluates, if_pos (Or.inr hidle)]
    exact recorded_pulse h (congrArg Prod.fst (Node.report_measurement _)) (Or.inr ⟨rfl, rfl⟩)
  | noise hcounts hsecond hnoise =>
    have hevaluates : Evaluates t.node := hsecond
    rw [if_pos hcounts.1, if_pos hevaluates, if_pos (hnoise.imp And.left And.left)]
    exact recorded_pulse h rfl (Or.inl rfl)
  | measured hcounts hsecond hsleep hidle =>
    have hevaluates : Evaluates t.node := hsecond
    rw [if_pos hcounts.1, if_pos hevaluates, if_neg (not_or.mpr ⟨hsleep, hidle⟩)]
    refine ⟨rfl, Nat.zero_le 1, fun _ => rfl, fun hone => ?_⟩
    exact absurd hone Nat.zero_ne_one

lemma recorded_step (h : Recorded t) {c : Call} (hpresent : Present t c) : Recorded (captureStep t c) := by
  by_cases hcapture : ∃ tmpTime, c = .op (.autoBaudCapture tmpTime)
  · obtain ⟨tmpTime, rfl⟩ := hcapture
    exact recorded_capture h hpresent
  by_cases hinit : c = .init
  · subst hinit
    unfold captureStep
    dsimp only
    by_cases hslave : t.node.autobaudEnable = true ∧ t.node.master = false
    · rw [if_pos hslave]
      exact recorded_start _ hslave
    · rw [if_neg hslave]
      refine h.of_measurement ?_
      unfold Node.init
      rw [if_neg hslave]
      rfl
  · have hcall : captureStep t c = { t with node := call t.node c } := by
      cases c with
      | op op =>
        cases op with
        | autoBaudCapture tmpTime => exact absurd ⟨tmpTime, rfl⟩ hcapture
        | _ => rfl
      | init => exact absurd rfl hinit
      | _ => rfl
    rw [hcall]
    exact h.of_measurement (measurement_call (fun tmpTime heq => hcapture ⟨tmpTime, heq⟩) hinit)

/-- A step measures the present exactly if what it measures is fresh. -/
lemma present_iff_fresh (h : Recorded t) {c : Call}
    (hinterval : ∀ tmpTime, c = .op (.autoBaudCapture tmpTime) → tmpTime < 2 ^ 32) : Present t c ↔ Fresh t c := by
  by_cases hcapture : ∃ tmpTime, c = .op (.autoBaudCapture tmpTime)
  · obtain ⟨tmpTime, rfl⟩ := hcapture
    have hrange := hinterval tmpTime rfl
    have hlength : Compares t.node → (t.node.timeMeasure + tmpTime = t.last + tmpTime ↔ t.stale = 0) := by
      rintro ⟨hsecond, -, hedges, -⟩
      have hone := h.opened (h.evaluates_iff.mp hsecond)
      rw [h.total]
      omega
    have hfit : ¬ t.node.timeMeasure > 0xFFFFFFFF - tmpTime ↔ t.total + tmpTime < 2 ^ 32 := by
      rw [h.total]
      omega
    unfold Present Fresh
    dsimp only
    refine forall_congr' fun _ => and_congr hfit ?_
    refine forall_congr' fun hcompares => hlength hcompares
  · cases c with
    | op op =>
      cases op with
      | autoBaudCapture tmpTime => exact absurd ⟨tmpTime, rfl⟩ hcapture
      | _ => exact Iff.rfl
    | _ => exact Iff.rfl

end Captures

/-- The baud rates, in hundreds, that a node can adjust to. -/
def adjustableRates : List Nat :=
  [192, 144, 96, 48, 24]

/-- The captured intervals of a header: the gap before it, the break, the delimiter, and the bits of the sync byte in
pairs from one falling edge to the next. -/
def headerIntervals (gap brk delimiter : Nat) (bits : List (Nat × Nat)) : List Nat :=
  gap :: brk :: delimiter :: bits.flatMap fun p => [p.1, p.2]

/-- The break is long enough, and the sync byte has one of the baud rates all along. -/
structure CleanHeader (rate brk : Nat) (bits : List (Nat × Nat)) : Prop where
  adjustable : rate ∈ adjustableRates
  long : brk ≥ 13 * bitDurationMin 192
  length : bits.length = 4
  fits : ∀ p ∈ bits, fitsBaudrate rate (p.1 + p.2)

/-- The reset for the next measurement. -/
def Node.resetMeasure (n : Node) : Node :=
  { n with countMeasure := 0, timeMeasure := 0 }

def captureAll (n : Node) (intervals : List Nat) : Node :=
  intervals.foldl (fun n tmpTime => (n.autoBaudCapture tmpTime).1) n

/-- The node has measured `k` times in the sync byte. -/
structure InSync (rate k : Nat) (n : Node) : Prop where
  enabled : n.baudrateEvalEnable = true
  state : n.currentNodeState = .recvSync
  time : n.timeMeasure = 0
  count : n.countMeasure = 0
  edges : n.fallingEdgeInterruptCount = k
  previous : 1 < k → fitsBaudrate rate n.previousTwoBitTimeLength

section Headers

variable {rate k length previous gap brk delimiter : Nat} {bits : List (Nat × Nat)} {n : Node}

lemma fitsBaudrate_windows (length : Nat) : (fitsBaudrate 192 length ↔ 102082 ≤ length ∧ length ≤ 106250) ∧
    (fitsBaudrate 144 length ↔ 136110 ≤ length ∧ length ≤ 141666) ∧
    (fitsBaudrate 96 length ↔ 204166 ≤ length ∧ length ≤ 212500) ∧
    (fitsBaudrate 48 length ↔ 408332 ≤ length ∧ length ≤ 425000) ∧
    (fitsBaudrate 24 length ↔ 816666 ≤ length ∧ length ≤ 850000) :=
  ⟨Iff.rfl, Iff.rfl, Iff.rfl, Iff.rfl, Iff.rfl⟩

/-- A length that fits a baud rate is in no gap between them and gives this rate. -/
lemma fits_rate (hrate : rate ∈ adjustableRates) (hfits : fitsBaudrate rate length) :
    ¬ outOfRange length ∧ masterBaudrate length = 100 * rate ∧ length ≤ 850000 := by
  obtain ⟨h192, h144, h96, h48, h24⟩ := fitsBaudrate_windows length
  simp only [adjustableRates, List.mem_cons, List.not_mem_nil, or_false] at hrate
  have hwindow : (rate = 192 ∧ 102082 ≤ length ∧ length ≤ 106250) ∨
      (rate = 144 ∧ 136110 ≤ length ∧ length ≤ 141666) ∨ (rate = 96 ∧ 204166 ≤ length ∧ length ≤ 212500) ∨
      (rate = 48 ∧ 408332 ≤ length ∧ length ≤ 425000) ∨ (rate = 24 ∧ 816666 ≤ length ∧ length ≤ 850000) := by
    rcases hrate with rfl | rfl | rfl | rfl | rfl
    · exact Or.inl ⟨rfl, h192.mp hfits⟩
    · exact Or.inr (Or.inl ⟨rfl, h144.mp hfits⟩)
    · exact Or.inr (Or.inr (Or.inl ⟨rfl, h96.mp hfits⟩))
    · exact Or.inr (Or.inr (Or.inr (Or.inl ⟨rfl, h48.mp hfits⟩)))
    · exact Or.inr (Or.inr (Or.inr (Or.inr ⟨rfl, h24.mp hfits⟩)))
  refine ⟨?_, ?_, by omega⟩
  · unfold outOfRange bitDurationMin bitDurationMax
    omega
  · unfold masterBaudrate
    split_ifs with a192 a144 a96 a48 a24
    · rw [h192] at a192
      omega
    · rw [h144] at a144
      omega
    · rw [h96] at a96
      omega
    · rw [h48] at a48
      omega
    · rw [h24] at a24
      omega
    · rw [h192] at a192
      rw [h144] at a144
      rw [h96] at a96
      rw [h48] at a48
      rw [h24] at a24
      omega

/-- Two lengths of one baud rate are close enough to each other. -/
lemma fits_synchronised (hrate : rate ∈ adjustableRates) (hprevious : fitsBaudrate rate previous)
    (hfits : fitsBaudrate rate length) : ¬ unsynchronised previous length := by
  have hbound := (fits_rate hrate hprevious).2.2
  unfold unsynchronised
  rw [Nat.mod_eq_of_lt (by omega), Nat.mod_eq_of_lt (by omega)]
  simp only [adjustableRates, List.mem_cons, List.not_mem_nil, or_false] at hrate
  rcases hrate with rfl | rfl | rfl | rfl | rfl
  all_goals
    simp only [fitsBaudrate, bitDurationMin, bitDurationMax] at hprevious hfits
    omega

/-- The first interval of a pair is only counted. -/
lemma capture_first (henabled : n.baudrateEvalEnable = true) (hcount : n.countMeasure = 0) (tmpTime : Nat)
    (hfit : n.timeMeasure + tmpTime < 2 ^ 32) : (n.autoBaudCapture tmpTime).1 =
      { n with timeMeasure := n.timeMeasure + tmpTime, countMeasure := 1 } := by
  have hfirst : ¬ (n.countMeasure + 1) % 256 > 1 := by omega
  have hcounted : n.counted tmpTime = { n with timeMeasure := n.timeMeasure + tmpTime, countMeasure := 1 } := by
    unfold Node.counted
    rw [hcount]
  rw [← hcounted]
  have hcapture := autoBaudCapture_captured n tmpTime
  generalize (n.autoBaudCapture tmpTime).1 = m at hcapture ⊢
  cases hcapture with
  | disabled _ hoff => exact absurd henabled hoff
  | overflow _ hover => omega
  | first => rfl
  | wakeup _ hsecond => exact absurd hsecond hfirst
  | breakField _ hsecond => exact absurd hsecond hfirst
  | noise _ hsecond => exact absurd hsecond hfirst
  | measured _ hsecond => exact absurd hsecond hfirst

lemma capture_break (henabled : n.baudrateEvalEnable = true) (hcount : n.countMeasure = 1)
    (hidle : n.currentNodeState = .idle) (hbrk : brk ≥ 13 * bitDurationMin 192) (hfit : n.timeMeasure + brk < 2 ^ 32) :
    (n.autoBaudCapture brk).1.currentNodeState = .recvSync ∧
      (n.autoBaudCapture brk).1.measurement = (n.timeMeasure + brk, 1, 0, true) := by
  have hcapture := autoBaudCapture_captured n brk
  generalize (n.autoBaudCapture brk).1 = m at hcapture ⊢
  cases hcapture with
  | disabled _ hoff => exact absurd henabled hoff
  | overflow _ hover => omega
  | first _ hfirst => omega
  | wakeup _ _ hsleep => exact absurd (hsleep.symm.trans hidle) (by decide)
  | breakField =>
    have hreport := Node.report_measurement
      { n.counted brk with isBusBusy := true, currentEventId := .recvBreakFieldOk }
    simp only [Node.measurement, Prod.mk.injEq] at hreport
    refine ⟨rfl, ?_⟩
    unfold Node.measurement
    dsimp only
    rw [hreport.1, hreport.2.2.2, Node.counted, henabled]
  | noise _ _ hnoise =>
    rcases hnoise with ⟨hsleep, -⟩ | ⟨-, hshort⟩
    · exact absurd (hsleep.symm.trans hidle) (by decide)
    · exact absurd hbrk hshort
  | measured _ _ _ hother => exact absurd hidle hother

lemma capture_second (henabled : n.baudrateEvalEnable = true) (hcount : n.countMeasure = 1)
    (hstate : n.currentNodeState = .recvSync) (tmpTime : Nat) (hfit : n.timeMeasure + tmpTime < 2 ^ 32) :
    (n.autoBaudCapture tmpTime).1 =
      (Node.autobaudTimerValEval { n with timeMeasure := n.timeMeasure + tmpTime, countMeasure := 2 }
        (n.timeMeasure + tmpTime)).resetMeasure := by
  have hcounted : n.counted tmpTime = { n with timeMeasure := n.timeMeasure + tmpTime, countMeasure := 2 } := by
    unfold Node.counted
    rw [hcount]
  rw [← hcounted]
  have hcapture := autoBaudCapture_captured n tmpTime
  generalize (n.autoBaudCapture tmpTime).1 = m at hcapture ⊢
  cases hcapture with
  | disabled _ hoff => exact absurd henabled hoff
  | overflow _ hover => omega
  | first _ hfirst => omega
  | wakeup _ _ hsleep => exact absurd (hsleep.symm.trans hstate) (by decide)
  | breakField _ _ hidle => exact absurd (hidle.symm.trans hstate) (by decide)
  | noise _ _ hnoise =>
    rcases hnoise with ⟨hsleep, -⟩ | ⟨hidle, -⟩
    · exact absurd (hsleep.symm.trans hstate) (by decide)
    · exact absurd (hidle.symm.trans hstate) (by decide)
  | measured => rfl

/-- The first length of the sync byte is not compared. -/
lemma evalTwoBitTimeLength_first (hedges : n.fallingEdgeInterruptCount = 0) (length : Nat) :
    n.evalTwoBitTimeLength length = { n with fallingEdgeInterruptCount := 1 } := by
  unfold Node.evalTwoBitTimeLength
  rw [if_neg (by omega)]
  dsimp only
  rw [hedges]

lemma evalTwoBitTimeLength_fits (hrate : rate ∈ adjustableRates) (hedges : n.fallingEdgeInterruptCount = k)
    (hpos : 0 < k) (hlt : k < 5) (hprevious : 1 < k → fitsBaudrate rate n.previousTwoBitTimeLength)
    (hfits : fitsBaudrate rate length) : n.evalTwoBitTimeLength length =
      { n with previousTwoBitTimeLength := length, fallingEdgeInterruptCount := k + 1 } := by
  have hsync : ¬ (k > 1 ∧ unsynchronised n.previousTwoBitTimeLength length) := by
    rintro ⟨hmany, hunsynchronised⟩
    exact fits_synchronised hrate (hprevious hmany) hfits hunsynchronised
  have hcount : (k + 1) % 256 = k + 1 := by omega
  unfold Node.evalTwoBitTimeLength
  rw [hedges, if_pos ⟨hlt, hpos⟩, if_neg (fits_rate hrate hfits).1, if_neg hsync]
  dsimp only
  rw [hedges, hcount]

lemma inSync_start (henabled : n.baudrateEvalEnable = true) (hcount : n.countMeasure = 1)
    (hstate : n.currentNodeState = .recvSync) (hedges : n.fallingEdgeInterruptCount = 0)
    (hfit : n.timeMeasure + delimiter < 2 ^ 32) : InSync rate 1 (n.autoBaudCapture delimiter).1 := by
  rw [capture_second henabled hcount hstate delimiter hfit]
  unfold Node.autobaudTimerValEval
  rw [if_pos hstate]
  have heval := evalTwoBitTimeLength_first (n := { n with
    timeMeasure := n.timeMeasure + delimiter
    countMeasure := 2 }) hedges (n.timeMeasure + delimiter)
  rw [heval]
  dsimp only
  rw [if_neg (by decide)]
  exact ⟨henabled, hstate, rfl, rfl, rfl, fun hmany => absurd hmany (by decide)⟩

/-- Two intervals in the sync byte come to one measurement. -/
lemma captureAll_pair (h : InSync rate k n) {p : Nat × Nat} (hfit : p.1 + p.2 < 2 ^ 32) :
    captureAll n [p.1, p.2] =
      (Node.autobaudTimerValEval { n with timeMeasure := p.1 + p.2, countMeasure := 2 } (p.1 + p.2)).resetMeasure := by
  have hfirst := capture_first h.enabled h.count p.1 (by rw [h.time]; omega)
  rw [h.time, Nat.zero_add] at hfirst
  have hsecond := capture_second (n := { n with timeMeasure := p.1, countMeasure := 1 }) h.enabled rfl h.state p.2 hfit
  exact (congrArg (fun m => (m.autoBaudCapture p.2).1) hfirst).trans hsecond

lemma inSync_pair (hrate : rate ∈ adjustableRates) (h : InSync rate k n) (hpos : 0 < k) (hlt : k < 4) {p : Nat × Nat}
    (hfits : fitsBaudrate rate (p.1 + p.2)) : InSync rate (k + 1) (captureAll n [p.1, p.2]) := by
  have hbound := (fits_rate hrate hfits).2.2
  have heval := evalTwoBitTimeLength_fits (n := { n with timeMeasure := p.1 + p.2, countMeasure := 2 }) hrate h.edges
    hpos (by omega) h.previous hfits
  rw [captureAll_pair h (by omega)]
  unfold Node.autobaudTimerValEval
  rw [if_pos h.state, heval]
  dsimp only
  rw [if_neg (by omega)]
  exact ⟨h.enabled, h.state, rfl, rfl, rfl, fun _ => hfits⟩

/-- The node has adjusted its baud rate and waits for the PID. -/
def Adjusted (rate : Nat) (n : Node) : Prop :=
  n.currentNodeState = .recvPid ∧ n.currentEventId = .syncOk ∧ n.baudRate = 100 * rate ∧
    n.baudrateEvalEnable = false

lemma inSync_last (hrate : rate ∈ adjustableRates) (h : InSync rate 4 n) {p : Nat × Nat}
    (hfits : fitsBaudrate rate (p.1 + p.2)) : Adjusted rate (captureAll n [p.1, p.2]) := by
  obtain ⟨-, hmaster, hbound⟩ := fits_rate hrate hfits
  have hnonzero : 100 * rate ≠ 0 := by
    have hpos : rate ≠ 0 := by
      rintro rfl
      exact absurd hrate (by decide)
    omega
  have heval := evalTwoBitTimeLength_fits (n := { n with timeMeasure := p.1 + p.2, countMeasure := 2 }) hrate h.edges
    (by decide) (by decide) h.previous hfits
  rw [captureAll_pair h (by omega)]
  unfold Node.autobaudTimerValEval Adjusted
  rw [if_pos h.state, heval, hmaster]
  dsimp only
  rw [if_pos (by decide), if_pos hnonzero]
  refine ⟨rfl, rfl, (Node.report_baudRate _).trans ?_, congrArg (fun m => m.2.2.2) (Node.report_measurement _)⟩
  dsimp only
  split_ifs with hrates
  · rfl
  · rfl
  · exact Decidable.not_not.mp hrates

lemma captureAll_append (xs ys : List Nat) : captureAll n (xs ++ ys) = captureAll (captureAll n xs) ys :=
  List.foldl_append

lemma inSync_bits (hrate : rate ∈ adjustableRates) (h : InSync rate k n) (hpos : 0 < k)
    (hlength : bits.length + k = 5) (hne : bits ≠ []) (hfits : ∀ p ∈ bits, fitsBaudrate rate (p.1 + p.2)) :
    Adjusted rate (captureAll n (bits.flatMap fun p => [p.1, p.2])) := by
  induction bits generalizing k n with
  | nil => exact absurd rfl hne
  | cons p bits ih =>
    have hp := hfits p (List.mem_cons_self)
    rw [List.length_cons] at hlength
    rw [List.flatMap_cons, captureAll_append]
    by_cases hlast : bits = []
    · subst hlast
      have hk : k = 4 := by
        rw [List.length_nil] at hlength
        omega
      subst hk
      exact inSync_last hrate h hp
    · have hk : k < 4 := by
        have := List.length_pos_of_ne_nil hlast
        omega
      refine ih (inSync_pair hrate h hpos hk hp) (by omega) (by omega) hlast ?_
      intro q hq
      exact hfits q (List.mem_cons_of_mem _ hq)

/-- A clean header is recognised when its first edge is the first one of a pair and the sum still fits. -/
lemma header_recognised (hclean : CleanHeader rate brk bits) (henabled : n.baudrateEvalEnable = true)
    (hidle : n.currentNodeState = .idle) (hcount : n.countMeasure = 0)
    (hfit : n.timeMeasure + gap + brk + delimiter < 2 ^ 32) :
    Adjusted rate (captureAll n (headerIntervals gap brk delimiter bits)) := by
  have hgap := capture_first henabled hcount gap (by omega)
  obtain ⟨hstate, hmeasurement⟩ := capture_break (n := { n with
    timeMeasure := n.timeMeasure + gap
    countMeasure := 1 }) henabled rfl hidle hclean.long (by dsimp only; omega)
  rw [← hgap] at hstate hmeasurement
  simp only [Node.measurement, Prod.mk.injEq] at hmeasurement
  obtain ⟨htime, hcount', hedges, henabled'⟩ := hmeasurement
  have hsync : InSync rate 1 (captureAll n [gap, brk, delimiter]) := by
    refine inSync_start henabled' hcount' hstate hedges ?_
    rw [htime, hgap]
    exact hfit
  have hne : bits ≠ [] := by
    rintro rfl
    exact absurd hclean.length (by decide)
  have hbits := inSync_bits hclean.adjustable hsync (by decide) (by rw [hclean.length]) hne hclean.fits
  rw [← captureAll_append] at hbits
  exact hbits

end Headers

/-- In a run after the initialisation, every edge is counted and every length that is compared is the sum of the last
two intervals, exactly if the intervals since the last measurement always fit into 32 bits and no length is compared
after pulses in IDLE or SLEEP. A header after such a run is recognised if its first edge is the first one of a pair. -/
theorem captures_present_iff (n : Node) (hslave : n.autobaudEnable = true ∧ n.master = false) (calls : List Call)
    (hintervals : ∀ tmpTime, .op (.autoBaudCapture tmpTime) ∈ calls → tmpTime < 2 ^ 32) :
    (EachStep captureStep Present (startCaptures n) calls ↔ EachStep captureStep Fresh (startCaptures n) calls) ∧
      (EachStep captureStep Fresh (startCaptures n) calls →
        ∀ (rate gap brk delimiter : Nat) (bits : List (Nat × Nat)), CleanHeader rate brk bits →
          (calls.foldl captureStep (startCaptures n)).node.baudrateEvalEnable = true →
          (calls.foldl captureStep (startCaptures n)).node.currentNodeState = .idle →
          (calls.foldl captureStep (startCaptures n)).node.countMeasure = 0 →
          (calls.foldl captureStep (startCaptures n)).total + gap + brk + delimiter < 2 ^ 32 →
          Adjusted rate (captureAll (calls.foldl captureStep (startCaptures n)).node
            (headerIntervals gap brk delimiter bits))) := by
  have hstart := recorded_start n hslave
  have hsame : EachStep captureStep Present (startCaptures n) calls ↔
      EachStep captureStep Fresh (startCaptures n) calls :=
    EachStep.congr (I := Recorded) (E := fun c => ∀ tmpTime, c = .op (.autoBaudCapture tmpTime) → tmpTime < 2 ^ 32)
      (fun t c ht hc => present_iff_fresh ht hc) (fun t c ht hc => recorded_step ht hc) calls
      (fun c hc tmpTime heq => hintervals tmpTime (heq ▸ hc)) hstart
  refine ⟨hsame, ?_⟩
  intro hfresh rate gap brk delimiter bits hclean henabled hidle hcount hfit
  have hrecorded := (hsame.mpr hfresh).invariant (fun t c ht hc => recorded_step ht hc) calls hstart
  refine header_recognised hclean henabled hidle hcount ?_
  rw [hrecorded.total]
  exact hfit

/-- A slave that adjusts its baud rate. -/
def autobaudSlave : Node :=
  { blankNode false with autobaudEnable := true }

/-- Four pairs of bits at 19200. -/
def cleanBits : List (Nat × Nat) :=
  List.replicate 4 (52083, 52083)

lemma cleanHeader_192 : CleanHeader 192 700000 cleanBits := by
  refine ⟨by decide, by decide, by decide, ?_⟩
  intro p hp
  rw [List.eq_of_mem_replicate hp]
  decide

/-- A header after a short pulse in IDLE. -/
theorem captures_present_autobaudSlave :
    Adjusted 192 (captureAll ([.op (.autoBaudCapture 3000000), .op (.autoBaudCapture 1000)].foldl captureStep
      (startCaptures autobaudSlave)).node (headerIntervals 5000000 700000 52083 cleanBits)) := by
  refine (captures_present_iff autobaudSlave ⟨rfl, rfl⟩
    [.op (.autoBaudCapture 3000000), .op (.autoBaudCapture 1000)] ?_).2 (by decide +kernel) 192 5000000 700000 52083
    cleanBits cleanHeader_192 (by decide +kernel) (by decide +kernel) (by decide +kernel) (by decide +kernel)
  intro tmpTime hmem
  simp only [List.mem_cons, Call.op.injEq, Op.autoBaudCapture.injEq, List.not_mem_nil, or_false] at hmem
  omega

/-- Two short pulses in IDLE, two seconds apart, fill the sum: the driver takes none of the edges of the header after
them. -/
theorem idle_pulses_fill_timeMeasure :
    (captureAll autobaudSlave.init [2 ^ 31, 1000, 2 ^ 31 - 3000, 1000]).currentNodeState = .idle ∧
      (captureAll autobaudSlave.init [2 ^ 31, 1000, 2 ^ 31 - 3000, 1000]).countMeasure = 0 ∧
      (captureAll autobaudSlave.init [2 ^ 31, 1000, 2 ^ 31 - 3000, 1000]).timeMeasure > 0xFFFFFFFF - 5000000 ∧
      CleanHeader 192 700000 cleanBits ∧
      (captureAll autobaudSlave.init ([2 ^ 31, 1000, 2 ^ 31 - 3000, 1000] ++
        headerIntervals 5000000 700000 52083 cleanBits)).currentNodeState = .idle ∧
      (captureAll autobaudSlave.init ([2 ^ 31, 1000, 2 ^ 31 - 3000, 1000] ++
        headerIntervals 5000000 700000 52083 cleanBits)).baudrateEvalEnable = true :=
  ⟨by decide +kernel, by decide +kernel, by decide +kernel, cleanHeader_192, by decide +kernel, by decide +kernel⟩

end McuxDrivers.Lin
