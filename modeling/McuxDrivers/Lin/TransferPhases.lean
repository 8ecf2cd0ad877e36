import McuxDrivers.Lin.Calls
import McuxDrivers.Lin.Response

/-!
# The phases of a transfer

`LIN_LPUART_GetTransmitStatus` and `LIN_LPUART_GetReceiveStatus` answer from the last event, the byte counter and the
timeout flag. `Log` records what has happened to a transfer, and `Truthful` compares the answer with it.
-/

namespace McuxDrivers.Lin

/-- The codes of `lin_status_t` that the status functions return. -/
inductive TransferStatus where
  | success
  | txBusy
  | rxBusy
  | timeout
deriving DecidableEq

namespace Node

/-- The status functions, for the size of their transfer and their code for one that is under way; with
`bytesRemaining`. -/
def transferStatus (n : Node) (size : Nat) (busy : TransferStatus) : TransferStatus × Nat :=
  let bytesRemaining := (size + 256 - n.cntByte) % 256
  let retVal :=
    if n.currentEventId = .noEvent then
      if bytesRemaining ≠ 0 then
        if n.timeoutCounterFlag = false then busy else .timeout
      else .success
    else if n.currentEventId = .timeoutError then .timeout
    else .success
  (retVal, bytesRemaining)

/-- `LIN_LPUART_GetTransmitStatus`. -/
def getTransmitStatus (n : Node) : TransferStatus × Nat :=
  n.transferStatus n.txSize .txBusy

/-- `LIN_LPUART_GetReceiveStatus`. -/
def getReceiveStatus (n : Node) : TransferStatus × Nat :=
  n.transferStatus n.rxSize .rxBusy

end Node

/-- The two directions of a non-blocking transfer. -/
inductive Direction where
  | transmit
  | receive

namespace Direction

def start (n : Node) (buff size : Nat) : Direction → Node × Status
  | .transmit => n.sendFrameData buff size
  | .receive => n.recvFrmData buff size

def state : Direction → NodeState
  | .transmit => .sendData
  | .receive => .recvData

/-- The number of bytes with the checksum. -/
def size (n : Node) : Direction → Nat
  | .transmit => n.txSize
  | .receive => n.rxSize

def status (n : Node) : Direction → TransferStatus × Nat
  | .transmit => n.getTransmitStatus
  | .receive => n.getReceiveStatus

end Direction

/-- A node, with the bytes that its transfer has got so far and whether the timeout has ended it. -/
structure Log where
  node : Node
  taken : List UInt8
  expired : Bool

namespace Direction

/-- The byte that a transfer gets. One that comes back while the next one is still waiting does not count. -/
def byte (n : Node) (d : Direction) : Call → List UInt8
  | .op (.irqHandler irq) =>
    if n.currentNodeState = d.state ∧ irq.Byte n then
      match d with
      | .transmit => if irq.txDataRegEmpty then [irq.data] else []
      | .receive => [irq.data]
    else []
  | _ => []

/-- The timeout of a transfer expires. -/
def expires (n : Node) (d : Direction) : Call → Bool
  | .op .timeoutService => n.currentNodeState = d.state ∧ n.timeoutCounter = 0
  | _ => false

def startLog (d : Direction) (n : Node) (buff size : Nat) : Log :=
  { node := (d.start n buff size).1, taken := [], expired := false }

def logStep (d : Direction) (l : Log) (c : Call) : Log :=
  { node := call l.node c, taken := l.taken ++ d.byte l.node c, expired := l.expired || d.expires l.node c }

/-- Every byte of a transmission that began in the node `n` has been sent and has come back, or every byte of a
reception has been received and stored, with the right checksum. -/
def Complete (n : Node) (buff size : Nat) (l : Log) : Direction → Prop
  | .transmit => l.taken = response n buff size ∧ n.written ++ response n buff size <+: l.node.written
  | .receive => l.taken = frame (readBytes l.node.memory buff size) n.currentPid

/-- The status of a transfer does not say more than what has happened. -/
structure Truthful (d : Direction) (n : Node) (buff size : Nat) (l : Log) : Prop where
  success : (d.status l.node).1 = .success → d.Complete n buff size l
  timeout : (d.status l.node).1 = .timeout → l.expired = true
  remaining : (d.status l.node).2 ≤ size + 1

end Direction

/-- An event that is not the end of the transfer comes before the last byte. -/
def Misreported (d : Direction) (n : Node) (c : Call) : Prop :=
  n.cntByte ≠ d.size n ∧ Raises n c

/-- What an unfinished transfer is read from. -/
def Node.unfinished (n : Node) :=
  (n.currentNodeState, n.isBusBusy, n.currentEventId, n.cntByte, n.txSize, n.rxSize, n.txBuff, n.rxBuff, n.checkSum,
    n.currentPid, n.memory, n.written)

/-- The bytes so far, and those to come, of a transfer that began in the node `n`. -/
def Direction.Bytes (n : Node) (buff size : Nat) (l : Log) : Direction → Prop
  | .transmit =>
      l.node.txBuff = buff + l.taken.length ∧ l.node.memory = n.memory ∧
        l.node.checkSum = makeChecksumByte (readBytes n.memory buff size) n.currentPid ∧
        l.taken = (response n buff size).take l.taken.length ∧
        l.node.written = n.written ++ (response n buff size).take (l.taken.length + 1)
  | .receive =>
      l.node.rxBuff = buff + l.taken.length ∧ l.node.currentPid = n.currentPid ∧
        l.node.memory = stored n.memory buff l.taken

/-- The transfer is under way and has no fault so far. -/
structure Pending (d : Direction) (n : Node) (buff size : Nat) (l : Log) : Prop where
  state : l.node.currentNodeState = d.state
  busy : l.node.isBusBusy = true
  event : l.node.currentEventId = .noEvent
  total : d.size l.node = size + 1
  count : l.node.cntByte = l.taken.length
  more : l.taken.length ≤ size
  bytes : d.Bytes n buff size l
  flag : l.node.timeoutCounterFlag = true → l.expired = true

/-- The transfer has been given up, and nothing has been reported since. -/
structure Ended (d : Direction) (size : Nat) (l : Log) : Prop where
  outside : Outside l.node
  event : l.node.currentEventId = .noEvent
  total : d.size l.node = size + 1
  count : l.node.cntByte ≤ size
  more : l.taken.length ≤ size
  flag : l.node.timeoutCounterFlag = true → l.expired = true

/-- The transfer has come to its good end. -/
structure Done (d : Direction) (n : Node) (buff size : Nat) (l : Log) : Prop where
  outside : Outside l.node
  event : l.node.currentEventId ≠ .timeoutError
  total : d.size l.node = size + 1
  count : l.node.cntByte = size + 1
  complete : d.Complete n buff size l

/-- The phases of a transfer whose status has been right so far. -/
def Phase (d : Direction) (n : Node) (buff size : Nat) (l : Log) : Prop :=
  Pending d n buff size l ∨ Ended d size l ∨ Done d n buff size l

section Phases

variable {d : Direction} {n : Node} {buff size : Nat} {l : Log} {c : Call}

lemma remaining_eq (d : Direction) (n : Node) : (d.status n).2 = (d.size n + 256 - n.cntByte) % 256 := by
  cases d <;> rfl

lemma status_success_iff : (d.status n).1 = .success ↔
    n.currentEventId ≠ .timeoutError ∧ (n.currentEventId = .noEvent → (d.status n).2 = 0) := by
  have hstatus (size : Nat) (busy : TransferStatus) (hbusy : busy ≠ .success) :
      (n.transferStatus size busy).1 = .success ↔ n.currentEventId ≠ .timeoutError ∧
        (n.currentEventId = .noEvent → (n.transferStatus size busy).2 = 0) := by
    unfold Node.transferStatus
    dsimp only
    by_cases hevent : n.currentEventId = .noEvent
    · rw [if_pos hevent]
      split_ifs with hremaining hflag
      · simp [hevent, hremaining, hbusy]
      · simp [hevent, hremaining]
      · simpa [hevent] using hremaining
    · rw [if_neg hevent]
      split_ifs with htimeout
      · simp [htimeout]
      · simp [htimeout, hevent]
  cases d with
  | transmit => exact hstatus _ _ (by decide)
  | receive => exact hstatus _ _ (by decide)

lemma status_timeout_iff : (d.status n).1 = .timeout ↔ n.currentEventId = .timeoutError ∨
    n.currentEventId = .noEvent ∧ (d.status n).2 ≠ 0 ∧ n.timeoutCounterFlag = true := by
  have hstatus (size : Nat) (busy : TransferStatus) (hbusy : busy ≠ .timeout) :
      (n.transferStatus size busy).1 = .timeout ↔ n.currentEventId = .timeoutError ∨
        n.currentEventId = .noEvent ∧ (n.transferStatus size busy).2 ≠ 0 ∧ n.timeoutCounterFlag = true := by
    unfold Node.transferStatus
    dsimp only
    by_cases hevent : n.currentEventId = .noEvent
    · rw [if_pos hevent]
      split_ifs with hremaining hflag
      · simp [hevent, hflag, hbusy]
      · simpa [hevent, hremaining] using hflag
      · simpa [hevent] using fun hne => absurd hne hremaining
    · rw [if_neg hevent]
      split_ifs with htimeout
      · simp [htimeout]
      · simp [htimeout, hevent]
  cases d with
  | transmit => exact hstatus _ _ (by decide)
  | receive => exact hstatus _ _ (by decide)

lemma truthful_of_noEvent (hevent : l.node.currentEventId = .noEvent) (htotal : d.size l.node = size + 1)
    (hcount : l.node.cntByte ≤ size) (hsize : size ≤ 8) (hflag : l.node.timeoutCounterFlag = true → l.expired = true) :
    d.Truthful n buff size l := by
  have hremaining : (d.status l.node).2 = size + 1 - l.node.cntByte := by
    rw [remaining_eq, htotal]
    omega
  refine ⟨?_, ?_, by omega⟩
  · intro hsuccess
    have hnone := (status_success_iff.mp hsuccess).2 hevent
    omega
  · intro htimeout
    rcases status_timeout_iff.mp htimeout with hevent' | ⟨-, -, hexpired⟩
    · exact absurd (hevent.symm.trans hevent') (by decide)
    · exact hflag hexpired

lemma Direction.Complete.length (h : d.Complete n buff size l) : l.taken.length = size + 1 := by
  cases d with
  | transmit => exact (congrArg List.length h.1).trans response_length
  | receive => exact (congrArg List.length h).trans (by rw [frame_length, readBytes_length])

/-- An event that is taken for a success in front of the last byte. -/
lemma not_truthful_of_told (hevent : l.node.currentEventId ≠ .noEvent ∧ l.node.currentEventId ≠ .timeoutError)
    (hnot : ¬ d.Complete n buff size l) : ¬ d.Truthful n buff size l := by
  intro htruthful
  exact hnot (htruthful.success (status_success_iff.mpr ⟨hevent.2, fun hnone => absurd hnone hevent.1⟩))

lemma byte_outside (h : Outside n) : d.byte n c = [] ∧ d.expires n c = false := by
  have hstate : n.currentNodeState ≠ d.state := by
    cases d with
    | transmit => exact h.1
    | receive => exact h.2
  cases c with
  | op op =>
    cases op with
    | irqHandler irq => exact ⟨if_neg (fun hand => hstate hand.1), rfl⟩
    | timeoutService => exact ⟨rfl, by simp [Direction.expires, hstate]⟩
    | _ => exact ⟨rfl, rfl⟩
  | _ => exact ⟨rfl, rfl⟩

lemma transfer_count {m : Node} (h : m.transfer = n.transfer) : m.cntByte = n.cntByte :=
  congrArg Prod.fst h

lemma transfer_total {m : Node} (h : m.transfer = n.transfer) (d : Direction) : d.size m = d.size n := by
  cases d with
  | transmit => exact congrArg (fun t => t.2.1) h
  | receive => exact congrArg (fun t => t.2.2.1) h

lemma transfer_memory {m : Node} (h : m.transfer = n.transfer) : m.memory = n.memory :=
  congrArg (fun t => t.2.2.2) h

/-- Outside of the transfer the log only gets what the node has done. -/
lemma logStep_outside (h : Outside l.node) : d.logStep l c = { l with node := call l.node c } := by
  obtain ⟨hbyte, hexpires⟩ := byte_outside (d := d) (c := c) h
  unfold Direction.logStep
  rw [hbyte, hexpires, List.append_nil, Bool.or_false]

lemma ended_step (h : Ended d size l) (hstarts : ¬ Starts l.node c) (hsilent : ¬ Raises l.node c) :
    Ended d size (d.logStep l c) := by
  have hkept := kept_call h.outside hstarts
  have hevent : (call l.node c).currentEventId = .noEvent := by
    rcases (call_event h.outside hstarts).silent hsilent with hsame | hcleared
    · exact hsame.trans h.event
    · exact hcleared
  rw [logStep_outside h.outside]
  exact ⟨hkept.outside, hevent, (transfer_total hkept.transfer d).trans h.total, (transfer_count hkept.transfer).trans_le h.count, h.more,
    fun hflag => h.flag (hkept.flag hflag)⟩

lemma ended_told (h : Ended d size l) (hstarts : ¬ Starts l.node c) (hraises : Raises l.node c) :
    ¬ d.Truthful n buff size (d.logStep l c) := by
  rw [logStep_outside h.outside]
  refine not_truthful_of_told ((call_event h.outside hstarts).told hraises) ?_
  intro hcomplete
  have hlength := hcomplete.length
  have hmore := h.more
  dsimp only at hlength
  omega

lemma done_step (h : Done d n buff size l) (hstarts : ¬ Starts l.node c) : Done d n buff size (d.logStep l c) := by
  have hkept := kept_call h.outside hstarts
  have hevent : (call l.node c).currentEventId ≠ .timeoutError := by
    by_cases hraises : Raises l.node c
    · exact ((call_event h.outside hstarts).told hraises).2
    · rcases (call_event h.outside hstarts).silent hraises with hsame | hcleared
      · rw [hsame]
        exact h.event
      · rw [hcleared]
        decide
  have hcomplete : d.Complete n buff size { l with node := call l.node c } := by
    cases d with
    | transmit => exact ⟨h.complete.1, h.complete.2.trans hkept.written⟩
    | receive =>
      have hmemory := transfer_memory hkept.transfer
      have hdata := h.complete
      unfold Direction.Complete at hdata ⊢
      dsimp only at hdata ⊢
      rw [hmemory]
      exact hdata
  rw [logStep_outside h.outside]
  exact ⟨hkept.outside, hevent, (transfer_total hkept.transfer d).trans h.total, (transfer_count hkept.transfer).trans h.count, hcomplete⟩

lemma done_truthful (h : Done d n buff size l) : d.Truthful n buff size l := by
  have hremaining : (d.status l.node).2 = 0 := by
    rw [remaining_eq, h.total, h.count]
    omega
  refine ⟨fun _ => h.complete, ?_, by omega⟩
  intro htimeout
  rcases status_timeout_iff.mp htimeout with hevent | ⟨-, hremaining', -⟩
  · exact absurd hevent h.event
  · exact absurd hremaining hremaining'

/-- A step that an unfinished transfer does not see. -/
lemma Pending.of_node (h : Pending d n buff size l) {m : Node} (hm : m.unfinished = l.node.unfinished)
    (hflag : m.timeoutCounterFlag = true → l.expired = true) : Pending d n buff size { l with node := m } := by
  simp only [Node.unfinished, Prod.mk.injEq] at hm
  obtain ⟨hstate, hbusy, hevent, hcount, htx, hrx, htxBuff, hrxBuff, hsum, hpid, hmemory, hwritten⟩ := hm
  have htotal : d.size m = d.size l.node := by
    cases d with
    | transmit => exact htx
    | receive => exact hrx
  have hbytes : d.Bytes n buff size { l with node := m } := by
    have hold := h.bytes
    cases d with
    | transmit =>
      unfold Direction.Bytes at hold ⊢
      dsimp only at hold ⊢
      rw [htxBuff, hmemory, hsum, hwritten]
      exact hold
    | receive =>
      unfold Direction.Bytes at hold ⊢
      dsimp only at hold ⊢
      rw [hrxBuff, hpid, hmemory]
      exact hold
  exact ⟨hstate.trans h.state, hbusy.trans h.busy, hevent.trans h.event, htotal.trans h.total,
    hcount.trans h.count, h.more, hbytes, hflag⟩

/-- A step that gives the transfer up. -/
lemma Pending.ended (h : Pending d n buff size l) {m : Node} {expired : Bool} (houtside : Outside m)
    (htransfer : m.transfer = l.node.transfer) (hevent : m.currentEventId = l.node.currentEventId)
    (hflag : m.timeoutCounterFlag = true → expired = true) :
    Phase d n buff size { node := m, taken := l.taken, expired := expired } := by
  have hcount : m.cntByte ≤ size := by
    rw [transfer_count htransfer, h.count]
    exact h.more
  exact Or.inr (Or.inl ⟨houtside, hevent.trans h.event, (transfer_total htransfer d).trans h.total, hcount, h.more,
    hflag⟩)

lemma Pending.misreported_iff (h : Pending d n buff size l) : Misreported d l.node c ↔ Raises l.node c := by
  have hopen : l.node.cntByte ≠ d.size l.node := by
    have hmore := h.more
    rw [h.count, h.total]
    omega
  exact and_iff_right hopen

lemma sendNext_completed {m : Node} (hge : ¬ m.cntByte < m.txSize) :
    Outside m.sendNext ∧ m.sendNext.currentEventId = .txCompleted ∧ m.sendNext.transfer = m.transfer ∧
      m.sendNext.written = m.written := by
  rw [Node.sendNext, if_neg hge]
  dsimp only
  refine ⟨Outside.of_eq (s := .idle) rfl (by decide), ?_, ?_, ?_⟩
  · split_ifs <;> simp [Node.gotoIdleState]
  · split_ifs
    · exact Node.report_transfer _
    · exact Node.report_transfer _
  · split_ifs <;> simp [Node.gotoIdleState]

/-- A byte that passes the comparison is the one that was sent. -/
lemma response_of_readback (h : Pending .transmit n buff size l) (hsize : size ≤ 8) {b : UInt8} :
    ¬ l.node.progress.Mismatch l.node.memory b ↔ (response n buff size)[l.taken.length]? = some b := by
  obtain ⟨hbuff, hmemory, hsum, -, -⟩ := h.bytes
  have hmore := h.more
  have htotal : l.node.txSize = size + 1 := h.total
  unfold Progress.Mismatch Node.progress
  dsimp only
  rw [h.count, htotal, hbuff, hmemory, hsum]
  by_cases hlast : l.taken.length = size
  · have hone : (size + 1 + 256 - size) % 256 = 1 := by omega
    rw [hlast, response_checksum, Option.some.injEq]
    simp [hone]
  · have hone : (size + 1 + 256 - l.taken.length) % 256 ≠ 1 := by omega
    rw [response_data (by omega), Option.some.injEq]
    simp [hone]

lemma sending_next (h : Pending .transmit n buff size l) (hsize : size ≤ 8) (hlt : l.taken.length < size) {b : UInt8}
    (hb : (response n buff size)[l.taken.length]? = some b) :
    Pending .transmit n buff size
      { node := Node.sendNext { l.node with txBuff := l.node.txBuff + 1, cntByte := (l.node.cntByte + 1) % 256 }
        taken := l.taken ++ [b], expired := l.expired } := by
  obtain ⟨hbuff, hmemory, hsum, htaken, hwritten⟩ := h.bytes
  have htotal : l.node.txSize = size + 1 := h.total
  have hcnt : (l.node.cntByte + 1) % 256 = l.taken.length + 1 := by
    rw [h.count]
    omega
  have hlength : (l.taken ++ [b]).length = l.taken.length + 1 := by
    simp
  have hnext : (response n buff size).take (l.taken.length + 1) = l.taken ++ [b] := by
    rw [response_take_succ hb, ← htaken]
  have hwrite (b' : UInt8) (hb' : (response n buff size)[l.taken.length + 1]? = some b') : Pending .transmit n buff size
      { node := Node.writeByte { l.node with txBuff := l.node.txBuff + 1, cntByte := (l.node.cntByte + 1) % 256 } b'
        taken := l.taken ++ [b], expired := l.expired } := by
    refine ⟨h.state, h.busy, h.event, h.total, hcnt.trans hlength.symm, hlength.trans_le hlt, ?_, h.flag⟩
    refine ⟨?_, hmemory, hsum, ?_, ?_⟩
    · dsimp only [Node.writeByte]
      rw [hbuff, hlength, Nat.add_assoc]
    · dsimp only
      rw [hlength, hnext]
    · dsimp only [Node.writeByte]
      rw [hwritten, hlength, response_take_succ hb', List.append_assoc]
  by_cases hlast : l.taken.length + 1 = size
  · rw [sendNext_checksum]
    · exact hwrite _ (by rw [hlast, response_checksum]; exact congrArg some hsum.symm)
    · dsimp only
      omega
    · dsimp only
      omega
  · rw [sendNext_data]
    · exact hwrite _ (by rw [response_data (by omega)]; dsimp only; rw [hbuff, hmemory, Nat.add_assoc])
    · dsimp only
      omega
    · dsimp only
      omega

/-- The checksum has come back. -/
lemma sending_last (h : Pending .transmit n buff size l) (hsize : size ≤ 8) (hlast : l.taken.length = size) {b : UInt8}
    (hb : (response n buff size)[l.taken.length]? = some b) :
    Done .transmit n buff size
      { node := Node.sendNext { l.node with txBuff := l.node.txBuff + 1, cntByte := (l.node.cntByte + 1) % 256 }
        taken := l.taken ++ [b], expired := l.expired } := by
  obtain ⟨-, -, -, htaken, hwritten⟩ := h.bytes
  have htotal : l.node.txSize = size + 1 := h.total
  have hcnt : (l.node.cntByte + 1) % 256 = size + 1 := by
    rw [h.count]
    omega
  have hge : ¬ (l.node.cntByte + 1) % 256 < l.node.txSize := by
    rw [hcnt, htotal]
    omega
  have hall : (response n buff size).take (l.taken.length + 1) = response n buff size := by
    rw [List.take_of_length_le]
    rw [response_length]
    omega
  obtain ⟨houtside, hevent, htransfer, hkept⟩ := sendNext_completed
    (m := { l.node with txBuff := l.node.txBuff + 1, cntByte := (l.node.cntByte + 1) % 256 }) hge
  refine ⟨houtside, ?_, (transfer_total htransfer .transmit).trans htotal, (transfer_count htransfer).trans hcnt,
    ?_, ?_⟩
  · rw [hevent]
    decide
  · dsimp only
    rw [← hall, response_take_succ hb, ← htaken]
  · rw [hall] at hwritten
    exact (hkept.trans hwritten).symm ▸ List.prefix_refl _

lemma sending_byte (h : Pending .transmit n buff size l) (hsize : size ≤ 8) {b : UInt8}
    (hgood : ¬ l.node.progress.Mismatch l.node.memory b) :
    Phase .transmit n buff size
      { node := l.node.processSendFrameData true b, taken := l.taken ++ [b], expired := l.expired } := by
  have hb := (response_of_readback h hsize).mp hgood
  rw [processSendFrameData_match hgood]
  rcases Nat.lt_or_eq_of_le h.more with hlt | hlast
  · exact Or.inl (sending_next h hsize hlt hb)
  · exact Or.inr (Or.inr (sending_last h hsize hlast hb))

/-- A byte that does not come back as it was sent, or too early. -/
lemma sending_told (h : Pending .transmit n buff size l) (hsize : size ≤ 8) {txEmpty : Bool} {b : UInt8}
    (hbad : txEmpty = false ∨ l.node.progress.Mismatch l.node.memory b) :
    ¬ Direction.Truthful .transmit n buff size
      { node := l.node.processSendFrameData txEmpty b
        taken := l.taken ++ if txEmpty then [b] else [], expired := l.expired } := by
  have herror : l.node.processSendFrameData txEmpty b = l.node.readbackError := by
    unfold Node.processSendFrameData
    dsimp only
    split_ifs with hempty hmismatch
    · rfl
    · rfl
    · refine absurd (hbad.resolve_left hempty) ?_
      intro h'
      exact hmismatch h'
  have hevent : l.node.readbackError.currentEventId = .readbackError := by
    unfold Node.readbackError
    dsimp only
    split_ifs <;> simp [Node.gotoIdleState]
  refine not_truthful_of_told ?_ ?_
  · dsimp only
    rw [herror, hevent]
    decide
  · rintro ⟨htaken, -⟩
    cases txEmpty with
    | false =>
      have hlength := congrArg List.length htaken
      rw [response_length] at hlength
      have hmore := h.more
      simp at hlength
      omega
    | true =>
      have hmismatch := hbad.resolve_left (by decide)
      refine absurd hmismatch ((response_of_readback h hsize).mpr ?_)
      rw [← htaken]
      simp

lemma completeReception_completed (m : Node) : Outside m.completeReception ∧
    m.completeReception.currentEventId =
      (if makeChecksumByte (readBytes m.memory (m.rxBuff - (m.rxSize - 1)) (m.rxSize - 1)) m.currentPid = m.checkSum then
        .rxCompleted else .checksumError) ∧
    m.completeReception.transfer = m.transfer := by
  unfold Node.completeReception
  dsimp only
  by_cases hsum : makeChecksumByte (readBytes m.memory (m.rxBuff - (m.rxSize - 1)) (m.rxSize - 1)) m.currentPid =
      m.checkSum
  · rw [if_pos hsum, if_pos hsum]
    have hawake (k : Node) (hk : k.currentNodeState = .recvDataCompleted) :
        k.report.currentNodeState ≠ .sleepMode := by
      rw [Node.report_currentNodeState, hk]
      decide
    split_ifs with hblocking hsleep hsleep
    · exact ⟨Outside.of_eq (s := .idle) rfl (by decide), by simp [Node.gotoIdleState], Node.report_transfer _⟩
    · exact absurd (hawake _ rfl) hsleep
    · exact ⟨Outside.of_eq (s := .idle) rfl (by decide), by simp [Node.gotoIdleState], Node.report_transfer _⟩
    · exact absurd (hawake _ rfl) hsleep
  · rw [if_neg hsum, if_neg hsum]
    exact ⟨Outside.of_eq (s := .idle) rfl (by decide), by simp [Node.gotoIdleState], Node.report_transfer _⟩

lemma receiving_next (h : Pending .receive n buff size l) (hsize : size ≤ 8) (hlt : l.taken.length < size) (b : UInt8) :
    Pending .receive n buff size
      { node := l.node.processReceiveFrameData b, taken := l.taken ++ [b], expired := l.expired } := by
  obtain ⟨hbuff, hpid, hmemory⟩ := h.bytes
  have hcount := h.count
  have htotal : l.node.rxSize = size + 1 := h.total
  have hcnt : (l.node.cntByte + 1) % 256 = l.taken.length + 1 := by
    rw [hcount]
    omega
  have hlength : (l.taken ++ [b]).length = l.taken.length + 1 := by
    simp
  have hstore := storeByte_data (b := b) (n := l.node) (by omega)
  have hopen : ¬ (l.node.storeByte b).cntByte = (l.node.storeByte b).rxSize := by
    rw [hstore]
    dsimp only
    omega
  unfold Node.processReceiveFrameData
  rw [if_neg hopen, hstore]
  refine ⟨h.state, h.busy, h.event, h.total, hcnt.trans hlength.symm, hlength.trans_le hlt, ⟨?_, hpid, ?_⟩, h.flag⟩
  · dsimp only
    rw [hbuff, hlength, Nat.add_assoc]
  · dsimp only
    rw [hmemory, hbuff]
    exact stored_append

/-- The checksum arrives. -/
lemma receiving_last (h : Pending .receive n buff size l) (hsize : size ≤ 8) (hlast : l.taken.length = size) (b : UInt8) :
    Outside (l.node.processReceiveFrameData b) ∧
      (l.node.processReceiveFrameData b).currentEventId =
        (if makeChecksumByte l.taken n.currentPid = b then .rxCompleted else .checksumError) ∧
      (l.node.processReceiveFrameData b).cntByte = size + 1 ∧ (l.node.processReceiveFrameData b).rxSize = size + 1 ∧
      readBytes (l.node.processReceiveFrameData b).memory buff size = l.taken := by
  obtain ⟨hbuff, hpid, hmemory⟩ := h.bytes
  have hcount := h.count
  have htotal : l.node.rxSize = size + 1 := h.total
  have hcnt : (l.node.cntByte + 1) % 256 = size + 1 := by
    rw [hcount]
    omega
  have hstore := storeByte_checksum (b := b) (n := l.node) (by omega)
  have hfull : (l.node.storeByte b).cntByte = (l.node.storeByte b).rxSize := by
    rw [hstore]
    dsimp only
    omega
  have hdata : readBytes l.node.memory buff size = l.taken := by
    rw [hmemory, ← hlast, readBytes_stored]
  have hbase : l.node.rxBuff - (l.node.rxSize - 1) = buff ∧ l.node.rxSize - 1 = size := by omega
  obtain ⟨houtside, hevent, htransfer⟩ := completeReception_completed (l.node.storeByte b)
  have hstep : l.node.processReceiveFrameData b = (l.node.storeByte b).completeReception := by
    unfold Node.processReceiveFrameData
    exact if_pos hfull
  have hsum : makeChecksumByte (readBytes l.node.memory (l.node.rxBuff - (l.node.rxSize - 1)) (l.node.rxSize - 1))
      l.node.currentPid = makeChecksumByte l.taken n.currentPid := by
    rw [hbase.1, hbase.2, hdata, hpid]
  rw [hstore] at houtside hevent htransfer
  dsimp only at hevent
  rw [hstep, hstore]
  refine ⟨houtside, hevent.trans (by rw [hsum]), (transfer_count htransfer).trans hcnt,
    (transfer_total htransfer .receive).trans htotal, ?_⟩
  rw [← hdata]
  exact congrArg (fun t => readBytes t.2.2.2 buff size) htransfer

lemma receiving_raises_iff (h : Pending .receive n buff size l) (hsize : size ≤ 8) (txEmpty : Bool) (b : UInt8) :
    RaisesByte l.node txEmpty b ↔ l.taken.length = size ∧ makeChecksumByte l.taken n.currentPid ≠ b := by
  obtain ⟨hbuff, hpid, hmemory⟩ := h.bytes
  have hstate : l.node.currentNodeState = .recvData := h.state
  have htotal : l.node.rxSize = size + 1 := h.total
  have hmore := h.more
  have hfull : (l.taken.length + 1) % 256 = size + 1 ↔ l.taken.length = size := by omega
  unfold RaisesByte
  rw [h.count, htotal, hfull]
  by_cases hlast : l.taken.length = size
  · have hdata : readBytes l.node.memory (l.node.rxBuff - (size + 1 - 1)) (size + 1 - 1) = l.taken := by
      rw [hmemory, hbuff, hlast, Nat.add_sub_cancel, Nat.add_sub_cancel, ← hlast, readBytes_stored]
    rw [hdata, hpid]
    simp [hstate, hlast]
  · simp [hstate, hlast]

lemma receiving_byte (h : Pending .receive n buff size l) (hsize : size ≤ 8) {txEmpty : Bool} {b : UInt8}
    (hgood : ¬ RaisesByte l.node txEmpty b) :
    Phase .receive n buff size
      { node := l.node.processReceiveFrameData b, taken := l.taken ++ [b], expired := l.expired } := by
  rcases Nat.lt_or_eq_of_le h.more with hlt | hlast
  · exact Or.inl (receiving_next h hsize hlt b)
  · right
    right
    have hsum : makeChecksumByte l.taken n.currentPid = b := by
      by_contra hne
      exact hgood ((receiving_raises_iff h hsize txEmpty b).mpr ⟨hlast, hne⟩)
    obtain ⟨houtside, hevent, hcount, htotal, hdata⟩ := receiving_last h hsize hlast b
    refine ⟨houtside, ?_, htotal, hcount, ?_⟩
    · rw [hevent, if_pos hsum]
      decide
    · unfold Direction.Complete frame
      dsimp only
      rw [hdata, hsum]

lemma receiving_told (h : Pending .receive n buff size l) (hsize : size ≤ 8) {txEmpty : Bool} {b : UInt8}
    (hbad : RaisesByte l.node txEmpty b) :
    ¬ Direction.Truthful .receive n buff size
      { node := l.node.processReceiveFrameData b, taken := l.taken ++ [b], expired := l.expired } := by
  obtain ⟨hlast, hsum⟩ := (receiving_raises_iff h hsize txEmpty b).mp hbad
  obtain ⟨-, hevent, -, -, hdata⟩ := receiving_last h hsize hlast b
  refine not_truthful_of_told ?_ ?_
  · dsimp only
    rw [hevent, if_neg hsum]
    decide
  · intro hcomplete
    unfold Direction.Complete frame at hcomplete
    dsimp only at hcomplete
    rw [hdata, List.append_cancel_left_eq] at hcomplete
    exact hsum (List.singleton_inj.mp hcomplete).symm

end Phases

end McuxDrivers.Lin
