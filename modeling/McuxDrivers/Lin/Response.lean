import McuxDrivers.Lin.Flags
import McuxDrivers.Lib.CarrySum

/-!
# A response between two LIN nodes

A sender and a receiver share a wire. The sender reads its own bytes back, and the receiver gets them, perhaps
altered. Both work off their bytes in interrupts that may interleave in any way.
-/

namespace McuxDrivers.Lin
open McuxDrivers.Lib

/-- The nodes with the bytes that wait for an interrupt of each of them. -/
structure Link where
  sender : Node
  receiver : Node
  readback : List UInt8
  wire : List UInt8
  /-- The number of bytes that the receiver has taken. -/
  received : Nat

/-- The nodes of a link. -/
inductive Party where
  | sender
  | receiver
deriving DecidableEq

/-- One interrupt. The bytes that the sender writes go on the wire and come back to it; `alter` is what the wire
does to the bytes for the receiver. -/
def linkStep (alter : Nat → UInt8 → UInt8) (l : Link) : Party → Option Link
  | .sender =>
    match l.readback with
    | [] => none
    | b :: rest =>
      let sender := l.sender.irqHandler (byteIrq b)
      let bytes := sender.written.drop l.sender.written.length
      some { l with sender := sender, readback := rest ++ bytes, wire := l.wire ++ bytes }
  | .receiver =>
    match l.wire with
    | [] => none
    | b :: rest =>
      some { l with
        receiver := l.receiver.irqHandler (byteIrq (alter l.received b))
        wire := rest
        received := l.received + 1 }

/-- An interleaving of the interrupts. -/
def linkRun (alter : Nat → UInt8 → UInt8) (l : Link) : List Party → Option Link
  | [] => some l
  | p :: parties => (linkStep alter l p).bind fun l => linkRun alter l parties

/-- The link after `LIN_SendFrameData` of one node and `LIN_ReceiveFrameData` of the other. -/
def startLink (sender receiver : Node) (txBuff rxBuff size : Nat) : Link :=
  let s := (sender.sendFrameData txBuff size).1
  { sender := s
    receiver := (receiver.recvFrmData rxBuff size).1
    readback := s.written.drop sender.written.length
    wire := s.written.drop sender.written.length
    received := 0 }

/-- A node that has latched the PID of a header. -/
structure Latched (n : Node) (pid : UInt8) : Prop where
  pid : n.currentPid = pid
  free : n.isBusBusy = false
  awake : n.currentNodeState ≠ .sleepMode
  callback : n.callback = true

section Frames

variable {pid : UInt8} {data : List UInt8}

lemma makeChecksumByte_eq (data : List UInt8) (pid : UInt8) :
    makeChecksumByte data pid =
      ~~~ UInt8.ofNat (endAroundSum (if pid ≠ 0x3C ∧ pid ≠ 0x7D then pid.toNat else 0) data) :=
  rfl

/-- The bytes of a response: the data and the checksum. -/
def frame (data : List UInt8) (pid : UInt8) : List UInt8 :=
  data ++ [makeChecksumByte data pid]

@[simp]
lemma frame_length : (frame data pid).length = data.length + 1 := by
  simp [frame]

/-- The checksum changes with one byte of the data, unless it changes between 0x00 and 0xFF. -/
lemma makeChecksumByte_ne {front back : List UInt8} {u v : UInt8} (hne : u ≠ v)
    (h0 : ¬ (u = 0x00 ∧ v = 0xFF)) (h255 : ¬ (u = 0xFF ∧ v = 0x00)) :
    makeChecksumByte (front ++ u :: back) pid ≠ makeChecksumByte (front ++ v :: back) pid := by
  have hstart : (if pid ≠ 0x3C ∧ pid ≠ 0x7D then pid.toNat else 0) ≤ 255 := by
    have := pid.toNat_lt
    split_ifs <;> omega
  intro heq
  rw [makeChecksumByte_eq, makeChecksumByte_eq, UInt8.not_inj] at heq
  generalize (if pid ≠ 0x3C ∧ pid ≠ 0x7D then pid.toNat else 0) = start at heq hstart
  have hnat := congrArg UInt8.toNat heq
  rw [UInt8.toNat_ofNat_of_lt' (Nat.lt_succ_of_le (endAroundSum_le hstart)),
    UInt8.toNat_ofNat_of_lt' (Nat.lt_succ_of_le (endAroundSum_le hstart))] at hnat
  exact endAroundSum_ne hne h0 h255 hnat

end Frames

section Sender

variable {s : Node} {pid : UInt8} {txBuff size i : Nat}

/-- The response that a node sends. -/
def response (s : Node) (txBuff size : Nat) : List UInt8 :=
  frame (readBytes s.memory txBuff size) s.currentPid

/-- The sender when it waits for byte `i` to come back. -/
def sending (s : Node) (txBuff size i : Nat) : Node :=
  { s with
    checkSum := makeChecksumByte (readBytes s.memory txBuff size) s.currentPid
    txBuff := txBuff + i
    txSize := size + 1
    cntByte := i
    currentNodeState := .sendData
    currentEventId := .noEvent
    isBusBusy := true
    isTxBusy := true
    written := s.written ++ (response s txBuff size).take (i + 1) }

lemma readBytes_length : (readBytes s.memory txBuff size).length = size := by
  simp [readBytes]

lemma response_length : (response s txBuff size).length = size + 1 := by
  rw [response, frame_length, readBytes_length]

lemma response_data (hi : i < size) : (response s txBuff size)[i]? = some (s.memory (txBuff + i)) := by
  rw [response, frame, List.getElem?_append_left (by rwa [readBytes_length])]
  simp [readBytes, hi]

lemma response_checksum :
    (response s txBuff size)[size]? = some (makeChecksumByte (readBytes s.memory txBuff size) s.currentPid) := by
  rw [response, frame, List.getElem?_append_right (by rw [readBytes_length]), readBytes_length, Nat.sub_self]
  rfl

lemma response_take_succ {b : UInt8} (hb : (response s txBuff size)[i]? = some b) :
    (response s txBuff size).take (i + 1) = (response s txBuff size).take i ++ [b] := by
  rw [List.take_add_one, hb]
  rfl

lemma sendFrameData_latched (txBuff : Nat) (h : Latched s pid) (hpos : 1 ≤ size) (hmax : size ≤ 8) :
    (s.sendFrameData txBuff size).1 = sending s txBuff size 0 := by
  have hfirst : (response s txBuff size).take 1 = [s.memory txBuff] := by
    rw [response_take_succ (response_data hpos)]
    rfl
  unfold Node.sendFrameData
  rw [if_neg, if_neg]
  · simp only [Node.writeByte, sending, zero_add, hfirst]
    rfl
  · rw [h.free]
    decide
  · rintro (hsize | hsize | hsleep)
    · omega
    · omega
    · exact h.awake hsleep

lemma processSendFrameData_match {n : Node} {b : UInt8}
    (hmatch : ¬ ((n.memory n.txBuff ≠ b ∧ (n.txSize + 256 - n.cntByte) % 256 ≠ 1) ∨
      ((n.txSize + 256 - n.cntByte) % 256 = 1 ∧ n.checkSum ≠ b))) :
    n.processSendFrameData true b =
      { n with txBuff := n.txBuff + 1, cntByte := (n.cntByte + 1) % 256 }.sendNext := by
  unfold Node.processSendFrameData
  rw [if_neg (by decide)]
  dsimp only
  rw [if_neg hmatch]

lemma sendNext_data {n : Node} (hlt : n.cntByte < n.txSize) (hmore : n.txSize - n.cntByte ≠ 1) :
    n.sendNext = n.writeByte (n.memory n.txBuff) := by
  rw [Node.sendNext, if_pos hlt, if_neg hmore]

lemma sendNext_checksum {n : Node} (hlt : n.cntByte < n.txSize) (hlast : n.txSize - n.cntByte = 1) :
    n.sendNext = n.writeByte n.checkSum := by
  rw [Node.sendNext, if_pos hlt, if_pos hlast]

lemma sendNext_end {n : Node} (hge : ¬ n.cntByte < n.txSize) (hcallback : n.callback = true) :
    n.sendNext.reports = n.reports ++ [.txCompleted] ∧ n.sendNext.written = n.written := by
  rw [Node.sendNext, if_neg hge]
  dsimp only
  split_ifs
  all_goals simp [Node.gotoIdleState, Node.report_reports, hcallback]

lemma sending_readback {b : UInt8} (hmax : size ≤ 8) (hi : i ≤ size)
    (hb : (response s txBuff size)[i]? = some b) :
    (sending s txBuff size i).irqHandler (byteIrq b) =
      { sending s txBuff size i with txBuff := txBuff + i + 1, cntByte := i + 1 }.sendNext := by
  have hcount : (i + 1) % 256 = i + 1 := by omega
  have hmatch : ¬ ((s.memory (txBuff + i) ≠ b ∧ (size + 1 + 256 - i) % 256 ≠ 1) ∨
      ((size + 1 + 256 - i) % 256 = 1 ∧ makeChecksumByte (readBytes s.memory txBuff size) s.currentPid ≠ b)) := by
    by_cases hlast : i = size
    · rw [hlast, response_checksum] at hb
      have heq := Option.some.inj hb
      rintro (⟨-, htmp⟩ | ⟨-, hne⟩)
      · omega
      · exact hne heq
    · rw [response_data (show i < size by omega)] at hb
      have heq := Option.some.inj hb
      rintro (⟨hne, -⟩ | ⟨htmp, -⟩)
      · exact hne heq
      · omega
  have hstep := processSendFrameData_match (n := sending s txBuff size i) hmatch
  have hcnt : (sending s txBuff size i).cntByte = i := rfl
  rw [hcnt, hcount] at hstep
  exact hstep

lemma sending_data {b : UInt8} (hmax : size ≤ 8) (hi : i < size) (hb : (response s txBuff size)[i]? = some b) :
    (sending s txBuff size i).irqHandler (byteIrq b) = sending s txBuff size (i + 1) := by
  have hlt : i + 1 < size + 1 := by omega
  rw [sending_readback hmax hi.le hb]
  by_cases hlast : i + 1 = size
  · have htake : (response s txBuff size).take (i + 1 + 1) = (response s txBuff size).take (i + 1) ++
        [makeChecksumByte (readBytes s.memory txBuff size) s.currentPid] := by
      refine response_take_succ ?_
      rw [hlast, response_checksum]
    rw [sendNext_checksum hlt (show size + 1 - (i + 1) = 1 by omega)]
    simp only [sending, Node.writeByte, htake, List.append_assoc, Nat.add_assoc]
  · have htake : (response s txBuff size).take (i + 1 + 1) = (response s txBuff size).take (i + 1) ++
        [s.memory (txBuff + (i + 1))] := response_take_succ (response_data (by omega))
    rw [sendNext_data hlt (show size + 1 - (i + 1) ≠ 1 by omega)]
    simp only [sending, Node.writeByte, htake, List.append_assoc, Nat.add_assoc]

lemma sending_checksum {b : UInt8} (h : Latched s pid) (hmax : size ≤ 8)
    (hb : (response s txBuff size)[size]? = some b) :
    ((sending s txBuff size size).irqHandler (byteIrq b)).reports = s.reports ++ [.txCompleted] ∧
      ((sending s txBuff size size).irqHandler (byteIrq b)).written = (sending s txBuff size size).written := by
  rw [sending_readback hmax (le_refl _) hb]
  exact sendNext_end (lt_irrefl _) h.callback

end Sender

section Receiver

variable {r : Node} {pid b : UInt8} {rxBuff size : Nat} {taken : List UInt8}

/-- Memory with bytes stored from an address on. -/
def stored (memory : Nat → UInt8) (address : Nat) (bytes : List UInt8) : Nat → UInt8 :=
  fun x => if x < address then memory x else bytes[x - address]?.getD (memory x)

lemma stored_outside {memory : Nat → UInt8} {address x : Nat} (hx : x < address ∨ address + taken.length ≤ x) :
    stored memory address taken x = memory x := by
  unfold stored
  split_ifs with hlt
  · rfl
  · rw [List.getElem?_eq_none (by omega), Option.getD_none]

lemma stored_append {memory : Nat → UInt8} {address : Nat} :
    Function.update (stored memory address taken) (address + taken.length) b =
      stored memory address (taken ++ [b]) := by
  funext x
  by_cases hx : x = address + taken.length
  · rw [hx, Function.update_self]
    simp [stored]
  · rw [Function.update_of_ne hx]
    unfold stored
    by_cases hlt : x < address
    · rw [if_pos hlt, if_pos hlt]
    · rw [if_neg hlt, if_neg hlt]
      by_cases hin : x - address < taken.length
      · rw [List.getElem?_append_left hin]
      · rw [List.getElem?_eq_none (by omega), List.getElem?_eq_none (by rw [List.length_append]; simp; omega)]

lemma readBytes_stored (memory : Nat → UInt8) (address : Nat) (taken : List UInt8) :
    readBytes (stored memory address taken) address taken.length = taken := by
  unfold readBytes
  refine List.ext_getElem (by simp) ?_
  intro i h1 h2
  simp [stored, h2]

/-- The receiver when it has taken some bytes. -/
def receiving (r : Node) (rxBuff size : Nat) (taken : List UInt8) : Node :=
  { r with
    rxBuff := rxBuff + taken.length
    rxSize := size + 1
    cntByte := taken.length
    currentNodeState := .recvData
    currentEventId := .noEvent
    isBusBusy := true
    isRxBusy := true
    isRxBlocking := false
    memory := stored r.memory rxBuff taken }

lemma recvFrmData_latched (rxBuff : Nat) (h : Latched r pid) (hpos : 1 ≤ size) (hmax : size ≤ 8) :
    (r.recvFrmData rxBuff size).1 = receiving r rxBuff size [] := by
  have hmemory : stored r.memory rxBuff [] = r.memory := by
    funext x
    exact stored_outside (Nat.lt_or_ge x rxBuff)
  unfold Node.recvFrmData
  rw [if_neg, if_neg]
  · simp only [receiving, hmemory, List.length_nil, Nat.add_zero]
  · rw [h.free]
    decide
  · rintro (hsize | hsize | hsleep)
    · omega
    · omega
    · exact h.awake hsleep

lemma storeByte_data {n : Node} (hmore : n.rxSize > n.cntByte + 1) :
    n.storeByte b = { n with
      memory := Function.update n.memory n.rxBuff b
      rxBuff := n.rxBuff + 1
      cntByte := (n.cntByte + 1) % 256 } := by
  unfold Node.storeByte
  rw [if_pos hmore]

lemma storeByte_checksum {n : Node} (hlast : ¬ n.rxSize > n.cntByte + 1) :
    n.storeByte b = { n with checkSum := b, cntByte := (n.cntByte + 1) % 256 } := by
  unfold Node.storeByte
  rw [if_neg hlast]

/-- What is left of a reception: the memory, and the report on the checksum. -/
lemma completeReception_spec {n : Node} (hcallback : n.callback = true) :
    n.completeReception.memory = n.memory ∧ n.completeReception.reports = n.reports ++
      [if makeChecksumByte (readBytes n.memory (n.rxBuff - (n.rxSize - 1)) (n.rxSize - 1)) n.currentPid = n.checkSum then
        .rxCompleted else .checksumError] := by
  unfold Node.completeReception
  dsimp only
  by_cases hsum : makeChecksumByte (readBytes n.memory (n.rxBuff - (n.rxSize - 1)) (n.rxSize - 1)) n.currentPid =
      n.checkSum
  · rw [if_pos hsum, if_pos hsum]
    split_ifs
    all_goals simp [Node.gotoIdleState, Node.report_reports, hcallback]
  · rw [if_neg hsum, if_neg hsum]
    simp [Node.gotoIdleState, Node.report_reports, hcallback]

lemma receiving_data (hmax : size ≤ 8) (htaken : taken.length < size) :
    (receiving r rxBuff size taken).irqHandler (byteIrq b) = receiving r rxBuff size (taken ++ [b]) := by
  have hcount : (taken.length + 1) % 256 = taken.length + 1 := by omega
  have hstore : (receiving r rxBuff size taken).storeByte b = receiving r rxBuff size (taken ++ [b]) := by
    rw [storeByte_data (show size + 1 > taken.length + 1 by omega)]
    simp only [receiving, stored_append, hcount, List.length_append, List.length_singleton, Nat.add_assoc]
  have hopen : ¬ ((receiving r rxBuff size taken).storeByte b).cntByte =
      ((receiving r rxBuff size taken).storeByte b).rxSize := by
    rw [hstore]
    change (taken ++ [b]).length ≠ size + 1
    rw [List.length_append, List.length_singleton]
    omega
  change Node.processReceiveFrameData _ b = _
  unfold Node.processReceiveFrameData
  rw [if_neg hopen, hstore]

lemma receiving_checksum (rxBuff : Nat) (h : Latched r pid) (hmax : size ≤ 8) (htaken : taken.length = size) :
    ((receiving r rxBuff size taken).irqHandler (byteIrq b)).memory = stored r.memory rxBuff taken ∧
      ((receiving r rxBuff size taken).irqHandler (byteIrq b)).reports = r.reports ++
        [if makeChecksumByte taken pid = b then .rxCompleted else .checksumError] := by
  have hcount : (taken.length + 1) % 256 = size + 1 := by omega
  have hstore := storeByte_checksum (b := b) (n := receiving r rxBuff size taken)
    (show ¬ size + 1 > taken.length + 1 by omega)
  have hcnt : (receiving r rxBuff size taken).cntByte = taken.length := rfl
  rw [hcnt, hcount] at hstore
  have hstep : (receiving r rxBuff size taken).irqHandler (byteIrq b) =
      ((receiving r rxBuff size taken).storeByte b).completeReception := by
    have hfull : ((receiving r rxBuff size taken).storeByte b).cntByte =
        ((receiving r rxBuff size taken).storeByte b).rxSize := by
      rw [hstore]
      rfl
    change Node.processReceiveFrameData _ b = _
    unfold Node.processReceiveFrameData
    rw [if_pos hfull]
  have hspec := completeReception_spec (n := { receiving r rxBuff size taken with checkSum := b, cntByte := size + 1 })
    h.callback
  have hbase : rxBuff + taken.length - (size + 1 - 1) = rxBuff := by omega
  have hsum : makeChecksumByte (readBytes (stored r.memory rxBuff taken) (rxBuff + taken.length - (size + 1 - 1))
      (size + 1 - 1)) r.currentPid = makeChecksumByte taken pid := by
    rw [hbase, Nat.add_sub_cancel, ← htaken, readBytes_stored, h.pid]
  rw [hstep, hstore]
  refine ⟨hspec.1, hspec.2.trans ?_⟩
  rw [← hsum]
  rfl

end Receiver

section Link

variable {s r : Node} {pid : UInt8} {txBuff rxBuff size i j : Nat} {alter : Nat → UInt8 → UInt8} {l l' : Link}

/-- The bytes as the receiver gets them. -/
def arriving (s : Node) (txBuff size : Nat) (alter : Nat → UInt8 → UInt8) : List UInt8 :=
  (response s txBuff size).mapIdx alter

/-- What the receiver has to report on the bytes. -/
def verdict (bytes : List UInt8) (size : Nat) (pid : UInt8) : EventId :=
  if bytes[size]? = some (makeChecksumByte (bytes.take size) pid) then .rxCompleted else .checksumError

/-- The sender has got `i` bytes back and the receiver has taken `j`. -/
structure LinkAt (s r : Node) (pid : UInt8) (txBuff rxBuff size : Nat) (alter : Nat → UInt8 → UInt8) (i j : Nat)
    (l : Link) : Prop where
  sending : i ≤ size → l.sender = sending s txBuff size i ∧ l.readback = (response s txBuff size)[i]?.toList
  sent : ¬ i ≤ size → i = size + 1 ∧ l.readback = [] ∧ l.sender.reports = s.reports ++ [.txCompleted]
  wire : l.wire = ((response s txBuff size).take (i + 1)).drop j
  received : l.received = j
  behind : j ≤ i + 1 ∧ j ≤ size + 1
  receiving : j ≤ size → l.receiver = receiving r rxBuff size ((arriving s txBuff size alter).take j)
  completed : ¬ j ≤ size → l.receiver.memory = stored r.memory rxBuff ((arriving s txBuff size alter).take size) ∧
    l.receiver.reports = r.reports ++ [verdict (arriving s txBuff size alter) size pid]

lemma arriving_length : (arriving s txBuff size alter).length = size + 1 := by
  rw [arriving, List.length_mapIdx, response_length]

lemma linkAt_start (hs : Latched s pid) (hr : Latched r pid) (hpos : 1 ≤ size) (hmax : size ≤ 8) :
    LinkAt s r pid txBuff rxBuff size alter 0 0 (startLink s r txBuff rxBuff size) := by
  have hsend := sendFrameData_latched txBuff hs hpos hmax
  have hrecv := recvFrmData_latched rxBuff hr hpos hmax
  have hfirst : (response s txBuff size)[0]? = some (s.memory txBuff) := response_data hpos
  have hwritten : (s.sendFrameData txBuff size).1.written.drop s.written.length = [s.memory txBuff] := by
    rw [hsend]
    change (s.written ++ (response s txBuff size).take 1).drop s.written.length = _
    rw [List.drop_left, response_take_succ hfirst]
    rfl
  refine { sending := ?_, sent := ?_, wire := ?_, received := rfl, behind := ⟨Nat.zero_le _, Nat.zero_le _⟩,
           receiving := ?_, completed := ?_ }
  · intro _
    refine ⟨hsend, ?_⟩
    rw [hfirst]
    exact hwritten
  · intro hgt
    exact absurd (Nat.zero_le size) hgt
  · rw [List.drop_zero, response_take_succ hfirst]
    exact hwritten
  · intro _
    exact hrecv
  · intro hgt
    exact absurd (Nat.zero_le size) hgt

lemma linkAt_sender (hs : Latched s pid) (hmax : size ≤ 8) (h : LinkAt s r pid txBuff rxBuff size alter i j l)
    (hstep : linkStep alter l .sender = some l') : LinkAt s r pid txBuff rxBuff size alter (i + 1) j l' := by
  by_cases hi : i ≤ size
  · obtain ⟨hsender, hreadback⟩ := h.sending hi
    obtain ⟨b, hb⟩ : ∃ b, (response s txBuff size)[i]? = some b := by
      refine ⟨_, List.getElem?_eq_getElem ?_⟩
      rw [response_length]
      omega
    rw [hb] at hreadback
    simp only [linkStep, hreadback, Option.toList_some, List.nil_append, Option.some.injEq] at hstep
    have hwire : l.wire = ((response s txBuff size).take (i + 1)).drop j := h.wire
    have hbehind : j ≤ ((response s txBuff size).take (i + 1)).length := by
      rw [List.length_take, response_length]
      have := h.behind
      omega
    by_cases hlast : i = size
    · -- the checksum has come back and nothing more is written
      obtain ⟨hreports, hwritten⟩ := sending_checksum hs hmax (hlast ▸ hb)
      rw [hsender, hlast, hwritten, List.drop_length, List.append_nil] at hstep
      have hall : (response s txBuff size).take (i + 1 + 1) = (response s txBuff size).take (i + 1) := by
        rw [List.take_of_length_le (by rw [response_length]; omega),
          List.take_of_length_le (by rw [response_length]; omega)]
      subst hstep
      refine { sending := fun hle => absurd hle (by omega), sent := fun _ => ⟨by omega, rfl, hreports⟩,
               wire := ?_, received := h.received, behind := ⟨by have := h.behind; omega, h.behind.2⟩,
               receiving := h.receiving, completed := h.completed }
      rw [hall]
      exact hwire
    · have hlt : i < size := by omega
      obtain ⟨b', hb'⟩ : ∃ b, (response s txBuff size)[i + 1]? = some b := by
        refine ⟨_, List.getElem?_eq_getElem ?_⟩
        rw [response_length]
        omega
      have hnext := sending_data hmax hlt hb
      have hwritten : (sending s txBuff size (i + 1)).written.drop (sending s txBuff size i).written.length = [b'] := by
        change (s.written ++ (response s txBuff size).take (i + 1 + 1)).drop
          (s.written ++ (response s txBuff size).take (i + 1)).length = _
        rw [response_take_succ hb', ← List.append_assoc, List.drop_left]
      rw [hsender, hnext, hwritten] at hstep
      subst hstep
      refine { sending := fun _ => ⟨rfl, by rw [hb']; rfl⟩, sent := fun hgt => absurd hlt hgt, wire := ?_,
               received := h.received, behind := ⟨by have := h.behind; omega, h.behind.2⟩,
               receiving := h.receiving, completed := h.completed }
      rw [response_take_succ hb', List.drop_append_of_le_length hbehind, ← hwire]
  · obtain ⟨-, hreadback, -⟩ := h.sent hi
    simp [linkStep, hreadback] at hstep

lemma linkAt_receiver (hr : Latched r pid) (hmax : size ≤ 8) (h : LinkAt s r pid txBuff rxBuff size alter i j l)
    (hstep : linkStep alter l .receiver = some l') : LinkAt s r pid txBuff rxBuff size alter i (j + 1) l' := by
  obtain ⟨b, rest, hwire⟩ : ∃ b rest, l.wire = b :: rest := by
    cases hw : l.wire with
    | nil => simp [linkStep, hw] at hstep
    | cons b rest => exact ⟨b, rest, rfl⟩
  simp only [linkStep, hwire, Option.some.injEq, h.received] at hstep
  have hdrop := h.wire
  rw [hwire] at hdrop
  have hj : j < ((response s txBuff size).take (i + 1)).length := by
    by_contra hge
    rw [List.drop_eq_nil_of_le (not_lt.mp hge)] at hdrop
    exact List.cons_ne_nil b rest hdrop
  rw [List.drop_eq_getElem_cons hj, List.cons.injEq] at hdrop
  rw [List.length_take, response_length] at hj
  have hb : (response s txBuff size)[j]? = some b := by
    rw [List.getElem?_eq_getElem (by rw [response_length]; omega), hdrop.1, List.getElem_take]
  have hget : (arriving s txBuff size alter)[j]? = some (alter j b) := by
    rw [arriving, List.getElem?_mapIdx, hb]
    rfl
  have hreceiver := h.receiving (by omega)
  have hlength : ((arriving s txBuff size alter).take j).length = j := by
    rw [List.length_take, arriving_length]
    omega
  have hsent := h.sent
  subst hstep
  refine { sending := h.sending, sent := hsent, wire := hdrop.2, received := rfl, behind := by omega,
           receiving := ?_, completed := ?_ }
  · intro hle
    rw [List.take_add_one, hget]
    change l.receiver.irqHandler (byteIrq (alter j b)) = _
    rw [hreceiver, receiving_data hmax (by omega)]
    rfl
  · intro hgt
    have hlast : j = size := by omega
    have hfinal := receiving_checksum (b := alter j b) rxBuff hr hmax (hlength.trans hlast)
    rw [← hreceiver] at hfinal
    subst hlast
    refine ⟨hfinal.1, hfinal.2.trans ?_⟩
    simp only [verdict, hget, Option.some.injEq, eq_comm]

/-- An interleaving: every interrupt takes one byte. -/
lemma linkAt_run (hs : Latched s pid) (hr : Latched r pid) (hmax : size ≤ 8) (parties : List Party)
    (h : LinkAt s r pid txBuff rxBuff size alter i j l) (hrun : linkRun alter l parties = some l') :
    ∃ i' j', LinkAt s r pid txBuff rxBuff size alter i' j' l' ∧ i' + j' = i + j + parties.length := by
  induction parties generalizing i j l with
  | nil =>
    rw [linkRun, Option.some.injEq] at hrun
    subst hrun
    exact ⟨i, j, h, rfl⟩
  | cons p parties ih =>
    obtain ⟨m, hstep, hrest⟩ := Option.bind_eq_some_iff.mp hrun
    cases p with
    | sender =>
      obtain ⟨i', j', hat, hsum⟩ := ih (linkAt_sender hs hmax h hstep) hrest
      refine ⟨i', j', hat, ?_⟩
      rw [List.length_cons]
      omega
    | receiver =>
      obtain ⟨i', j', hat, hsum⟩ := ih (linkAt_receiver hr hmax h hstep) hrest
      refine ⟨i', j', hat, ?_⟩
      rw [List.length_cons]
      omega

lemma LinkAt.le (h : LinkAt s r pid txBuff rxBuff size alter i j l) : i ≤ size + 1 := by
  by_cases hi : i ≤ size
  · omega
  · exact (h.sent hi).1.le

/-- When no byte waits any more, both nodes have had all of them. -/
lemma LinkAt.ended (h : LinkAt s r pid txBuff rxBuff size alter i j l) (hreadback : l.readback = [])
    (hwire : l.wire = []) : ¬ i ≤ size ∧ ¬ j ≤ size := by
  have hi : ¬ i ≤ size := by
    intro hi
    have hsome := (h.sending hi).2
    rw [hreadback, List.getElem?_eq_getElem (by rw [response_length]; omega)] at hsome
    exact absurd hsome (by simp)
  refine ⟨hi, ?_⟩
  intro hj
  have hlength := congrArg List.length (h.wire.symm.trans hwire)
  rw [List.length_drop, List.length_take, response_length, List.length_nil] at hlength
  omega

lemma LinkAt.memory_outside (h : LinkAt s r pid txBuff rxBuff size alter i j l) {x : Nat}
    (hx : x < rxBuff ∨ rxBuff + size ≤ x) : l.receiver.memory x = r.memory x := by
  by_cases hj : j ≤ size
  · rw [h.receiving hj]
    refine stored_outside ?_
    rw [List.length_take]
    omega
  · rw [(h.completed hj).1]
    refine stored_outside ?_
    rw [List.length_take]
    omega

lemma LinkAt.reports (h : LinkAt s r pid txBuff rxBuff size alter i j l) :
    l.receiver.reports = r.reports ∨
      l.receiver.reports = r.reports ++ [verdict (arriving s txBuff size alter) size pid] := by
  by_cases hj : j ≤ size
  · rw [h.receiving hj]
    exact Or.inl rfl
  · exact Or.inr (h.completed hj).2

end Link

section Result

variable {s r : Node} {pid : UInt8} {txBuff rxBuff size : Nat}

lemma arriving_unaltered : arriving s txBuff size (fun _ b => b) = response s txBuff size := by
  refine List.ext_getElem? ?_
  intro i
  rw [arriving, List.getElem?_mapIdx, Option.map_id']

lemma response_take (txBuff size : Nat) (hs : Latched s pid) : (response s txBuff size).take size = readBytes s.memory txBuff size ∧
    (response s txBuff size)[size]? = some (makeChecksumByte ((response s txBuff size).take size) pid) := by
  have htake : (response s txBuff size).take size = readBytes s.memory txBuff size := by
    rw [response, frame, List.take_append_of_le_length (by rw [readBytes_length]),
      List.take_of_length_le (by rw [readBytes_length])]
  refine ⟨htake, ?_⟩
  rw [htake, response_checksum, hs.pid]

lemma arriving_altered {k : Nat} {u v : UInt8} (hu : (response s txBuff size)[k]? = some u) :
    arriving s txBuff size (fun i b => if i = k then v else b) = (response s txBuff size).set k v := by
  obtain ⟨hk, -⟩ := List.getElem?_eq_some_iff.mp hu
  refine List.ext_getElem? ?_
  intro i
  rw [arriving, List.getElem?_mapIdx]
  by_cases hi : i = k
  · rw [hi, hu, List.getElem?_set_self hk]
    simp
  · rw [List.getElem?_set_ne (Ne.symm hi)]
    simp [hi]

lemma verdict_append {data : List UInt8} {b : UInt8} (hdata : data.length = size)
    (hne : makeChecksumByte data pid ≠ b) : verdict (data ++ [b]) size pid = .checksumError := by
  subst hdata
  rw [verdict, if_neg]
  rw [List.take_left, List.getElem?_append_right (le_refl _), Nat.sub_self]
  intro heq
  exact hne (Option.some.inj heq).symm

/-- One altered byte is found. -/
lemma verdict_altered (hs : Latched s pid) {k : Nat} {u v : UInt8} (hu : (response s txBuff size)[k]? = some u)
    (hne : u ≠ v) (h0 : ¬ (u = 0x00 ∧ v = 0xFF)) (h255 : ¬ (u = 0xFF ∧ v = 0x00)) :
    verdict (arriving s txBuff size (fun i b => if i = k then v else b)) size pid = .checksumError := by
  obtain ⟨hk, -⟩ := List.getElem?_eq_some_iff.mp hu
  rw [response_length] at hk
  rw [arriving_altered hu]
  rw [response, frame, hs.pid] at hu ⊢
  by_cases hlt : k < size
  · rw [List.getElem?_append_left (by rwa [readBytes_length])] at hu
    rw [List.set_append_left _ _ (by rwa [readBytes_length])]
    refine verdict_append (by rw [List.length_set, readBytes_length]) ?_
    obtain ⟨hk', hget⟩ := List.getElem?_eq_some_iff.mp hu
    generalize readBytes s.memory txBuff size = data at hu hk' hget
    have hdata : data = data.take k ++ u :: data.drop (k + 1) := by
      rw [← hget, ← List.drop_eq_getElem_cons hk', List.take_append_drop]
    rw [List.set_eq_take_append_cons_drop, if_pos hk']
    nth_rewrite 3 [hdata]
    exact (makeChecksumByte_ne hne h0 h255).symm
  · obtain rfl : k = size := by omega
    rw [List.getElem?_append_right (by rw [readBytes_length]), readBytes_length, Nat.sub_self] at hu
    rw [List.set_append_right _ _ (by rw [readBytes_length]), readBytes_length, Nat.sub_self]
    refine verdict_append readBytes_length ?_
    intro heq
    exact hne ((Option.some.inj hu).symm.trans heq)

/-- A response goes over unaltered, with one report of each node, and a single altered byte is found. -/
theorem response_transfer (hs : Latched s pid) (hr : Latched r pid) (hpos : 1 ≤ size) (hmax : size ≤ 8) :
    (∀ (parties : List Party) (l : Link),
      linkRun (fun _ b => b) (startLink s r txBuff rxBuff size) parties = some l →
      parties.length ≤ 2 * (size + 1) ∧
      (∀ x, x < rxBuff ∨ rxBuff + size ≤ x → l.receiver.memory x = r.memory x) ∧
      (l.readback = [] → l.wire = [] →
        l.sender.reports = s.reports ++ [.txCompleted] ∧ l.receiver.reports = r.reports ++ [.rxCompleted] ∧
        readBytes l.receiver.memory rxBuff size = readBytes s.memory txBuff size)) ∧
    (∀ (k : Nat) (u v : UInt8), (frame (readBytes s.memory txBuff size) pid)[k]? = some u → u ≠ v →
      ¬ (u = 0x00 ∧ v = 0xFF) → ¬ (u = 0xFF ∧ v = 0x00) → ∀ (parties : List Party) (l : Link),
      linkRun (fun i b => if i = k then v else b) (startLink s r txBuff rxBuff size) parties = some l →
      parties.length ≤ 2 * (size + 1) ∧
      (∀ e ∈ l.receiver.reports.drop r.reports.length, e ≠ .rxCompleted) ∧
      (l.readback = [] → l.wire = [] → l.receiver.reports = r.reports ++ [.checksumError])) := by
  refine ⟨?_, ?_⟩
  · intro parties l hrun
    obtain ⟨i, j, hat, hsum⟩ := linkAt_run hs hr hmax parties (linkAt_start hs hr hpos hmax) hrun
    refine ⟨?_, fun x hx => hat.memory_outside hx, ?_⟩
    · have hi := hat.le
      have hj := hat.behind
      omega
    · intro hreadback hwire
      obtain ⟨hi, hj⟩ := hat.ended hreadback hwire
      obtain ⟨hmemory, hreports⟩ := hat.completed hj
      obtain ⟨htake, hlast⟩ := response_take txBuff size hs
      rw [arriving_unaltered] at hmemory hreports
      rw [verdict, if_pos hlast] at hreports
      refine ⟨(hat.sent hi).2.2, hreports, ?_⟩
      rw [hmemory, htake]
      have hread := readBytes_stored r.memory rxBuff (readBytes s.memory txBuff size)
      rwa [readBytes_length] at hread
  · intro k u v hu hne h0 h255 parties l hrun
    rw [← hs.pid] at hu
    have hverdict := verdict_altered hs hu hne h0 h255
    obtain ⟨i, j, hat, hsum⟩ := linkAt_run hs hr hmax parties (linkAt_start hs hr hpos hmax) hrun
    refine ⟨?_, ?_, ?_⟩
    · have hi := hat.le
      have hj := hat.behind
      omega
    · intro e he
      rcases hat.reports with hreports | hreports
      · rw [hreports, List.drop_length] at he
        exact absurd he List.not_mem_nil
      · rw [hreports, hverdict, List.drop_left, List.mem_singleton] at he
        rw [he]
        decide
    · intro hreadback hwire
      rw [(hat.completed (hat.ended hreadback hwire).2).2, hverdict]

end Result

/-- A node that has latched the PID for ID 5, with the bytes 0x12 and 0x34 in its memory. -/
def latchedNode (master : Bool) : Node :=
  { blankNode master with
    currentPid := makeParity 5
    currentNodeState := .recvPid
    memory := fun x => if x = 0 then 0x12 else if x = 1 then 0x34 else 0 }

/-- Two bytes from a master to a slave: a run that ends, and what every run that ends has done. -/
theorem response_transfer_two :
    (linkRun (fun _ b => b) (startLink (latchedNode true) (latchedNode false) 0 4 2)
      [.sender, .receiver, .sender, .sender, .receiver, .receiver]).any
        (fun l => l.readback.isEmpty && l.wire.isEmpty) = true ∧
    ∀ (parties : List Party) (l : Link),
      linkRun (fun _ b => b) (startLink (latchedNode true) (latchedNode false) 0 4 2) parties = some l →
      l.readback = [] → l.wire = [] → readBytes l.receiver.memory 4 2 = [0x12, 0x34] :=
  ⟨by decide +kernel, fun parties l hrun hreadback hwire =>
    (((response_transfer (s := latchedNode true) (r := latchedNode false) ⟨rfl, rfl, by decide, rfl⟩ ⟨rfl, rfl, by decide, rfl⟩ (by decide)
      (by decide)).1 parties l hrun).2.2 hreadback hwire).2.2⟩

end McuxDrivers.Lin
