import McuxDrivers.I3c.Answers
import McuxDrivers.I3c.BlockingRuns

/-!
# The interrupt-driven master on an error-free bus

What the state machine has put on the bus, with what its state still has to put there, is its transaction. Every interrupt
that the state waits for brings it forward.
-/

namespace McuxDrivers.I3c.NonBlocking
open McuxDrivers.Lib Sys

/-- The bytes of the target's answer from an offset on. -/
def answerFrom (reply : Nat → BitVec 8) (offset n : Nat) : List (BitVec 8) :=
  (List.range n).map fun i => reply (offset + i)

lemma answerFrom_succ (reply : Nat → BitVec 8) (offset n : Nat) :
    answerFrom reply offset (n + 1) = reply offset :: answerFrom reply (offset + 1) n := by
  rw [answerFrom, List.range_succ_eq_map, List.map_cons, List.map_map, answerFrom]
  congr 1
  apply List.map_congr_left
  intro i _
  simp only [Function.comp_apply]
  congr 1
  omega

/-- What an interrupt finds on a bus without errors and IBIs. The end of a read comes with its last bytes. -/
structure HonestIrq (masterState : MasterState) (reply : Nat → BitVec 8) (s : Sys) (e : Irq) : Prop where
  errors : e.errors = noErrors
  slaveStart : e.slaveStart = false
  noIbi : e.masterState ≠ .ibiRcv ∧ e.masterState ≠ .ibiAck
  stopState : e.stopState = (link masterState s.commands).state
  rxBytes : e.rxBytes = answerFrom reply s.handle.transfer.data e.rxBytes.length
  notReading : (link masterState s.commands).reading = false → e.rxBytes = []
  complete : e.complete = true → (link masterState s.commands).reading = true →
    s.handle.transfer.dataSize.toNat ≤ s.handle.transfer.data + e.rxBytes.length

/-- The state of the machine waits for what an interrupt finds. -/
def Awaited (masterState : MasterState) (s : Sys) (complete : Bool) (txRoom : Nat) (rxBytes : List (BitVec 8)) : Prop :=
  match s.handle.state with
  | .sendCommand => 0 < txRoom
  | .waitRepeatedStartComplete | .waitForCompletion => complete = true
  | .transferData =>
    if s.handle.transfer.direction = .write then 0 < txRoom
    else (link masterState s.commands).reading = true → rxBytes ≠ []
  | _ => True

/-- What the state of the machine still has to put on the bus. -/
def outstanding (t : Transfer) (memory : Nat → BitVec 8) (masterState : MasterState) (s : Sys) : List BusEvent :=
  match s.handle.state with
  | .sendCommand =>
    subaddressEvents t.subaddress (t.direction = .read) s.handle.transfer.subaddressSize ++
      (payload t memory ++ irqEnding t masterState)
  | .waitRepeatedStartComplete => .address t.slaveAddress .read :: irqEnding t masterState
  | .transferData =>
    (if t.direction = .write then dataEvents memory s.handle.transfer.data s.handle.remainingBytes.toNat else []) ++
      irqEnding t masterState
  | _ => irqEnding t masterState

/-- The states of the machine on the way of a transfer, with the bus. -/
inductive OnTheWay (t : Transfer) (masterState : MasterState) (s : Sys) : Prop
  | sendCommand (state : s.handle.state = .sendCommand) (size : s.handle.transfer.subaddressSize ≠ 0)
      (first : t.subaddressSize ≠ 0)
      (bus : (link masterState s.commands).state = if t.flags.noStart then masterState else activeState t.busType)
      (reading : (link masterState s.commands).reading = decide (startDirection t = .read))
  | waitRepeatedStartComplete (state : s.handle.state = .waitRepeatedStartComplete) (turns : TurnsAround t)
  | transferData (state : s.handle.state = .transferData)
      (bus : (link masterState s.commands).state = stateAtEnd t masterState)
      (reading : (link masterState s.commands).reading = decide (t.direction = .read))
  | ending (state : s.handle.state = .waitForCompletion ∨ s.handle.state = .stop)
      (data : s.handle.transfer.data = t.dataSize.toNat)
      (bus : (link masterState s.commands).state = stateAtEnd t masterState)

/-- The machine follows a transfer. -/
structure Following (t : Transfer) (memory : Nat → BitVec 8) (masterState : MasterState) (reply : Nat → BitVec 8) (s : Sys) :
    Prop where
  data : DataOk s
  transfer : s.handle.transfer =
    { t with data := s.handle.transfer.data, subaddressSize := s.handle.transfer.subaddressSize }
  way : OnTheWay t masterState s
  trace : trace s.commands ++ outstanding t memory masterState s = irqTransaction t memory masterState
  memory : ∀ i, s.memory i = if t.direction = .read ∧ i < s.handle.transfer.data then reply i else memory i

/-- What the machine still has to do. -/
def distance (s : Sys) : Nat :=
  match s.handle.state with
  | .sendCommand => s.handle.transfer.subaddressSize + s.handle.remainingBytes.toNat + 3
  | .waitRepeatedStartComplete => s.handle.remainingBytes.toNat + 3
  | .transferData => s.handle.remainingBytes.toNat + 2
  | .waitForCompletion => 2
  | .stop => 1
  | _ => 0

section Rounds

variable (t : Transfer) (memory : Nat → BitVec 8) (masterState : MasterState) (reply : Nat → BitVec 8) (e : Irq)

/-- A round of the machine that has not ended the transfer. -/
structure AtWork (x : Sys × Params) : Prop where
  following : Following t memory masterState reply x.1
  result : x.2.result = .success
  isDone : x.2.isDone = false
  stopState : x.2.stateComplete = false → e.stopState = (link masterState x.1.commands).state
  rxBytes : x.2.rxBytes = answerFrom reply x.1.handle.transfer.data x.2.rxBytes.length
  notReading : x.2.stateComplete = false → (link masterState x.1.commands).reading = false → x.2.rxBytes = []
  complete : x.2.stateComplete = false → e.complete = true → (link masterState x.1.commands).reading = true →
    x.1.handle.transfer.dataSize.toNat ≤ x.1.handle.transfer.data + x.2.rxBytes.length

/-- The round that has ended the transfer. -/
structure Ended (x : Sys × Params) : Prop where
  result : x.2.result = .success
  isDone : x.2.isDone = true
  stateComplete : x.2.stateComplete = true
  state : x.1.handle.state = .stop
  trace : trace x.1.commands = irqTransaction t memory masterState
  memory : ∀ i, x.1.memory i = if t.direction = .read ∧ i < t.dataSize.toNat then reply i else memory i

/-- One round brings the machine forward, ends the transfer, or waits. -/
inductive RoundResult (s : Sys) (p : Params) (x : Sys × Params) : Prop
  | forward (work : AtWork t memory masterState reply e x) (less : distance x.1 < distance s)
  | waits (work : AtWork t memory masterState reply e x) (same : x.1 = s)
      (nothing : ¬ Awaited masterState s e.complete p.txCount p.rxBytes)
  | ended (h : Ended t memory masterState reply x)

end Rounds

section States

variable {t : Transfer} {memory : Nat → BitVec 8} {masterState : MasterState} {reply : Nat → BitVec 8} {e : Irq} {s : Sys}
  {p : Params}

lemma Following.direction (h : Following t memory masterState reply s) : s.handle.transfer.direction = t.direction := by
  rw [h.transfer]

lemma Following.busType (h : Following t memory masterState reply s) : s.handle.transfer.busType = t.busType := by
  rw [h.transfer]

lemma Following.dataSize (h : Following t memory masterState reply s) : s.handle.transfer.dataSize = t.dataSize := by
  rw [h.transfer]

lemma Following.subaddress (h : Following t memory masterState reply s) : s.handle.transfer.subaddress = t.subaddress := by
  rw [h.transfer]

lemma Following.slaveAddress (h : Following t memory masterState reply s) :
    s.handle.transfer.slaveAddress = t.slaveAddress := by
  rw [h.transfer]

lemma Following.flags (h : Following t memory masterState reply s) : s.handle.transfer.flags = t.flags := by
  rw [h.transfer]

lemma startDirection_ddr (htype : t.busType = .i3cDdr) : startDirection t = t.direction := by
  simp [startDirection, htype]

lemma startDirection_write (hwrite : t.direction = .write) : startDirection t = .write := by
  simp [startDirection, hwrite]

/-- The state of the bus before the data, where the transfer does not turn around. -/
lemma stateAtEnd_of_not_turns (hturn : ¬ TurnsAround t) :
    stateAtEnd t masterState = if t.flags.noStart then masterState else activeState t.busType := by
  simp [stateAtEnd, hturn]

lemma stateAtEnd_of_turns (hturn : TurnsAround t) : stateAtEnd t masterState = activeState t.busType := by
  rw [stateAtEnd, if_neg (fun hno => hno.2 hturn)]

/-- A round that only waits. -/
lemma RoundResult.of_waits (h : AtWork t memory masterState reply e (s, p))
    (hnothing : ¬ Awaited masterState s e.complete p.txCount p.rxBytes) :
    RoundResult t memory masterState reply e s p (s, { p with stateComplete := true }) :=
  .waits ⟨h.following, h.result, h.isDone, nofun, h.rxBytes, nofun, nofun⟩ rfl hnothing

/-- The state after a byte of the subaddress. -/
def sentSubaddress (s : Sys) (c : Command) (state : TransferState) : Sys :=
  (s.decSubaddressSize.tell [c]).setState state

lemma link_sentSubaddress {c : Command} (hc : ∀ l : Link, l.after c = l) (state : TransferState) :
    link masterState (sentSubaddress s c state).commands = link masterState s.commands := by
  change link masterState (s.commands ++ [c]) = _
  rw [link_append, hc]

lemma AtWork.sentSubaddress (hp : p.stateComplete = false) (h : AtWork t memory masterState reply e (s, p)) {c : Command}
    (hc : ∀ l : Link, l.after c = l) {state : TransferState} (hdata : DataOk (sentSubaddress s c state))
    (hway : OnTheWay t masterState (sentSubaddress s c state))
    (hout : outstanding t memory masterState s = busEvents c ++ outstanding t memory masterState (sentSubaddress s c state)) :
    AtWork t memory masterState reply e (sentSubaddress s c state, { p with txCount := p.txCount - 1 }) := by
  have hlink : link masterState (NonBlocking.sentSubaddress s c state).commands = link masterState s.commands :=
    link_sentSubaddress hc state
  have hf := h.following
  constructor
  · constructor
    · exact hdata
    · change { s.handle.transfer with subaddressSize := s.handle.transfer.subaddressSize - 1 } = _
      rw [hf.transfer]
      rfl
    · exact hway
    · change trace (s.commands ++ [c]) ++ _ = _
      rw [trace_append, List.append_assoc, ← hf.trace, hout]
      simp
    · exact hf.memory
  · exact h.result
  · exact h.isDone
  · intro _
    rw [hlink]
    exact h.stopState hp
  · exact h.rxBytes
  · intro _
    rw [hlink]
    exact h.notReading hp
  · intro _
    rw [hlink]
    exact h.complete hp

lemma sendCommandState_eq (hroom : p.txCount ≠ 0) {m : Nat} (hm : s.handle.transfer.subaddressSize = m + 1)
    (hsize : s.handle.transfer.dataSize ≠ 0) (hstate : s.handle.state = .sendCommand) :
    let b : BitVec 8 := (s.handle.transfer.subaddress >>> (8 * m)).setWidth 8
    sendCommandState s p =
      (if m ≠ 0 then sentSubaddress s (.byte b) .sendCommand
        else if s.handle.transfer.direction = .read then
          sentSubaddress s (.lastByte b)
            (if s.handle.transfer.busType ≠ .i3cDdr then .waitRepeatedStartComplete else .transferData)
        else sentSubaddress s (.byte b) .transferData, { p with txCount := p.txCount - 1 }) := by
  have hbyte : subaddressByte s.decSubaddressSize.handle.transfer =
      (s.handle.transfer.subaddress >>> (8 * m)).setWidth 8 := by
    change (s.handle.transfer.subaddress >>> (8 * (s.handle.transfer.subaddressSize - 1))).setWidth 8 = _
    rw [hm]
    rfl
  have hsize' : s.handle.transfer.dataSize ≠ 0#32 := hsize
  dsimp only
  rw [sendCommandState, if_neg hroom, hm, ← hbyte]
  by_cases hlast : m = 0
  · subst hlast
    rw [if_neg (by decide), if_pos rfl, if_neg (not_not.mpr rfl)]
    by_cases hread : s.handle.transfer.direction = .read
    · by_cases htype : s.handle.transfer.busType = .i3cDdr <;>
        simp [hread, htype, hsize', decSubaddressSize, Sys.tell, setState, NonBlocking.sentSubaddress]
    · simp [hread, hsize', decSubaddressSize, Sys.tell, setState, NonBlocking.sentSubaddress]
  · rw [if_pos (by omega), if_pos hlast]
    simp [decSubaddressSize, Sys.tell, setState, NonBlocking.sentSubaddress, hstate]

lemma sendCommandState_round (hp : p.stateComplete = false) (h : AtWork t memory masterState reply e (s, p))
    (hsize : t.dataSize ≠ 0) (hstate : s.handle.state = .sendCommand) :
    RoundResult t memory masterState reply e s p (sendCommandState s p) := by
  have hf : Following t memory masterState reply s := h.following
  have hnext := (sendCommandState_progress hp hf.data hstate).data
  obtain ⟨hdata, hremaining, -⟩ := hf.data.command hstate
  rw [hf.dataSize] at hremaining
  cases hf.way with
  | sendCommand _ hleft hfirst hbus hreading =>
    by_cases hroom : p.txCount = 0
    · have hsame : sendCommandState s p = (s, { p with stateComplete := true }) := by rw [sendCommandState, if_pos hroom]
      rw [hsame]
      exact .of_waits h (by simp [Awaited, hstate, hroom])
    · obtain ⟨m, hm⟩ := Nat.exists_eq_succ_of_ne_zero hleft
      have heq := sendCommandState_eq hroom hm (by rw [hf.dataSize]; exact hsize) hstate (p := p)
      dsimp only at heq
      rw [hf.direction, hf.busType, hf.subaddress] at heq
      rw [heq] at hnext ⊢
      have hout : outstanding t memory masterState s = subaddressEvents t.subaddress (t.direction = .read) (m + 1) ++
          (payload t memory ++ irqEnding t masterState) := by
        simp only [outstanding, hstate, hm]
      obtain ⟨b, hb⟩ : ∃ b, b = (t.subaddress >>> (8 * m)).setWidth 8 := ⟨_, rfl⟩
      rw [← hb] at hnext ⊢
      rw [subaddressEvents, ← hb] at hout
      have hbytes : ∀ l : Link, l.after (.byte b) = l := fun _ => rfl
      have hlast : ∀ l : Link, l.after (.lastByte b) = l := fun _ => rfl
      have hless (c : Command) (state : TransferState)
          (hstate' : state = .sendCommand ∨ state = .waitRepeatedStartComplete ∨ state = .transferData) :
          distance (sentSubaddress s c state) < distance s := by
        have hbefore : distance s = m + 1 + s.handle.remainingBytes.toNat + 3 := by
          simp only [distance, hstate, hm]
        rw [hbefore]
        rcases hstate' with rfl | rfl | rfl
        · change s.handle.transfer.subaddressSize - 1 + s.handle.remainingBytes.toNat + 3 < _
          omega
        · change s.handle.remainingBytes.toNat + 3 < _
          omega
        · change s.handle.remainingBytes.toNat + 2 < _
          omega
      dsimp only at hnext ⊢
      by_cases hmore : m = 0
      · subst hmore
        rw [if_neg (not_not.mpr rfl)] at hnext ⊢
        by_cases hread : t.direction = .read
        · rw [if_pos hread] at hnext ⊢
          by_cases htype : t.busType = .i3cDdr
          · rw [if_neg (not_not.mpr htype)] at hnext ⊢
            have hturn : ¬ TurnsAround t := fun hturn => hturn.2.1 htype
            refine .forward (h.sentSubaddress hp hlast hnext (.transferData rfl ?_ ?_) ?_) (hless _ _ (Or.inr (Or.inr rfl)))
            · rw [link_sentSubaddress hlast, hbus, stateAtEnd_of_not_turns hturn]
            · rw [link_sentSubaddress hlast, hreading, startDirection_ddr htype]
            · rw [hout]
              simp [outstanding, NonBlocking.sentSubaddress, setState, busEvents, subaddressEvents, payload, hturn, hread]
          · rw [if_pos htype] at hnext ⊢
            have hturn : TurnsAround t := ⟨hfirst, htype, hread⟩
            refine .forward (h.sentSubaddress hp hlast hnext (.waitRepeatedStartComplete rfl hturn) ?_)
              (hless _ _ (Or.inr (Or.inl rfl)))
            rw [hout]
            simp [outstanding, NonBlocking.sentSubaddress, setState, busEvents, subaddressEvents, payload, hturn, hread]
        · rw [if_neg hread] at hnext ⊢
          have hwrite : t.direction = .write := by
            cases hdir : t.direction with
            | write => rfl
            | read => exact absurd hdir hread
          have hturn : ¬ TurnsAround t := fun hturn => hread hturn.2.2
          refine .forward (h.sentSubaddress hp hbytes hnext (.transferData rfl ?_ ?_) ?_) (hless _ _ (Or.inr (Or.inr rfl)))
          · rw [link_sentSubaddress hbytes, hbus, stateAtEnd_of_not_turns hturn]
          · rw [link_sentSubaddress hbytes, hreading, startDirection_write hwrite, hwrite]
          · rw [hout]
            simp [outstanding, NonBlocking.sentSubaddress, setState, Sys.tell, decSubaddressSize, busEvents, subaddressEvents,
              payload, hturn, hwrite, hdata, hremaining]
      · rw [if_pos hmore] at hnext ⊢
        refine .forward (h.sentSubaddress hp hbytes hnext ?_ ?_) (hless _ _ (Or.inl rfl))
        · apply OnTheWay.sendCommand rfl _ hfirst
          · rw [link_sentSubaddress hbytes]
            exact hbus
          · rw [link_sentSubaddress hbytes]
            exact hreading
          · change s.handle.transfer.subaddressSize - 1 ≠ 0
            omega
        · rw [hout]
          have hsub : (s.decSubaddressSize.tell [.byte b]).handle.transfer.subaddressSize = m := by
            change s.handle.transfer.subaddressSize - 1 = m
            omega
          simp [outstanding, NonBlocking.sentSubaddress, setState, hmore, busEvents, hsub]
  | waitRepeatedStartComplete hstate' => rw [hstate] at hstate'; cases hstate'
  | transferData hstate' => rw [hstate] at hstate'; cases hstate'
  | ending hstate' => rw [hstate] at hstate'; rcases hstate' with hstate' | hstate' <;> cases hstate'

lemma waitRepeatedStartCompleteState_round (hp : p.stateComplete = false)
    (h : AtWork t memory masterState reply e (s, p)) (hstate : s.handle.state = .waitRepeatedStartComplete) :
    RoundResult t memory masterState reply e s p (waitRepeatedStartCompleteState e s p) := by
  have hf : Following t memory masterState reply s := h.following
  have hnext := (waitRepeatedStartCompleteState_progress (e := e) hp hf.data hstate).data
  obtain ⟨hdata, hremaining, -⟩ := hf.data.repeated hstate
  cases hf.way with
  | waitRepeatedStartComplete _ hturn =>
    unfold waitRepeatedStartCompleteState at hnext ⊢
    by_cases hcomplete : e.complete = true
    · rw [if_pos hcomplete] at hnext ⊢
      have hwrite : t.direction ≠ .write := by
        rw [hturn.2.2]
        decide
      refine .forward ⟨⟨hnext, hf.transfer, ?_, ?_, hf.memory⟩, rfl, h.isDone, nofun, h.rxBytes, nofun, nofun⟩ ?_
      · apply OnTheWay.transferData rfl
        · change (link masterState (s.commands ++ [_])).state = _
          rw [link_append, stateAtEnd_of_turns hturn, ← hf.busType]
          rfl
        · change (link masterState (s.commands ++ [_])).reading = _
          rw [link_append, hturn.2.2]
          rfl
      · change trace (s.commands ++ [_]) ++ _ = _
        rw [trace_append, List.append_assoc, ← hf.trace]
        simp [outstanding, hstate, hwrite, setState, Sys.tell, busEvents, hf.slaveAddress]
      · simp only [distance, hstate]
        change s.handle.remainingBytes.toNat + 2 < _
        omega
    · rw [if_neg hcomplete]
      exact .of_waits h (by simp [Awaited, hstate, hcomplete])
  | sendCommand hstate' => rw [hstate] at hstate'; cases hstate'
  | transferData hstate' => rw [hstate] at hstate'; cases hstate'
  | ending hstate' => rw [hstate] at hstate'; rcases hstate' with hstate' | hstate' <;> cases hstate'

/-- What an access to the data leaves to do. -/
structure Access (t : Transfer) (memory : Nat → BitVec 8) (masterState : MasterState) (reply : Nat → BitVec 8) (s : Sys)
    (memory' : Nat → BitVec 8) (cs : List Command) : Prop where
  link : link masterState cs = link masterState s.commands
  trace : trace cs ++ (if t.direction = .write then
      dataEvents memory (s.handle.transfer.data + 1) (s.handle.remainingBytes.toNat - 1) else []) =
    trace s.commands ++ if t.direction = .write then
      dataEvents memory s.handle.transfer.data s.handle.remainingBytes.toNat else []
  memory : ∀ i, memory' i = if t.direction = .read ∧ i < s.handle.transfer.data + 1 then reply i else memory i

lemma AtWork.advance (h : AtWork t memory masterState reply e (s, p)) (hstate : s.handle.state = .transferData)
    {memory' : Nat → BitVec 8} {cs : List Command} (haccess : Access t memory masterState reply s memory' cs) (p' : Params)
    (hresult : p'.result = .success) (hdone : p'.isDone = false)
    (hstop : p'.stateComplete = false → e.stopState = (link masterState s.commands).state)
    (hrx : p'.rxBytes = answerFrom reply (s.handle.transfer.data + 1) p'.rxBytes.length)
    (hnot : p'.stateComplete = false → (link masterState s.commands).reading = false → p'.rxBytes = [])
    (hcomplete : p'.stateComplete = false → e.complete = true → (link masterState s.commands).reading = true →
      t.dataSize.toNat ≤ s.handle.transfer.data + 1 + p'.rxBytes.length) :
    RoundResult t memory masterState reply e s p ({ s with memory := memory', commands := cs }.advance, p') := by
  have hf : Following t memory masterState reply s := h.following
  have hdata : DataOk { s with memory := memory', commands := cs } := { hf.data with }
  have hnext := hdata.advance hstate
  obtain ⟨hne, hsum⟩ := hf.data.transferring hstate
  rw [hf.dataSize] at hsum
  have hpos : 0 < s.handle.remainingBytes.toNat := by
    rw [Nat.pos_iff_ne_zero]
    exact fun hzero => hne (BitVec.eq_of_toNat_eq hzero)
  have hdec : (s.handle.remainingBytes - 1).toNat = s.handle.remainingBytes.toNat - 1 := by bv_omega
  have hzero_iff : s.handle.remainingBytes - 1 = 0 ↔ s.handle.remainingBytes.toNat - 1 = 0 := by
    rw [← hdec]
    exact ⟨fun hzero => by rw [hzero]; rfl, fun hzero => BitVec.eq_of_toNat_eq hzero⟩
  cases hf.way with
  | transferData _ hbus hreading =>
    have hlink : link masterState ({ s with memory := memory', commands := cs }.advance).commands =
        link masterState s.commands := haccess.link
    have htransfer : ({ s with memory := memory', commands := cs }.advance).handle.transfer =
        { t with
          data := s.handle.transfer.data + 1
          subaddressSize := s.handle.transfer.subaddressSize } := by
      change { s.handle.transfer with data := s.handle.transfer.data + 1 } = _
      rw [hf.transfer]
    have hstate' : ({ s with memory := memory', commands := cs }.advance).handle.state =
        if s.handle.remainingBytes.toNat - 1 = 0 then .waitForCompletion else .transferData := by
      change (if s.handle.remainingBytes - 1 = 0 then TransferState.waitForCompletion else s.handle.state) = _
      simp only [hzero_iff, hstate]
    have hrest : outstanding t memory masterState ({ s with memory := memory', commands := cs }.advance) =
        (if t.direction = .write then
          dataEvents memory (s.handle.transfer.data + 1) (s.handle.remainingBytes.toNat - 1) else []) ++
        irqEnding t masterState := by
      unfold outstanding
      rw [hstate']
      by_cases hlast : s.handle.remainingBytes.toNat - 1 = 0
      · simp only [hlast, if_true, dataEvents, ite_self, List.nil_append]
      · simp only [hlast, if_false]
        change (if t.direction = .write then
          dataEvents memory (s.handle.transfer.data + 1) (s.handle.remainingBytes - 1).toNat else []) ++ _ = _
        rw [hdec]
    refine .forward ⟨⟨hnext, ?_, ?_, ?_, ?_⟩, hresult, hdone, ?_, ?_, ?_, ?_⟩ ?_
    · rw [htransfer]
    · by_cases hlast : s.handle.remainingBytes.toNat - 1 = 0
      · rw [if_pos hlast] at hstate'
        apply OnTheWay.ending (Or.inl hstate')
        · rw [htransfer]
          change s.handle.transfer.data + 1 = _
          omega
        · rw [hlink]
          exact hbus
      · rw [if_neg hlast] at hstate'
        apply OnTheWay.transferData hstate'
        · rw [hlink]
          exact hbus
        · rw [hlink]
          exact hreading
    · rw [hrest, ← List.append_assoc]
      change trace cs ++ _ ++ _ = _
      rw [haccess.trace, List.append_assoc, ← hf.trace]
      simp only [outstanding, hstate]
    · intro i
      rw [htransfer]
      exact haccess.memory i
    · intro hgo
      rw [hlink]
      exact hstop hgo
    · rw [htransfer]
      exact hrx
    · intro hgo
      rw [hlink]
      exact hnot hgo
    · intro hgo hend hread
      rw [htransfer]
      rw [hlink] at hread
      exact hcomplete hgo hend hread
    · unfold distance
      rw [hstate', hstate]
      by_cases hlast : s.handle.remainingBytes.toNat - 1 = 0
      · simp only [hlast, if_true]
        omega
      · simp only [hlast, if_false]
        change (s.handle.remainingBytes - 1).toNat + 2 < _
        rw [hdec]
        omega
  | waitRepeatedStartComplete hstate' => rw [hstate] at hstate'; cases hstate'
  | sendCommand hstate' => rw [hstate] at hstate'; cases hstate'
  | ending hstate' => rw [hstate] at hstate'; rcases hstate' with hstate' | hstate' <;> cases hstate'

lemma transferDataState_round (hp : p.stateComplete = false) (h : AtWork t memory masterState reply e (s, p))
    (hstate : s.handle.state = .transferData) :
    RoundResult t memory masterState reply e s p (transferDataState e s p) := by
  have hf : Following t memory masterState reply s := h.following
  obtain ⟨hne, hsum⟩ := hf.data.transferring hstate
  obtain ⟨r, hr⟩ : ∃ r, s.handle.remainingBytes.toNat = r + 1 := by
    apply Nat.exists_eq_succ_of_ne_zero
    exact fun hzero => hne (BitVec.eq_of_toNat_eq hzero)
  have hcomplete : e.complete = true → (link masterState s.commands).reading = true →
    s.handle.transfer.dataSize.toNat ≤ s.handle.transfer.data + p.rxBytes.length := h.complete hp
  have hstop := h.stopState hp
  cases hf.way with
  | transferData _ hbus hreading =>
    unfold transferDataState
    cases hdir : t.direction with
    | write =>
      have hread : (link masterState s.commands).reading = false := by rw [hreading, hdir]; rfl
      rw [if_pos (by rw [hf.direction, hdir])]
      by_cases hroom : p.txCount = 0
      · rw [if_pos hroom]
        exact .of_waits h (by simp [Awaited, hstate, hf.direction, hdir, hroom])
      · rw [if_neg hroom]
        have hbyte : s.memory s.handle.transfer.data = memory s.handle.transfer.data := by
          rw [hf.memory, hdir, if_neg (by rintro ⟨⟨⟩, -⟩)]
        have hmark : (s.handle.remainingBytes > 1) ↔ r ≠ 0 := by
          rw [gt_iff_lt, BitVec.lt_def, hr]
          change 1 < r + 1 ↔ _
          omega
        obtain ⟨c, hc⟩ : ∃ c : Command, c = if s.handle.remainingBytes > 1 then .byte (s.memory s.handle.transfer.data)
          else .lastByte (s.memory s.handle.transfer.data) := ⟨_, rfl⟩
        have hevent : busEvents c = [.byte (memory s.handle.transfer.data) (decide (r = 0))] := by
          rw [hc, hbyte]
          by_cases hlast : r = 0
          · rw [if_neg (by rw [hmark]; exact not_not.mpr hlast)]
            simp [busEvents, hlast]
          · rw [if_pos (hmark.mpr hlast)]
            simp [busEvents, hlast]
        have haccess : Access t memory masterState reply s s.memory (s.commands ++ [c]) := by
          constructor
          · rw [link_append, hc]
            split_ifs <;> rfl
          · rw [hdir, if_pos rfl, if_pos rfl, hr, trace_append, dataEvents, List.append_assoc]
            simp [hevent]
          · intro i
            rw [hf.memory, hdir, if_neg (by rintro ⟨⟨⟩, -⟩), if_neg (by rintro ⟨⟨⟩, -⟩)]
        have hrx : p.rxBytes = answerFrom reply (s.handle.transfer.data + 1) p.rxBytes.length := by
          rw [h.notReading hp hread]
          rfl
        have hround := h.advance hstate haccess { p with txCount := p.txCount - 1 } h.result h.isDone
          (fun _ => hstop) hrx h.notReading (fun _ _ htrue => by rw [hread] at htrue; cases htrue)
        rw [hc] at hround
        exact hround
    | read =>
      have hread : (link masterState s.commands).reading = true := by rw [hreading, hdir]; rfl
      have hnot : s.handle.transfer.direction ≠ .write := by
        rw [hf.direction, hdir]
        decide
      have hbytes := h.rxBytes
      rw [if_neg hnot]
      cases hrx : p.rxBytes with
      | nil =>
        have hend : e.complete = false := by
          by_contra htrue
          have hle := hcomplete (Bool.eq_true_of_not_eq_false htrue) hread
          rw [hrx] at hle
          simp only [List.length_nil] at hle
          omega
        simp only [hend, Bool.false_eq_true, if_false]
        have hwaits := RoundResult.of_waits h (by simp [Awaited, hstate, hnot, hread, hrx])
        rw [hrx] at hwaits
        exact hwaits
      | cons b rest =>
        rw [hrx, List.length_cons, answerFrom_succ, List.cons.injEq] at hbytes
        have haccess (cs : List Command) (hquiet : ∀ l : Link, cs.foldl Link.after l = l) (hno : trace cs = []) :
            Access t memory masterState reply s (Function.update s.memory s.handle.transfer.data b) (s.commands ++ cs) := by
          constructor
          · unfold link
            rw [List.foldl_append, hquiet]
          · rw [hdir, if_neg (by decide), if_neg (by decide), trace_append, hno, List.append_nil]
          · intro i
            rw [hdir]
            by_cases hi : i = s.handle.transfer.data
            · rw [hi, Function.update_self, if_pos ⟨rfl, Nat.lt_succ_self _⟩, hbytes.1]
            · rw [Function.update_of_ne hi, hf.memory, hdir]
              have hiff : i < s.handle.transfer.data ↔ i < s.handle.transfer.data + 1 := by omega
              simp only [hiff]
        have hround (cs : List Command) (hquiet : ∀ l : Link, cs.foldl Link.after l = l) (hno : trace cs = []) :=
          h.advance hstate (haccess cs hquiet hno) { p with rxBytes := rest } h.result h.isDone
            (fun _ => hstop) hbytes.2 (fun _ hfalse => by rw [hread] at hfalse; cases hfalse) (by
              intro _ hend hreads
              have hle := hcomplete hend hreads
              rw [hrx, List.length_cons, hf.dataSize] at hle
              dsimp only
              omega)
        dsimp only
        split_ifs
        · exact hround [.readTerm] (fun _ => rfl) rfl
        · have hplain := hround [] (fun _ => rfl) rfl
          rw [List.append_nil] at hplain
          exact hplain
  | waitRepeatedStartComplete hstate' => rw [hstate] at hstate'; cases hstate'
  | sendCommand hstate' => rw [hstate] at hstate'; cases hstate'
  | ending hstate' => rw [hstate] at hstate'; rcases hstate' with hstate' | hstate' <;> cases hstate'

lemma waitForCompletionState_round (hp : p.stateComplete = false) (h : AtWork t memory masterState reply e (s, p))
    (hstate : s.handle.state = .waitForCompletion) :
    RoundResult t memory masterState reply e s p (waitForCompletionState e s p) := by
  have hf : Following t memory masterState reply s := h.following
  have hnext := (waitForCompletionState_progress (e := e) hp hf.data hstate).data
  unfold waitForCompletionState at hnext ⊢
  by_cases hcomplete : e.complete = true
  · rw [if_pos hcomplete] at hnext ⊢
    cases hf.way with
    | ending _ hdata hbus =>
      refine .forward ⟨⟨hnext, hf.transfer, .ending (Or.inr rfl) hdata hbus, ?_, hf.memory⟩, h.result, h.isDone,
        h.stopState, h.rxBytes, h.notReading, h.complete⟩ ?_
      · rw [← hf.trace]
        simp only [outstanding, hstate, setState]
      · simp only [distance, hstate, setState]
        omega
    | sendCommand hstate' => rw [hstate] at hstate'; cases hstate'
    | transferData hstate' => rw [hstate] at hstate'; cases hstate'
    | waitRepeatedStartComplete hstate' => rw [hstate] at hstate'; cases hstate'
  · rw [if_neg hcomplete]
    exact .of_waits h (by simp [Awaited, hstate, hcomplete])

lemma stopState_round (hp : p.stateComplete = false) (h : AtWork t memory masterState reply e (s, p))
    (hstate : s.handle.state = .stop) : RoundResult t memory masterState reply e s p (stopState e s p) := by
  have hf : Following t memory masterState reply s := h.following
  have htrace := hf.trace
  simp only [outstanding, hstate] at htrace
  cases hf.way with
  | ending _ hdata hbus =>
    have hmemory : ∀ i, s.memory i = if t.direction = .read ∧ i < t.dataSize.toNat then reply i else memory i := by
      intro i
      rw [hf.memory, hdata]
    have hstop : e.stopState = stateAtEnd t masterState := (h.stopState hp).trans hbus
    obtain ⟨r, hr⟩ := Option.isSome_iff_exists.mp e.stopWait.waitForCtrlDone_isSome
    unfold stopState
    rw [hf.flags, hf.busType, hstop]
    unfold irqEnding at htrace
    apply RoundResult.ended
    by_cases hno : t.flags.noStop = true
    · rw [if_pos hno] at htrace ⊢
      rw [List.append_nil] at htrace
      exact ⟨h.result, rfl, rfl, hstate, htrace, hmemory⟩
    · rw [if_neg hno] at htrace ⊢
      by_cases htype : t.busType = .i3cDdr
      · rw [if_pos htype] at htrace ⊢
        refine ⟨h.result, rfl, rfl, hstate, ?_, hmemory⟩
        rw [← htrace]
        simp [Sys.tell, busEvents]
      · rw [if_neg htype] at htrace ⊢
        by_cases hnorm : stateAtEnd t masterState = .normAct
        · rw [if_pos hnorm] at htrace
          simp only [emitStop, hnorm, if_true, hr, Option.map_some]
          refine ⟨h.result, rfl, rfl, hstate, ?_, hmemory⟩
          rw [← htrace]
          simp [Sys.tell, busEvents]
        · rw [if_neg hnorm] at htrace
          simp only [emitStop, if_neg hnorm]
          refine ⟨h.result, rfl, rfl, hstate, ?_, hmemory⟩
          rw [← htrace]
          simp [Sys.tell]
  | sendCommand hstate' => rw [hstate] at hstate'; cases hstate'
  | transferData hstate' => rw [hstate] at hstate'; cases hstate'
  | waitRepeatedStartComplete hstate' => rw [hstate] at hstate'; cases hstate'

lemma Following.busy (h : Following t memory masterState reply s) : s.handle.state ≠ .idle := by
  cases h.way with
  | sendCommand hstate => rw [hstate]; decide
  | waitRepeatedStartComplete hstate => rw [hstate]; decide
  | transferData hstate => rw [hstate]; decide
  | ending hstate => rcases hstate with hstate | hstate <;> rw [hstate] <;> decide

lemma executeState_round (hp : p.stateComplete = false) (h : AtWork t memory masterState reply e (s, p))
    (hsize : t.dataSize ≠ 0) : RoundResult t memory masterState reply e s p (executeState e s p) := by
  have hf : Following t memory masterState reply s := h.following
  unfold executeState
  cases hf.way with
  | sendCommand hstate =>
    rw [hstate]
    exact sendCommandState_round hp h hsize hstate
  | waitRepeatedStartComplete hstate =>
    rw [hstate]
    exact waitRepeatedStartCompleteState_round hp h hstate
  | transferData hstate =>
    rw [hstate]
    exact transferDataState_round hp h hstate
  | ending hstate =>
    rcases hstate with hstate | hstate
    · rw [hstate]
      exact waitForCompletionState_round hp h hstate
    · rw [hstate]
      exact stopState_round hp h hstate

end States

section Interrupts

variable {t : Transfer} {memory : Nat → BitVec 8} {masterState : MasterState} {reply : Nat → BitVec 8} {e : Irq} {s : Sys}

/-- The transfer has ended, and the handle is idle. -/
structure Finished (t : Transfer) (memory : Nat → BitVec 8) (masterState : MasterState) (reply : Nat → BitVec 8) (s : Sys) :
    Prop where
  state : s.handle.state = .idle
  trace : trace s.commands = irqTransaction t memory masterState
  memory : ∀ i, s.memory i = if t.direction = .read ∧ i < t.dataSize.toNat then reply i else memory i

/-- What the state machine finds at the start of an interrupt. -/
def startParams (e : Irq) : Params :=
  ⟨false, e.txRoom, e.rxBytes, .success, false⟩

lemma AtWork.start (hf : Following t memory masterState reply s) (he : HonestIrq masterState reply s e) :
    AtWork t memory masterState reply e (s, startParams e) where
  following := hf
  result := rfl
  isDone := rfl
  stopState := fun _ => he.stopState
  rxBytes := he.rxBytes
  notReading := fun _ => he.notReading
  complete := fun _ => he.complete

/-- How far the rounds of one interrupt have come from `s`. -/
def Progressed (t : Transfer) (memory : Nat → BitVec 8) (masterState : MasterState) (reply : Nat → BitVec 8) (e : Irq)
    (s : Sys) (x : Sys × Params) : Prop :=
  Ended t memory masterState reply x ∨
    (AtWork t memory masterState reply e x ∧ (x.1 = s ∨ distance x.1 < distance s) ∧
      (Awaited masterState s e.complete e.txRoom e.rxBytes → x = (s, startParams e) ∨ distance x.1 < distance s))

lemma Progressed.next {x : Sys × Params} (h : Progressed t memory masterState reply e s x) (hsize : t.dataSize ≠ 0)
    (hgo : x.2.stateComplete = false) :
    Progressed t memory masterState reply e s (executeState e x.1 x.2) ∧
      variant (executeState e x.1 x.2) < variant x := by
  rcases h with hended | ⟨hwork, hfar, hawaited⟩
  · rw [hended.stateComplete] at hgo
    cases hgo
  · obtain ⟨s₁, p₁⟩ := x
    refine ⟨?_, (executeState_progress hgo hwork.following.data hwork.following.busy).less⟩
    cases executeState_round hgo hwork hsize with
    | forward hwork' hless =>
      have hle : distance s₁ ≤ distance s := by
        rcases hfar with heq | hless'
        · exact Nat.le_of_eq (congrArg distance heq)
        · exact Nat.le_of_lt hless'
      have hlt := Nat.lt_of_lt_of_le hless hle
      exact Or.inr ⟨hwork', Or.inr hlt, fun _ => Or.inr hlt⟩
    | waits hwork' hsame hnothing =>
      refine Or.inr ⟨hwork', ?_, ?_⟩
      · rw [hsame]
        exact hfar
      · intro hfound
        rcases hawaited hfound with heq | hless
        · obtain ⟨rfl, rfl⟩ := Prod.mk.inj heq
          exact absurd hfound hnothing
        · right
          rw [hsame]
          exact hless
    | ended hended => exact Or.inl hended

lemma machine_progressed (hsize : t.dataSize ≠ 0) (hf : Following t memory masterState reply s)
    (he : HonestIrq masterState reply s e) :
    ∃ x, (∀ fuel, enough e ≤ fuel → loop (machineRound e) fuel (s, startParams e) = some x) ∧
      Progressed t memory masterState reply e s x ∧ x.2.stateComplete = true := by
  have hstart : Progressed t memory masterState reply e s (s, startParams e) :=
    Or.inr ⟨AtWork.start hf he, Or.inl rfl, fun _ => Or.inl rfl⟩
  have hloop : ∃ x, (∀ fuel, variant (s, startParams e) < fuel → loop (machineRound e) fuel (s, startParams e) = some x) ∧
      Progressed t memory masterState reply e s x ∧ x.2.stateComplete = true := by
    apply loop_terminates (I := Progressed t memory masterState reply e s) variant _ _ hstart
    · intro x x' h hround
      unfold machineRound at hround
      split at hround
      · cases hround
      next hgo =>
        obtain rfl := Sum.inl.inj hround
        exact h.next hsize (Bool.eq_false_iff.mpr hgo)
    · intro x x' h hround
      unfold machineRound at hround
      split at hround
      next hcomplete =>
        obtain rfl := Sum.inr.inj hround
        exact ⟨h, hcomplete⟩
      · cases hround
  obtain ⟨x, hx, hprogressed, hcomplete⟩ := hloop
  refine ⟨x, ?_, hprogressed, hcomplete⟩
  intro fuel hfuel
  apply hx fuel
  have hle : variant (s, startParams e) ≤ e.txRoom + e.rxBytes.length + 3 := by
    rw [variant]
    simp only [startParams, Bool.false_eq_true, if_false]
    split <;> omega
  rw [enough] at hfuel
  omega

/-- The end of a transfer only calls back. -/
lemma finish_success (s : Sys) :
    ((s.tell []).finish .success).handle.state = .idle ∧ ((s.tell []).finish .success).commands = s.commands ∧
      ((s.tell []).finish .success).memory = s.memory := by
  have hwon : ¬ (Status.success = .ibiWon ∧ (s.tell []).handle.ibiCallback = true) := fun h => by cases h.1
  have hplain : (s.tell []).finish .success = ((s.tell []).setState .idle).report := congrArg report (if_neg hwon)
  rw [hplain, Sys.report]
  split_ifs <;> simp [setState, Sys.tell]

/-- What an interrupt of a transfer does: it ends the transfer, or leaves the machine on its way, farther if it waits for it. -/
def Advances (t : Transfer) (memory : Nat → BitVec 8) (masterState : MasterState) (reply : Nat → BitVec 8) (e : Irq)
    (s s' : Sys) : Prop :=
  Finished t memory masterState reply s' ∨
    (Following t memory masterState reply s' ∧ (s' = s ∨ distance s' < distance s) ∧
      (Awaited masterState s e.complete e.txRoom e.rxBytes → distance s' < distance s))

lemma handleIRQ_advances (hsize : t.dataSize ≠ 0) (hf : Following t memory masterState reply s)
    (he : HonestIrq masterState reply s e) :
    ∃ s', handleIRQ (enough e) e s = some s' ∧ Advances t memory masterState reply e s s' := by
  obtain ⟨x, hx, hprogressed, hcomplete⟩ := machine_progressed hsize hf he
  have herror : checkAndClearError e.errors = .success := by
    rw [he.errors]
    rfl
  have hibi : takeIbi e s = s := by
    unfold takeIbi
    simp [he.slaveStart, he.noIbi.1, he.noIbi.2]
  have hrun : runTransferStateMachine (enough e) e s = some (x.1, x.2.result, x.2.isDone) := by
    unfold runTransferStateMachine
    dsimp only
    rw [herror, if_neg (not_not.mpr rfl), hibi, if_neg hf.busy]
    change (loop (machineRound e) (enough e) (s, startParams e)).map _ = _
    rw [hx _ (le_refl _)]
    rfl
  have hmark : markIbi s x.1 = x.1 := if_neg (fun h => hf.busy h.1)
  rw [Sys.handleIRQ, hrun, Option.bind_some]
  dsimp only
  rw [hmark]
  rcases hprogressed with hended | ⟨hwork, hfar, hawaited⟩
  · have hbusy : x.1.handle.state ≠ .idle := by rw [hended.state]; decide
    rw [hended.result, hended.isDone, if_neg hbusy, if_pos (Or.inl rfl)]
    obtain ⟨hidle, hcommands, hmemory⟩ := finish_success x.1
    refine ⟨_, rfl, Or.inl ⟨hidle, ?_, ?_⟩⟩
    · rw [hcommands]
      exact hended.trace
    · rw [hmemory]
      exact hended.memory
  · have hgoes : ¬ (x.2.isDone = true ∨ x.2.result ≠ .success) := by
      rw [hwork.isDone, hwork.result]
      decide
    rw [if_neg hwork.following.busy, if_neg hgoes]
    refine ⟨x.1, rfl, Or.inr ⟨hwork.following, hfar, ?_⟩⟩
    intro hfound
    rcases hawaited hfound with heq | hless
    · rw [heq] at hcomplete
      cases hcomplete
    · exact hless

end Interrupts

end McuxDrivers.I3c.NonBlocking
