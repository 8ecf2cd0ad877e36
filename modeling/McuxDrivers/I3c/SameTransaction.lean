import McuxDrivers.I3c.IrqRuns

/-!
# The transactions of both masters

A transfer of the interrupt-driven master to its end, and when it is on the bus what the blocking master puts there.
-/

namespace McuxDrivers.I3c.NonBlocking
open McuxDrivers.Lib Sys

/-- What the call finds of the controller, and the interrupts after it, by their number and the state in which each comes. -/
structure IrqBus where
  call : CallEnv
  irq : Nat → Sys → Irq

/-- The next interrupt, while the handle is not idle. -/
def irqRound (b : IrqBus) (x : Nat × Sys) : (Nat × Sys) ⊕ Sys :=
  if x.2.handle.state = .idle then .inr x.2 else .inl (x.1 + 1, step x.2 (.irq (b.irq x.1 x.2)))

/-- A transfer of the interrupt-driven master, with at most `fuel` interrupts. -/
def transferByIrq (b : IrqBus) (fuel : Nat) (t : Transfer) (memory : Nat → BitVec 8) (s : Sys) : Option Sys :=
  loop (irqRound b) fuel (0, step s (.call b.call t memory))

/-- A bus without errors and IBIs, on which what the machine waits for comes. The target's answer to a read is `reply`. -/
structure IrqBus.ErrorFree (b : IrqBus) (t : Transfer) (memory : Nat → BitVec 8) (s : Sys) (masterState : MasterState)
    (reply : Nat → BitVec 8) : Prop where
  callState : b.call.masterState = masterState
  broadcastState : b.call.broadcastState = masterState
  broadcastWait : waitForCtrlDone b.call.broadcastWait.polls = some .success
  startState : b.call.startState = if t.flags.startWithBroadcastAddr then activeState t.busType else masterState
  /-- The handler that the call runs when there is no start. -/
  callIrq : t.flags.noStart = true → HonestIrq masterState reply (launched t memory s [] (firstState t)) b.call.irq
  honest : ∀ n s, HonestIrq masterState reply s (b.irq n s)
  comes : ∀ n s, ∃ n', n ≤ n' ∧ Awaited masterState s (b.irq n' s).complete (b.irq n' s).txRoom (b.irq n' s).rxBytes

section Calls

variable {b : IrqBus} {t : Transfer} {memory : Nat → BitVec 8} {masterState : MasterState} {reply : Nat → BitVec 8}
  {s : Sys}

lemma launched_dataOk (cs : List Command) (hsize : t.dataSize ≠ 0) : DataOk (launched t memory s cs (firstState t)) := by
  constructor
  · exact fun _ => ⟨rfl, rfl, fun _ => hsize⟩
  · intro hstate
    change firstState t = _ at hstate
    unfold firstState at hstate
    split_ifs at hstate
  · exact fun _ => ⟨hsize, Nat.zero_add _⟩
  · exact fun _ ha => absurd ha List.not_mem_nil

/-- The machine is at the start of its way once the addresses are on the bus. -/
lemma launched_following {cs : List Command} (hcommands : s.commands = []) (hsize : t.dataSize ≠ 0)
    (htrace : trace cs = opening t)
    (hbus : (link masterState cs).state = if t.flags.noStart then masterState else activeState t.busType)
    (hreading : (link masterState cs).reading = decide (startDirection t = .read)) :
    Following t memory masterState reply (launched t memory s cs (firstState t)) := by
  have hall : (launched t memory s cs (firstState t)).commands = cs := by
    change s.commands ++ cs = cs
    rw [hcommands, List.nil_append]
  have hmemory : ∀ i, memory i = if t.direction = .read ∧ i < 0 then reply i else memory i := by
    intro i
    rw [if_neg (fun h => Nat.not_lt_zero i h.2)]
  by_cases hsub : t.subaddressSize = 0
  · have hfirst : firstState t = .transferData := by
      rw [firstState, if_neg (by omega), if_pos hsize]
    have hturn : ¬ TurnsAround t := fun h => h.1 hsub
    have hdirection : startDirection t = t.direction := by
      simp [startDirection, hsub]
    refine ⟨launched_dataOk cs hsize, rfl, .transferData hfirst ?_ ?_, ?_, hmemory⟩
    · rw [hall, hbus, stateAtEnd_of_not_turns hturn]
    · rw [hall, hreading, hdirection]
    · rw [hall, htrace, irqTransaction, transaction, hsub]
      have hout : outstanding t memory masterState (launched t memory s cs (firstState t)) =
          (if t.direction = .write then dataEvents memory 0 t.dataSize.toNat else []) ++ irqEnding t masterState := by
        have hstate : (launched t memory s cs (firstState t)).handle.state = .transferData := hfirst
        simp only [outstanding, hstate]
        rfl
      rw [hout]
      simp [payload, hturn, subaddressEvents]
  · have hfirst : firstState t = .sendCommand := by
      rw [firstState, if_pos (by omega)]
    refine ⟨launched_dataOk cs hsize, rfl, .sendCommand hfirst hsub hsub ?_ ?_, ?_, hmemory⟩
    · rw [hall, hbus]
    · rw [hall, hreading]
    · rw [hall, htrace, irqTransaction, transaction]
      congr 1
      have hstate : (launched t memory s cs (firstState t)).handle.state = .sendCommand := hfirst
      simp only [outstanding, hstate]
      rfl

lemma tell_tell (s : Sys) (cs cs' : List Command) : (s.tell cs).tell cs' = s.tell (cs ++ cs') := by
  simp only [Sys.tell, List.append_assoc]

/-- The broadcast address, where the transfer starts with it. -/
def broadcastCommands (t : Transfer) : List Command :=
  if t.flags.startWithBroadcastAddr then [.start t.busType 0x7E .write 0] else []

lemma startBroadcast_success (hfree : b.ErrorFree t memory s masterState reply) {enableWord : Bool}
    (haccepted : Blocking.Accepted t enableWord) (havailable : busAvailable t.busType masterState = true) :
    startBroadcast b.call (save t memory s) = some ((save t memory s).tell (broadcastCommands t), .success) := by
  have htransfer : (save t memory s).handle.transfer = { t with data := 0 } := rfl
  unfold startBroadcast broadcastCommands
  dsimp only
  rw [htransfer]
  cases hflag : t.flags.startWithBroadcastAddr with
  | false => simp only [Bool.false_eq_true, if_false, Sys.tell, List.append_nil]
  | true =>
    obtain ⟨hno, hrepeated⟩ := haccepted.broadcast hflag
    simp only [hno, hrepeated, hfree.broadcastState, havailable, hfree.broadcastWait, if_true, Bool.false_eq_true,
      Bool.true_eq_false, if_false]
    rfl

lemma step_call (hfree : b.ErrorFree t memory s masterState reply) (havailable : busAvailable t.busType masterState = true)
    (hidle : s.handle.state = .idle) {s' : Sys}
    (hinit : initTransferStateMachine (enough b.call.irq) b.call (save t memory s) = some (s', .success)) :
    step s (.call b.call t memory) = s' := by
  have havailable' : ¬ busAvailable t.busType b.call.masterState = false := by
    rw [hfree.callState, havailable]
    exact Bool.true_eq_false_eq_False
  rw [step, masterTransferNonBlocking, if_neg (not_not.mpr hidle), if_neg havailable', hinit]
  change { s' with misreported := s'.misreported || false } = s'
  rw [Bool.or_false]

/-- Without a start, the handler that the call runs finds the machine at the start of its way. -/
lemma callNoStart_follows (hfree : b.ErrorFree t memory s masterState reply) {enableWord : Bool}
    (haccepted : Blocking.Accepted t enableWord) (havailable : busAvailable t.busType masterState = true)
    (hidle : s.handle.state = .idle) (hcommands : s.commands = []) (hno : t.flags.noStart = true) :
    Finished t memory masterState reply (step s (.call b.call t memory)) ∨
      Following t memory masterState reply (step s (.call b.call t memory)) := by
  have hsize := haccepted.dataSize_pos
  have hwrite := haccepted.noStart hno
  have htransfer : (save t memory s).handle.transfer = { t with data := 0 } := rfl
  have hbroadcast : t.flags.startWithBroadcastAddr = false := by
    by_contra hnot
    have hfalse := (haccepted.broadcast (Bool.eq_true_of_not_eq_false hnot)).1
    rw [hno] at hfalse
    cases hfalse
  have hstart : startBroadcast b.call (save t memory s) = some (save t memory s, .success) := by
    rw [startBroadcast_success hfree haccepted havailable, broadcastCommands, hbroadcast, if_neg Bool.false_ne_true,
      Sys.tell, List.append_nil]
  have hfollowing : Following t memory masterState reply (launched t memory s [] (firstState t)) := by
    apply launched_following hcommands hsize
    · simp [opening, hno, hbroadcast]
    · rw [hno]
      rfl
    · rw [hwrite]
      rfl
  obtain ⟨s', hs', hadvances⟩ := handleIRQ_advances hsize hfollowing (hfree.callIrq hno)
  have hinit : initTransferStateMachine (enough b.call.irq) b.call (save t memory s) = some (s', .success) := by
    rw [initTransferStateMachine, hstart, Option.bind_some]
    dsimp only
    rw [if_neg (not_not.mpr rfl), startTransfer]
    dsimp only
    rw [htransfer, if_pos hno]
    by_cases hsub : t.subaddressSize > 0
    · rw [firstState, if_pos hsub, launched, Sys.tell, List.append_nil] at hs'
      rw [if_pos hsub, hs']
      rfl
    · have hdirection : startDirection { t with data := 0 } = .write := hwrite
      rw [firstState, if_neg hsub, if_pos hsize, launched, Sys.tell, List.append_nil] at hs'
      rw [if_neg hsub, if_pos hdirection, hs']
      rfl
  rw [step_call hfree havailable hidle hinit]
  rcases hadvances with hfinished | ⟨hfollows, -⟩
  · exact Or.inl hfinished
  · exact Or.inr hfollows

lemma callStart_follows (hfree : b.ErrorFree t memory s masterState reply) {enableWord : Bool}
    (haccepted : Blocking.Accepted t enableWord) (havailable : busAvailable t.busType masterState = true)
    (hidle : s.handle.state = .idle) (hcommands : s.commands = []) (hno : t.flags.noStart = false) :
    Following t memory masterState reply (step s (.call b.call t memory)) := by
  have hsize := haccepted.dataSize_pos
  have hbus : busAvailable t.busType b.call.startState = true := by
    rw [hfree.startState]
    split_ifs
    · cases t.busType <;> rfl
    · exact havailable
  obtain ⟨rxSize, hinit⟩ : ∃ rxSize, initTransferStateMachine (enough b.call.irq) b.call (save t memory s) =
      some (launched t memory s (broadcastCommands t ++ [.start t.busType t.slaveAddress (startDirection t) rxSize])
        (firstState t), .success) := by
    refine ⟨((save t memory s).tell (broadcastCommands t)).startRxSize, ?_⟩
    rw [initTransferStateMachine, startBroadcast_success hfree haccepted havailable, Option.bind_some]
    dsimp only
    rw [if_neg (not_not.mpr rfl), startTransfer, launched, ← tell_tell]
    change (if t.flags.noStart then _ else if t.flags.repeatedStart then _ else
      if busAvailable t.busType b.call.startState then _ else _) = _
    rw [hno, hbus, if_neg Bool.false_ne_true, if_pos rfl, ite_self]
    rfl
  rw [step_call hfree havailable hidle hinit]
  apply launched_following hcommands hsize
  · rw [trace_append, opening, hno, broadcastCommands, if_neg Bool.false_ne_true]
    split_ifs <;> rfl
  · rw [link_append, hno]
    rfl
  · rw [link_append]
    rfl

/-- The call starts the transfer on its way; without a start, its handler may already end it. -/
lemma call_follows (hfree : b.ErrorFree t memory s masterState reply) {enableWord : Bool}
    (haccepted : Blocking.Accepted t enableWord) (havailable : busAvailable t.busType masterState = true)
    (hidle : s.handle.state = .idle) (hcommands : s.commands = []) :
    Finished t memory masterState reply (step s (.call b.call t memory)) ∨
      Following t memory masterState reply (step s (.call b.call t memory)) := by
  cases hno : t.flags.noStart with
  | true => exact callNoStart_follows hfree haccepted havailable hidle hcommands hno
  | false => exact Or.inr (callStart_follows hfree haccepted havailable hidle hcommands hno)

lemma Finished.loop {n : Nat} {s' : Sys} (h : Finished t memory masterState reply s') :
    Yields (fun fuel => Lib.loop (irqRound b) fuel (n, s')) (Finished t memory masterState reply) :=
  ⟨s', loop_leave (if_pos h.state), h⟩

/-- The interrupts that come bring the transfer to its end. The induction is on what is left to do, and then on the
interrupts before the next one that the machine waits for. -/
lemma irqLoop_yields (hfree : b.ErrorFree t memory s masterState reply) (hsize : t.dataSize ≠ 0) (n : Nat) {s' : Sys}
    (h : Following t memory masterState reply s') :
    Yields (fun fuel => loop (irqRound b) fuel (n, s')) (Finished t memory masterState reply) := by
  induction hd : distance s' using Nat.strong_induction_on generalizing n s' with
  | _ d ih =>
    obtain ⟨n', hle, hawaited⟩ := hfree.comes n s'
    induction hk : n' - n generalizing n with
    | zero =>
      obtain rfl : n = n' := by omega
      have hround : irqRound b (n, s') = .inl (n + 1, step s' (.irq (b.irq n s'))) := if_neg h.busy
      obtain ⟨s₁, hs₁, hadvances⟩ := handleIRQ_advances hsize h (hfree.honest n s')
      have hstep : step s' (.irq (b.irq n s')) = s₁ := by
        rw [step, hs₁]
        rfl
      rw [hstep] at hround
      rcases hadvances with hfinished | ⟨hfollows, -, hless⟩
      · obtain ⟨r, hr, hQ⟩ := hfinished.loop
        exact ⟨r, loop_next hround hr, hQ⟩
      · obtain ⟨r, hr, hQ⟩ := ih (distance s₁) (by have := hless hawaited; omega) (n + 1) hfollows rfl
        exact ⟨r, loop_next hround hr, hQ⟩
    | succ k ihk =>
      have hround : irqRound b (n, s') = .inl (n + 1, step s' (.irq (b.irq n s'))) := if_neg h.busy
      obtain ⟨s₁, hs₁, hadvances⟩ := handleIRQ_advances hsize h (hfree.honest n s')
      have hstep : step s' (.irq (b.irq n s')) = s₁ := by
        rw [step, hs₁]
        rfl
      rw [hstep] at hround
      rcases hadvances with hfinished | ⟨hfollows, hfar, -⟩
      · obtain ⟨r, hr, hQ⟩ := hfinished.loop
        exact ⟨r, loop_next hround hr, hQ⟩
      · rcases hfar with rfl | hless
        · obtain ⟨r, hr, hQ⟩ := ihk (n + 1) (by omega) (by omega)
          exact ⟨r, loop_next hround hr, hQ⟩
        · obtain ⟨r, hr, hQ⟩ := ih (distance s₁) (by omega) (n + 1) hfollows rfl
          exact ⟨r, loop_next hround hr, hQ⟩

/-- The interrupt-driven master puts its transaction on the bus, and a read stores the answer of the target. -/
theorem transferByIrq_returns (hfree : b.ErrorFree t memory s masterState reply) {enableWord : Bool}
    (haccepted : Blocking.Accepted t enableWord) (havailable : busAvailable t.busType masterState = true)
    (hidle : s.handle.state = .idle) (hcommands : s.commands = []) :
    Yields (fun fuel => transferByIrq b fuel t memory s) (Finished t memory masterState reply) := by
  rcases call_follows hfree haccepted havailable hidle hcommands with hfinished | hfollowing
  · exact hfinished.loop
  · exact irqLoop_yields hfree haccepted.dataSize_pos 0 hfollowing

end Calls

/-- The two masters put the same on the bus, and store the same bytes, when they agree on the transfer. -/
theorem sameTransaction_iff {c : Blocking.Controller} {b : IrqBus} {t : Transfer} {memory : Nat → BitVec 8} {s : Sys}
    {masterState : MasterState} {reply : Nat → BitVec 8} {enableWord : Bool}
    (hblocking : Blocking.ErrorFree c masterState reply) (hirq : b.ErrorFree t memory s masterState reply)
    (haccepted : Blocking.Accepted t enableWord) (havailable : busAvailable t.busType masterState = true)
    (hidle : s.handle.state = .idle) (hcommands : s.commands = []) :
    ∃ x result s', Returns (fun fuel => Blocking.transferBlocking c fuel t enableWord ⟨memory, [], 0⟩) (x, result) ∧
      Returns (fun fuel => transferByIrq b fuel t memory s) s' ∧
      ((trace x.commands = trace s'.commands ∧ ∀ i, x.memory i = s'.memory i) ↔ Agrees t masterState) := by
  obtain ⟨x, result, hx, hxtrace, hxmemory⟩ :=
    Blocking.transferBlocking_returns hblocking haccepted havailable memory
  obtain ⟨s', hs', hfinished⟩ := transferByIrq_returns hirq haccepted havailable hidle hcommands
  refine ⟨x, result, s', hx, hs', ?_⟩
  rw [hxtrace, hfinished.trace, blockingTransaction_eq_iff havailable, and_iff_left]
  intro i
  rw [hxmemory, hfinished.memory]

section Steady

variable (masterState : MasterState) (reply : Nat → BitVec 8)

/-- A controller that answers every wait at the first poll. -/
def steadyController : Blocking.Controller where
  shows await _ read :=
    [{ controlDone := true
       complete := true
       state := .idle
       errors := noErrors
       txRoom := match await with
         | .room byteCounts => byteCounts
         | _ => 0
       rx := some (reply read) }]
  state cs := (link masterState cs).state
  arbitrationWon _ := false

/-- An interrupt that finds room for a byte, or all that the target has left to send. -/
def steadyIrq (s : Sys) : Irq where
  slaveStart := false
  complete := true
  masterState := .normAct
  errors := noErrors
  rxBytes :=
    if (link masterState s.commands).reading then
      answerFrom reply s.handle.transfer.data (max 1 (s.handle.transfer.dataSize.toNat - s.handle.transfer.data))
    else []
  txRoom := 1
  ibiType := 0
  ibiAddress := 0
  ibiBuffGiven := false
  stopState := (link masterState s.commands).state
  stopWait := doneAtOnce
  endState := .normAct
  endWait := doneAtOnce

def steadyBus (t : Transfer) (memory : Nat → BitVec 8) (s : Sys) : IrqBus where
  call :=
    { masterState := masterState
      broadcastState := masterState
      broadcastWait := doneAtOnce
      startState := if t.flags.startWithBroadcastAddr then activeState t.busType else masterState
      irq := steadyIrq masterState reply (launched t memory s [] (firstState t)) }
  irq _ := steadyIrq masterState reply

lemma steadyController_errorFree : Blocking.ErrorFree (steadyController masterState reply) masterState reply where
  state _ := rfl
  noIbi _ := rfl
  errors _ _ _ p hp := by rw [List.mem_singleton.mp hp]
  reply _ _ _ p hp b hb := by
    rw [List.mem_singleton.mp hp] at hb
    exact (Option.some.inj hb).symm
  answers await _ _ hasks := by
    refine ⟨_, List.mem_singleton.mpr rfl, ?_⟩
    cases await with
    | receive data complete => cases data <;> cases complete <;> simp_all [Blocking.Await.AnsweredBy]
    | _ => simp [Blocking.Await.AnsweredBy]

lemma length_answerFrom (offset n : Nat) : (answerFrom reply offset n).length = n := by
  rw [answerFrom, List.length_map, List.length_range]

lemma steadyIrq_honest (s : Sys) : HonestIrq masterState reply s (steadyIrq masterState reply s) where
  errors := rfl
  slaveStart := rfl
  noIbi := ⟨by simp [steadyIrq], by simp [steadyIrq]⟩
  stopState := rfl
  rxBytes := by
    unfold steadyIrq
    dsimp only
    split_ifs
    · rw [length_answerFrom]
    · rfl
  notReading hread := by simp [steadyIrq, hread]
  complete _ hread := by
    simp only [steadyIrq, hread, if_true, length_answerFrom]
    omega

lemma steadyBus_errorFree (t : Transfer) (memory : Nat → BitVec 8) (s : Sys) :
    (steadyBus masterState reply t memory s).ErrorFree t memory s masterState reply where
  callState := rfl
  broadcastState := rfl
  broadcastWait := rfl
  startState := rfl
  callIrq _ := steadyIrq_honest masterState reply _
  honest _ := steadyIrq_honest masterState reply
  comes n s' := by
    refine ⟨n, le_refl n, ?_⟩
    unfold Awaited
    split
    · exact Nat.zero_lt_one
    · rfl
    · rfl
    · split_ifs
      · exact Nat.zero_lt_one
      · intro hread
        apply List.ne_nil_of_length_pos
        simp only [steadyBus, steadyIrq, hread, if_true, length_answerFrom]
        omega
    · trivial

end Steady

/-- A read of two bytes after a subaddress of one. -/
def registerRead (busType : BusType) : Transfer :=
  ⟨⟨false, false, false, false, false⟩, 0x30, .read, 0x11, 1, 0, 2, busType⟩

lemma registerRead_accepted (busType : BusType) : Blocking.Accepted (registerRead busType) false :=
  ⟨by simp [registerRead], by simp [registerRead], by simp [registerRead], by simp, by simp [registerRead]⟩

def noBytes : Nat → BitVec 8 :=
  fun _ => 0

def countingBytes : Nat → BitVec 8 :=
  fun i => BitVec.ofNat 8 (i + 1)

theorem sameTransaction_sdrRead :
    ∃ x result s',
      Returns (fun fuel => Blocking.transferBlocking (steadyController .idle countingBytes) fuel (registerRead .i3cSdr) false
        ⟨noBytes, [], 0⟩) (x, result) ∧
      Returns (fun fuel => transferByIrq (steadyBus .idle countingBytes (registerRead .i3cSdr) noBytes
        (created false true noBytes)) fuel (registerRead .i3cSdr) noBytes (created false true noBytes)) s' ∧
      trace x.commands = trace s'.commands ∧ ∀ i, x.memory i = s'.memory i := by
  obtain ⟨x, result, s', hx, hs', hiff⟩ := sameTransaction_iff (steadyController_errorFree .idle countingBytes)
    (steadyBus_errorFree .idle countingBytes (registerRead .i3cSdr) noBytes
      (created false true noBytes)) (registerRead_accepted .i3cSdr) (by decide) rfl rfl
  have hagrees : Agrees (registerRead .i3cSdr) .idle := ⟨by simp [registerRead], by simp [registerRead]⟩
  exact ⟨x, result, s', hx, hs', hiff.mpr hagrees⟩

/-- A DDR read with a subaddress: only the interrupt-driven master marks the end of the subaddress. -/
theorem sameTransaction_not_ddrRead :
    Blocking.ErrorFree (steadyController .idle countingBytes) .idle countingBytes ∧
      (steadyBus .idle countingBytes (registerRead .i3cDdr) noBytes (created false true noBytes)).ErrorFree
        (registerRead .i3cDdr) noBytes (created false true noBytes) .idle countingBytes ∧
      Blocking.Accepted (registerRead .i3cDdr) false ∧ busAvailable (registerRead .i3cDdr).busType .idle = true ∧
      ∃ x result s',
        Returns (fun fuel => Blocking.transferBlocking (steadyController .idle countingBytes) fuel (registerRead .i3cDdr)
          false ⟨noBytes, [], 0⟩) (x, result) ∧
        Returns (fun fuel => transferByIrq (steadyBus .idle countingBytes (registerRead .i3cDdr) noBytes
          (created false true noBytes)) fuel (registerRead .i3cDdr) noBytes (created false true noBytes)) s' ∧
        trace x.commands = [.address 0x30 .read, .byte 0x11 false, .exit] ∧
        trace s'.commands = [.address 0x30 .read, .byte 0x11 true, .exit] := by
  have hbus := steadyBus_errorFree .idle countingBytes (registerRead .i3cDdr) noBytes
    (created false true noBytes)
  have haccepted := registerRead_accepted .i3cDdr
  obtain ⟨x, result, hx, hxtrace, -⟩ := Blocking.transferBlocking_returns
    (steadyController_errorFree .idle countingBytes) haccepted (by decide) noBytes
  obtain ⟨s', hs', hfinished⟩ := transferByIrq_returns hbus haccepted (by decide) rfl rfl
  refine ⟨steadyController_errorFree .idle countingBytes, hbus, haccepted, by decide, x, result, s', hx, hs', ?_, ?_⟩
  · rw [hxtrace]
    decide
  · rw [hfinished.trace]
    decide

end McuxDrivers.I3c.NonBlocking
