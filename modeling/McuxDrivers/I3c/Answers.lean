import McuxDrivers.I3c.NonBlocking
import McuxDrivers.Lib.Runs

/-!
# Each accepted transfer is answered once

The state machine ends in every interrupt, touches only the bytes of the transfer, and an accepted
transfer keeps the handle busy until its callback. The two exceptions are starts that are refused,
since the call reports them as successes, and transfers without data that enter the data state.
-/

namespace McuxDrivers.I3c.NonBlocking
open McuxDrivers.Lib Sys

/-- What each state of the machine knows about the data, and the accesses so far. -/
structure DataOk (s : Sys) : Prop where
  command : s.handle.state = .sendCommand → s.handle.transfer.data = 0 ∧
    s.handle.remainingBytes = s.handle.transfer.dataSize ∧
    (s.handle.transfer.busType = .i3cDdr → s.handle.transfer.dataSize ≠ 0)
  repeated : s.handle.state = .waitRepeatedStartComplete → s.handle.transfer.data = 0 ∧
    s.handle.remainingBytes = s.handle.transfer.dataSize ∧ s.handle.transfer.dataSize ≠ 0
  transferring : s.handle.state = .transferData → s.handle.remainingBytes ≠ 0 ∧
    s.handle.transfer.data + s.handle.remainingBytes.toNat = s.handle.transfer.dataSize.toNat
  accesses : ∀ a ∈ s.accesses, a.1 < s.handle.transfer.dataSize.toNat ∧ a.2 ≠ 0

/-- What the state machine leaves as it is: the callback and the records about the transfer. -/
structure Books where
  transferComplete : Bool
  accepted : Nat
  misreported : Bool
  ibiOwned : Bool
  answers : Nat
  ibiReports : Nat
  idleIbis : Nat

def books (s : Sys) : Books :=
  ⟨s.handle.transferComplete, s.accepted, s.misreported, s.ibiOwned, s.answers, s.ibiReports, s.idleIbis⟩

lemma books_eq_iff {s s' : Sys} : books s' = books s ↔ s'.handle.transferComplete = s.handle.transferComplete ∧
    s'.accepted = s.accepted ∧ s'.misreported = s.misreported ∧ s'.ibiOwned = s.ibiOwned ∧
    s'.answers = s.answers ∧ s'.ibiReports = s.ibiReports ∧ s'.idleIbis = s.idleIbis := by
  simp only [books, Books.mk.injEq]

/-- The states that know nothing about the data. -/
def NoData : TransferState → Prop
  | .sendCommand | .waitRepeatedStartComplete | .transferData => False
  | _ => True

lemma DataOk.of_noData {s s' : Sys} (h : DataOk s) (hstate : NoData s'.handle.state)
    (hsize : s'.handle.transfer.dataSize = s.handle.transfer.dataSize) (haccesses : s'.accesses = s.accesses) :
    DataOk s' where
  command := fun heq => by rw [heq] at hstate; exact hstate.elim
  repeated := fun heq => by rw [heq] at hstate; exact hstate.elim
  transferring := fun heq => by rw [heq] at hstate; exact hstate.elim
  accesses := by
    rw [haccesses, hsize]
    exact h.accesses

/-- The rounds that a state of the machine has left at most. -/
def variant (x : Sys × Params) : Nat :=
  if x.2.stateComplete then 0
  else
    match x.1.handle.state with
    | .sendCommand | .transferData | .ibiWon => x.2.txCount + x.2.rxBytes.length + 3
    | .waitForCompletion => 2
    | _ => 1

lemma variant_of_complete {x : Sys × Params} (h : x.2.stateComplete = true) : variant x = 0 :=
  if_pos h

lemma variant_pos {x : Sys × Params} (h : x.2.stateComplete = false) : 0 < variant x := by
  rw [variant, h, if_neg Bool.false_ne_true]
  split <;> omega

/-- One round goes on in a state that is not idle, with less left to do. -/
structure Progress (s : Sys) (p : Params) (x : Sys × Params) : Prop where
  busy : x.1.handle.state ≠ .idle
  data : DataOk x.1
  frame : books x.1 = books s
  less : variant x < variant (s, p)

section States

variable {e : Irq} {s : Sys} {p : Params}

/-- The round only sets the flag that ends the loop. -/
lemma Progress.of_complete {x : Sys × Params} (hp : p.stateComplete = false) (hbusy : x.1.handle.state ≠ .idle)
    (hdata : DataOk x.1) (hframe : books x.1 = books s) (hx : x.2.stateComplete = true) : Progress s p x :=
  ⟨hbusy, hdata, hframe, by rw [variant_of_complete hx]; exact variant_pos hp⟩

lemma answerIbi_eq (e : Irq) (s : Sys) : ∃ ibiType commands,
    answerIbi e s = { s with handle := { s.handle with ibiType := ibiType }, commands := commands } := by
  unfold answerIbi
  split
  · dsimp only
    split
    · exact ⟨_, _, rfl⟩
    · exact ⟨_, _, rfl⟩
  · exact ⟨_, _, rfl⟩

lemma ibiWonState_progress (hp : p.stateComplete = false) (h : DataOk s) (hstate : s.handle.state = .ibiWon) :
    Progress s p (ibiWonState e s p) := by
  obtain ⟨ibiType, commands, hs⟩ := answerIbi_eq e s
  have hno : NoData s.handle.state := by rw [hstate]; trivial
  have hbusy : s.handle.state ≠ .idle := by rw [hstate]; decide
  rw [ibiWonState, hs]
  split
  next b rest hrx =>
    refine ⟨hbusy, h.of_noData hno rfl rfl, rfl, ?_⟩
    simp only [variant, takeIbiByte, hp, hstate, hrx, List.length_cons, Bool.false_eq_true, if_false]
    omega
  next =>
    split
    · exact Progress.of_complete hp hbusy (h.of_noData hno rfl rfl) rfl rfl
    · exact Progress.of_complete hp hbusy (h.of_noData hno rfl rfl) rfl rfl

lemma sendCommandState_progress (hp : p.stateComplete = false) (h : DataOk s)
    (hstate : s.handle.state = .sendCommand) : Progress s p (sendCommandState s p) := by
  have hbusy : s.handle.state ≠ .idle := by rw [hstate]; decide
  obtain ⟨hdata, hremaining, hddr⟩ := h.command hstate
  have hvariant : variant (s, p) = p.txCount + p.rxBytes.length + 3 := by
    simp only [variant, hp, hstate, Bool.false_eq_true, if_false]
  unfold sendCommandState
  by_cases hroom : p.txCount = 0
  · rw [if_pos hroom]
    exact Progress.of_complete hp hbusy h rfl rfl
  · rw [if_neg hroom]
    -- whatever the next state is, there is one place less in the FIFO
    have hless (s' : Sys) : variant (s', { p with txCount := p.txCount - 1 }) < variant (s, p) := by
      rw [hvariant, variant]
      simp only [hp, Bool.false_eq_true, if_false]
      split <;> omega
    have htransfer (hsize : s.handle.transfer.dataSize ≠ 0) : s.handle.remainingBytes ≠ 0 ∧
        s.handle.transfer.data + s.handle.remainingBytes.toNat = s.handle.transfer.dataSize.toNat := by
      rw [hdata, hremaining, Nat.zero_add]
      exact ⟨hsize, rfl⟩
    dsimp only
    split
    · exact ⟨hbusy, ⟨fun _ => ⟨hdata, hremaining, hddr⟩, h.repeated, h.transferring, h.accesses⟩, rfl,
        hless _⟩
    · split
      · split
        next =>
          split
          next =>
            split
            next => exact ⟨nofun, h.of_noData trivial rfl rfl, rfl, hless _⟩
            next hsize =>
              exact ⟨nofun, ⟨nofun, fun _ => ⟨hdata, hremaining, hsize⟩, nofun, h.accesses⟩, rfl, hless _⟩
          next htype =>
            have hsize := hddr (not_not.mp htype)
            exact ⟨nofun, ⟨nofun, nofun, fun _ => htransfer hsize, h.accesses⟩, rfl, hless _⟩
        next hwrite =>
          have hsize : s.handle.transfer.dataSize ≠ 0 := fun hzero => hwrite (Or.inr hzero)
          exact ⟨nofun, ⟨nofun, nofun, fun _ => htransfer hsize, h.accesses⟩, rfl, hless _⟩
      · exact ⟨hbusy, h, rfl, hless _⟩

lemma waitRepeatedStartCompleteState_progress (hp : p.stateComplete = false) (h : DataOk s)
    (hstate : s.handle.state = .waitRepeatedStartComplete) :
    Progress s p (waitRepeatedStartCompleteState e s p) := by
  obtain ⟨hdata, hremaining, hsize⟩ := h.repeated hstate
  unfold waitRepeatedStartCompleteState
  split
  · refine Progress.of_complete hp nofun ⟨nofun, nofun, fun _ => ?_, h.accesses⟩ rfl rfl
    constructor
    · exact fun hzero => hsize (hremaining ▸ hzero)
    · exact by
        show s.handle.transfer.data + s.handle.remainingBytes.toNat = s.handle.transfer.dataSize.toNat
        rw [hdata, hremaining, Nat.zero_add]
  · exact Progress.of_complete hp (by rw [hstate]; decide) h rfl rfl

/-- One byte of the data, in memory and bus as they are. -/
lemma DataOk.advance (h : DataOk s) (hstate : s.handle.state = .transferData) : DataOk s.advance := by
  obtain ⟨hne, hsum⟩ := h.transferring hstate
  have hpos : 0 < s.handle.remainingBytes.toNat := by
    rw [Nat.pos_iff_ne_zero]
    exact fun hzero => hne (BitVec.eq_of_toNat_eq hzero)
  have hdec : (s.handle.remainingBytes - 1).toNat = s.handle.remainingBytes.toNat - 1 := by bv_omega
  refine ⟨?_, ?_, ?_, ?_⟩
  · intro heq
    simp only [Sys.advance, hstate] at heq
    split at heq <;> cases heq
  · intro heq
    simp only [Sys.advance, hstate] at heq
    split at heq <;> cases heq
  · intro heq
    simp only [Sys.advance, hstate] at heq ⊢
    split at heq
    · cases heq
    next hrest =>
      refine ⟨hrest, ?_⟩
      rw [hdec]
      omega
  · intro a ha
    rcases List.mem_append.mp ha with ha | ha
    · exact h.accesses a ha
    · rw [List.mem_singleton.mp ha]
      exact ⟨show s.handle.transfer.data < s.handle.transfer.dataSize.toNat by omega, hne⟩

lemma advance_state (hstate : s.handle.state = .transferData) :
    s.advance.handle.state = .transferData ∨ s.advance.handle.state = .waitForCompletion := by
  simp only [Sys.advance, hstate]
  split
  · exact Or.inr rfl
  · exact Or.inl rfl

lemma transferDataState_progress (hp : p.stateComplete = false) (h : DataOk s)
    (hstate : s.handle.state = .transferData) : Progress s p (transferDataState e s p) := by
  have hbusy : s.handle.state ≠ .idle := by rw [hstate]; decide
  have hvariant : variant (s, p) = p.txCount + p.rxBytes.length + 3 := by
    simp only [variant, hp, hstate, Bool.false_eq_true, if_false]
  -- the memory and the commands play no role for the data state
  have hstep (s' : Sys) (p' : Params) (hs' : ∃ memory commands, s' = { s with memory := memory, commands := commands })
      (hp' : p'.stateComplete = false) (hcounts : p'.txCount + p'.rxBytes.length < p.txCount + p.rxBytes.length) :
      Progress s p (s'.advance, p') := by
    obtain ⟨memory, commands, rfl⟩ := hs'
    have hdata : DataOk { s with memory := memory, commands := commands } := { h with }
    refine ⟨?_, hdata.advance hstate, rfl, ?_⟩
    · rcases advance_state (s := { s with memory := memory, commands := commands }) hstate with heq | heq
      · rw [heq]; decide
      · rw [heq]; decide
    · rw [hvariant, variant]
      simp only [hp', Bool.false_eq_true, if_false]
      split <;> omega
  unfold transferDataState
  split
  · by_cases hroom : p.txCount = 0
    · rw [if_pos hroom]
      exact Progress.of_complete hp hbusy h rfl rfl
    · rw [if_neg hroom]
      exact hstep _ _ ⟨_, _, rfl⟩ hp (show p.txCount - 1 + p.rxBytes.length < _ by omega)
  · split
    next hrx =>
      split
      · refine ⟨nofun, h.of_noData trivial rfl rfl, rfl, ?_⟩
        rw [hvariant]
        simp only [variant, setState, hp, Bool.false_eq_true, if_false]
        omega
      · exact Progress.of_complete hp hbusy h rfl rfl
    next b rest hrx =>
      have hcounts : p.txCount + rest.length < p.txCount + p.rxBytes.length := by
        rw [hrx, List.length_cons]
        omega
      dsimp only
      split
      · exact hstep _ _ ⟨_, _, rfl⟩ hp hcounts
      · exact hstep _ _ ⟨_, _, rfl⟩ hp hcounts

lemma waitForCompletionState_progress (hp : p.stateComplete = false) (h : DataOk s)
    (hstate : s.handle.state = .waitForCompletion) : Progress s p (waitForCompletionState e s p) := by
  unfold waitForCompletionState
  split
  · refine ⟨nofun, h.of_noData trivial rfl rfl, rfl, ?_⟩
    simp only [variant, setState, hp, hstate, Bool.false_eq_true, if_false]
    omega
  · exact Progress.of_complete hp (by rw [hstate]; decide) h rfl rfl

/-- The controller answers a STOP. -/
lemma emitStop_isSome (state : MasterState) (w : Wait) : ∃ cs, emitStop state w = some cs := by
  obtain ⟨r, hr⟩ := Option.isSome_iff_exists.mp w.waitForCtrlDone_isSome
  unfold emitStop
  split
  · exact ⟨[.stop], by rw [hr]; rfl⟩
  · exact ⟨[], rfl⟩

lemma stopState_progress (hp : p.stateComplete = false) (h : DataOk s) (hstate : s.handle.state = .stop) :
    Progress s p (stopState e s p) := by
  have hbusy : s.handle.state ≠ .idle := by rw [hstate]; decide
  obtain ⟨cs, hcs⟩ := emitStop_isSome e.stopState e.stopWait
  unfold stopState
  dsimp only
  split
  · exact Progress.of_complete hp hbusy h rfl rfl
  · split
    · exact Progress.of_complete hp hbusy { h with } rfl rfl
    · rw [hcs]
      exact Progress.of_complete hp hbusy { h with } rfl rfl

lemma executeState_progress (hp : p.stateComplete = false) (h : DataOk s) (hbusy : s.handle.state ≠ .idle) :
    Progress s p (executeState e s p) := by
  unfold executeState
  split
  next => exact Progress.of_complete hp nofun (h.of_noData trivial rfl rfl) rfl rfl
  next hstate => exact ibiWonState_progress hp h hstate
  next hstate => exact sendCommandState_progress hp h hstate
  next hstate => exact waitRepeatedStartCompleteState_progress hp h hstate
  next hstate => exact transferDataState_progress hp h hstate
  next hstate => exact waitForCompletionState_progress hp h hstate
  next hstate => exact stopState_progress hp h hstate
  next hstate => exact absurd hstate hbusy

end States

/-- More rounds than any interrupt needs. -/
def enough (e : Irq) : Nat :=
  e.txRoom + e.rxBytes.length + 4

/-- What the state machine keeps; a handle that it leaves idle was idle before. -/
structure Kept (s s' : Sys) : Prop where
  data : DataOk s'
  frame : books s' = books s
  busy : s.handle.state ≠ .idle → s'.handle.state ≠ .idle

lemma machine_terminates (e : Irq) {s : Sys} {p : Params} (hp : p.stateComplete = false) (h : DataOk s)
    (hbusy : s.handle.state ≠ .idle) (hcounts : p.txCount + p.rxBytes.length = e.txRoom + e.rxBytes.length) :
    ∃ x, (∀ fuel, enough e ≤ fuel → loop (machineRound e) fuel (s, p) = some x) ∧
      x.1.handle.state ≠ .idle ∧ DataOk x.1 ∧ books x.1 = books s := by
  let I : Sys × Params → Prop := fun x => x.1.handle.state ≠ .idle ∧ DataOk x.1 ∧ books x.1 = books s
  have hnext (x x' : Sys × Params) (hI : I x) (hround : machineRound e x = .inl x') :
      I x' ∧ variant x' < variant x := by
    obtain ⟨s₁, p₁⟩ := x
    obtain ⟨hb, hd, hk⟩ := hI
    unfold machineRound at hround
    split at hround
    · cases hround
    next hgo =>
      obtain rfl := Sum.inl.inj hround
      have hprogress := executeState_progress (e := e) (Bool.eq_false_iff.mpr hgo) hd hb
      exact ⟨⟨hprogress.busy, hprogress.data, hprogress.frame.trans hk⟩, hprogress.less⟩
  have hleave (x x' : Sys × Params) (hI : I x) (hround : machineRound e x = .inr x') : I x' := by
    unfold machineRound at hround
    split at hround
    · obtain rfl := Sum.inr.inj hround
      exact hI
    · cases hround
  obtain ⟨x, hx, hI⟩ := loop_terminates variant hnext hleave (show I (s, p) from ⟨hbusy, h, rfl⟩)
  refine ⟨x, ?_, hI⟩
  intro fuel hfuel
  apply hx fuel
  have hle : variant (s, p) ≤ p.txCount + p.rxBytes.length + 3 := by
    rw [variant]
    simp only [hp, Bool.false_eq_true, if_false]
    split <;> omega
  rw [enough] at hfuel
  omega

lemma takeIbi_kept (e : Irq) {s : Sys} (h : DataOk s) : Kept s (takeIbi e s) := by
  have hset {s' : Sys} (h' : Kept s s') {state : TransferState} (hno : NoData state) (hne : state ≠ .idle) :
      Kept s (s'.setState state) :=
    ⟨h'.data.of_noData hno rfl rfl, h'.frame, fun _ => hne⟩
  have hfirst : Kept s
      (if e.slaveStart ∧ s.handle.transfer.busType ≠ .i2c then s.setState .slaveStart else s) := by
    split
    · exact hset ⟨h, rfl, id⟩ trivial nofun
    · exact ⟨h, rfl, id⟩
  unfold takeIbi
  dsimp only
  by_cases hibi : e.masterState = .ibiRcv ∨ e.masterState = .ibiAck
  · rw [if_pos hibi]
    exact hset hfirst trivial nofun
  · rw [if_neg hibi]
    exact hfirst

lemma runTransferStateMachine_terminates (e : Irq) {s : Sys} (h : DataOk s) :
    ∃ s' result isDone, (∀ fuel, enough e ≤ fuel →
      runTransferStateMachine fuel e s = some (s', result, isDone)) ∧ Kept s s' := by
  unfold runTransferStateMachine
  dsimp only
  by_cases herror : checkAndClearError e.errors ≠ .success
  · simp only [if_pos herror]
    exact ⟨s, _, _, fun _ _ => rfl, h, rfl, id⟩
  · simp only [if_neg herror]
    have hkept := takeIbi_kept e h
    by_cases hidle : (takeIbi e s).handle.state = .idle
    · simp only [if_pos hidle]
      exact ⟨_, _, _, fun _ _ => rfl, hkept⟩
    · simp only [if_neg hidle]
      obtain ⟨x, hx, hbusy, hdata, hframe⟩ :=
        machine_terminates e (p := ⟨false, e.txRoom, e.rxBytes, checkAndClearError e.errors, false⟩) rfl
          hkept.data hidle rfl
      refine ⟨x.1, x.2.result, x.2.isDone, ?_, hdata, hframe.trans hkept.frame, fun _ => hbusy⟩
      intro fuel hfuel
      rw [hx fuel hfuel]
      rfl

/-- The handler returns: it leaves what the state machine leaves, or ends the transfer after it. -/
lemma handleIRQ_returns {s : Sys} (h : DataOk s) (e : Irq) :
    ∃ s₁ result isDone s', (∀ fuel, enough e ≤ fuel → runTransferStateMachine fuel e s = some (s₁, result, isDone)) ∧
      Kept s s₁ ∧ (∀ fuel, enough e ≤ fuel → handleIRQ fuel e s = some s') ∧
      (s' = markIbi s s₁ ∨ (markIbi s s₁).handle.state ≠ .idle ∧ ∃ cs, s' = ((markIbi s s₁).tell cs).finish result) := by
  obtain ⟨s₁, result, isDone, hrun, hkept⟩ := runTransferStateMachine_terminates e h
  have hstep (fuel : Nat) (hfuel : enough e ≤ fuel) : handleIRQ fuel e s =
      if (markIbi s s₁).handle.state = .idle then some (markIbi s s₁)
      else if isDone ∨ result ≠ .success then
        (if result = .nak ∨ result = .ibiWon then emitStop e.endState e.endWait else some []).map
          fun cs => ((markIbi s s₁).tell cs).finish result
      else some (markIbi s s₁) := by
    rw [handleIRQ, hrun fuel hfuel]
    rfl
  by_cases hidle : (markIbi s s₁).handle.state = .idle
  · exact ⟨s₁, result, isDone, _, hrun, hkept, fun fuel hfuel => by rw [hstep fuel hfuel, if_pos hidle], .inl rfl⟩
  · by_cases hdone : isDone ∨ result ≠ .success
    · obtain ⟨cs, hcs⟩ : ∃ cs, (if result = .nak ∨ result = .ibiWon then emitStop e.endState e.endWait
          else some []) = some cs := by
        split
        · exact emitStop_isSome _ _
        · exact ⟨[], rfl⟩
      refine ⟨s₁, result, isDone, ((markIbi s s₁).tell cs).finish result, hrun, hkept, ?_, .inr ⟨hidle, cs, rfl⟩⟩
      intro fuel hfuel
      rw [hstep fuel hfuel, if_neg hidle, if_pos hdone, hcs]
      rfl
    · refine ⟨s₁, result, isDone, _, hrun, hkept, ?_, .inl rfl⟩
      intro fuel hfuel
      rw [hstep fuel hfuel, if_neg hidle, if_neg hdone]

/-- An interrupt that finds the handle idle after a transfer finds no slave start and no IBI, or it finds an error. -/
def Calm (s : Sys) (e : Irq) : Prop :=
  s.accepted ≠ 0 → s.handle.state = .idle → checkAndClearError e.errors = .success →
    ¬ (e.slaveStart ∧ s.handle.transfer.busType ≠ .i2c) ∧ e.masterState ≠ .ibiRcv ∧ e.masterState ≠ .ibiAck

/-- A calm interrupt leaves an idle handle idle. -/
lemma Calm.runTransferStateMachine {s : Sys} {e : Irq} (h : Calm s e) (haccepted : s.accepted ≠ 0)
    (hidle : s.handle.state = .idle) (fuel : Nat) :
    runTransferStateMachine fuel e s = some (s, checkAndClearError e.errors, false) := by
  unfold Sys.runTransferStateMachine
  dsimp only
  by_cases herror : checkAndClearError e.errors = .success
  · obtain ⟨hstart, hreceive, hack⟩ := h haccepted hidle herror
    have htake : takeIbi e s = s := by
      rw [takeIbi, if_neg hstart, if_neg (not_or.mpr ⟨hreceive, hack⟩)]
    rw [if_neg (not_not.mpr herror), htake, if_pos hidle]
  · rw [if_pos herror]

/-- The invariant of the runs. -/
structure Inv (s : Sys) : Prop where
  data : DataOk s
  started : s.misreported = false
  answers_le : s.answers ≤ 1
  calm : s.accepted ≠ 0 → s.idleIbis = 0
  reports_le : s.ibiReports ≤ s.idleIbis
  owned : s.ibiOwned = true → s.handle.state ≠ .idle ∧ s.ibiReports < s.idleIbis
  unanswered : s.ibiOwned = false → s.handle.state ≠ .idle → s.answers = 0
  answered : s.handle.transferComplete = true → s.accepted ≠ 0 →
    s.handle.state = .idle ∨ s.ibiOwned = true → s.answers = 1

lemma Inv.markIbi {s s' : Sys} (h : Inv s) (hkept : Kept s s')
    (hcalm : s.accepted ≠ 0 → s.handle.state = .idle → s'.handle.state = .idle) : Inv (markIbi s s') := by
  obtain ⟨hcomplete, haccepted, hmisreported, howned, hanswers, hreports, hibis⟩ := books_eq_iff.mp hkept.frame
  have hle := h.reports_le
  unfold Sys.markIbi
  by_cases hmark : s.handle.state = .idle ∧ s'.handle.state ≠ .idle
  · rw [if_pos hmark]
    exact {
      data := { hkept.data with }
      started := hmisreported.trans h.started
      answers_le := hanswers ▸ h.answers_le
      calm := fun ha => absurd (hcalm (haccepted ▸ ha) hmark.1) hmark.2
      reports_le := by dsimp only; omega
      owned := fun _ => ⟨hmark.2, by dsimp only; omega⟩
      unanswered := nofun
      answered := fun hc ha _ => hanswers.trans
        (h.answered (hcomplete ▸ hc) (haccepted ▸ ha) (Or.inl hmark.1)) }
  · rw [if_neg hmark]
    have hidle (hi : s'.handle.state = .idle) : s.handle.state = .idle := by
      by_contra hne
      exact hkept.busy hne hi
    have hbusy (hne : s'.handle.state ≠ .idle) : s.handle.state ≠ .idle := fun hi => hmark ⟨hi, hne⟩
    exact {
      data := hkept.data
      started := hmisreported.trans h.started
      answers_le := hanswers ▸ h.answers_le
      calm := fun ha => hibis.trans (h.calm (haccepted ▸ ha))
      reports_le := by omega
      owned := fun ho => ⟨hkept.busy (h.owned (howned ▸ ho)).1, by
        have hlt := (h.owned (howned ▸ ho)).2
        omega⟩
      unanswered := fun ho hne => hanswers.trans (h.unanswered (howned ▸ ho) (hbusy hne))
      answered := fun hc ha hor => hanswers.trans
        (h.answered (hcomplete ▸ hc) (haccepted ▸ ha) (hor.imp hidle (howned ▸ ·))) }

lemma Inv.tell {s : Sys} (h : Inv s) (cs : List Command) : Inv (s.tell cs) :=
  { h with data := { h.data with } }

lemma Inv.of_idle {s : Sys} (hidle : s.handle.state = .idle) (hdata : DataOk s) (hstarted : s.misreported = false)
    (howned : s.ibiOwned = false) (hanswers : s.answers ≤ 1) (hcalm : s.accepted ≠ 0 → s.idleIbis = 0)
    (hreports : s.ibiReports ≤ s.idleIbis)
    (hanswered : s.handle.transferComplete = true → s.accepted ≠ 0 → s.answers = 1) : Inv s where
  data := hdata
  started := hstarted
  answers_le := hanswers
  calm := hcalm
  reports_le := hreports
  owned := fun ho => absurd (howned.symm.trans ho) Bool.false_ne_true
  unanswered := fun _ hne => absurd hidle hne
  answered := fun hc ha _ => hanswered hc ha

/-- What the books say before the callback gives the invariant after it. -/
lemma Inv.report {s s' : Sys} (h : Inv s) (hbusy : s.handle.state ≠ .idle) (hidle : s'.handle.state = .idle)
    (hdata : DataOk s') (hbooks : books s' = books s) : Inv s'.report := by
  obtain ⟨hcomplete, haccepted, hmisreported, howned, hanswers, hreports, hibis⟩ := books_eq_iff.mp hbooks
  have hanswersle := h.answers_le
  have hreportsle := h.reports_le
  have hstarted : s'.misreported = false := hmisreported.trans h.started
  have hcalm : s'.accepted ≠ 0 → s'.idleIbis = 0 := fun ha => hibis.trans (h.calm (haccepted ▸ ha))
  unfold Sys.report
  dsimp only
  cases hc : s'.handle.transferComplete with
  | false =>
    rw [if_neg Bool.false_ne_true]
    refine Inv.of_idle hidle { hdata with } hstarted rfl ?_ hcalm ?_ ?_
    · dsimp only
      omega
    · dsimp only
      omega
    · exact fun htrue => absurd (hc.symm.trans htrue) Bool.false_ne_true
  | true =>
    rw [if_pos rfl]
    cases ho : s'.ibiOwned with
    | true =>
      -- the callback of an IBI leaves the answer of the transfer as it was
      rw [if_pos rfl]
      have hlt := (h.owned (howned ▸ ho)).2
      refine Inv.of_idle hidle { hdata with } hstarted rfl ?_ hcalm ?_ ?_
      · dsimp only
        omega
      · dsimp only
        omega
      · intro _ ha
        exact hanswers.trans (h.answered (hcomplete ▸ hc) (haccepted ▸ ha) (Or.inr (howned ▸ ho)))
    | false =>
      rw [if_neg Bool.false_ne_true]
      have hzero : s'.answers = 0 := hanswers.trans (h.unanswered (howned ▸ ho) hbusy)
      refine Inv.of_idle hidle { hdata with } hstarted rfl ?_ hcalm ?_ ?_
      · dsimp only
        omega
      · dsimp only
        omega
      · intro _ _
        dsimp only
        omega

lemma Inv.finish {s : Sys} (h : Inv s) (hbusy : s.handle.state ≠ .idle) (result : Status) :
    Inv (s.finish result) := by
  have hdata : DataOk (s.setState .idle) := h.data.of_noData trivial rfl rfl
  unfold Sys.finish
  dsimp only
  split
  · exact h.report hbusy rfl (hdata.of_noData trivial rfl rfl) rfl
  · exact h.report hbusy rfl hdata rfl

lemma Inv.handleIRQ {s : Sys} (h : Inv s) {e : Irq} (hcalm : Calm s e) :
    ∃ s', (∀ fuel, enough e ≤ fuel → handleIRQ fuel e s = some s') ∧ Inv s' := by
  obtain ⟨s₁, result, isDone, s', hrun, hkept, hs', hend⟩ := handleIRQ_returns h.data e
  have hmark : Inv (Sys.markIbi s s₁) := by
    apply h.markIbi hkept
    intro ha hidle
    have hsame := (hcalm.runTransferStateMachine ha hidle (enough e)).symm.trans (hrun _ (le_refl _))
    obtain rfl := (Prod.mk.inj (Option.some.inj hsame)).1
    exact hidle
  refine ⟨s', hs', ?_⟩
  rcases hend with rfl | ⟨hbusy, cs, rfl⟩
  · exact hmark
  · exact (hmark.tell cs).finish hbusy result

/-- A call that starts what it accepts, and has data where it enters the data state. -/
structure Admitted (c : CallEnv) (t : Transfer) : Prop where
  broadcast : t.flags.startWithBroadcastAddr = true → t.flags.noStart = false ∧ t.flags.repeatedStart = false ∧
    busAvailable t.busType c.broadcastState = true ∧
    waitForCtrlDone c.broadcastWait.polls = some .success
  start : t.flags.noStart = false → t.flags.repeatedStart = false → busAvailable t.busType c.startState = true
  noStart : t.flags.noStart = true → t.subaddressSize = 0 → t.direction = .write ∧ t.dataSize ≠ 0
  ddr : t.busType = .i3cDdr → t.subaddressSize ≠ 0 → t.dataSize ≠ 0

/-- The saved transfer on its way to the first state. -/
def launched (t : Transfer) (memory : Nat → BitVec 8) (s : Sys) (cs : List Command) (state : TransferState) : Sys :=
  ((save t memory s).tell cs).setState state

lemma Inv.of_started {s : Sys} (h : Inv s) (hidle : s.handle.state = .idle) {t : Transfer}
    {memory : Nat → BitVec 8} {cs : List Command} {state : TransferState} (hne : state ≠ .idle)
    (hcommand : state = .sendCommand → t.busType = .i3cDdr → t.dataSize ≠ 0)
    (hrepeated : state ≠ .waitRepeatedStartComplete) (hdata : state = .transferData → t.dataSize ≠ 0) :
    Inv (launched t memory s cs state) := by
  have hnot : s.ibiOwned = false := by
    by_contra hnot
    exact (h.owned (Bool.eq_true_of_not_eq_false hnot)).1 hidle
  exact {
    data := {
      command := fun heq => ⟨rfl, rfl, hcommand heq⟩
      repeated := fun heq => absurd heq hrepeated
      transferring := fun heq => ⟨hdata heq, Nat.zero_add _⟩
      accesses := fun _ ha => absurd ha List.not_mem_nil }
    started := h.started
    answers_le := Nat.zero_le 1
    calm := fun _ => rfl
    reports_le := le_refl 0
    owned := fun ho => absurd (hnot.symm.trans ho) Bool.false_ne_true
    unanswered := fun _ _ => rfl
    answered := fun _ _ hor => by
      rcases hor with hi | ho
      · exact absurd hi hne
      · exact absurd (hnot.symm.trans ho) Bool.false_ne_true }

section Calls

variable {c : CallEnv} {t : Transfer} {s : Sys}

lemma firstState_launched (memory : Nat → BitVec 8) (hadmitted : Admitted c t) (h : Inv s) (hidle : s.handle.state = .idle)
    (cs : List Command) : Inv (launched t memory s cs (firstState t)) := by
  unfold firstState
  split
  next hsub => exact h.of_started hidle nofun (fun _ hddr => hadmitted.ddr hddr (by omega)) nofun nofun
  next =>
    split
    next hsize => exact h.of_started hidle nofun nofun nofun (fun _ => hsize)
    next => exact h.of_started hidle nofun nofun nofun nofun

lemma startTransfer_inv (memory : Nat → BitVec 8) (hadmitted : Admitted c t) (h : Inv s) (hidle : s.handle.state = .idle)
    (cs : List Command) : ∃ s', (∀ fuel, enough c.irq ≤ fuel →
      startTransfer fuel c ((save t memory s).tell cs) = some (s', .success)) ∧ Inv s' := by
  have htransfer : ((save t memory s).tell cs).handle.transfer = { t with data := 0 } := rfl
  unfold startTransfer
  dsimp only
  rw [htransfer]
  cases hno : t.flags.noStart with
  | true =>
    simp only [if_true]
    by_cases hsub : t.subaddressSize > 0
    · simp only [if_pos hsub]
      have hinv : Inv (launched t memory s cs .sendCommand) :=
        h.of_started hidle nofun (fun _ hddr => hadmitted.ddr hddr (by omega)) nofun nofun
      obtain ⟨s', hs', hinv'⟩ := hinv.handleIRQ (e := c.irq) fun _ => nofun
      exact ⟨s', fun fuel hfuel => by rw [← launched, hs' fuel hfuel]; rfl, hinv'⟩
    · have hzero : t.subaddressSize = 0 := by omega
      obtain ⟨hwrite, hsize⟩ := hadmitted.noStart hno hzero
      have hdirection : startDirection { t with data := 0 } = .write := by
        simp only [startDirection, hzero, hwrite, ne_eq, not_true_eq_false, ite_self]
      simp only [if_neg hsub, if_pos hdirection]
      have hinv : Inv (launched t memory s cs .transferData) :=
        h.of_started hidle nofun nofun nofun (fun _ => hsize)
      obtain ⟨s', hs', hinv'⟩ := hinv.handleIRQ (e := c.irq) fun _ => nofun
      exact ⟨s', fun fuel hfuel => by rw [← launched, hs' fuel hfuel]; rfl, hinv'⟩
  | false =>
    simp only [Bool.false_eq_true, if_false]
    have hinv (cs' : List Command) : Inv ((((save t memory s).tell cs).tell cs').setState (firstState t)) := by
      have hstarted := firstState_launched memory hadmitted h hidle (cs ++ cs')
      rw [launched, Sys.tell] at hstarted
      rw [Sys.tell, Sys.tell, List.append_assoc]
      exact hstarted
    by_cases hrep : t.flags.repeatedStart = true
    · simp only [if_pos hrep]
      exact ⟨_, fun _ _ => rfl, hinv _⟩
    · have hbus := hadmitted.start hno (Bool.eq_false_iff.mpr hrep)
      simp only [if_neg hrep, hbus, if_true]
      exact ⟨_, fun _ _ => rfl, hinv _⟩

lemma initTransferStateMachine_inv (memory : Nat → BitVec 8) (hadmitted : Admitted c t) (h : Inv s) (hidle : s.handle.state = .idle) :
    ∃ s', (∀ fuel, enough c.irq ≤ fuel →
      initTransferStateMachine fuel c (save t memory s) = some (s', .success)) ∧ Inv s' := by
  obtain ⟨cs, hbroadcast⟩ : ∃ cs, startBroadcast c (save t memory s) =
      some ((save t memory s).tell cs, .success) := by
    have htransfer : (save t memory s).handle.transfer = { t with data := 0 } := rfl
    unfold startBroadcast
    dsimp only
    rw [htransfer]
    cases hflag : t.flags.startWithBroadcastAddr with
    | false =>
      refine ⟨[], ?_⟩
      simp only [Bool.false_eq_true, if_false, Sys.tell, List.append_nil]
    | true =>
      obtain ⟨hno, hrep, hbus, hwait⟩ := hadmitted.broadcast hflag
      refine ⟨[.start t.busType 0x7E .write 0], ?_⟩
      simp only [hno, hrep, hbus, hwait, if_true, Bool.false_eq_true, Bool.true_eq_false, if_false]
      rfl
  obtain ⟨s', hs', hinv⟩ := startTransfer_inv memory hadmitted h hidle cs
  refine ⟨s', ?_, hinv⟩
  intro fuel hfuel
  rw [initTransferStateMachine, hbroadcast]
  exact hs' fuel hfuel

/-- An accepted call reports a start that was made. -/
lemma masterTransferNonBlocking_inv (memory : Nat → BitVec 8) (h : Inv s)
    (hadmitted : s.handle.state = .idle → busAvailable t.busType c.masterState = true → Admitted c t) :
    ∃ s' r, (∀ fuel, enough c.irq ≤ fuel →
      masterTransferNonBlocking fuel c t memory s = some (s', r)) ∧ Inv s' := by
  by_cases hidle : s.handle.state = .idle
  · cases hbus : busAvailable t.busType c.masterState with
    | false =>
      refine ⟨s, .busy, ?_, h⟩
      intro fuel _
      rw [masterTransferNonBlocking, if_neg (not_not.mpr hidle), if_pos hbus]
    | true =>
      obtain ⟨s', hs', hinv⟩ := initTransferStateMachine_inv memory (hadmitted hidle hbus) h hidle
      refine ⟨{ s' with misreported := s'.misreported || false }, .success, ?_, ?_⟩
      · intro fuel hfuel
        rw [masterTransferNonBlocking, if_neg (not_not.mpr hidle),
          if_neg (by rw [hbus]; exact Bool.true_eq_false_eq_False), hs' fuel hfuel]
        rfl
      · exact { hinv with
          data := { hinv.data with }
          started := (Bool.or_false s'.misreported).trans hinv.started }
  · exact ⟨s, .busy, fun fuel _ => by rw [masterTransferNonBlocking, if_pos hidle], h⟩

end Calls

inductive Event
  | call (c : CallEnv) (t : Transfer) (memory : Nat → BitVec 8)
  | irq (e : Irq)

/-- A call of `I3C_MasterTransferNonBlocking`, or an interrupt. -/
def step (s : Sys) : Event → Sys
  | .call c t memory => ((masterTransferNonBlocking (enough c.irq) c t memory s).map Prod.fst).getD s
  | .irq e => (handleIRQ (enough e) e s).getD s

/-- The handle as `I3C_MasterTransferCreateHandle` leaves it. -/
def created (ibiCallback transferComplete : Bool) (memory : Nat → BitVec 8) : Sys where
  handle := {
    state := .idle
    remainingBytes := 0
    rxTermOps := .disable
    transfer := ⟨⟨false, false, false, false, false⟩, 0, .write, 0, 0, 0, 0, .i3cSdr⟩
    ibiBuff := false
    ibiPayload := []
    ibiType := 0
    ibiAddress := 0
    ibiCallback := ibiCallback
    transferComplete := transferComplete }
  memory := memory
  commands := []
  accepted := 0
  misreported := false
  ibiOwned := false
  answers := 0
  ibiReports := 0
  idleIbis := 0
  accesses := []

/-- A call that gets past the two checks for a busy handle and a busy bus is admitted, and the interrupts are calm. -/
def Admits (s : Sys) : Event → Prop
  | .call c t _ => s.handle.state = .idle → busAvailable t.busType c.masterState = true → Admitted c t
  | .irq e => Calm s e

/-- The transfer is bounded and answered once. -/
structure AnsweredOnce (s : Sys) : Prop where
  /-- Every access is inside the buffer, and finds remaining bytes. -/
  accesses : ∀ a ∈ s.accesses, a.1 < s.handle.transfer.dataSize.toNat ∧ a.2 ≠ 0
  terminates : ∀ e, ∃ r, ∀ fuel, enough e ≤ fuel → runTransferStateMachine fuel e s = some r
  returns : ∀ e, ∃ s', ∀ fuel, enough e ≤ fuel → handleIRQ fuel e s = some s'
  started : s.misreported = false
  /-- Since the last call that was accepted there is at most one callback, for whatever reason. -/
  callbacks_le : s.accepted ≠ 0 → s.answers + s.ibiReports ≤ 1
  busy : s.handle.transferComplete = true → s.accepted ≠ 0 → s.answers + s.ibiReports = 0 → s.handle.state ≠ .idle

lemma Inv.answeredOnce {s : Sys} (h : Inv s) : AnsweredOnce s where
  accesses := h.data.accesses
  terminates := fun e => by
    obtain ⟨s', result, isDone, hrun, -⟩ := runTransferStateMachine_terminates e h.data
    exact ⟨_, hrun⟩
  returns := fun e => by
    obtain ⟨_, _, _, s', _, _, hs', _⟩ := handleIRQ_returns h.data e
    exact ⟨s', hs'⟩
  started := h.started
  callbacks_le := fun ha => by
    have hanswers := h.answers_le
    have hreports := h.reports_le
    have hibis := h.calm ha
    omega
  busy := fun hc ha hzero hidle => by
    have hone := h.answered hc ha (Or.inl hidle)
    omega

lemma Inv.created (ibiCallback transferComplete : Bool) (memory : Nat → BitVec 8) :
    Inv (created ibiCallback transferComplete memory) where
  data := ⟨nofun, nofun, nofun, fun _ ha => absurd ha List.not_mem_nil⟩
  started := rfl
  answers_le := Nat.zero_le 1
  calm := fun _ => rfl
  reports_le := le_refl 0
  owned := nofun
  unanswered := fun _ hne => absurd rfl hne
  answered := fun _ ha => absurd rfl ha

lemma Inv.step {s : Sys} {event : Event} (h : Inv s) (hadmits : Admits s event) : Inv (step s event) := by
  cases event with
  | call c t memory =>
    obtain ⟨s', r, hs', hinv⟩ := masterTransferNonBlocking_inv memory h hadmits
    rw [NonBlocking.step, hs' _ (le_refl _)]
    exact hinv
  | irq e =>
    obtain ⟨s', hs', hinv⟩ := h.handleIRQ hadmits
    rw [NonBlocking.step, hs' _ (le_refl _)]
    exact hinv

/-- In every run of admitted calls, with calm interrupts between them, the transfers are answered once. -/
theorem transfers_answered_once (ibiCallback transferComplete : Bool) (memory : Nat → BitVec 8)
    (events : List Event) (hrun : EachStep step Admits (created ibiCallback transferComplete memory) events) :
    AnsweredOnce (events.foldl step (created ibiCallback transferComplete memory)) :=
  (EachStep.invariant (I := Inv) (fun _ _ h hadmits => h.step hadmits) events hrun
    (Inv.created ibiCallback transferComplete memory)).answeredOnce

/-- An interrupt without errors that finds room for `txRoom` bytes. -/
def plainIrq (complete : Bool) (txRoom : Nat) : Irq where
  slaveStart := false
  complete := complete
  masterState := .normAct
  errors := noErrors
  rxBytes := []
  txRoom := txRoom
  ibiType := 0
  ibiAddress := 0
  ibiBuffGiven := false
  stopState := .normAct
  stopWait := doneAtOnce
  endState := .normAct
  endWait := doneAtOnce

/-- A call on an idle bus. -/
def plainCall : CallEnv :=
  ⟨.idle, .idle, doneAtOnce, .idle, plainIrq false 4⟩

/-- A transfer to address 8 without a subaddress. -/
def plainTransfer (noStart : Bool) (direction : Direction) (dataSize : BitVec 32) : Transfer :=
  ⟨⟨noStart, false, false, false, false⟩, 8, direction, 0, 0, 0, dataSize, .i3cSdr⟩

/-- A write of three bytes, with room for two of them at the first interrupt. -/
theorem transfers_answered_once_three :
    let s := [.call plainCall (plainTransfer false .write 3) (fun i => BitVec.ofNat 8 i), .irq (plainIrq false 2),
      .irq (plainIrq true 4)].foldl step (created false true fun _ => 0)
    AnsweredOnce s ∧ s.accesses = [(0, 3), (1, 2), (2, 1)] ∧ s.answers = 1 :=
  ⟨transfers_answered_once false true _ _ ⟨fun _ _ => ⟨nofun, fun _ _ => rfl, nofun, nofun⟩,
      fun _ => nofun, fun _ => nofun, trivial⟩, by decide, by decide⟩

/-- A read without a start is refused but reported as accepted, and leaves the handle idle without an
answer. A write without a start and without data sends a byte outside its buffer, and its count wraps. An IBI after an
answered write calls the callback again. -/
theorem transfers_not_answered_once :
    ¬ AnsweredOnce ([.call plainCall (plainTransfer true .read 1) fun _ => 0].foldl step
        (created false true fun _ => 0)) ∧
      ¬ AnsweredOnce ([.call plainCall (plainTransfer true .write 0) fun _ => 0].foldl step
        (created false true fun _ => 0)) ∧
      ¬ AnsweredOnce ([.call plainCall (plainTransfer false .write 1) fun _ => 0, .irq (plainIrq true 4),
        .irq { plainIrq true 4 with masterState := .ibiRcv }].foldl step (created false true fun _ => 0)) := by
  refine ⟨?_, ?_, ?_⟩
  · intro h
    exact h.busy (by decide) (by decide) (by decide) (by decide)
  · intro h
    exact absurd (h.accesses (0, 0) (by decide)).2 (by decide)
  · intro h
    exact absurd (h.callbacks_le (by decide)) (by decide)

end McuxDrivers.I3c.NonBlocking
