import McuxDrivers.Smartcard.Phases
import McuxDrivers.Lib.Runs

/-!
# Smart card transfers complete once

The calls and the hardware keep the invariant of the phases, but for a start that is accepted while the
last byte is still in the shift register. A transmission that nothing disturbs ends, and so does a
reception when enough bytes arrive.
-/

namespace McuxDrivers.Smartcard
open McuxDrivers.Lib Sys

variable {txFifoEntryCount rxFifoThreshold : Nat}

section Steps

variable {s : Sys}

/-- A start that has bytes, and does not fall between the last byte's way into the shift register and
the end interrupt. -/
def StartAllowed (s : Sys) (data : List Byte) : Prop :=
  data.length ≠ 0 ∧ ¬ (s.xIsBusy = true ∧ s.direction = .transmit ∧ s.xSize = 0 ∧ s.txFifo = [])

/-- What the steps of a run meet: nothing is asked of an abort, of a control call and of the hardware. -/
def Allowed (s : Sys) : Event → Prop
  | .transfer _ data => StartAllowed s data
  | .irq => IrqAllowed s
  | _ => True

lemma resting_of_none_left {direction : Direction} {data : List Byte}
    (h : Inv txFifoEntryCount rxFifoThreshold (core s)) (hallowed : Allowed s (.transfer direction data))
    (hnone : s.getTransferRemainingBytes = 0) : Resting (core s) := by
  obtain ⟨hsound, hsend | hreceive | hrest⟩ := h
  · exfalso
    have hbusy : s.xIsBusy = true := hsound.busy.trans hsend.inProgress
    have hdirection : s.direction = .transmit := hsend.direction
    rw [getTransferRemainingBytes, if_pos hbusy, if_pos hdirection, Nat.add_eq_zero_iff] at hnone
    exact hallowed.2 ⟨hbusy, hdirection, hnone.1, List.length_eq_zero_iff.mp hnone.2⟩
  · exfalso
    have hbusy : s.xIsBusy = true := hsound.busy.trans hreceive.inProgress
    have hdirection : s.direction = .receive := hreceive.direction
    have hmore : 0 < s.xSize := hreceive.more
    rw [getTransferRemainingBytes, if_pos hbusy, if_neg (by rw [hdirection]; decide)] at hnone
    omega
  · exact hrest

lemma transferNonBlocking_inv {direction : Direction} {data : List Byte}
    (h : Inv txFifoEntryCount rxFifoThreshold (core s)) (hallowed : Allowed s (.transfer direction data)) :
    Inv txFifoEntryCount rxFifoThreshold (core (s.transferNonBlocking rxFifoThreshold direction data).1) := by
  have hdata : data.length ≠ 0 := hallowed.1
  unfold transferNonBlocking
  rw [if_neg hdata]
  by_cases hleft : s.getTransferRemainingBytes ≠ 0
  · rw [if_pos hleft]
    split <;> exact h
  · rw [if_neg hleft]
    have hrest := resting_of_none_left h hallowed (not_not.mp hleft)
    have hsound := h.1
    have haccounted : s.starts = s.answers := by
      have haccounted := hsound.accounted
      rwa [hrest.inProgress, if_neg Bool.false_ne_true, Nat.add_zero] at haccounted
    have hstarts : s.starts + 1 = s.answers + 1 := by rw [haccounted]
    have hpos : 0 < data.length := Nat.pos_of_ne_zero hdata
    cases direction with
    | receive =>
      have hrdt : (if data.length < rxFifoThreshold then data.length else rxFifoThreshold) ≤ data.length ∧
          (if data.length < rxFifoThreshold then data.length else rxFifoThreshold) ≤ rxFifoThreshold := by
        split <;> omega
      refine ⟨?_, Or.inr (Or.inl ?_)⟩
      · exact {
          accounted := hstarts
          busy := rfl
          notStray := hsound.notStray
          notPremature := hsound.notPremature
          room := hsound.room
          level := hsound.level
          threshold := hrdt.2 }
      · exact {
          inProgress := rfl
          direction := rfl
          size := Nat.zero_add _
          more := hpos
          conserved := rfl
          unmasked := rfl
          level := hrdt.1
          masked := hrest.masked }
    | transmit =>
      refine ⟨?_, Or.inl ?_⟩
      · exact {
          accounted := hstarts
          busy := rfl
          notStray := hsound.notStray
          notPremature := hsound.notPremature
          room := Nat.zero_le _
          level := lt_of_le_of_lt (Nat.zero_le _) hsound.level
          threshold := hsound.threshold }
      · exact {
          inProgress := rfl
          direction := rfl
          size := Nat.zero_add _
          conserved := rfl
          phase := Or.inl ⟨hpos, rfl, hrest.masked.2⟩ }

lemma abortTransfer_resting (h : Inv txFifoEntryCount rxFifoThreshold (core s)) :
    Sound txFifoEntryCount rxFifoThreshold (core s.abortTransfer.1) ∧ Resting (core s.abortTransfer.1) := by
  obtain ⟨hsound, hmode⟩ : Inv txFifoEntryCount rxFifoThreshold (core s.noteAbort) := h
  unfold abortTransfer
  split
  next hidle =>
    have hprogress : s.inProgress = false := hsound.busy.symm.trans hidle
    rcases hmode with hsend | hreceive | hrest
    · exact absurd (hsend.inProgress.symm.trans hprogress) (by decide)
    · exact absurd (hreceive.inProgress.symm.trans hprogress) (by decide)
    · exact ⟨hsound, hrest⟩
  next hbusy =>
    cases hdirection : s.direction with
    | receive =>
      rcases hmode with hsend | hreceive | hrest
      · exact absurd (hsend.direction.symm.trans hdirection) (by decide)
      · have hended := completeReceiveData_ended .aborted hsound hreceive.taking
        exact ⟨hended.1, hended.2.1⟩
      · exact absurd (hsound.busy.trans hrest.inProgress) hbusy
    | transmit => exact completeSendData_inv .aborted ⟨hsound, hmode⟩ (fun _ => Or.inl rfl)

/-- A control call may change the transmitter's enable bit and threshold, lower the receive threshold
to one byte and unmask its interrupt. -/
lemma control_core (hcount : 0 < txFifoEntryCount) (c : Control) (param : Nat) (s : Sys) :
    ∃ rdtMask xmtEn tdt rdt, core (s.control txFifoEntryCount c param) =
        { core s with rdtMask := rdtMask, xmtEn := xmtEn, tdt := tdt, rdt := rdt } ∧
      (rdtMask = s.intMask.rdt ∨ rdtMask = false) ∧ (tdt = s.tdt ∨ tdt < txFifoEntryCount) ∧
      (rdt = s.rdt ∨ rdt = 1) := by
  have hlevel : txFifoEntryCount - 1 < txFifoEntryCount := by omega
  cases c with
  | setupATRMode => exact ⟨_, _, _, _, rfl, Or.inl rfl, Or.inr hlevel, Or.inr rfl⟩
  | setupT0Mode => exact ⟨_, _, _, _, rfl, Or.inl rfl, Or.inr hlevel, Or.inr rfl⟩
  | setupT1Mode => exact ⟨_, _, _, _, rfl, Or.inl rfl, Or.inr hlevel, Or.inr rfl⟩
  | enableReceiverMode => exact ⟨_, _, _, _, rfl, Or.inr rfl, Or.inl rfl, Or.inr rfl⟩
  | _ => exact ⟨_, _, _, _, rfl, Or.inl rfl, Or.inl rfl, Or.inl rfl⟩

lemma control_inv (hcount : 0 < txFifoEntryCount) (hthreshold : 0 < rxFifoThreshold)
    (h : Inv txFifoEntryCount rxFifoThreshold (core s)) (c : Control) (param : Nat) :
    Inv txFifoEntryCount rxFifoThreshold (core (s.control txFifoEntryCount c param)) := by
  obtain ⟨rdtMask, xmtEn, tdt, rdt, hcore, hmask, htdt, hrdt⟩ := control_core hcount c param s
  obtain ⟨hsound, hmode⟩ := h
  have hlevel : s.tdt < txFifoEntryCount := hsound.level
  have hle : s.rdt ≤ rxFifoThreshold := hsound.threshold
  rw [hcore]
  refine ⟨{ hsound with level := by dsimp only; omega, threshold := by dsimp only; omega }, ?_⟩
  rcases hmode with hsend | hreceive | hrest
  · exact Or.inl { hsend with }
  · have hmore : 0 < s.xSize := hreceive.more
    have hrdtle : s.rdt ≤ s.xSize := hreceive.level
    have hunmasked : s.intMask.rdt = false := hreceive.unmasked
    refine Or.inr (Or.inl { hreceive with
      unmasked := ?_
      level := show rdt ≤ s.xSize by omega })
    rcases hmask with rfl | rfl
    · exact hunmasked
    · rfl
  · exact Or.inr (Or.inr { hrest with })

lemma load_inv (h : Inv txFifoEntryCount rxFifoThreshold (core s)) :
    Inv txFifoEntryCount rxFifoThreshold (core s.load) := by
  unfold load
  split
  next => exact h
  next b rest hfifo =>
    split
    next hgo =>
      obtain ⟨hsound, hmode⟩ := h
      have hroom : rest.length ≤ txFifoEntryCount := by
        have hroom : s.txFifo.length ≤ txFifoEntryCount := hsound.room
        rw [hfifo, List.length_cons] at hroom
        omega
      refine ⟨{ hsound with room := hroom }, ?_⟩
      rcases hmode with hsend | hreceive | hrest
      · refine Or.inl { hsend with conserved := ?_, phase := ?_ }
        · have hconserved : s.wire ++ s.shift.toList ++ s.txFifo ++ s.buffer.drop s.xBuff = s.buffer :=
            hsend.conserved
          rw [hgo.2, hfifo] at hconserved
          have hnext : s.wire ++ [b] ++ rest ++ s.buffer.drop s.xBuff = s.buffer := by simpa using hconserved
          exact hnext
        · refine hsend.phase.imp_right (fun hdrain => ⟨hdrain.1, hdrain.2.1, hdrain.2.2.1, ?_⟩)
          constructor
          · intro hetcf
            have hempty : s.txFifo = [] := (hdrain.2.2.2.mp hetcf).2
            rw [hfifo] at hempty
            cases hempty
          · intro hend
            cases hend.1
      · exact Or.inr (Or.inl { hreceive with })
      · exact Or.inr (Or.inr { hrest with })
    next => exact h

lemma shiftOut_inv (h : Inv txFifoEntryCount rxFifoThreshold (core s)) :
    Inv txFifoEntryCount rxFifoThreshold (core s.shiftOut) := by
  unfold shiftOut
  split
  next => exact h
  next b hshift =>
    obtain ⟨hsound, hmode⟩ := h
    refine ⟨{ hsound with }, ?_⟩
    rcases hmode with hsend | hreceive | hrest
    · refine Or.inl { hsend with conserved := ?_, phase := ?_ }
      · have hconserved : s.wire ++ s.shift.toList ++ s.txFifo ++ s.buffer.drop s.xBuff = s.buffer :=
          hsend.conserved
        rw [hshift] at hconserved
        have hnext : s.wire ++ [b] ++ [] ++ s.txFifo ++ s.buffer.drop s.xBuff = s.buffer := by
          simpa using hconserved
        exact hnext
      · refine hsend.phase.imp_right (fun hdrain => ⟨hdrain.1, hdrain.2.1, hdrain.2.2.1, ?_⟩)
        have hetcf : s.flags.etcf = false := by
          by_contra htrue
          have hempty : s.shift = none := (hdrain.2.2.2.mp (Bool.eq_true_of_not_eq_false htrue)).1
          rw [hshift] at hempty
          cases hempty
        simp [core, hetcf]
    · exact Or.inr (Or.inl { hreceive with })
    · exact Or.inr (Or.inr { hrest with })

lemma arrive_inv (h : Inv txFifoEntryCount rxFifoThreshold (core s)) (b : Byte) :
    Inv txFifoEntryCount rxFifoThreshold (core (s.arrive b)) := by
  unfold arrive
  split
  · obtain ⟨hsound, hmode⟩ := h
    refine ⟨{ hsound with }, ?_⟩
    rcases hmode with hsend | hreceive | hrest
    · exact Or.inl { hsend with }
    · refine Or.inr (Or.inl { hreceive with conserved := ?_ })
      have hconserved : s.arrived = s.buffer.take s.xBuff ++ s.rxFifo := hreceive.conserved
      show s.arrived ++ [b] = s.buffer.take s.xBuff ++ (s.rxFifo ++ [b])
      rw [hconserved, List.append_assoc]
    · refine Or.inr (Or.inr { hrest with stored := ?_ })
      intro hdirection
      exact (hrest.stored hdirection).trans (List.sublist_append_left _ _)
  · exact h

lemma raise_core (f : Flag) (s : Sys) : core (s.raise f) = core s := by
  cases f <;> rfl

lemma Inv.step (hcount : 0 < txFifoEntryCount) (hthreshold : 0 < rxFifoThreshold) {event : Event}
    (h : Inv txFifoEntryCount rxFifoThreshold (core s)) (hallowed : Allowed s event) :
    Inv txFifoEntryCount rxFifoThreshold (core (s.step txFifoEntryCount rxFifoThreshold event)) := by
  cases event with
  | transfer direction data => exact transferNonBlocking_inv h hallowed
  | abort =>
    have hend := abortTransfer_resting h
    exact ⟨hend.1, Or.inr (Or.inr hend.2)⟩
  | control c param => exact control_inv hcount hthreshold h c param
  | irq =>
    rcases h.2 with hsend | hreceive | hrest
    · exact irqHandler_sending h.1 hsend hallowed
    · exact irqHandler_receiving h.1 hreceive
    · exact irqHandler_resting h.1 hrest hallowed
  | load => exact load_inv h
  | shiftOut => exact shiftOut_inv h
  | arrive b => exact arrive_inv h b
  | initialCharacter icm ic => exact h
  | raise f =>
    rw [Sys.step, raise_core]
    exact h

end Steps

section Progress

variable {s : Sys}

/-- The transmitter sends the byte in its shift register and takes the next one. -/
def pump (s : Sys) : Sys :=
  s.shiftOut.load

/-- Every byte of the FIFO is sent, and the handler runs. -/
def round (txFifoEntryCount rxFifoThreshold : Nat) (s : Sys) : Sys :=
  (pump^[txFifoEntryCount + 1] s).irqHandler txFifoEntryCount rxFifoThreshold

/-- The transmitter is enabled, and nothing but its own interrupts is served. -/
structure Calm (s : Sys) : Prop where
  presence : s.flags.presence = false
  gpcnt0 : s.gpcnt0Served = false
  gpcnt1 : s.gpcnt1Served = false
  tnte : s.flags.tnte = false
  undisturbed : Undisturbed s
  enabled : s.xmtEn = true

lemma Undisturbed.keeps {s' : Sys} (h : Undisturbed s) (hmask : s'.intMask.rdt = s.intMask.rdt)
    (hcwt : s'.cwtServed = s.cwtServed) (hbwt : s'.bwtServed = s.bwtServed) (hrte : s'.flags.rte = s.flags.rte)
    (hrdt : s'.rdt = s.rdt) (hrxFifo : s'.rxFifo = s.rxFifo) : Undisturbed s' where
  rte := hrte.trans h.rte
  cwt := hcwt.trans h.cwt
  bwt := hbwt.trans h.bwt
  rdt := by
    rw [rdtServed, hmask, hrdt, hrxFifo]
    exact h.rdt

lemma shiftOut_calm (h : Calm s) : Calm s.shiftOut := by
  unfold shiftOut
  split
  · exact h
  · exact { h with undisturbed := h.undisturbed.keeps rfl rfl rfl rfl rfl rfl }

lemma load_calm (h : Calm s) : Calm s.load := by
  unfold load
  split
  · exact h
  · split
    · exact { h with undisturbed := h.undisturbed.keeps rfl rfl rfl rfl rfl rfl }
    · exact h

lemma pump_calm (h : Calm s) : Calm (pump s) := by
  apply load_calm
  exact shiftOut_calm h

lemma sendByte_calm (h : Calm s) : Calm s.sendByte :=
  { h with undisturbed := h.undisturbed.keeps rfl rfl rfl rfl rfl rfl }

lemma sendBytes_calm (getuTail n : Nat) (h : Calm s) : Calm (sendBytes txFifoEntryCount getuTail n s) := by
  induction n generalizing s with
  | zero => exact h
  | succ n ih =>
    rw [sendBytes]
    split
    · apply ih
      exact sendByte_calm h
    · exact h

lemma awaitEtc_calm (h : Calm s) : Calm s.awaitEtc where
  presence := h.presence
  gpcnt0 := Bool.and_false _
  gpcnt1 := Bool.and_false _
  tnte := rfl
  undisturbed := h.undisturbed.keeps rfl rfl rfl rfl rfl rfl
  enabled := h.enabled

lemma checkTdt_calm (hmore : 0 < s.xSize) (h : Calm s) : Calm (s.checkTdt txFifoEntryCount) := by
  unfold checkTdt
  split
  · rw [if_neg (show ¬ s.xSize = 0 by omega)]
    dsimp only
    split
    · apply awaitEtc_calm
      apply sendByte_calm
      exact { h with undisturbed := h.undisturbed.keeps rfl rfl rfl rfl rfl rfl }
    · have hsent : Calm (sendBytes txFifoEntryCount (if s.txGetu > 0 then 1 else 0) s.xSize s) := sendBytes_calm _ _ h
      by_cases hzero : (sendBytes txFifoEntryCount (if s.txGetu > 0 then 1 else 0) s.xSize s).xSize = 0
      · rw [if_pos hzero]
        exact awaitEtc_calm hsent
      · rw [if_neg hzero]
        exact hsent
  · exact h

lemma checkParity_calm (h : Calm s) : Calm s.checkParity := by
  unfold checkParity
  split
  · exact { h with undisturbed := h.undisturbed.keeps rfl rfl rfl rfl rfl rfl }
  · exact h

lemma checkRxData_calm (h : Calm s) : Calm s.checkRxData := by
  have hundisturbed := checkRxData_undisturbed h.undisturbed
  have hframe : s.checkRxData.flags.presence = s.flags.presence ∧ s.checkRxData.gpcnt0Served = s.gpcnt0Served ∧
      s.checkRxData.gpcnt1Served = s.gpcnt1Served ∧ s.checkRxData.flags.tnte = s.flags.tnte ∧
      s.checkRxData.xmtEn = s.xmtEn := by
    unfold checkRxData
    split
    · dsimp only
      split <;> exact ⟨rfl, rfl, rfl, rfl, rfl⟩
    · exact ⟨rfl, rfl, rfl, rfl, rfl⟩
  obtain ⟨hpresence, hgpcnt0, hgpcnt1, htnte, henabled⟩ := hframe
  exact ⟨hpresence.trans h.presence, hgpcnt0.trans h.gpcnt0, hgpcnt1.trans h.gpcnt1, htnte.trans h.tnte,
    hundisturbed, henabled.trans h.enabled⟩

lemma pump_of_empty (hfifo : s.txFifo = []) (hshift : s.shift = none) : pump s = s := by
  have hshifted : s.shiftOut = s := by
    unfold shiftOut
    rw [hshift]
  rw [pump, hshifted, load, hfifo]

lemma shiftOut_shift (s : Sys) : s.shiftOut.shift = none := by
  unfold shiftOut
  split
  · assumption
  · rfl

lemma shiftOut_txFifo (s : Sys) : s.shiftOut.txFifo = s.txFifo := by
  unfold shiftOut
  split <;> rfl

lemma pump_of_cons {b : Byte} {rest : List Byte} (henabled : s.xmtEn = true) (hfifo : s.txFifo = b :: rest) :
    (pump s).txFifo = rest := by
  have henabled' : s.shiftOut.xmtEn = true := by
    unfold shiftOut
    split <;> exact henabled
  rw [pump, load, shiftOut_txFifo, hfifo]
  dsimp only
  rw [if_pos ⟨henabled', shiftOut_shift s⟩]

lemma pump_of_nil (hfifo : s.txFifo = []) : pump s = s.shiftOut := by
  rw [pump, load, shiftOut_txFifo, hfifo]

/-- One byte more than the FIFO holds, for the one in the shift register. -/
lemma pump_drains (n : Nat) (hcalm : Calm s) (hfew : s.txFifo.length < n) :
    (pump^[n] s).txFifo = [] ∧ (pump^[n] s).shift = none := by
  induction n generalizing s with
  | zero => exact absurd hfew (Nat.not_lt_zero _)
  | succ n ih =>
    rw [Function.iterate_succ_apply]
    cases hfifo : s.txFifo with
    | nil =>
      have hempty : (pump s).txFifo = [] := by rw [pump_of_nil hfifo, shiftOut_txFifo, hfifo]
      have hshift : (pump s).shift = none := by rw [pump_of_nil hfifo, shiftOut_shift]
      rw [Function.iterate_fixed (pump_of_empty hempty hshift)]
      exact ⟨hempty, hshift⟩
    | cons b rest =>
      apply ih (pump_calm hcalm)
      rw [pump_of_cons hcalm.enabled hfifo]
      rw [hfifo, List.length_cons] at hfew
      omega

/-- A transmission that nothing disturbs. -/
structure Underway (txFifoEntryCount rxFifoThreshold : Nat) (s : Sys) : Prop where
  sound : Sound txFifoEntryCount rxFifoThreshold (core s)
  sending : Sending (core s)
  calm : Calm s

lemma Inv.sending {c : Core} (h : Inv txFifoEntryCount rxFifoThreshold c) (hprogress : c.inProgress = true)
    (hdirection : c.direction = .transmit) : Sending c := by
  rcases h.2 with hsend | hreceive | hrest
  · exact hsend
  · rw [hreceive.direction] at hdirection
    cases hdirection
  · rw [hrest.inProgress] at hprogress
    cases hprogress

lemma Inv.receiving {c : Core} (h : Inv txFifoEntryCount rxFifoThreshold c) (hprogress : c.inProgress = true)
    (hdirection : c.direction = .receive) : Receiving c := by
  rcases h.2 with hsend | hreceive | hrest
  · rw [hsend.direction] at hdirection
    cases hdirection
  · exact hreceive
  · rw [hrest.inProgress] at hprogress
    cases hprogress

lemma pump_frame (s : Sys) :
    (pump s).inProgress = s.inProgress ∧ (pump s).direction = s.direction ∧ (pump s).xSize = s.xSize := by
  unfold pump load shiftOut
  repeat' split
  all_goals exact ⟨rfl, rfl, rfl⟩

lemma Underway.pump (h : Underway txFifoEntryCount rxFifoThreshold s) :
    Underway txFifoEntryCount rxFifoThreshold (pump s) := by
  have hinv : Inv txFifoEntryCount rxFifoThreshold (core (Smartcard.pump s)) := by
    apply load_inv
    apply shiftOut_inv
    exact ⟨h.sound, Or.inl h.sending⟩
  obtain ⟨hprogress, hdirection, -⟩ := pump_frame s
  exact ⟨hinv.1, hinv.sending (hprogress.trans h.sending.inProgress) (hdirection.trans h.sending.direction),
    pump_calm h.calm⟩

lemma Underway.round (h : Underway txFifoEntryCount rxFifoThreshold s) :
    (round txFifoEntryCount rxFifoThreshold s).inProgress = false ∨
      Underway txFifoEntryCount rxFifoThreshold (round txFifoEntryCount rxFifoThreshold s) ∧
        (round txFifoEntryCount rxFifoThreshold s).xSize < s.xSize := by
  obtain ⟨hempty, hshift⟩ := pump_drains (txFifoEntryCount + 1) h.calm (Nat.lt_succ_of_le h.sound.room)
  unfold Smartcard.round
  have hsize (n : Nat) : (Smartcard.pump^[n] s).xSize = s.xSize := by
    apply Function.Iterate.rec (fun s' : Sys => s'.xSize = s.xSize) rfl
    intro s' hs'
    exact (pump_frame s').2.2.trans hs'
  have hpumped : Underway txFifoEntryCount rxFifoThreshold (Smartcard.pump^[txFifoEntryCount + 1] s) :=
    Function.Iterate.rec _ h (fun _ hs' => hs'.pump) _
  rw [← hsize (txFifoEntryCount + 1)]
  generalize Smartcard.pump^[txFifoEntryCount + 1] s = s₁ at *
  rw [irqHandler_undisturbed hpumped.calm.presence hpumped.calm.gpcnt0 hpumped.calm.gpcnt1 hpumped.calm.tnte
    hpumped.calm.undisturbed]
  have hcore : core s₁.checkParity.checkRxData = core s₁ := (checkRxData_core _).trans (checkParity_core _)
  have hcalm : Calm s₁.checkParity.checkRxData := checkRxData_calm (checkParity_calm hpumped.calm)
  have hsound := hpumped.sound
  have hsending := hpumped.sending
  rw [← hcore] at hsound hsending
  have hsize' : s₁.checkParity.checkRxData.xSize = s₁.xSize := congrArg Core.xSize hcore
  have hempty' : s₁.checkParity.checkRxData.txFifo = [] := (congrArg Core.txFifo hcore).trans hempty
  have hshift' : s₁.checkParity.checkRxData.shift = none := (congrArg Core.shift hcore).trans hshift
  rw [← hsize']
  generalize s₁.checkParity.checkRxData = s₂ at *
  rcases hsending.phase with ⟨hmore, htdt, hetc⟩ | ⟨-, -, hetc, hend⟩
  · have hetcServed : s₂.etcServed = false := by
      rw [etcServed, show s₂.intMask.etc = true from hetc]
      rfl
    have htdtServed : s₂.tdtServed = true := by
      rw [tdtServed, show s₂.intMask.tdt = false from htdt, hempty']
      simp
    rw [checkEtc_of_not hetcServed]
    obtain ⟨hsound', hsending', hless⟩ := checkTdt_sending hsound hsending
    exact Or.inr ⟨⟨hsound', hsending', checkTdt_calm hmore hcalm⟩, hless htdtServed⟩
  · have hetcServed : s₂.etcServed = true := by
      rw [etcServed, show s₂.intMask.etc = false from hetc, show s₂.flags.etcf = true from hend.mpr ⟨hshift', hempty'⟩]
      rfl
    rw [checkEtc, if_pos hetcServed]
    have hrested := completeSendData_inv .sent ⟨hsound, Or.inl hsending⟩
      (fun _ => Or.inr (Or.inr (sent_all hsending hetcServed)))
    rw [checkTdt_of_not (tdtServed_resting hrested.2)]
    exact Or.inl hrested.2.inProgress

lemma Underway.ends (h : Underway txFifoEntryCount rxFifoThreshold s) :
    ∃ n, ((Smartcard.round txFifoEntryCount rxFifoThreshold)^[n] s).inProgress = false := by
  induction hsize : s.xSize using Nat.strong_induction_on generalizing s with
  | _ size ih =>
    rcases h.round with hended | ⟨hunderway, hless⟩
    · exact ⟨1, hended⟩
    · rw [hsize] at hless
      obtain ⟨n, hn⟩ := ih _ hless hunderway rfl
      exact ⟨n + 1, hn⟩

end Progress

instance (s : Sys) : Decidable (Undisturbed s) :=
  decidable_of_iff
    (s.flags.rte = false ∧ s.cwtServed = false ∧ s.bwtServed = false ∧ s.rdtServed = false)
    ⟨fun ⟨hrte, hcwt, hbwt, hrdt⟩ => ⟨hrte, hcwt, hbwt, hrdt⟩, fun ⟨hrte, hcwt, hbwt, hrdt⟩ => ⟨hrte, hcwt, hbwt, hrdt⟩⟩

instance (s : Sys) : Decidable (IrqAllowed s) :=
  inferInstanceAs (Decidable (_ ∨ _))

instance (s : Sys) : (event : Event) → Decidable (Allowed s event)
  | .transfer _ _ => inferInstanceAs (Decidable (_ ∧ _))
  | .irq => inferInstanceAs (Decidable (IrqAllowed s))
  | .abort | .control _ _ | .load | .shiftOut | .arrive _ | .initialCharacter _ _ | .raise _ => isTrue trivial

end McuxDrivers.Smartcard
