import McuxDrivers.Smartcard.Emvsim

/-!
# The phases of a smart card transfer

A transfer is in one of two phases while it sends, with the FIFO interrupt or the end interrupt
unmasked, and in one while it receives. A run of the handler keeps the invariant, unless a cause of a
reception falls into a transmission or a reception that was ended early still takes bytes.
-/

namespace McuxDrivers.Smartcard
open Sys

/-- The part of the state that the invariant is about. -/
structure Core where
  buffer : List Byte
  xBuff : Nat
  xSize : Nat
  xIsBusy : Bool
  direction : Direction
  rdtMask : Bool
  etcMask : Bool
  tdtMask : Bool
  etcf : Bool
  xmtEn : Bool
  tdt : Nat
  rdt : Nat
  txFifo : List Byte
  shift : Option Byte
  rxFifo : List Byte
  starts : Nat
  inProgress : Bool
  answers : Nat
  wire : List Byte
  arrived : List Byte
  strayAccess : Bool
  premature : Bool

def core (s : Sys) : Core where
  buffer := s.buffer
  xBuff := s.xBuff
  xSize := s.xSize
  xIsBusy := s.xIsBusy
  direction := s.direction
  rdtMask := s.intMask.rdt
  etcMask := s.intMask.etc
  tdtMask := s.intMask.tdt
  etcf := s.flags.etcf
  xmtEn := s.xmtEn
  tdt := s.tdt
  rdt := s.rdt
  txFifo := s.txFifo
  shift := s.shift
  rxFifo := s.rxFifo
  starts := s.starts
  inProgress := s.inProgress
  answers := s.answers
  wire := s.wire
  arrived := s.arrived
  strayAccess := s.strayAccess
  premature := s.premature

variable {txFifoEntryCount rxFifoThreshold : Nat}

/-- What holds in every state. -/
structure Sound (txFifoEntryCount rxFifoThreshold : Nat) (c : Core) : Prop where
  accounted : c.starts = c.answers + if c.inProgress then 1 else 0
  busy : c.xIsBusy = c.inProgress
  notStray : c.strayAccess = false
  notPremature : c.premature = false
  room : c.txFifo.length ≤ txFifoEntryCount
  level : c.tdt < txFifoEntryCount
  threshold : c.rdt ≤ rxFifoThreshold

/-- A transmission: its bytes have been sent, or are in the shift register, the FIFO or the rest of
the buffer. -/
structure Sending (c : Core) : Prop where
  inProgress : c.inProgress = true
  direction : c.direction = .transmit
  size : c.xBuff + c.xSize = c.buffer.length
  conserved : c.wire ++ c.shift.toList ++ c.txFifo ++ c.buffer.drop c.xBuff = c.buffer
  phase : 0 < c.xSize ∧ c.tdtMask = false ∧ c.etcMask = true ∨
    c.xSize = 0 ∧ c.tdtMask = true ∧ c.etcMask = false ∧
      (c.etcf = true ↔ c.shift = none ∧ c.txFifo = [])

/-- A reception: the bytes that have arrived are in the buffer or in the FIFO. -/
structure Receiving (c : Core) : Prop where
  inProgress : c.inProgress = true
  direction : c.direction = .receive
  size : c.xBuff + c.xSize = c.buffer.length
  more : 0 < c.xSize
  conserved : c.arrived = c.buffer.take c.xBuff ++ c.rxFifo
  unmasked : c.rdtMask = false
  level : c.rdt ≤ c.xSize
  masked : c.tdtMask = true ∧ c.etcMask = true

/-- No transfer is in progress. -/
structure Resting (c : Core) : Prop where
  inProgress : c.inProgress = false
  stored : c.direction = .receive → (c.buffer.take c.xBuff).Sublist c.arrived
  masked : c.tdtMask = true ∧ c.etcMask = true

/-- The invariant. -/
def Inv (txFifoEntryCount rxFifoThreshold : Nat) (c : Core) : Prop :=
  Sound txFifoEntryCount rxFifoThreshold c ∧ (Sending c ∨ Receiving c ∨ Resting c)

/-- A reception has ended: no byte will be asked for. -/
def Ended (txFifoEntryCount rxFifoThreshold : Nat) (c : Core) : Prop :=
  Sound txFifoEntryCount rxFifoThreshold c ∧ Resting c ∧ c.rdtMask = true

lemma Ended.inv {c : Core} (h : Ended txFifoEntryCount rxFifoThreshold c) : Inv txFifoEntryCount rxFifoThreshold c :=
  ⟨h.1, Or.inr (Or.inr h.2.1)⟩

section Reception

variable {s : Sys}

/-- A transfer that receives, with whatever has been stored. -/
structure Taking (c : Core) : Prop where
  inProgress : c.inProgress = true
  direction : c.direction = .receive
  size : c.xBuff + c.xSize = c.buffer.length
  stored : (c.buffer.take c.xBuff ++ c.rxFifo).Sublist c.arrived
  masked : c.tdtMask = true ∧ c.etcMask = true

lemma Receiving.taking {c : Core} (h : Receiving c) : Taking c where
  inProgress := h.inProgress
  direction := h.direction
  size := h.size
  stored := by rw [h.conserved]
  masked := h.masked

lemma take_set_succ {l : List Byte} {i : Nat} (b : Byte) (hi : i < l.length) :
    (l.set i b).take (i + 1) = l.take i ++ [b] := by
  rw [List.take_add_one, List.take_set_of_le (le_refl i)]
  rw [List.getElem?_set_self hi]
  rfl

/-- The bytes in the buffer and in the FIFO stay the same sequence while bytes are stored. -/
lemma storeBytes_eq (n : Nat) (hprogress : s.inProgress = true) (hdirection : s.direction = .receive)
    (hsize : s.xBuff + s.xSize = s.buffer.length) :
    ∃ buffer xBuff xSize rxFifo,
      storeBytes n s = { s with buffer := buffer, xBuff := xBuff, xSize := xSize, rxFifo := rxFifo } ∧
        xBuff + xSize = buffer.length ∧ buffer.take xBuff ++ rxFifo = s.buffer.take s.xBuff ++ s.rxFifo ∧
        xSize ≤ s.xSize ∧ (s.xSize ≤ n → xSize = 0 ∨ rxFifo = []) := by
  induction n generalizing s with
  | zero =>
    refine ⟨s.buffer, s.xBuff, s.xSize, s.rxFifo, rfl, hsize, rfl, le_refl _, ?_⟩
    intro hle
    exact Or.inl (by omega)
  | succ n ih =>
    rw [storeBytes]
    by_cases hgo : s.rxFifo ≠ [] ∧ s.xSize > 0
    · rw [if_pos hgo]
      obtain ⟨b, rest, hrx⟩ := List.exists_cons_of_ne_nil hgo.1
      have hstore : s.storeByte = { s with
          buffer := s.buffer.set s.xBuff b, xBuff := s.xBuff + 1, xSize := s.xSize - 1, rxFifo := rest } := by
        unfold storeByte
        rw [hrx]
        simp [hprogress, hdirection]
      obtain ⟨buffer, xBuff, xSize, rxFifo, heq, hlen, hseq, hle, hend⟩ :=
        ih (s := s.storeByte) (by rw [hstore]; exact hprogress) (by rw [hstore]; exact hdirection)
          (by rw [hstore]; simp only [List.length_set]; omega)
      refine ⟨buffer, xBuff, xSize, rxFifo, by rw [heq, hstore], hlen, ?_, ?_, ?_⟩
      · rw [hseq, hstore, hrx]
        dsimp only
        rw [take_set_succ b (by omega), List.append_assoc]
        rfl
      · rw [hstore] at hle
        dsimp only at hle
        omega
      · intro hn
        apply hend
        rw [hstore]
        dsimp only
        omega
    · rw [if_neg hgo]
      refine ⟨s.buffer, s.xBuff, s.xSize, s.rxFifo, rfl, hsize, rfl, le_refl _, ?_⟩
      intro _
      by_contra hnot
      rw [not_or] at hnot
      exact hgo ⟨hnot.2, by omega⟩

/-- With nothing to store or no room, the loop does nothing. -/
lemma storeBytes_of_nothing (n : Nat) (h : s.xSize = 0 ∨ s.rxFifo = []) : storeBytes n s = s := by
  cases n with
  | zero => rfl
  | succ n =>
    rw [storeBytes, if_neg]
    rintro ⟨hrx, hsize⟩
    rcases h with h | h
    · omega
    · exact hrx h

lemma storeBytes_taking (n : Nat) (h : Taking (core s)) (hsound : Sound txFifoEntryCount rxFifoThreshold (core s)) :
    Taking (core (storeBytes n s)) ∧ Sound txFifoEntryCount rxFifoThreshold (core (storeBytes n s)) ∧
      (storeBytes n s).intMask = s.intMask := by
  obtain ⟨buffer, xBuff, xSize, rxFifo, heq, hlen, hseq, -, -⟩ :=
    storeBytes_eq n h.inProgress h.direction h.size
  rw [heq]
  refine ⟨?_, { hsound with }, rfl⟩
  exact {
    inProgress := h.inProgress
    direction := h.direction
    size := hlen
    stored := by
      dsimp only [core]
      rw [hseq]
      exact h.stored
    masked := h.masked }

/-- A callback in a reception that takes no more bytes. -/
lemma report_ended (cause : Cause) (hsound : Sound txFifoEntryCount rxFifoThreshold (core s)) (h : Taking (core s))
    (hmask : s.intMask.rdt = true) : Ended txFifoEntryCount rxFifoThreshold (core (report cause s.release)) := by
  have hprogress : s.release.inProgress = true := h.inProgress
  have haccounted : s.starts = s.answers + 1 := by
    have haccounted := hsound.accounted
    rwa [h.inProgress, if_pos rfl] at haccounted
  have hpremature : s.premature = false := hsound.notPremature
  have hdirection : s.direction = .receive := h.direction
  unfold report
  rw [if_pos hprogress]
  refine ⟨?_, ⟨rfl, ?_, h.masked⟩, hmask⟩
  · exact {
      accounted := haccounted
      busy := rfl
      notStray := hsound.notStray
      notPremature := by simp [core, release, hpremature, hdirection]
      room := hsound.room
      level := hsound.level
      threshold := hsound.threshold }
  · intro _
    exact (List.sublist_append_left _ _).trans h.stored

/-- A reception ends with its callback. -/
lemma completeReceiveData_ended (cause : Cause) (hsound : Sound txFifoEntryCount rxFifoThreshold (core s))
    (h : Taking (core s)) : Ended txFifoEntryCount rxFifoThreshold (core (completeReceiveData cause s)) := by
  have hmasked : Taking (core s.maskReceive) := { h with }
  have hsound' : Sound txFifoEntryCount rxFifoThreshold (core s.maskReceive) := { hsound with }
  obtain ⟨htaking, hsound'', hmask⟩ := storeBytes_taking s.xSize hmasked hsound'
  exact report_ended cause hsound'' htaking (by rw [hmask]; rfl)

/-- A callback while no transfer is in progress. -/
lemma core_report_resting (cause : Cause) (hidle : s.inProgress = false) : core (report cause s) = core s := by
  unfold report
  rw [if_neg (by rw [hidle]; exact Bool.false_ne_true)]
  rfl

/-- The same function on an idle driver only calls the application. -/
lemma completeReceiveData_resting (cause : Cause) (hsound : Sound txFifoEntryCount rxFifoThreshold (core s))
    (h : Resting (core s)) (hnothing : s.xSize = 0 ∨ s.rxFifo = []) :
    Ended txFifoEntryCount rxFifoThreshold (core (completeReceiveData cause s)) := by
  have hstore : storeBytes s.xSize s.maskReceive = s.maskReceive := storeBytes_of_nothing _ hnothing
  have hidle : s.maskReceive.release.inProgress = false := h.inProgress
  rw [completeReceiveData, hstore, core_report_resting cause hidle]
  exact ⟨{ hsound with busy := hidle.symm }, { h with }, rfl⟩

end Reception

section Checks

variable {s : Sys}

/-- A transmission ends with its callback: aborted, refused, or with all its bytes sent. Another state
ends without a transmission. -/
lemma completeSendData_inv (cause : Cause) (h : Inv txFifoEntryCount rxFifoThreshold (core s))
    (hcause : Sending (core s) → cause = .aborted ∨ cause = .nacked ∨ s.wire = s.buffer) :
    Sound txFifoEntryCount rxFifoThreshold (core (completeSendData cause s)) ∧ Resting (core (completeSendData cause s)) := by
  obtain ⟨hsound, hmode⟩ := h
  have hstored : s.direction = .receive → (s.buffer.take s.xBuff).Sublist s.arrived := by
    intro hdirection
    rcases hmode with hsend | hreceive | hrest
    · rw [show s.direction = .transmit from hsend.direction] at hdirection
      cases hdirection
    · exact (List.sublist_append_left _ _).trans hreceive.taking.stored
    · exact hrest.stored hdirection
  unfold completeSendData
  cases hprogress : s.inProgress with
  | false =>
    have hidle : s.stopSend.inProgress = false := hprogress
    rw [core_report_resting cause hidle]
    exact ⟨{ hsound with busy := hidle.symm }, ⟨hidle, hstored, rfl, rfl⟩⟩
  | true =>
    have hbusy : s.stopSend.inProgress = true := hprogress
    have haccounted : s.starts = s.answers + 1 := by
      have haccounted := hsound.accounted
      rwa [show (core s).inProgress = true from hprogress, if_pos rfl] at haccounted
    have hpremature : (s.premature ||
        (s.direction = .transmit && cause ≠ .aborted && cause ≠ .nacked && s.wire ≠ s.buffer)) = false := by
      have hno : s.premature = false := hsound.notPremature
      rcases hmode with hsend | hreceive | hrest
      · rcases hcause hsend with rfl | rfl | hwire
        · simp [hno]
        · simp [hno]
        · simp [hno, hwire]
      · have hdirection : s.direction = .receive := hreceive.direction
        simp [hno, hdirection]
      · have hidle : s.inProgress = false := hrest.inProgress
        rw [hprogress] at hidle
        cases hidle
    unfold report
    rw [if_pos hbusy]
    refine ⟨?_, ⟨rfl, hstored, rfl, rfl⟩⟩
    exact {
      accounted := haccounted
      busy := rfl
      notStray := hsound.notStray
      notPremature := hpremature
      room := hsound.room
      level := hsound.level
      threshold := hsound.threshold }

/-- A check does nothing to a transfer, or ends the reception of a busy driver. -/
def Checks (f : Sys → Sys) : Prop :=
  ∀ s, core (f s) = core s ∨ ∃ s', core s' = core s ∧ f s = unblock s'

lemma checkParity_core (s : Sys) : core s.checkParity = core s := by
  unfold checkParity
  split <;> rfl

lemma checkParity_tnte (s : Sys) : s.checkParity.flags.tnte = s.flags.tnte := by
  unfold checkParity
  split <;> rfl

lemma checkRxData_core (s : Sys) : core s.checkRxData = core s := by
  unfold checkRxData
  split
  · dsimp only
    split <;> rfl
  · rfl

lemma checkRxNack_checks : Checks checkRxNack := by
  intro s
  unfold checkRxNack
  split
  · exact Or.inr ⟨_, by rfl, rfl⟩
  · exact Or.inl rfl

lemma checkCwt_checks : Checks checkCwt := by
  intro s
  unfold checkCwt
  split
  · exact Or.inr ⟨_, by rfl, rfl⟩
  · exact Or.inl rfl

lemma checkBwt_checks : Checks checkBwt := by
  intro s
  unfold checkBwt
  split
  · exact Or.inr ⟨_, by rfl, rfl⟩
  · exact Or.inl rfl

lemma Checks.idle {f : Sys → Sys} (hf : Checks f) (hidle : s.xIsBusy = false) : core (f s) = core s := by
  rcases hf s with hcore | ⟨s', hcore, heq⟩
  · exact hcore
  · have hidle' : s'.xIsBusy = false := (congrArg Core.xIsBusy hcore).trans hidle
    rw [heq, unblock, if_neg (by rw [hidle']; exact Bool.false_ne_true)]
    exact hcore

/-- In a handler that started with a reception, nothing has happened to it or it has ended. -/
lemma Checks.keeps {f : Sys → Sys} (hf : Checks f) {c : Core}
    (hsound : Sound txFifoEntryCount rxFifoThreshold c) (hreceive : Receiving c)
    (h : core s = c ∨ Ended txFifoEntryCount rxFifoThreshold (core s)) :
    core (f s) = c ∨ Ended txFifoEntryCount rxFifoThreshold (core (f s)) := by
  rcases h with rfl | hended
  · rcases hf s with hcore | ⟨s', hcore, heq⟩
    · exact Or.inl hcore
    · rw [← hcore] at hsound hreceive
      have hbusy : s'.xIsBusy = true := hsound.busy.trans hreceive.inProgress
      rw [heq, unblock, if_pos hbusy]
      exact Or.inr (completeReceiveData_ended .received hsound hreceive.taking)
  · rw [hf.idle (hended.1.busy.trans hended.2.1.inProgress)]
    exact Or.inr hended

end Checks

section Transmission

variable {s : Sys}

lemma drop_eq_getD_cons {l : List Byte} {i : Nat} (hi : i < l.length) :
    l.drop i = l.getD i 0 :: l.drop (i + 1) := by
  rw [List.drop_eq_getElem_cons hi]
  simp [List.getD, hi]

/-- The bytes move from the rest of the buffer to the FIFO. -/
lemma sendBytes_eq (getuTail n : Nat) (hprogress : s.inProgress = true) (hdirection : s.direction = .transmit)
    (hsize : s.xBuff + s.xSize = s.buffer.length) (hroom : s.txFifo.length ≤ txFifoEntryCount) :
    ∃ txFifo xBuff xSize, sendBytes txFifoEntryCount getuTail n s =
        { s with txFifo := txFifo, xBuff := xBuff, xSize := xSize } ∧ xBuff + xSize = s.buffer.length ∧
      txFifo.length ≤ txFifoEntryCount ∧ txFifo ++ s.buffer.drop xBuff = s.txFifo ++ s.buffer.drop s.xBuff ∧
      (xSize = s.xSize ∨ xSize < s.xSize ∧ txFifo ≠ []) ∧
      (0 < n → s.txFifo.length < txFifoEntryCount → getuTail < s.xSize → xSize < s.xSize) := by
  induction n generalizing s with
  | zero => exact ⟨s.txFifo, s.xBuff, s.xSize, rfl, hsize, hroom, rfl, Or.inl rfl, fun h => absurd h (lt_irrefl 0)⟩
  | succ n ih =>
    rw [sendBytes]
    by_cases hgo : s.txFifo.length ≠ txFifoEntryCount ∧ s.xSize > getuTail
    · rw [if_pos hgo]
      have hsend : s.sendByte = { s with
          txFifo := s.txFifo ++ [s.buffer.getD s.xBuff 0], xBuff := s.xBuff + 1, xSize := s.xSize - 1 } := by
        simp [sendByte, hprogress, hdirection]
      obtain ⟨hne, hmore⟩ := hgo
      obtain ⟨txFifo, xBuff, xSize, heq, hlen, hfits, hseq, hless, -⟩ := ih (s := s.sendByte)
        (by rw [hsend]; exact hprogress) (by rw [hsend]; exact hdirection) (by rw [hsend]; dsimp only; omega)
        (by rw [hsend]; simp only [List.length_append, List.length_singleton]; omega)
      rw [hsend] at heq hlen hseq hless
      dsimp only at heq hlen hseq hless
      refine ⟨txFifo, xBuff, xSize, by rw [hsend, heq], hlen, hfits, ?_, ?_, ?_⟩
      · rw [hseq, drop_eq_getD_cons (show s.xBuff < s.buffer.length by omega), List.append_assoc]
        rfl
      · right
        rcases hless with heqSize | ⟨hlt, hne'⟩
        · refine ⟨by omega, ?_⟩
          rintro rfl
          -- with no further byte the first one is still in the FIFO
          have hpos : xBuff = s.xBuff + 1 := by omega
          rw [hpos, List.append_cancel_right_eq] at hseq
          simp at hseq
        · exact ⟨by omega, hne'⟩
      · intro _ _ _
        rcases hless with heqSize | ⟨hlt, -⟩ <;> omega
    · rw [if_neg hgo]
      refine ⟨s.txFifo, s.xBuff, s.xSize, rfl, hsize, hroom, rfl, Or.inl rfl, ?_⟩
      intro _ hlt htail
      exact absurd ⟨by omega, htail⟩ hgo

/-- With the last byte in the FIFO the end of the transmission is awaited. -/
lemma awaitEtc_sending (hsound : Sound txFifoEntryCount rxFifoThreshold (core s)) (hprogress : s.inProgress = true)
    (hdirection : s.direction = .transmit) (hsize : s.xBuff + s.xSize = s.buffer.length) (hzero : s.xSize = 0)
    (hconserved : s.wire ++ s.shift.toList ++ s.txFifo ++ s.buffer.drop s.xBuff = s.buffer)
    (hfifo : s.txFifo ≠ []) :
    Sound txFifoEntryCount rxFifoThreshold (core s.awaitEtc) ∧ Sending (core s.awaitEtc) := by
  refine ⟨{ hsound with }, hprogress, hdirection, hsize, hconserved, Or.inr ⟨hzero, rfl, rfl, ?_⟩⟩
  constructor
  · intro hetcf
    cases hetcf
  · intro hend
    exact absurd hend.2 hfifo

lemma checkTdt_sending (hsound : Sound txFifoEntryCount rxFifoThreshold (core s)) (h : Sending (core s)) :
    Sound txFifoEntryCount rxFifoThreshold (core (s.checkTdt txFifoEntryCount)) ∧ Sending (core (s.checkTdt txFifoEntryCount)) ∧
      (s.tdtServed = true → (s.checkTdt txFifoEntryCount).xSize < s.xSize) := by
  unfold checkTdt
  cases hserved : s.tdtServed with
  | false => exact ⟨hsound, h, fun hf => absurd hf Bool.false_ne_true⟩
  | true =>
    rw [if_pos rfl]
    obtain ⟨hmask, hlevel⟩ : s.intMask.tdt = false ∧ s.txFifo.length ≤ s.tdt := by
      simpa [tdtServed] using hserved
    have hspace : s.txFifo.length < txFifoEntryCount := lt_of_le_of_lt hlevel hsound.level
    have hphase : 0 < s.xSize ∧ s.intMask.etc = true := by
      rcases h.phase with hfill | hdrain
      · exact ⟨hfill.1, hfill.2.2⟩
      · exact absurd (hdrain.2.1.symm.trans hmask) (by decide)
    have hsize : s.xBuff + s.xSize = s.buffer.length := h.size
    have hprogress : s.inProgress = true := h.inProgress
    have hdirection : s.direction = .transmit := h.direction
    have hconserved : s.wire ++ s.shift.toList ++ s.txFifo ++ s.buffer.drop s.xBuff = s.buffer := h.conserved
    rw [if_neg (show ¬ s.xSize = 0 by omega)]
    dsimp only
    by_cases hone : s.xSize = 1
    · rw [if_pos hone]
      have hsend : ({ s with txGetu := 0 } : Sys).sendByte = { s with
          txGetu := 0, txFifo := s.txFifo ++ [s.buffer.getD s.xBuff 0], xBuff := s.xBuff + 1, xSize := s.xSize - 1 } := by
        simp [sendByte, hprogress, hdirection]
      have hroom : (s.txFifo ++ [s.buffer.getD s.xBuff 0]).length ≤ txFifoEntryCount := by
        simp only [List.length_append, List.length_singleton]
        omega
      rw [hsend]
      have hnew := awaitEtc_sending (s := { s with
          txGetu := 0, txFifo := s.txFifo ++ [s.buffer.getD s.xBuff 0], xBuff := s.xBuff + 1, xSize := s.xSize - 1 })
        { hsound with room := hroom } hprogress hdirection (by dsimp only; omega) (by dsimp only; omega)
        (by
          dsimp only
          rw [drop_eq_getD_cons (show s.xBuff < s.buffer.length by omega)] at hconserved
          simpa [List.append_assoc] using hconserved)
        (by simp)
      exact ⟨hnew.1, hnew.2, fun _ => show s.xSize - 1 < s.xSize by omega⟩
    · rw [if_neg hone]
      obtain ⟨txFifo, xBuff, xSize, heq, hlen, hfits, hseq, hless, hstrict⟩ :=
        sendBytes_eq (if s.txGetu > 0 then 1 else 0) s.xSize hprogress hdirection hsize hsound.room
      have htail : (if s.txGetu > 0 then 1 else 0) < s.xSize := by
        split <;> omega
      have hlt := hstrict hphase.1 hspace htail
      have hfifo : txFifo ≠ [] := by
        rcases hless with heqSize | ⟨-, hne⟩
        · omega
        · exact hne
      have hconserved' : s.wire ++ s.shift.toList ++ txFifo ++ s.buffer.drop xBuff = s.buffer := by
        rw [List.append_assoc, hseq, ← List.append_assoc]
        exact hconserved
      rw [heq]
      have hsound' : Sound txFifoEntryCount rxFifoThreshold
          (core { s with txFifo := txFifo, xBuff := xBuff, xSize := xSize }) := { hsound with room := hfits }
      by_cases hzero : xSize = 0
      · rw [if_pos hzero]
        have hnew := awaitEtc_sending (s := { s with txFifo := txFifo, xBuff := xBuff, xSize := xSize }) hsound'
          hprogress hdirection hlen hzero hconserved' hfifo
        exact ⟨hnew.1, hnew.2, fun _ => hlt⟩
      · rw [if_neg hzero]
        exact ⟨hsound', ⟨hprogress, hdirection, hlen, hconserved',
          Or.inl ⟨Nat.pos_of_ne_zero hzero, hmask, hphase.2⟩⟩, fun _ => hlt⟩

/-- Nothing that ends a reception is served. -/
structure Undisturbed (s : Sys) : Prop where
  rte : s.flags.rte = false
  cwt : s.cwtServed = false
  bwt : s.bwtServed = false
  rdt : s.rdtServed = false

lemma checkRxNack_of_not (h : s.flags.rte = false) : s.checkRxNack = s := by
  rw [checkRxNack, if_neg (by rw [h]; exact Bool.false_ne_true)]

lemma checkCwt_of_not (h : s.cwtServed = false) : s.checkCwt = s := by
  rw [checkCwt, if_neg (by rw [h]; exact Bool.false_ne_true)]

lemma checkBwt_of_not (h : s.bwtServed = false) : s.checkBwt = s := by
  rw [checkBwt, if_neg (by rw [h]; exact Bool.false_ne_true)]

lemma checkRdt_of_not (h : s.rdtServed = false) : s.checkRdt rxFifoThreshold = s := by
  rw [checkRdt, if_neg (by rw [h]; exact Bool.false_ne_true)]

lemma checkEtc_of_not (h : s.etcServed = false) : s.checkEtc = s := by
  rw [checkEtc, if_neg (by rw [h]; exact Bool.false_ne_true)]

lemma checkTdt_of_not (h : s.tdtServed = false) : s.checkTdt txFifoEntryCount = s := by
  rw [checkTdt, if_neg (by rw [h]; exact Bool.false_ne_true)]

lemma checkParity_undisturbed (h : Undisturbed s) : Undisturbed s.checkParity := by
  unfold checkParity
  split
  · exact { h with }
  · exact h

lemma checkRxData_undisturbed (h : Undisturbed s) : Undisturbed s.checkRxData := by
  unfold checkRxData
  split
  · dsimp only
    split
    · exact { rte := h.rte, cwt := rfl, bwt := rfl, rdt := h.rdt }
    · exact { h with }
  · exact h

/-- The part of the handler that an undisturbed transmission reaches. -/
lemma irqHandler_undisturbed (hpresence : s.flags.presence = false) (hgpcnt0 : s.gpcnt0Served = false)
    (hgpcnt1 : s.gpcnt1Served = false) (htnte : s.flags.tnte = false) (h : Undisturbed s) :
    s.irqHandler txFifoEntryCount rxFifoThreshold =
      (s.checkParity.checkRxData.checkEtc).checkTdt txFifoEntryCount := by
  have hparity := checkParity_undisturbed h
  have htnte' : s.checkParity.flags.tnte = false := (checkParity_tnte s).trans htnte
  have hrdt := (checkRxData_undisturbed hparity).rdt
  unfold irqHandler
  simp only [hpresence, hgpcnt0, hgpcnt1, htnte', Bool.false_eq_true, if_false]
  rw [checkRxNack_of_not hparity.rte, checkCwt_of_not hparity.cwt, checkBwt_of_not hparity.bwt,
    if_neg (by rw [hrdt]; exact fun hf => Bool.false_ne_true hf.1), checkRdt_of_not hrdt]

end Transmission

section Handler

variable {s : Sys}

/-- What the handler would store for an idle driver. -/
def toStore (s : Sys) : List Byte :=
  if s.gpcnt0Served || s.gpcnt1Served then s.rxFifo
  else if s.flags.tnte || !s.rdtServed then []
  else if s.transferState = .waitingForTS ∧ s.cwtServed = false then s.rxFifo.tail
  else s.rxFifo

/-- A run of the handler that serves no cause of a reception in a transmission, and finds nothing to
store for a reception that is over. -/
def IrqAllowed (s : Sys) : Prop :=
  s.flags.presence = true ∨
    if s.xIsBusy then
      s.direction = .transmit →
        s.gpcnt0Served = false ∧ s.gpcnt1Served = false ∧ (s.flags.tnte = true ∨ Undisturbed s)
    else s.xSize = 0 ∨ toStore s = []

lemma sent_all (h : Sending (core s)) (hserved : s.etcServed = true) : s.wire = s.buffer := by
  obtain ⟨hmask, hetcf⟩ : s.intMask.etc = false ∧ s.flags.etcf = true := by
    simpa [etcServed] using hserved
  rcases h.phase with hfill | ⟨hzero, -, -, hend⟩
  · exact absurd (hfill.2.2.symm.trans hmask) (by decide)
  · obtain ⟨hshift, hfifo⟩ := hend.mp hetcf
    have hsize := h.size
    have hconserved := h.conserved
    rw [hshift, hfifo, List.drop_of_length_le (by omega)] at hconserved
    have hall : (core s).wire = (core s).buffer := by simpa using hconserved
    exact hall

lemma checkEtc_sending (hsound : Sound txFifoEntryCount rxFifoThreshold (core s)) (h : Sending (core s)) :
    core s.checkEtc = core s ∧ s.checkEtc = s ∨
      Sound txFifoEntryCount rxFifoThreshold (core s.checkEtc) ∧ Resting (core s.checkEtc) := by
  unfold checkEtc
  cases hserved : s.etcServed with
  | false => exact Or.inl ⟨rfl, rfl⟩
  | true =>
    rw [if_pos rfl]
    exact Or.inr (completeSendData_inv .sent ⟨hsound, Or.inl h⟩ (fun _ => Or.inr (Or.inr (sent_all h hserved))))

lemma tdtServed_resting (h : Resting (core s)) : s.tdtServed = false := by
  have hmask : s.intMask.tdt = true := h.masked.1
  simp [tdtServed, hmask]

/-- A byte that is refused too often ends the transfer. -/
lemma serveTxNack_rested (h : Inv txFifoEntryCount rxFifoThreshold (core s)) :
    Sound txFifoEntryCount rxFifoThreshold (core s.checkParity.serveTxNack) ∧ Resting (core s.checkParity.serveTxNack) := by
  rw [← checkParity_core s] at h
  exact completeSendData_inv (s := s.checkParity.noteTxNack) .nacked h (fun _ => Or.inr (Or.inl rfl))

lemma irqHandler_sending (hsound : Sound txFifoEntryCount rxFifoThreshold (core s)) (h : Sending (core s))
    (hallowed : IrqAllowed s) :
    Inv txFifoEntryCount rxFifoThreshold (core (s.irqHandler txFifoEntryCount rxFifoThreshold)) := by
  have hinv : Inv txFifoEntryCount rxFifoThreshold (core s) := ⟨hsound, Or.inl h⟩
  cases hpresence : s.flags.presence with
  | true =>
    rw [irqHandler, if_pos hpresence]
    exact hinv
  | false =>
    have hbusy : s.xIsBusy = true := hsound.busy.trans h.inProgress
    rw [IrqAllowed, hpresence, hbusy, if_pos rfl] at hallowed
    obtain ⟨hgpcnt0, hgpcnt1, hcause⟩ := (hallowed.resolve_left Bool.false_ne_true) h.direction
    have hparity : core s.checkParity = core s := checkParity_core s
    cases htnte : s.flags.tnte with
    | true =>
      have htnte' : s.checkParity.flags.tnte = true := (checkParity_tnte s).trans htnte
      have hresult : s.irqHandler txFifoEntryCount rxFifoThreshold = s.checkParity.serveTxNack := by
        unfold irqHandler
        simp only [hpresence, hgpcnt0, hgpcnt1, htnte', Bool.false_eq_true, if_false, if_true]
      rw [hresult]
      obtain ⟨hend, hrest⟩ := serveTxNack_rested hinv
      exact ⟨hend, Or.inr (Or.inr hrest)⟩
    | false =>
      have hundisturbed := hcause.resolve_left (by rw [htnte]; exact Bool.false_ne_true)
      rw [irqHandler_undisturbed hpresence hgpcnt0 hgpcnt1 htnte hundisturbed]
      have hcore : core s.checkParity.checkRxData = core s := (checkRxData_core _).trans hparity
      have hsound' := hcore ▸ hsound
      have h' := hcore ▸ h
      rcases checkEtc_sending hsound' h' with ⟨-, heq⟩ | ⟨hrested, hrest⟩
      · rw [heq]
        obtain ⟨hnew, hsending, -⟩ := checkTdt_sending hsound' h'
        exact ⟨hnew, Or.inl hsending⟩
      · rw [checkTdt_of_not (tdtServed_resting hrest)]
        exact ⟨hrested, Or.inr (Or.inr hrest)⟩

lemma rdtServed_ended (h : Ended txFifoEntryCount rxFifoThreshold (core s)) : s.rdtServed = false := by
  have hmask : s.intMask.rdt = true := h.2.2
  simp [rdtServed, hmask]

/-- A reception goes on, or it has ended. -/
def Open (txFifoEntryCount rxFifoThreshold : Nat) (c : Core) : Prop :=
  Sound txFifoEntryCount rxFifoThreshold c ∧ Receiving c ∨ Ended txFifoEntryCount rxFifoThreshold c

lemma checkRdt_receiving (hsound : Sound txFifoEntryCount rxFifoThreshold (core s)) (h : Receiving (core s)) :
    Open txFifoEntryCount rxFifoThreshold (core (s.checkRdt rxFifoThreshold)) := by
  unfold checkRdt
  split
  · obtain ⟨buffer, xBuff, xSize, rxFifo, heq, hlen, hseq, hle, -⟩ :=
      storeBytes_eq s.xSize h.inProgress h.direction h.size
    have hconserved : s.arrived = buffer.take xBuff ++ rxFifo := h.conserved.trans hseq.symm
    have hlevel : s.rdt ≤ rxFifoThreshold := hsound.threshold
    obtain ⟨htaking, hsound', -⟩ := storeBytes_taking s.xSize h.taking hsound
    dsimp only
    by_cases hzero : (storeBytes s.xSize s).xSize = 0
    · rw [if_pos hzero]
      exact Or.inr (completeReceiveData_ended .received hsound' htaking)
    · rw [if_neg hzero]
      have hpos : 0 < (storeBytes s.xSize s).xSize := Nat.pos_of_ne_zero hzero
      rw [heq] at hsound' hpos ⊢
      by_cases hfew : xSize < rxFifoThreshold
      · rw [if_pos hfew]
        exact Or.inl ⟨{ hsound' with threshold := hfew.le },
          ⟨h.inProgress, h.direction, hlen, hpos, hconserved, h.unmasked, le_refl _, h.masked⟩⟩
      · rw [if_neg hfew]
        exact Or.inl ⟨hsound', ⟨h.inProgress, h.direction, hlen, hpos, hconserved, h.unmasked,
          show s.rdt ≤ xSize by omega, h.masked⟩⟩
  · exact Or.inl ⟨hsound, h⟩

lemma Open.masked {c : Core} (h : Open txFifoEntryCount rxFifoThreshold c) :
    c.tdtMask = true ∧ c.etcMask = true := by
  rcases h with ⟨-, hreceive⟩ | hended
  · exact hreceive.masked
  · exact hended.2.1.masked

lemma Open.inv {c : Core} (h : Open txFifoEntryCount rxFifoThreshold c) : Inv txFifoEntryCount rxFifoThreshold c := by
  rcases h with ⟨hsound, hreceive⟩ | hended
  · exact ⟨hsound, Or.inr (Or.inl hreceive)⟩
  · exact hended.inv

/-- The transmitter's interrupts are masked outside a transmission. -/
lemma transmit_of_masked (hmask : s.intMask.tdt = true ∧ s.intMask.etc = true) :
    s.checkEtc.checkTdt txFifoEntryCount = s := by
  have hetc : s.etcServed = false := by simp [etcServed, hmask.2]
  have htdt : s.tdtServed = false := by simp [tdtServed, hmask.1]
  rw [checkEtc_of_not hetc, checkTdt_of_not htdt]

lemma takeTS_core (s : Sys) : core s.takeTS = { core s with rxFifo := s.rxFifo.tail } := by
  unfold takeTS
  dsimp only
  split <;> rfl

/-- The initial character ends a reception, too. -/
lemma serveTS_ended (hsound : Sound txFifoEntryCount rxFifoThreshold (core s)) (h : Receiving (core s)) :
    Ended txFifoEntryCount rxFifoThreshold (core s.serveTS) := by
  have hcore := takeTS_core s
  have htaking : Taking (core s.takeTS) := by
    rw [hcore]
    exact {
      h.taking with
      stored := by
        have htail : (s.buffer.take s.xBuff ++ s.rxFifo.tail).Sublist (s.buffer.take s.xBuff ++ s.rxFifo) :=
          List.Sublist.append (List.Sublist.refl _) (List.tail_sublist _)
        exact htail.trans h.taking.stored }
  have hsound' : Sound txFifoEntryCount rxFifoThreshold (core s.takeTS) := by
    rw [hcore]
    exact { hsound with }
  exact completeReceiveData_ended .received hsound' htaking

lemma serve_receiving (hsound : Sound txFifoEntryCount rxFifoThreshold (core s)) (h : Receiving (core s)) :
    Open txFifoEntryCount rxFifoThreshold (core (if s.rdtServed ∧ s.transferState = .waitingForTS then s.serveTS
      else ((s.checkRdt rxFifoThreshold).checkEtc).checkTdt txFifoEntryCount)) := by
  split
  · exact Or.inr (serveTS_ended hsound h)
  · have hopen := checkRdt_receiving hsound h
    rw [transmit_of_masked hopen.masked]
    exact hopen

/-- The end of the handler does nothing after a reception has ended. -/
lemma serve_ended (h : Ended txFifoEntryCount rxFifoThreshold (core s)) :
    (if s.rdtServed ∧ s.transferState = .waitingForTS then s.serveTS
      else ((s.checkRdt rxFifoThreshold).checkEtc).checkTdt txFifoEntryCount) = s := by
  have hnot := rdtServed_ended h
  rw [if_neg (by rw [hnot]; exact fun hf => Bool.false_ne_true hf.1), checkRdt_of_not hnot,
    transmit_of_masked h.2.1.masked]

lemma checks_receiving (hsound : Sound txFifoEntryCount rxFifoThreshold (core s)) (h : Receiving (core s)) :
    core s.checkParity.checkRxNack.checkCwt.checkBwt.checkRxData = core s ∨
      Ended txFifoEntryCount rxFifoThreshold
        (core s.checkParity.checkRxNack.checkCwt.checkBwt.checkRxData) := by
  rw [checkRxData_core]
  apply checkBwt_checks.keeps hsound h
  apply checkCwt_checks.keeps hsound h
  apply checkRxNack_checks.keeps hsound h
  exact Or.inl (checkParity_core s)

/-- A handler in a reception ends it, or comes to its end with the reception as it was. -/
lemma irqHandler_receiving_cases (hsound : Sound txFifoEntryCount rxFifoThreshold (core s)) (h : Receiving (core s))
    (hpresence : s.flags.presence = false) :
    (Sound txFifoEntryCount rxFifoThreshold (core (s.irqHandler txFifoEntryCount rxFifoThreshold)) ∧
        Resting (core (s.irqHandler txFifoEntryCount rxFifoThreshold))) ∨
      ∃ s', core s' = core s ∧ s.irqHandler txFifoEntryCount rxFifoThreshold =
        if s'.rdtServed ∧ s'.transferState = .waitingForTS then s'.serveTS
        else ((s'.checkRdt rxFifoThreshold).checkEtc).checkTdt txFifoEntryCount := by
  have hinv : Inv txFifoEntryCount rxFifoThreshold (core s) := ⟨hsound, Or.inr (Or.inl h)⟩
  unfold irqHandler
  rw [if_neg (by rw [hpresence]; exact Bool.false_ne_true)]
  split
  · have hended := completeReceiveData_ended (s := s.noteInitCharTimer) .received { hsound with } { h.taking with }
    exact Or.inl ⟨hended.1, hended.2.1⟩
  · split
    · have hended := completeReceiveData_ended (s := s.noteAdt) .received { hsound with } { h.taking with }
      exact Or.inl ⟨hended.1, hended.2.1⟩
    · dsimp only
      split
      · exact Or.inl (serveTxNack_rested hinv)
      · rcases checks_receiving hsound h with hcore | hended
        · exact Or.inr ⟨_, hcore, rfl⟩
        · rw [serve_ended hended]
          exact Or.inl ⟨hended.1, hended.2.1⟩

lemma irqHandler_receiving (hsound : Sound txFifoEntryCount rxFifoThreshold (core s)) (h : Receiving (core s)) :
    Inv txFifoEntryCount rxFifoThreshold (core (s.irqHandler txFifoEntryCount rxFifoThreshold)) := by
  cases hpresence : s.flags.presence with
  | true =>
    rw [irqHandler, if_pos hpresence]
    exact ⟨hsound, Or.inr (Or.inl h)⟩
  | false =>
    rcases irqHandler_receiving_cases hsound h hpresence with hrested | ⟨s', hcore, heq⟩
    · exact ⟨hrested.1, Or.inr (Or.inr hrested.2)⟩
    · rw [heq]
      rw [← hcore] at hsound h
      exact (serve_receiving hsound h).inv

/-- The checks of a handler that finds the driver idle. -/
lemma checks_resting (hidle : s.xIsBusy = false) :
    core s.checkParity.checkRxNack.checkCwt.checkBwt.checkRxData = core s ∧
      s.checkParity.checkRxNack.checkCwt.checkBwt.checkRxData.transferState =
        if s.cwtServed then .idle else s.transferState := by
  have hunblock (s' : Sys) (h : s'.xIsBusy = false) : unblock s' = s' := by
    rw [unblock, if_neg (by rw [h]; exact Bool.false_ne_true)]
  have hbusy {s' : Sys} (h : core s' = core s) : s'.xIsBusy = false := (congrArg Core.xIsBusy h).trans hidle
  obtain ⟨s₁, hs₁⟩ : ∃ s₁, s₁ = s.checkParity := ⟨_, rfl⟩
  have hcore₁ : core s₁ = core s := hs₁ ▸ checkParity_core s
  have hstate₁ : s₁.transferState = s.transferState ∧ s₁.cwtServed = s.cwtServed := by
    rw [hs₁, checkParity]
    split <;> exact ⟨rfl, rfl⟩
  obtain ⟨s₂, hs₂⟩ : ∃ s₂, s₂ = s₁.checkRxNack := ⟨_, rfl⟩
  have hcore₂ : core s₂ = core s := by
    rw [hs₂, checkRxNack_checks.idle (hbusy hcore₁), hcore₁]
  have hstate₂ : s₂.transferState = s.transferState ∧ s₂.cwtServed = s.cwtServed := by
    rw [hs₂, checkRxNack]
    split
    · rw [hunblock s₁.noteRxNack (hbusy hcore₁)]
      exact hstate₁
    · exact hstate₁
  obtain ⟨s₃, hs₃⟩ : ∃ s₃, s₃ = s₂.checkCwt := ⟨_, rfl⟩
  have hcore₃ : core s₃ = core s := by
    rw [hs₃, checkCwt_checks.idle (hbusy hcore₂), hcore₂]
  have hstate₃ : s₃.transferState = if s.cwtServed then .idle else s.transferState := by
    rw [hs₃, checkCwt, hstate₂.2]
    split
    · rw [hunblock s₂.noteCwt (hbusy hcore₂)]
      rfl
    · exact hstate₂.1
  obtain ⟨s₄, hs₄⟩ : ∃ s₄, s₄ = s₃.checkBwt := ⟨_, rfl⟩
  have hcore₄ : core s₄ = core s := by
    rw [hs₄, checkBwt_checks.idle (hbusy hcore₃), hcore₃]
  have hstate₄ : s₄.transferState = s₃.transferState := by
    rw [hs₄, checkBwt]
    split
    · rw [hunblock s₃.noteBwt (hbusy hcore₃)]
      rfl
    · rfl
  have hstate₅ : s₄.checkRxData.transferState = s₄.transferState := by
    unfold checkRxData
    split
    · dsimp only
      split <;> rfl
    · rfl
  rw [← hs₁, ← hs₂, ← hs₃, ← hs₄]
  exact ⟨(checkRxData_core s₄).trans hcore₄, hstate₅.trans (hstate₄.trans hstate₃)⟩

lemma serve_resting (hsound : Sound txFifoEntryCount rxFifoThreshold (core s)) (h : Resting (core s))
    (hnothing : s.xSize = 0 ∨ (s.rdtServed = true →
      if s.transferState = .waitingForTS then s.rxFifo.tail = [] else s.rxFifo = [])) :
    Inv txFifoEntryCount rxFifoThreshold (core (if s.rdtServed ∧ s.transferState = .waitingForTS then s.serveTS
      else ((s.checkRdt rxFifoThreshold).checkEtc).checkTdt txFifoEntryCount)) := by
  cases hserved : s.rdtServed with
  | false =>
    rw [if_neg (fun hf => Bool.false_ne_true hf.1), checkRdt_of_not hserved, transmit_of_masked h.masked]
    exact ⟨hsound, Or.inr (Or.inr h)⟩
  | true =>
    by_cases hts : s.transferState = .waitingForTS
    · rw [if_pos ⟨rfl, hts⟩]
      have hcore := takeTS_core s
      have hsize : s.takeTS.xSize = s.xSize := congrArg Core.xSize hcore
      have hrxFifo : s.takeTS.rxFifo = s.rxFifo.tail := congrArg Core.rxFifo hcore
      have hsound' : Sound txFifoEntryCount rxFifoThreshold (core s.takeTS) := by
        rw [hcore]
        exact { hsound with }
      have hrest : Resting (core s.takeTS) := by
        rw [hcore]
        exact { h with }
      refine (completeReceiveData_resting .received hsound' hrest ?_).inv
      rw [hsize, hrxFifo]
      refine hnothing.imp_right (fun hstore => ?_)
      have htail := hstore hserved
      rwa [if_pos hts] at htail
    · rw [if_neg (fun hf => hts hf.2)]
      have hnone : s.xSize = 0 ∨ s.rxFifo = [] := by
        refine hnothing.imp_right (fun hstore => ?_)
        have hempty := hstore hserved
        rwa [if_neg hts] at hempty
      have hopen : Inv txFifoEntryCount rxFifoThreshold (core (s.checkRdt rxFifoThreshold)) ∧
          (s.checkRdt rxFifoThreshold).intMask.tdt = true ∧ (s.checkRdt rxFifoThreshold).intMask.etc = true := by
        unfold checkRdt
        rw [if_pos hserved, storeBytes_of_nothing _ hnone]
        dsimp only
        split
        · have hended := completeReceiveData_resting .received hsound h hnone
          exact ⟨hended.inv, hended.2.1.masked⟩
        · split
          next hfew => exact ⟨⟨{ hsound with threshold := le_of_lt hfew }, Or.inr (Or.inr { h with })⟩, h.masked⟩
          next => exact ⟨⟨hsound, Or.inr (Or.inr h)⟩, h.masked⟩
      rw [transmit_of_masked hopen.2]
      exact hopen.1

lemma irqHandler_resting (hsound : Sound txFifoEntryCount rxFifoThreshold (core s)) (h : Resting (core s))
    (hallowed : IrqAllowed s) :
    Inv txFifoEntryCount rxFifoThreshold (core (s.irqHandler txFifoEntryCount rxFifoThreshold)) := by
  have hinv : Inv txFifoEntryCount rxFifoThreshold (core s) := ⟨hsound, Or.inr (Or.inr h)⟩
  have hidle : s.xIsBusy = false := hsound.busy.trans h.inProgress
  cases hpresence : s.flags.presence with
  | true =>
    rw [irqHandler, if_pos hpresence]
    exact hinv
  | false =>
    rw [IrqAllowed, hpresence, hidle, if_neg Bool.false_ne_true] at hallowed
    have hstore := hallowed.resolve_left Bool.false_ne_true
    cases hgpcnt0 : s.gpcnt0Served with
    | true =>
      have hrx : s.xSize = 0 ∨ s.rxFifo = [] := by
        simpa only [toStore, hgpcnt0, Bool.true_or, if_true] using hstore
      simp only [irqHandler, hpresence, hgpcnt0, Bool.false_eq_true, if_false, if_true]
      exact (completeReceiveData_resting (s := s.noteInitCharTimer) _ { hsound with } { h with } hrx).inv
    | false =>
      cases hgpcnt1 : s.gpcnt1Served with
      | true =>
        have hrx : s.xSize = 0 ∨ s.rxFifo = [] := by
          simpa only [toStore, hgpcnt1, Bool.or_true, if_true] using hstore
        simp only [irqHandler, hpresence, hgpcnt0, hgpcnt1, Bool.false_eq_true, if_false, if_true]
        exact (completeReceiveData_resting (s := s.noteAdt) _ { hsound with } { h with } hrx).inv
      | false =>
        have htnte' := checkParity_tnte s
        cases htnte : s.flags.tnte with
        | true =>
          simp only [irqHandler, hpresence, hgpcnt0, hgpcnt1, htnte', htnte, Bool.false_eq_true, if_false, if_true]
          obtain ⟨hend, hrest⟩ := serveTxNack_rested hinv
          exact ⟨hend, Or.inr (Or.inr hrest)⟩
        | false =>
          simp only [irqHandler, hpresence, hgpcnt0, hgpcnt1, htnte', htnte, Bool.false_eq_true, if_false]
          obtain ⟨hcore, hstate⟩ := checks_resting hidle
          obtain ⟨s', hs'⟩ : ∃ s', s' = s.checkParity.checkRxNack.checkCwt.checkBwt.checkRxData := ⟨_, rfl⟩
          rw [← hs'] at hcore hstate ⊢
          have hsize : s'.xSize = s.xSize := congrArg Core.xSize hcore
          have hrxFifo : s'.rxFifo = s.rxFifo := congrArg Core.rxFifo hcore
          have hserved : s'.rdtServed = s.rdtServed := by
            have hmask : s'.intMask.rdt = s.intMask.rdt := congrArg Core.rdtMask hcore
            have hrdt : s'.rdt = s.rdt := congrArg Core.rdt hcore
            rw [rdtServed, rdtServed, hmask, hrdt, hrxFifo]
          refine serve_resting (hcore ▸ hsound) (hcore ▸ h) ?_
          rw [hsize, hserved, hrxFifo, hstate]
          refine hstore.imp_right (fun hempty hrdt => ?_)
          simp only [toStore, hgpcnt0, hgpcnt1, htnte, hrdt, Bool.or_self, Bool.not_true, Bool.false_eq_true,
            if_false] at hempty
          cases hcwt : s.cwtServed with
          | true =>
            rw [hcwt, if_neg (fun hf => Bool.false_ne_true hf.2.symm)] at hempty
            rw [if_pos rfl, if_neg (by decide)]
            exact hempty
          | false =>
            rw [if_neg Bool.false_ne_true]
            by_cases hts : s.transferState = .waitingForTS
            · rw [if_pos ⟨hts, hcwt⟩] at hempty
              rw [if_pos hts]
              exact hempty
            · rw [if_neg (fun hf => hts hf.1)] at hempty
              rw [if_neg hts]
              exact hempty

end Handler

end McuxDrivers.Smartcard
