import McuxDrivers.Lib.Runs
import McuxDrivers.Lpuart.Driver

/-!
# The receive interrupt stays enabled

A ring buffer or a pending request needs the receive-data interrupt. Every function keeps it enabled,
except that the idle-line handler turns it off when no request is left, ring buffer or not.
-/

namespace McuxDrivers.Lpuart
open McuxDrivers.Lib

/-- The calls of the driver, and the arrival of a character in between. -/
inductive Call
  | arrive (c : Nat)
  | createHandle (callback : Bool)
  | startRingBuffer (ringBuffer : Nat → Nat) (ringBufferSize : Nat)
  | stopRingBuffer
  | receiveNonBlocking (xfer : Xfer)
  | abortReceive
  | handleIRQ (status : Flags) (txRoom : Nat)

def call (s : Sys) : Call → Sys
  | .arrive c => { s with rxFifo := s.rxFifo ++ [c] }
  | .createHandle callback => transferCreateHandle s callback
  | .startRingBuffer ringBuffer ringBufferSize => transferStartRingBuffer s ringBuffer ringBufferSize
  | .stopRingBuffer => transferStopRingBuffer s
  | .receiveNonBlocking xfer => (transferReceiveNonBlocking s xfer).2
  | .abortReceive => transferAbortReceive s
  | .handleIRQ status txRoom => transferHandleIRQ s status txRoom

/-- Whoever needs characters gets the interrupt, and the state says whether a request is pending. -/
structure Listening (s : Sys) : Prop where
  rie : s.handle.rxRingBuffer.isSome ∨ s.handle.rxDataSize ≠ 0 → s.ctrl.rie
  busy : s.handle.rxState = .busy ↔ s.handle.rxDataSize ≠ 0

/-- The interrupt handler does not find an idle line, with its interrupt enabled, while there is a ring
buffer and the characters in the FIFO are enough for the pending request, if any. -/
def IdleLineSpared (s : Sys) : Call → Prop
  | .handleIRQ status _ =>
    ¬ (s.handle.rxRingBuffer.isSome ∧ status.idleLine ∧ s.ctrl.ilie ∧ s.handle.rxDataSize ≤ rxCount s)
  | _ => True

instance : (s : Sys) → (c : Call) → Decidable (IdleLineSpared s c)
  | s, .handleIRQ status _ => inferInstanceAs (Decidable (¬ (s.handle.rxRingBuffer.isSome ∧
      status.idleLine ∧ s.ctrl.ilie ∧ s.handle.rxDataSize ≤ rxCount s)))
  | _, .arrive _ | _, .createHandle _ | _, .startRingBuffer _ _ | _, .stopRingBuffer
  | _, .receiveNonBlocking _ | _, .abortReceive => isTrue trivial

section Frame

variable {s : Sys}

@[simp]
lemma invokeCallback_handle (s : Sys) (status : Status) : (invokeCallback s status).handle = s.handle := by
  unfold invokeCallback
  split <;> rfl

@[simp]
lemma invokeCallback_ctrl (s : Sys) (status : Status) : (invokeCallback s status).ctrl = s.ctrl := by
  unfold invokeCallback
  split <;> rfl

@[simp]
lemma invokeCallback_rxFifo (s : Sys) (status : Status) : (invokeCallback s status).rxFifo = s.rxFifo := by
  unfold invokeCallback
  split <;> rfl

/-- Copying from the ring moves its tail and nothing else of the handle. -/
lemma copyFromRing_handle (ringBuffer : Nat → Nat) (n : Nat) (s : Sys) :
    ∃ tail, (copyFromRing ringBuffer n s).handle = { s.handle with rxRingBufferTail := tail } := by
  induction n generalizing s with
  | zero => exact ⟨_, rfl⟩
  | succ n ih =>
    obtain ⟨tail, htail⟩ := ih { s with
      handed := s.handed ++ [ringBuffer s.handle.rxRingBufferTail]
      handle := { s.handle with
        rxRingBufferTail := advance s.handle.rxRingBufferSize s.handle.rxRingBufferTail } }
    exact ⟨tail, htail⟩

/-- A request leaves the ring buffer installed, or not installed. -/
@[simp]
lemma transferReceiveNonBlocking_rxRingBuffer (s : Sys) (xfer : Xfer) :
    (transferReceiveNonBlocking s xfer).2.handle.rxRingBuffer = s.handle.rxRingBuffer := by
  unfold transferReceiveNonBlocking
  split
  · rfl
  · split
    next ringBuffer hring =>
      obtain ⟨tail, htail⟩ := copyFromRing_handle ringBuffer
        (min xfer.dataSize (transferGetRxRingBufferLength s.handle))
        { s with ctrl := { s.ctrl with rie := false, orie := false } }
      by_cases hmore : xfer.dataSize - min xfer.dataSize (transferGetRxRingBufferLength s.handle) = 0
      · simp [hmore, htail]
      · simp [hmore, saveRequest, htail]
    · rfl

end Frame

/-- The invariant is about three fields of the handle and one enable. -/
lemma Listening.congr {s s' : Sys} (h : Listening s)
    (hring : s'.handle.rxRingBuffer.isSome = s.handle.rxRingBuffer.isSome)
    (hsize : s'.handle.rxDataSize = s.handle.rxDataSize) (hstate : s'.handle.rxState = s.handle.rxState)
    (hrie : s'.ctrl.rie = s.ctrl.rie) : Listening s' := by
  constructor
  · rw [hring, hsize, hrie]
    exact h.rie
  · rw [hsize, hstate]
    exact h.busy

lemma Listening.invokeCallback {s : Sys} (h : Listening s) (status : Status) :
    Listening (invokeCallback s status) :=
  h.congr (by simp) (by simp) (by simp) (by simp)

lemma Listening.receiveNonBlocking {s : Sys} (h : Listening s) (xfer : Xfer) :
    Listening (transferReceiveNonBlocking s xfer).2 := by
  have hpos := xfer.dataSize_pos
  unfold transferReceiveNonBlocking
  split
  · exact h
  next hidle =>
    split
    next ringBuffer hring =>
      have hnone : s.handle.rxDataSize = 0 := not_not.mp (fun hne => hidle (h.busy.mpr hne))
      obtain ⟨tail, htail⟩ := copyFromRing_handle ringBuffer
        (min xfer.dataSize (transferGetRxRingBufferLength s.handle))
        { s with ctrl := { s.ctrl with rie := false, orie := false } }
      by_cases hmore : xfer.dataSize - min xfer.dataSize (transferGetRxRingBufferLength s.handle) = 0
      · simp only [hmore, ne_eq, not_true_eq_false, if_false, if_true]
        apply Listening.invokeCallback
        exact ⟨fun _ => rfl, by rw [htail]; exact h.busy⟩
      · simp only [hmore, ne_eq, not_false_eq_true, if_true, if_false]
        exact ⟨fun _ => rfl, iff_of_true rfl hmore⟩
    · exact ⟨fun _ => rfl, iff_of_true rfl hpos.ne'⟩

lemma Listening.rxIdleCallback {s : Sys} (h : Listening s) : Listening (rxIdleCallback s) := by
  have hnext (rest : List (Option Xfer)) :
      Listening { Lpuart.invokeCallback s .rxIdle with onRxIdle := rest } :=
    (h.invokeCallback .rxIdle).congr rfl rfl rfl rfl
  unfold Lpuart.rxIdleCallback
  split
  · split
    · exact h.invokeCallback _
    · exact hnext _
    · exact (hnext _).receiveNonBlocking _
  · exact h

section Serve

@[simp]
lemma rxIdleCallback_rxRingBuffer (s : Sys) :
    (rxIdleCallback s).handle.rxRingBuffer = s.handle.rxRingBuffer := by
  unfold rxIdleCallback
  split
  · split <;> simp
  · rfl

lemma serveRound_rxRingBuffer (s : Sys) (n : Nat) :
    (serveRound s n).handle.rxRingBuffer = s.handle.rxRingBuffer := by
  unfold serveRound
  dsimp only
  split
  · exact rxIdleCallback_rxRingBuffer _
  · rfl

lemma serveRequest_rxRingBuffer (fuel count : Nat) (s : Sys) :
    (serveRequest fuel count s).2.handle.rxRingBuffer = s.handle.rxRingBuffer := by
  induction fuel generalizing count s with
  | zero => rfl
  | succ fuel ih =>
    rw [serveRequest]
    split
    · exact (ih _ _).trans (serveRound_rxRingBuffer s _)
    · rfl

lemma Listening.serveRound {s : Sys} (h : Listening s) (hpending : s.handle.rxDataSize ≠ 0) (n : Nat) :
    Listening (serveRound s n) := by
  have hrie : s.ctrl.rie = true := h.rie (Or.inr hpending)
  unfold Lpuart.serveRound
  by_cases hzero : s.handle.rxDataSize - n = 0
  · simp only [readNonBlocking, hzero, if_true]
    apply Listening.rxIdleCallback
    exact ⟨fun _ => hrie, iff_of_false nofun (not_not_intro rfl)⟩
  · simp only [readNonBlocking, hzero, if_false]
    exact ⟨fun _ => hrie, iff_of_true (h.busy.mpr hpending) hzero⟩

lemma Listening.serveRequest (fuel count : Nat) {s : Sys} (h : Listening s) :
    Listening (serveRequest fuel count s).2 := by
  induction fuel generalizing count s with
  | zero => exact h
  | succ fuel ih =>
    rw [Lpuart.serveRequest]
    split
    next hpending => exact ih _ (h.serveRound hpending.1 _)
    · exact h

lemma serveRequest_rxDataSize_ne_zero (fuel count : Nat) {s : Sys} (hlt : count < s.handle.rxDataSize) :
    (serveRequest fuel count s).2.handle.rxDataSize ≠ 0 := by
  induction fuel generalizing count s with
  | zero => exact Nat.ne_zero_of_lt hlt
  | succ fuel ih =>
    rw [serveRequest]
    split
    · have hmin : min s.handle.rxDataSize count = count := Nat.min_eq_right hlt.le
      have hmore : s.handle.rxDataSize - count ≠ 0 := Nat.sub_ne_zero_of_lt hlt
      have hround : (serveRound s count).handle.rxDataSize = s.handle.rxDataSize - count := by
        simp only [serveRound, readNonBlocking, hmore, if_false]
      simp only [hmin]
      apply ih
      rw [hround]
      omega
    · exact Nat.ne_zero_of_lt hlt

end Serve

/-- The idle-line handler is harmless without a ring buffer, or while the request stays pending. -/
lemma Listening.handleIDLEReady {s : Sys} (h : Listening s)
    (hspared : ¬ (s.handle.rxRingBuffer.isSome ∧ s.handle.rxDataSize ≤ rxCount s)) :
    Listening (transferHandleIDLEReady s) := by
  have hserve := h.serveRequest (rxCount s) (rxCount s)
  unfold transferHandleIDLEReady
  dsimp only
  split
  next hzero =>
    have hring : ¬ s.handle.rxRingBuffer.isSome := by
      intro hsome
      refine serveRequest_rxDataSize_ne_zero (rxCount s) (rxCount s) ?_ hzero
      exact not_le.mp (fun hle => hspared ⟨hsome, hle⟩)
    refine ⟨fun hneeds => ?_, hserve.busy⟩
    rcases hneeds with hsome | hpending
    · exact absurd ((serveRequest_rxRingBuffer _ _ s) ▸ hsome) hring
    · exact absurd hzero hpending
  · exact hserve.invokeCallback _

lemma Listening.storeToRing {s : Sys} (h : Listening s) {ringBuffer : Nat → Nat}
    (hring : s.handle.rxRingBuffer = some ringBuffer) : Listening (storeToRing ringBuffer s) := by
  have hsome : s.handle.rxRingBuffer.isSome = true := by rw [hring, Option.isSome_some]
  unfold Lpuart.storeToRing
  by_cases hfull : transferIsRxRingBufferFull s.handle
  · simp only [hfull, if_true, invokeCallback_handle]
    exact h.congr hsome.symm rfl rfl (by simp)
  · simp only [hfull, if_false, Bool.false_eq_true]
    exact h.congr hsome.symm rfl rfl rfl

lemma Listening.fillRing (count : Nat) {s : Sys} (h : Listening s) : Listening (fillRing count s) := by
  induction count generalizing s with
  | zero => exact h
  | succ count ih =>
    rw [Lpuart.fillRing]
    split
    next ringBuffer hring => exact ih (h.storeToRing hring)
    · exact h

lemma Listening.handleReceiveDataFull {s : Sys} (h : Listening s) :
    Listening (transferHandleReceiveDataFull s) := by
  have hserve := h.serveRequest (rxCount s) (rxCount s)
  unfold transferHandleReceiveDataFull
  dsimp only
  split
  · exact hserve.fillRing _
  next hring =>
    split
    next hzero =>
      refine ⟨fun hneeds => ?_, hserve.busy⟩
      rcases hneeds with hsome | hpending
      · exact absurd hsome hring
      · exact absurd hzero hpending
    · exact hserve

lemma Listening.handleSendDataEmpty {s : Sys} (h : Listening s) (count : Nat) :
    Listening (transferHandleSendDataEmpty s count) := by
  unfold transferHandleSendDataEmpty
  split
  · dsimp only
    split
    · exact h.congr rfl rfl rfl rfl
    · exact h.congr rfl rfl rfl rfl
  · exact h

lemma Listening.handleTransmissionComplete {s : Sys} (h : Listening s) :
    Listening (transferHandleTransmissionComplete s) := by
  apply Listening.invokeCallback
  exact h.congr rfl rfl rfl rfl

/-- The handler's first callback changes neither the handle nor the FIFO. -/
def afterOverrun (s : Sys) (status : Flags) : Sys :=
  if status.rxOverrun then invokeCallback s .rxHardwareOverrun else s

@[simp]
lemma afterOverrun_handle (s : Sys) (status : Flags) : (afterOverrun s status).handle = s.handle := by
  unfold afterOverrun
  split <;> simp

@[simp]
lemma rxCount_afterOverrun (s : Sys) (status : Flags) : rxCount (afterOverrun s status) = rxCount s := by
  unfold afterOverrun
  split <;> simp [rxCount]

/-- What holds after the idle-line part of the interrupt handler and is kept by the other parts holds in
the end. -/
lemma handleIRQ_of {P : Sys → Prop} (s : Sys) (status : Flags) (txRoom : Nat)
    (hidle : P (if status.idleLine ∧ s.ctrl.ilie then transferHandleIDLEReady (afterOverrun s status)
      else afterOverrun s status))
    (hfull : ∀ s, P s → P (transferHandleReceiveDataFull s))
    (hsend : ∀ s, P s → P (transferHandleSendDataEmpty s txRoom))
    (hcomplete : ∀ s, P s → P (transferHandleTransmissionComplete s)) :
    P (transferHandleIRQ s status txRoom) := by
  have hif (c : Prop) [Decidable c] (f : Sys → Sys) (hf : ∀ s, P s → P (f s)) (s : Sys) (hs : P s) :
      P (if c then f s else s) := by
    split
    · exact hf s hs
    · exact hs
  unfold transferHandleIRQ
  apply hif _ _ hcomplete
  apply hif _ (fun s => transferHandleSendDataEmpty s txRoom) hsend
  apply hif _ _ hfull
  exact hidle

lemma Listening.handleIRQ {s : Sys} (h : Listening s) (status : Flags) (txRoom : Nat)
    (hspared : IdleLineSpared s (.handleIRQ status txRoom)) : Listening (transferHandleIRQ s status txRoom) := by
  have hoverrun : Listening (afterOverrun s status) := by
    unfold afterOverrun
    split
    · exact h.invokeCallback _
    · exact h
  apply handleIRQ_of
  · split
    next henabled =>
      apply hoverrun.handleIDLEReady
      rw [afterOverrun_handle, rxCount_afterOverrun]
      exact fun hbad => hspared ⟨hbad.1, henabled.1, henabled.2, hbad.2⟩
    · exact hoverrun
  · exact fun s hs => hs.handleReceiveDataFull
  · exact fun s hs => hs.handleSendDataEmpty txRoom
  · exact fun s hs => hs.handleTransmissionComplete

/-- Every call that spares the ring keeps the interrupt. -/
lemma Listening.call {s : Sys} (h : Listening s) (c : Call) (hspared : IdleLineSpared s c) :
    Listening (call s c) := by
  cases c with
  | arrive c => exact h.congr rfl rfl rfl rfl
  | createHandle callback => exact ⟨nofun, iff_of_false nofun (not_not_intro rfl)⟩
  | startRingBuffer ringBuffer ringBufferSize => exact ⟨fun _ => rfl, h.busy⟩
  | stopRingBuffer =>
    refine ⟨fun hneeds => ?_, h.busy⟩
    have hpending : s.handle.rxDataSize ≠ 0 := by
      rcases hneeds with hring | hpending
      · nomatch hring
      · exact hpending
    have hbusy : s.handle.rxState = .busy := h.busy.mpr hpending
    simpa [Lpuart.call, transferStopRingBuffer, hbusy] using h.rie (Or.inr hpending)
  | receiveNonBlocking xfer => exact h.receiveNonBlocking xfer
  | abortReceive =>
    refine ⟨fun hneeds => ?_, iff_of_false nofun (not_not_intro rfl)⟩
    have hring : s.handle.rxRingBuffer.isSome := by
      rcases hneeds with hring | hpending
      · exact hring
      · exact absurd rfl hpending
    obtain ⟨ringBuffer, hsome⟩ := Option.isSome_iff_exists.mp hring
    simpa [Lpuart.call, transferAbortReceive, hsome] using h.rie (Or.inl hring)
  | handleIRQ status txRoom => exact h.handleIRQ status txRoom hspared

/-- From a new handle on, whatever the state of the peripheral and whatever requests the user's callback
makes, a run whose interrupts spare the ring buffer never loses the receive interrupt. -/
theorem listening_of_idleLine_spared (s : Sys) (callback : Bool) (calls : List Call)
    (hspared : EachStep call IdleLineSpared (transferCreateHandle s callback) calls) :
    Listening (calls.foldl call (transferCreateHandle s callback)) := by
  apply EachStep.invariant _ calls hspared
  · exact ⟨nofun, iff_of_false nofun (not_not_intro rfl)⟩
  · intro s c h hc
    exact h.call c hc

/-- A request completed from the ring's interrupt, then an idle line while the next request is pending. -/
theorem listening_of_idleLine_spared_request :
    Listening
      ([.startRingBuffer (fun _ => 0) 4, .receiveNonBlocking ⟨1, by decide⟩, .arrive 7,
          .handleIRQ ⟨false, false, true, false, false⟩ 0, .stopRingBuffer, .receiveNonBlocking ⟨2, by decide⟩,
          .arrive 8, .handleIRQ ⟨false, true, false, false, false⟩ 0].foldl call
        (transferCreateHandle (reset []) true)) :=
  listening_of_idleLine_spared (reset []) true _ (by decide)

/-- A request is made, then a ring buffer is installed; the idle line that completes the request turns
the interrupt off. -/
theorem idleLine_deafens_ring :
    ¬ ∀ (s : Sys) (callback : Bool) (calls : List Call),
      Listening (calls.foldl call (transferCreateHandle s callback)) := by
  intro h
  have hrie := (h (reset []) true [.receiveNonBlocking ⟨1, by decide⟩, .startRingBuffer (fun _ => 0) 4, .arrive 7,
    .handleIRQ ⟨false, true, false, false, false⟩ 0]).rie (Or.inl rfl)
  exact absurd hrie (by decide)

section Deaf

/-- A ring buffer that no interrupt fills. -/
structure Deaf (s : Sys) : Prop where
  ring : s.handle.rxRingBuffer.isSome
  rxDataSize : s.handle.rxDataSize = 0
  rie : s.ctrl.rie = false

lemma Deaf.congr {s s' : Sys} (h : Deaf s) (hring : s'.handle.rxRingBuffer.isSome = s.handle.rxRingBuffer.isSome)
    (hsize : s'.handle.rxDataSize = s.handle.rxDataSize) (hrie : s'.ctrl.rie = s.ctrl.rie) : Deaf s' :=
  ⟨hring.trans h.ring, hsize.trans h.rxDataSize, hrie.trans h.rie⟩

lemma serveRequest_of_rxDataSize_eq_zero (fuel count : Nat) {s : Sys} (hzero : s.handle.rxDataSize = 0) :
    serveRequest fuel count s = (count, s) := by
  cases fuel with
  | zero => rfl
  | succ fuel => rw [serveRequest, if_neg (fun hpending => hpending.1 hzero)]

/-- A request that the FIFO can serve is served, when the callback makes no other. -/
lemma serveRequest_rxDataSize_eq_zero {fuel count : Nat} {s : Sys} (hfuel : count ≤ fuel)
    (hle : s.handle.rxDataSize ≤ count) (hpassive : s.onRxIdle = []) :
    (serveRequest fuel count s).2.handle.rxDataSize = 0 := by
  by_cases hzero : s.handle.rxDataSize = 0
  · rw [serveRequest_of_rxDataSize_eq_zero fuel count hzero]
    exact hzero
  · obtain ⟨fuel, rfl⟩ : ∃ n, fuel = n + 1 := ⟨fuel - 1, by omega⟩
    have hmin : min s.handle.rxDataSize count = s.handle.rxDataSize := Nat.min_eq_left hle
    have hround : (serveRound s s.handle.rxDataSize).handle.rxDataSize = 0 := by
      simp only [serveRound, readNonBlocking, Nat.sub_self, if_true]
      unfold rxIdleCallback
      split
      · simp [hpassive]
      · rfl
    rw [serveRequest, if_pos ⟨hzero, by omega⟩]
    simp only [hmin]
    rw [serveRequest_of_rxDataSize_eq_zero _ _ hround]
    exact hround

lemma Deaf.fillRing (count : Nat) {s : Sys} (h : Deaf s) : Deaf (fillRing count s) := by
  induction count generalizing s with
  | zero => exact h
  | succ count ih =>
    obtain ⟨ringBuffer, hring⟩ := Option.isSome_iff_exists.mp h.ring
    rw [Lpuart.fillRing, hring]
    apply ih
    unfold storeToRing
    by_cases hfull : transferIsRxRingBufferFull s.handle
    · simp only [hfull, if_true, invokeCallback_handle]
      exact h.congr h.ring.symm rfl (by simp)
    · simp only [hfull, if_false, Bool.false_eq_true]
      exact h.congr h.ring.symm rfl rfl

lemma deaf_handleIDLEReady {s : Sys} (hring : s.handle.rxRingBuffer.isSome)
    (hle : s.handle.rxDataSize ≤ rxCount s) (hpassive : s.onRxIdle = []) : Deaf (transferHandleIDLEReady s) := by
  have hzero := serveRequest_rxDataSize_eq_zero (le_refl (rxCount s)) hle hpassive
  have hsame := serveRequest_rxRingBuffer (rxCount s) (rxCount s) s
  unfold transferHandleIDLEReady
  simp only [hzero, if_true]
  exact ⟨hsame ▸ hring, hzero, rfl⟩

lemma Deaf.handleReceiveDataFull {s : Sys} (h : Deaf s) : Deaf (transferHandleReceiveDataFull s) := by
  unfold transferHandleReceiveDataFull
  rw [serveRequest_of_rxDataSize_eq_zero _ _ h.rxDataSize]
  simp only [h.ring, if_true]
  exact h.fillRing _

lemma Deaf.handleSendDataEmpty {s : Sys} (h : Deaf s) (count : Nat) :
    Deaf (transferHandleSendDataEmpty s count) := by
  unfold transferHandleSendDataEmpty
  split
  · dsimp only
    split
    · exact h.congr rfl rfl rfl
    · exact h.congr rfl rfl rfl
  · exact h

lemma Deaf.handleTransmissionComplete {s : Sys} (h : Deaf s) : Deaf (transferHandleTransmissionComplete s) :=
  h.congr (by simp [transferHandleTransmissionComplete]) (by simp [transferHandleTransmissionComplete])
    (by simp [transferHandleTransmissionComplete])

/-- With a callback that makes no requests the condition is exact: a call that does not spare the ring
buffer leaves it without its interrupt. -/
theorem listening_call_iff {s : Sys} (h : Listening s) (hpassive : s.onRxIdle = []) (c : Call) :
    Listening (call s c) ↔ IdleLineSpared s c := by
  constructor
  · intro hlistening
    by_contra hspared
    cases c with
    | handleIRQ status txRoom =>
      obtain ⟨hring, hflag, hilie, hle⟩ := not_not.mp hspared
      have hdeaf : Deaf (transferHandleIRQ s status txRoom) := by
        apply handleIRQ_of
        · rw [if_pos ⟨hflag, hilie⟩]
          apply deaf_handleIDLEReady
          · rw [afterOverrun_handle]
            exact hring
          · rw [afterOverrun_handle, rxCount_afterOverrun]
            exact hle
          · unfold afterOverrun invokeCallback
            split <;> (try split) <;> exact hpassive
        · exact fun s hs => hs.handleReceiveDataFull
        · exact fun s hs => hs.handleSendDataEmpty txRoom
        · exact fun s hs => hs.handleTransmissionComplete
      have hrie : (transferHandleIRQ s status txRoom).ctrl.rie = true := hlistening.rie (Or.inl hdeaf.ring)
      rw [hdeaf.rie] at hrie
      nomatch hrie
    | _ => exact hspared trivial
  · exact fun hspared => h.call c hspared

end Deaf

end McuxDrivers.Lpuart
