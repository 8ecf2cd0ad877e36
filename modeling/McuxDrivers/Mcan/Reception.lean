import McuxDrivers.Mcan.RxFifo

/-!
# Messages and receives of the MCAN driver

The handler reads a FIFO because its flag is set, whatever the application waits for, and it clears the flag after one message,
whatever is left in the FIFO. Where the flags that it samples are those of the pending receive and the FIFO is empty when its
flag is cleared, every message goes to the receive that asked for it.
-/

namespace McuxDrivers.Mcan
open McuxDrivers.Lib

variable {μ : Type}

namespace Reception

variable {s : Reception μ}

/-- The messages that were taken from a FIFO, in their order. -/
def takenFrom (s : Reception μ) (n : FifoBlock) : List μ :=
  (s.deliveries.filter fun d => d.fifoBlock = n).map Delivery.message

/-- No FIFO was read without a receive for it, every message went to the frame of a receive for its FIFO, the others are still
in their FIFO, and no handler run left a due receive behind. -/
structure Faithful (s : Reception μ) : Prop where
  no_stray : s.strayReads = 0
  delivered : ∀ d ∈ s.deliveries, ∃ r, d.request = some r ∧ r.fifoBlock = d.fifoBlock ∧ d.frame = some r.frame
  accounted : ∀ n, s.arrived n = s.takenFrom n ++ s.fifo n
  prompt : s.missed = 0

/-- The flag that the handler would act on is that of the pending receive. -/
def Awaited (s : Reception μ) : Prop :=
  ∀ n, s.ir.cause = .rxFifoNew n → s.request.map Request.fifoBlock = some n

instance (s : Reception μ) : Decidable s.Awaited :=
  inferInstanceAs (Decidable (∀ _, _ → _))

def Phase.isOutside : Phase → Bool
  | .outside => true
  | _ => false

def Phase.isCallback : Phase → Bool
  | .callback => true
  | _ => false

def Phase.handledCause : Phase → Option Cause
  | .handled cause => some cause
  | _ => none

/-- The handler samples the flags only while its next FIFO is the one that the application waits for, and it clears the flag of
a FIFO only when that FIFO is empty. -/
def Undisturbed (s : Reception μ) : FifoEvent μ → Prop
  | .handleIRQ => Phase.isOutside s.phase = true → s.Awaited
  | .handlerStep =>
    (Phase.isCallback s.phase = true → s.Awaited) ∧
      ∀ n, Phase.handledCause s.phase = some (.rxFifoNew n) → (s.fifo n).isEmpty = true
  | .arrive .. | .raise .. | .receive .. | .abort .. => True

instance (s : Reception μ) : (event : FifoEvent μ) → Decidable (s.Undisturbed event)
  | .handleIRQ => inferInstanceAs (Decidable (_ → _))
  | .handlerStep => inferInstanceAs (Decidable (_ ∧ ∀ _, _ → _))
  | .arrive .. | .raise .. | .receive .. | .abort .. => isTrue trivial

structure Inv (s : Reception μ) : Prop extends Faithful s where
  frame : s.rxFifoFrameBuf = s.request.map Request.frame
  busy : s.rxFifoBusy = s.request.isSome
  flagged : ∀ n, s.fifo n ≠ [] → s.ir.rxFifoNew n = true
  due : s.due = true → ∃ r, s.request = some r ∧ s.fifo r.fifoBlock ≠ []
  dueInRun : s.dueInRun = true → s.due = true
  sampled : ∀ ir n, s.phase = .sampled ir → ir.cause = .rxFifoNew n → s.request.map Request.fifoBlock = some n

namespace Inv

lemma transferCreateHandle : Inv (transferCreateHandle (μ := μ)) where
  no_stray := rfl
  delivered := nofun
  accounted := fun _ => rfl
  prompt := rfl
  frame := rfl
  busy := rfl
  flagged := fun _ h => absurd rfl h
  due := nofun
  dueInRun := nofun
  sampled := nofun

lemma arrive (h : Inv s) (n : FifoBlock) (message : μ) : Inv (s.arrive n message) :=
  { h with
    accounted := by
      intro k
      by_cases hk : k = n
      · subst hk
        simp [Reception.arrive, takenFrom, h.accounted k]
      · simpa [Reception.arrive, takenFrom, Function.update_of_ne hk] using h.accounted k
    flagged := by
      intro k hne
      by_cases hk : k = n
      · subst hk
        simp [Reception.arrive]
      · simp only [Reception.arrive, Function.update_of_ne hk] at hne ⊢
        exact h.flagged k hne
    due := by
      intro hdue
      obtain ⟨r, hr, hne⟩ := h.due hdue
      refine ⟨r, hr, ?_⟩
      by_cases hk : r.fifoBlock = n
      · simp [Reception.arrive, hk]
      · simpa [Reception.arrive, Function.update_of_ne hk] using hne }

lemma abort (h : Inv s) (n : FifoBlock) (hphase : ∀ ir, s.phase ≠ .sampled ir) : Inv (s.transferAbortReceiveFifo n) :=
  { h with
    frame := rfl
    busy := rfl
    due := nofun
    dueInRun := nofun
    sampled := fun ir _ hsampled => absurd hsampled (hphase ir) }

lemma receive (h : Inv s) (n : FifoBlock) (frame : Nat) (hphase : ∀ ir, s.phase ≠ .sampled ir) :
    Inv (s.transferReceiveFifoNonBlocking n frame) := by
  rw [transferReceiveFifoNonBlocking]
  split_ifs
  · exact h
  · exact { h with
      frame := rfl
      busy := rfl
      due := by
        intro hdue
        refine ⟨⟨n, frame⟩, rfl, ?_⟩
        simpa using hdue
      dueInRun := nofun
      sampled := fun ir _ hsampled => absurd hsampled (hphase ir) }

/-- The handler takes the first message of the FIFO that the application waits for. -/
lemma readRxFifo {n : FifoBlock} (h : Inv s) (hrequest : s.request.map Request.fifoBlock = some n) :
    Faithful (s.readRxFifo n s.rxFifoFrameBuf) ∧
      ∀ k, (s.readRxFifo n s.rxFifoFrameBuf).fifo k ≠ [] → s.ir.rxFifoNew k = true := by
  rw [Reception.readRxFifo]
  cases hfifo : s.fifo n with
  | nil => exact ⟨h.toFaithful, h.flagged⟩
  | cons message rest =>
    obtain ⟨r, hr, hn⟩ := Option.map_eq_some_iff.mp hrequest
    refine ⟨⟨h.no_stray, ?_, ?_, h.prompt⟩, ?_⟩
    · intro d hd
      rcases List.mem_append.mp hd with hd | hd
      · exact h.delivered d hd
      · rw [List.mem_singleton.mp hd]
        exact ⟨r, hr, hn, by rw [h.frame, hr]; rfl⟩
    · intro k
      have hk := h.accounted k
      by_cases hkn : k = n
      · subst hkn
        simpa [takenFrom, hfifo] using hk
      · simpa [takenFrom, Function.update_of_ne hkn, Ne.symm hkn] using hk
    · intro k hne
      by_cases hkn : k = n
      · subst hkn
        exact h.flagged k (by simp [hfifo])
      · simp only [Function.update_of_ne hkn] at hne
        exact h.flagged k hne

/-- Reading changes neither the flags nor the handle. -/
lemma readRxFifo_frame (s : Reception μ) (n : FifoBlock) (frame : Option Nat) :
    (s.readRxFifo n frame).ir = s.ir := by
  rw [Reception.readRxFifo]
  split <;> rfl

lemma handleCause {cause : Cause} (h : Inv s)
    (hrequest : ∀ n, cause = .rxFifoNew n → s.request.map Request.fifoBlock = some n) :
    Inv { s.handleCause cause with phase := .handled cause } := by
  cases cause with
  | rxFifoNew n =>
    have hn := hrequest n rfl
    obtain ⟨hfaithful, hflagged⟩ := h.readRxFifo hn
    have hsame : { s with strayReads := if s.request.map Request.fifoBlock = some n then s.strayReads
        else s.strayReads + 1 } = s := by
      rw [if_pos hn]
    rw [Reception.handleCause]
    dsimp only
    rw [hsame]
    exact { hfaithful with
      frame := rfl
      busy := rfl
      flagged := by
        intro k hne
        change (s.readRxFifo n s.rxFifoFrameBuf).ir.rxFifoNew k = true
        rw [readRxFifo_frame]
        exact hflagged k hne
      due := nofun
      dueInRun := nofun
      sampled := nofun }
  | errorFlags | txTransmitComplete | rxFifoLost | unsupported => exact { h with sampled := nofun }

/-- Clearing a flag, of a FIFO only when that FIFO is empty. -/
lemma clear {cause : Cause} (h : Inv s) (hempty : ∀ n, cause = .rxFifoNew n → (s.fifo n).isEmpty = true) :
    Inv { s with ir := s.ir.clear cause, phase := .callback } := by
  refine { h with flagged := ?_, sampled := nofun }
  intro k hne
  have hflag := h.flagged k hne
  cases cause with
  | rxFifoNew n =>
    have hk : k ≠ n := by
      rintro rfl
      exact hne (List.isEmpty_iff.mp (hempty k rfl))
    simpa [Ir.clear, Function.update_of_ne hk] using hflag
  | errorFlags | txTransmitComplete | rxFifoLost | unsupported => exact hflag

lemma flag_of_isZero {ir : Ir} (hzero : ir.isZero = true) (n : FifoBlock) : ir.rxFifoNew n = false := by
  simp only [Ir.isZero, Bool.and_eq_true, Bool.not_eq_eq_eq_not, Bool.not_true] at hzero
  match n with
  | 0 => exact hzero.1.1.1.1.2
  | 1 => exact hzero.1.1.1.2

/-- At the end of a handler run no flag is set, so no message waits for a due receive. -/
lemma nextRound (h : Inv s) (hawaited : s.Awaited) : Inv s.nextRound := by
  rw [Reception.nextRound]
  by_cases hzero : s.ir.isZero = true
  · have hdue : s.dueInRun = false := by
      cases hdue : s.dueInRun with
      | false => rfl
      | true =>
        obtain ⟨r, -, hne⟩ := h.due (h.dueInRun hdue)
        have hflag := h.flagged r.fifoBlock hne
        rw [flag_of_isZero hzero] at hflag
        cases hflag
    rw [if_pos hzero, hdue]
    exact { h with
      dueInRun := nofun
      sampled := nofun }
  · rw [if_neg hzero]
    exact { h with
      sampled := by
        intro ir n hsampled hcause
        cases hsampled
        exact hawaited n hcause }

lemma handlerStep (h : Inv s) (hcond : s.Undisturbed .handlerStep) : Inv s.handlerStep := by
  obtain ⟨hcallback, hhandled⟩ := hcond
  rw [Reception.handlerStep]
  cases hphase : s.phase with
  | outside => exact h
  | sampled valueIR => exact h.handleCause fun n hcause => h.sampled valueIR n hphase hcause
  | handled cause =>
    apply h.clear
    intro n hcause
    apply hhandled n
    rw [hphase, hcause]
    rfl
  | callback => exact h.nextRound (hcallback (by rw [hphase]; rfl))

lemma handleIRQ (h : Inv s) (hawaited : s.Awaited) : Inv s.handleIRQ :=
  { h with
    dueInRun := id
    sampled := by
      intro ir n hsampled hcause
      cases hsampled
      exact hawaited n hcause }

lemma not_sampled (hcall : s.mayCall = true) (ir : Ir) : s.phase ≠ .sampled ir := by
  intro hphase
  rw [mayCall, hphase] at hcall
  cases hcall

lemma step (h : Inv s) {event : FifoEvent μ} (hcond : s.Undisturbed event) : Inv (s.step event) := by
  cases event with
  | arrive n message => exact h.arrive n message
  | raise => exact { h with }
  | receive n frame =>
    rw [Reception.step]
    split_ifs with hcall
    · exact h.receive n frame (not_sampled hcall)
    · exact h
  | abort n =>
    rw [Reception.step]
    split_ifs with hcall
    · exact h.abort n (not_sampled hcall)
    · exact h
  | handleIRQ =>
    rw [Reception.step]
    cases hphase : s.phase with
    | outside => exact h.handleIRQ (hcond (by rw [hphase]; rfl))
    | sampled | handled | callback => exact h
  | handlerStep => exact h.handlerStep hcond

end Inv

end Reception

end McuxDrivers.Mcan
