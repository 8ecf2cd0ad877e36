import McuxDrivers.Lpi2c.Words

/-!
# What the controller does with the words

`Flow` says where the words and the bytes are: the words that have left the command FIFO have asked for
the bytes that the slave has sent and for those of the read command in progress.
-/

namespace McuxDrivers.Lpi2c
open Lib

variable {bus : Bus} {m : Machine}

/-- The state of the FIFOs when `read` bytes have been taken out of the receive FIFO. -/
structure Flow (bus : Bus) (m : Machine) (read : Nat) : Prop where
  lost : m.lost = false
  room : m.txFifo.length ≤ bus.fifoSize
  sent : ∃ sent, sent ++ m.txFifo = m.mtdr ∧ requested sent = m.taken + m.reading ∧
    ((∃ w ∈ sent, cmd w = 2) ↔ m.stopDetect = true)
  read_le : read ≤ m.taken
  held : m.rxFifo = (List.range' read (m.taken - read)).map bus.slave

/-- How much the controller has to do. -/
def load (m : Machine) : Nat :=
  257 * m.txFifo.length + m.reading

/-- The controller has gone on. -/
structure Later (m m' : Machine) : Prop where
  mtdr : m'.mtdr = m.mtdr
  memory : m'.memory = m.memory
  busBusy : m'.busBusy = m.busBusy
  txFifo : m'.txFifo <:+ m.txFifo
  rxFifo : m.rxFifo <+: m'.rxFifo
  stopDetect : m.stopDetect = true → m'.stopDetect = true
  load_le : load m' ≤ load m

lemma Later.refl (m : Machine) : Later m m :=
  ⟨rfl, rfl, rfl, List.suffix_refl _, List.prefix_refl _, id, le_refl _⟩

lemma Later.trans {m' m'' : Machine} (h : Later m m') (h' : Later m' m'') : Later m m'' where
  mtdr := h'.mtdr.trans h.mtdr
  memory := h'.memory.trans h.memory
  busBusy := h'.busBusy.trans h.busBusy
  txFifo := h'.txFifo.trans h.txFifo
  rxFifo := h.rxFifo.trans h'.rxFifo
  stopDetect := fun hstop => h'.stopDetect (h.stopDetect hstop)
  load_le := le_trans h'.load_le h.load_le

/-- The controller is not waiting for the driver. -/
def CanMove (bus : Bus) (m : Machine) : Prop :=
  0 < m.reading ∧ m.rxFifo.length < bus.fifoSize ∨ m.reading = 0 ∧ m.txFifo ≠ []

lemma asks_le (w : Word) : asks w ≤ 256 := by
  have hlt := (w.setWidth 8).isLt
  rw [asks]
  split <;> omega

lemma execute_eq (w : Word) (hreading : m.reading = 0) :
    execute w m = { m with reading := asks w, stopDetect := m.stopDetect || cmd w = 2 } := by
  rw [execute, asks]
  by_cases hread : cmd w = 1
  · rw [if_pos hread, if_pos hread]
    simp [hread]
  · rw [if_neg hread, if_neg hread]
    by_cases hstop : cmd w = 2
    · rw [if_pos hstop, ← hreading]
      simp [hstop]
    · rw [if_neg hstop, decide_eq_false hstop, Bool.or_false, ← hreading]

lemma advance_cases (bus : Bus) (m : Machine) :
    (¬ CanMove bus m ∧ advance bus m = m) ∨
      (0 < m.reading ∧ m.rxFifo.length < bus.fifoSize ∧ advance bus m = receiveByte bus m) ∨
      ∃ w rest, m.reading = 0 ∧ m.txFifo = w :: rest ∧
        advance bus m = { m with txFifo := rest, reading := asks w, stopDetect := m.stopDetect || cmd w = 2 } := by
  unfold advance
  by_cases hreading : m.reading > 0
  · rw [if_pos hreading]
    by_cases hroom : m.rxFifo.length < bus.fifoSize
    · rw [if_pos hroom]
      exact Or.inr (Or.inl ⟨hreading, hroom, rfl⟩)
    · rw [if_neg hroom]
      refine Or.inl ⟨?_, rfl⟩
      rintro (⟨-, hless⟩ | ⟨hzero, -⟩)
      · exact hroom hless
      · omega
  · rw [if_neg hreading]
    have hzero : m.reading = 0 := Nat.eq_zero_of_not_pos hreading
    cases hfifo : m.txFifo with
    | nil =>
      refine Or.inl ⟨?_, rfl⟩
      rintro (⟨hpos, -⟩ | ⟨-, hne⟩)
      · omega
      · exact hne hfifo
    | cons w rest =>
      refine Or.inr (Or.inr ⟨w, rest, hzero, rfl, ?_⟩)
      exact execute_eq (m := { m with txFifo := rest }) w hzero

lemma advance_later (bus : Bus) (m : Machine) : Later m (advance bus m) := by
  rcases advance_cases bus m with ⟨-, heq⟩ | ⟨hpos, -, heq⟩ | ⟨w, rest, hzero, hfifo, heq⟩
  · rw [heq]
    exact Later.refl m
  · rw [heq]
    exact ⟨rfl, rfl, rfl, List.suffix_refl _, List.prefix_append _ _, id, by simp [load, receiveByte]⟩
  · rw [heq]
    have hasks := asks_le w
    refine ⟨rfl, rfl, rfl, ?_, List.prefix_refl _, ?_, ?_⟩
    · rw [hfifo]
      exact List.suffix_cons w rest
    · intro hstop
      dsimp only
      rw [hstop, Bool.true_or]
    · simp only [load, hfifo, List.length_cons]
      omega

lemma CanMove.load_lt (h : CanMove bus m) : load (advance bus m) < load m := by
  rcases advance_cases bus m with ⟨hnot, -⟩ | ⟨hpos, -, heq⟩ | ⟨w, rest, hzero, hfifo, heq⟩
  · exact absurd h hnot
  · rw [heq]
    simp only [load, receiveByte]
    omega
  · rw [heq]
    have hasks := asks_le w
    simp only [load, hfifo, List.length_cons]
    omega

namespace Flow

variable {read : Nat}

lemma advance (h : Flow bus m read) : Flow bus (advance bus m) read := by
  rcases advance_cases bus m with ⟨-, heq⟩ | ⟨hpos, -, heq⟩ | ⟨w, rest, hzero, hfifo, heq⟩
  · rw [heq]
    exact h
  · rw [heq]
    obtain ⟨sent, hsent, hasked, hstop⟩ := h.sent
    refine ⟨h.lost, h.room, ⟨sent, hsent, ?_, hstop⟩, Nat.le_succ_of_le h.read_le, ?_⟩
    · simp only [receiveByte]
      omega
    · have hsub : m.taken + 1 - read = m.taken - read + 1 := Nat.succ_sub h.read_le
      simp only [receiveByte]
      rw [hsub, List.range'_concat, List.map_append, ← h.held, Nat.one_mul, Nat.add_sub_cancel' h.read_le]
      rfl
  · rw [heq]
    obtain ⟨sent, hsent, hasked, hstop⟩ := h.sent
    have hroom := h.room
    rw [hfifo, List.length_cons] at hroom
    refine ⟨h.lost, Nat.le_of_succ_le hroom, ⟨sent ++ [w], ?_, ?_, ?_⟩, h.read_le, h.held⟩
    · rw [← hsent, hfifo, List.append_assoc]
      rfl
    · rw [requested_append, hasked, hzero]
      rfl
    · simp only [List.mem_append, List.mem_singleton, or_and_right, exists_or, exists_eq_left, Bool.or_eq_true,
        decide_eq_true_eq, hstop]

lemma settle (h : Flow bus m read) : Flow bus (settle bus m) read := by
  have hiterate : Flow bus ((Lpi2c.advance bus)^[bus.ticks m.now] m) read :=
    Function.Iterate.rec (fun m => Flow bus m read) h (fun _ h => h.advance) _
  exact { hiterate with }

lemma push (h : Flow bus m read) (w : Word) (hroom : m.txFifo.length < bus.fifoSize) : Flow bus (push bus w m) read := by
  obtain ⟨sent, hsent, hasked, hstop⟩ := h.sent
  have hpush : Lpi2c.push bus w m = { m with mtdr := m.mtdr ++ [w], txFifo := m.txFifo ++ [w] } := by
    simp [Lpi2c.push, hroom]
  rw [hpush]
  refine ⟨h.lost, ?_, ⟨sent, ?_, hasked, hstop⟩, h.read_le, h.held⟩
  · rw [List.length_append]
    exact hroom
  · rw [← hsent, List.append_assoc]

/-- Where the bytes are that have been asked for. -/
lemma requested_eq (h : Flow bus m read) : requested m.mtdr = m.taken + m.reading + requested m.txFifo := by
  obtain ⟨sent, hsent, hasked, -⟩ := h.sent
  rw [← hsent, requested_append, hasked]

lemma length_rxFifo (h : Flow bus m read) : m.rxFifo.length = m.taken - read := by
  rw [h.held, List.length_map, List.length_range']

/-- When everything asked for has been read, the controller has only words to execute. -/
lemma quiet (h : Flow bus m read) (hall : requested m.mtdr = read) :
    m.reading = 0 ∧ m.rxFifo = [] ∧ requested m.txFifo = 0 := by
  have hsum := h.requested_eq
  have hle := h.read_le
  have hlength := h.length_rxFifo
  refine ⟨by omega, ?_, by omega⟩
  apply List.eq_nil_of_length_eq_zero
  omega

lemma canMove_of_quiet (h : Flow bus m read) (hall : requested m.mtdr = read) (hne : m.txFifo ≠ []) :
    CanMove bus m :=
  Or.inr ⟨(h.quiet hall).1, hne⟩

lemma canMove_of_missing (h : Flow bus m read) (hfifo : 0 < bus.fifoSize) (hmissing : read < requested m.mtdr)
    (hempty : m.rxFifo = []) : CanMove bus m := by
  have hsum := h.requested_eq
  have hle := h.read_le
  have hlength := h.length_rxFifo
  rw [hempty, List.length_nil] at hlength
  by_cases hreading : 0 < m.reading
  · refine Or.inl ⟨hreading, ?_⟩
    rw [hempty]
    exact hfifo
  · refine Or.inr ⟨by omega, ?_⟩
    intro hnil
    rw [hnil, show requested [] = 0 from rfl] at hsum
    omega

lemma store (h : Flow bus m read) (i : Nat) (hne : m.rxFifo ≠ []) :
    Flow bus (storeByte i m) (read + 1) ∧
      (storeByte i m).memory = Function.update m.memory i (bus.slave read) ∧
      (storeByte i m).rxFifo.length + 1 = m.rxFifo.length := by
  obtain ⟨b, rest, hrx⟩ := List.exists_cons_of_ne_nil hne
  have hlength := h.length_rxFifo
  rw [hrx, List.length_cons] at hlength
  have hheld := h.held
  have hsub : m.taken - read = m.taken - (read + 1) + 1 := by omega
  rw [hrx, hsub, List.range'_succ, List.map_cons] at hheld
  obtain ⟨hb, hrest⟩ := List.cons.inj hheld
  have hstore : storeByte i m = { m with rxFifo := rest, memory := Function.update m.memory i b } := by
    rw [storeByte, hrx]
  rw [hstore, hb, hrx]
  exact ⟨⟨h.lost, h.room, h.sent, by show read + 1 ≤ m.taken; omega, hrest⟩, rfl, rfl⟩

end Flow

lemma settle_later (bus : Bus) (m : Machine) : Later m (settle bus m) := by
  have hiterate : Later m ((advance bus)^[bus.ticks m.now] m) :=
    Function.Iterate.rec (Later m) (Later.refl m) (fun m' h => h.trans (advance_later bus m')) _
  exact { hiterate with }

/-- A word has been written. -/
structure Wrote (w : Word) (m m' : Machine) : Prop where
  mtdr : m'.mtdr = m.mtdr ++ [w]
  memory : m'.memory = m.memory
  txFifo : m'.txFifo.length ≤ m.txFifo.length + 1
  rxFifo : m.rxFifo <+: m'.rxFifo
  load_le : load m' ≤ load m + 257

lemma writeMtdr_wrote (bus : Bus) (w : Word) (m : Machine) : Wrote w m (writeMtdr bus w m) := by
  have hlater := settle_later bus m
  have htx := hlater.txFifo.length_le
  have hload := hlater.load_le
  have hpushed : (push bus w (settle bus m)).txFifo.length ≤ (settle bus m).txFifo.length + 1 := by
    simp only [push]
    split
    · exact (List.length_append).le
    · exact Nat.le_succ _
  have hreading : (push bus w (settle bus m)).reading = (settle bus m).reading := rfl
  refine ⟨?_, hlater.memory, by rw [writeMtdr]; omega, hlater.rxFifo, ?_⟩
  · rw [writeMtdr, push, hlater.mtdr]
  · rw [writeMtdr]
    unfold load at hload ⊢
    omega

lemma Flow.write {read : Nat} (h : Flow bus m read) (w : Word) (hroom : m.txFifo.length < bus.fifoSize) :
    Flow bus (writeMtdr bus w m) read := by
  apply h.settle.push
  exact lt_of_le_of_lt (settle_later bus m).txFifo.length_le hroom

/-- A wait ends when the controller can move as long as the condition is not met. -/
lemma poll_yields (bus : Bus) (ready : Machine → Bool) (I : Machine → Prop) (hadvance : ∀ m, I m → I (advance bus m))
    (hsettle : ∀ m, I m → I (settle bus m)) (hmove : ∀ m, I m → ready m = false → CanMove bus m) (h : I m) :
    Yields (fun fuel => poll bus ready fuel m) (fun m' => Later m m' ∧ I m' ∧ ready m' = true) := by
  apply loop_yields (I := fun m' => Later m m' ∧ I m') load
  · intro m₁ m₂ ⟨hlater, hinv⟩ hbody
    dsimp only at hbody
    split at hbody
    · cases hbody
    next hnot =>
      have hmoves := hmove _ (hsettle _ hinv) (Bool.eq_false_of_not_eq_true hnot)
      obtain rfl := Sum.inl.inj hbody
      have hlater' := (settle_later bus m₁).trans (advance_later bus _)
      refine ⟨⟨hlater.trans hlater', hadvance _ (hsettle _ hinv)⟩, ?_⟩
      exact lt_of_lt_of_le hmoves.load_lt (settle_later bus m₁).load_le
  · intro m₁ r ⟨hlater, hinv⟩ hbody
    dsimp only at hbody
    split at hbody
    next hready =>
      obtain rfl := Sum.inr.inj hbody
      exact ⟨hlater.trans (settle_later bus m₁), hsettle _ hinv, hready⟩
    · cases hbody
  · exact ⟨Later.refl m, h⟩

end McuxDrivers.Lpi2c
