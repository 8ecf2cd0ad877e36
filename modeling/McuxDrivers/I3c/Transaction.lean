import McuxDrivers.I3c.Blocking

/-!
# The transactions of the two masters

What a transfer puts on the bus, as the blocking and as the interrupt-driven master of `fsl_i3c.c` do it on a bus without
errors and IBIs.
-/

namespace McuxDrivers.I3c
open McuxDrivers.Lib NonBlocking

/-- What appears on the bus, with the marks for the end of a message. -/
inductive BusEvent
  | address (address : Nat) (dir : Direction)
  | byte (b : BitVec 8) (last : Bool)
  | stop
  | exit
  deriving DecidableEq

/-- What a command puts on the bus. The master that reads only decides when to end the read. -/
def busEvents : Command → List BusEvent
  | .start _ address dir _ => [.address address dir]
  | .byte b => [.byte b false]
  | .lastByte b => [.byte b true]
  | .stop => [.stop]
  | .forceExit => [.exit]
  | .autoIbi | .ibiNack | .readTerm => []

def trace (cs : List Command) : List BusEvent :=
  cs.flatMap busEvents

@[simp] lemma trace_nil : trace [] = [] := rfl

@[simp] lemma trace_append (cs cs' : List Command) : trace (cs ++ cs') = trace cs ++ trace cs' :=
  List.flatMap_append

@[simp] lemma trace_cons (c : Command) (cs : List Command) : trace (c :: cs) = busEvents c ++ trace cs := rfl

/-- The controller's side of the messages: its state, and whether the message is a read. -/
structure Link where
  state : MasterState
  reading : Bool
  deriving DecidableEq

/-- The state of a bus that is ours. -/
def activeState (type : BusType) : MasterState :=
  if type = .i3cDdr then .ddr else .normAct

def Link.after (l : Link) : Command → Link
  | .start type _ dir _ => ⟨activeState type, dir = .read⟩
  | .stop | .forceExit => { l with state := .idle }
  | .byte _ | .lastByte _ | .autoIbi | .ibiNack | .readTerm => l

/-- The controller after the commands. A message that has been started before is a write. -/
def link (state : MasterState) (cs : List Command) : Link :=
  cs.foldl Link.after ⟨state, false⟩

@[simp] lemma link_append (state : MasterState) (cs : List Command) (c : Command) :
    link state (cs ++ [c]) = (link state cs).after c := by
  rw [link, List.foldl_append]
  rfl

/-- The bytes from an offset on, with a mark at the last one. -/
def dataEvents (memory : Nat → BitVec 8) : Nat → Nat → List BusEvent
  | _, 0 => []
  | offset, n + 1 => .byte (memory offset) (n = 0) :: dataEvents memory (offset + 1) n

/-- The bytes of the subaddress that are left. -/
def subaddressEvents (subaddress : BitVec 32) (mark : Bool) : Nat → List BusEvent
  | 0 => []
  | n + 1 => .byte ((subaddress >>> (8 * n)).setWidth 8) (decide (n = 0) && mark) :: subaddressEvents subaddress mark n

section Transactions

variable (t : Transfer) (memory : Nat → BitVec 8) (masterState : MasterState)

/-- The addresses at the start. -/
def opening : List BusEvent :=
  (if t.flags.startWithBroadcastAddr then [.address 0x7E .write] else []) ++
    if t.flags.noStart then [] else [.address t.slaveAddress (Sys.startDirection t)]

/-- A read with a subaddress starts again for its data. -/
def TurnsAround : Prop :=
  t.subaddressSize ≠ 0 ∧ t.busType ≠ .i3cDdr ∧ t.direction = .read

instance : Decidable (TurnsAround t) := by
  unfold TurnsAround
  infer_instance

/-- What follows the subaddress. -/
def payload : List BusEvent :=
  (if TurnsAround t then [.address t.slaveAddress .read] else []) ++
    if t.direction = .write then dataEvents memory 0 t.dataSize.toNat else []

/-- The state of the bus at the end of the data. -/
def stateAtEnd : MasterState :=
  if t.flags.noStart ∧ ¬ TurnsAround t then masterState else activeState t.busType

/-- The transaction, with the mark of the last subaddress byte and what ends it. -/
def transaction (mark : Bool) (ending : List BusEvent) : List BusEvent :=
  opening t ++ (subaddressEvents t.subaddress mark t.subaddressSize ++ (payload t memory ++ ending))

/-- The blocking master ends a message by the state of the bus. -/
def blockingEnding : List BusEvent :=
  if t.flags.noStop then []
  else if stateAtEnd t masterState = .ddr then [.exit]
  else if stateAtEnd t masterState = .normAct then [.stop]
  else []

/-- The interrupt-driven master ends a message by the type of the transfer. -/
def irqEnding : List BusEvent :=
  if t.flags.noStop then []
  else if t.busType = .i3cDdr then [.exit]
  else if stateAtEnd t masterState = .normAct then [.stop]
  else []

/-- What the blocking master puts on the bus. -/
def blockingTransaction : List BusEvent :=
  transaction t memory (t.direction = .read ∧ t.busType ≠ .i3cDdr) (blockingEnding t masterState)

/-- What the interrupt-driven master puts on the bus. -/
def irqTransaction : List BusEvent :=
  transaction t memory (t.direction = .read) (irqEnding t masterState)

/-- The two masters agree on a transfer. -/
structure Agrees : Prop where
  /-- It is no DDR read with a subaddress. -/
  mark : t.busType = .i3cDdr → t.direction = .read → t.subaddressSize = 0
  /-- If it continues a message of its own type, or is not stopped. -/
  ending : t.busType = .i3cDdr → t.flags.noStart = true → t.flags.noStop = false → masterState = .ddr

variable {t memory masterState}

lemma length_subaddressEvents (subaddress : BitVec 32) (mark : Bool) (n : Nat) :
    (subaddressEvents subaddress mark n).length = n := by
  induction n with
  | zero => rfl
  | succ n ih => rw [subaddressEvents, List.length_cons, ih]

/-- The marks of a subaddress show in its last byte. -/
lemma subaddressEvents_inj {subaddress : BitVec 32} {mark mark' : Bool} {n : Nat} (hn : n ≠ 0) :
    subaddressEvents subaddress mark n = subaddressEvents subaddress mark' n ↔ mark = mark' := by
  induction n with
  | zero => exact absurd rfl hn
  | succ n ih =>
    rw [subaddressEvents, subaddressEvents, List.cons.injEq]
    rcases Nat.eq_zero_or_pos n with rfl | hpos
    · simp [subaddressEvents]
    · have hne : n ≠ 0 := Nat.pos_iff_ne_zero.mp hpos
      rw [ih hne]
      simp [hne]

/-- A bus of another type is not in DDR mode. -/
lemma not_ddr_of_available (havailable : Sys.busAvailable t.busType masterState = true) (htype : t.busType ≠ .i3cDdr) :
    masterState ≠ .ddr := by
  rintro rfl
  simp [Sys.busAvailable, htype] at havailable

lemma ending_eq_iff (havailable : Sys.busAvailable t.busType masterState = true) :
    blockingEnding t masterState = irqEnding t masterState ↔
      (t.busType = .i3cDdr → t.flags.noStop = false → stateAtEnd t masterState = .ddr) := by
  unfold blockingEnding irqEnding
  by_cases hstop : t.flags.noStop = true
  · simp [hstop]
  · by_cases htype : t.busType = .i3cDdr
    · by_cases hddr : stateAtEnd t masterState = .ddr
      · simp [hstop, htype, hddr]
      · by_cases hnorm : stateAtEnd t masterState = .normAct <;> simp [hstop, htype, hddr, hnorm]
    · have hddr : stateAtEnd t masterState ≠ .ddr := by
        unfold stateAtEnd activeState
        have hmaster := not_ddr_of_available havailable htype
        split_ifs <;> simp [hmaster]
      simp [hstop, htype, hddr]

lemma stateAtEnd_ddr (htype : t.busType = .i3cDdr) :
    stateAtEnd t masterState = if t.flags.noStart then masterState else .ddr := by
  simp [stateAtEnd, activeState, TurnsAround, htype]

lemma marks_eq_iff : subaddressEvents t.subaddress (t.direction = .read ∧ t.busType ≠ .i3cDdr) t.subaddressSize =
      subaddressEvents t.subaddress (t.direction = .read) t.subaddressSize ↔
    (t.busType = .i3cDdr → t.direction = .read → t.subaddressSize = 0) := by
  by_cases hzero : t.subaddressSize = 0
  · simp [hzero, subaddressEvents]
  · rw [subaddressEvents_inj hzero]
    by_cases htype : t.busType = .i3cDdr <;> by_cases hread : t.direction = .read <;> simp [htype, hread, hzero]

/-- When the two transactions are the same. -/
theorem blockingTransaction_eq_iff (havailable : Sys.busAvailable t.busType masterState = true) :
    blockingTransaction t memory masterState = irqTransaction t memory masterState ↔ Agrees t masterState := by
  unfold blockingTransaction irqTransaction transaction
  rw [List.append_cancel_left_eq]
  constructor
  · intro heq
    have hlength : (subaddressEvents t.subaddress (t.direction = .read ∧ t.busType ≠ .i3cDdr) t.subaddressSize).length =
        (subaddressEvents t.subaddress (t.direction = .read) t.subaddressSize).length := by
      rw [length_subaddressEvents, length_subaddressEvents]
    obtain ⟨hmark, hrest⟩ := List.append_inj heq hlength
    have hending := (ending_eq_iff havailable).mp (List.append_cancel_left hrest)
    constructor
    · exact marks_eq_iff.mp hmark
    · intro htype hno hstop
      have hstate := hending htype hstop
      rwa [stateAtEnd_ddr htype, if_pos hno] at hstate
  · intro h
    have hending : blockingEnding t masterState = irqEnding t masterState := by
      rw [ending_eq_iff havailable]
      intro htype hstop
      rw [stateAtEnd_ddr htype]
      split_ifs with hno
      · exact h.ending htype hno hstop
      · rfl
    rw [marks_eq_iff.mpr h.mark, hending]

end Transactions

end McuxDrivers.I3c
