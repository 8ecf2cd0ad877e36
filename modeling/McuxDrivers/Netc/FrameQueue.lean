import Mathlib.Data.List.ReduceOption
import McuxDrivers.Netc.RxRing

/-!
# Receiving by the exchange of buffers

What a receive ring with zero copy is for, without a ring. The buffers stand in a line: the frames that have arrived are
in the first ones, and the hardware puts the next frame into the ones behind them. A frame that is handed over makes
room at the end of the line for as many buffers out of the pool.
-/

namespace McuxDrivers.Netc
open McuxDrivers.Lib

/-- The buffers of a frame. -/
def RxFrame.buffers (frame : RxFrame) : List Nat :=
  frame.parts.map Prod.fst

section Allocator

/-- The buffers that the allocator offers when it is asked `n` times. -/
def offered (n : Nat) (answers : List (Option Nat)) : List Nat :=
  (answers.take n).reduceOption

/-- The allocator hands out `n` buffers: it offers as many, and has all of them. -/
def Granted (n : Nat) (answers : List (Option Nat)) (pool : List Nat) : Prop :=
  (offered n answers).length = n ∧ (offered n answers).Subperm pool

instance (n : Nat) (answers : List (Option Nat)) (pool : List Nat) : Decidable (Granted n answers pool) :=
  inferInstanceAs (Decidable (_ ∧ _))

variable {n b : Nat} {answers : List (Option Nat)} {pool pool' : List Nat}

@[simp]
lemma offered_zero : offered 0 answers = [] :=
  rfl

lemma length_offered_le (n : Nat) (answers : List (Option Nat)) : (offered n answers).length ≤ n := by
  apply (List.reduceOption_length_le _).trans
  rw [List.length_take]
  omega

lemma offered_succ_some (h : answers.headD none = some b) :
    offered (n + 1) answers = b :: offered n answers.tail := by
  cases answers with
  | nil => cases h
  | cons a answers =>
    obtain rfl : a = some b := h
    rfl

lemma offered_succ_none (h : answers.headD none = none) :
    offered (n + 1) answers = offered n answers.tail := by
  cases answers with
  | nil => simp [offered]
  | cons a answers =>
    obtain rfl : a = none := h
    rfl

lemma granted_zero : Granted 0 answers pool :=
  ⟨rfl, List.nil_subperm⟩

lemma Granted.perm (h : Granted n answers pool) (hperm : pool.Perm pool') : Granted n answers pool' :=
  ⟨h.1, h.2.trans hperm.subperm⟩

/-- What is handed out and what is left are the pool. -/
lemma Granted.offered_append_diff (h : Granted n answers pool) :
    (offered n answers ++ pool.diff (offered n answers)).Perm pool :=
  List.subperm_append_diff_self_of_count_le fun b _ => h.2.count_le b

lemma granted_succ_of_poolAlloc (h : poolAlloc pool (answers.headD none) = some (b, pool')) :
    offered (n + 1) answers = b :: offered n answers.tail ∧
      (Granted (n + 1) answers pool ↔ Granted n answers.tail pool') := by
  have hperm := perm_of_poolAlloc h
  have hhead : answers.headD none = some b := by
    rcases hanswer : answers.headD none with _ | a
    · rw [hanswer] at h
      cases h
    · rw [hanswer, poolAlloc] at h
      split at h
      next => rw [(Prod.mk.inj (Option.some.inj h)).1]
      next => cases h
  have hoffered := offered_succ_some (n := n) hhead
  refine ⟨hoffered, ?_⟩
  rw [Granted, hoffered, List.length_cons, Nat.add_right_cancel_iff, hperm.subperm_left, List.subperm_cons, Granted]

lemma not_granted_succ_of_poolAlloc (h : poolAlloc pool (answers.headD none) = none) :
    ¬ Granted (n + 1) answers pool := by
  rintro ⟨hlen, hsub⟩
  rcases hanswer : answers.headD none with _ | b
  · rw [offered_succ_none hanswer] at hlen
    have := length_offered_le n answers.tail
    omega
  · rw [hanswer, poolAlloc] at h
    rw [offered_succ_some hanswer] at hsub
    have hmem : b ∈ pool := hsub.subset (List.mem_cons_self ..)
    rw [if_pos hmem] at h
    cases h

/-- The loop of `EP_ReceiveFrame` gets what the allocator offers, or has given everything back. -/
lemma allocBuffers_spec {newBuffs : List Nat} {result : Option (List Nat)}
    (h : allocBuffers n answers pool newBuffs = (pool', result)) :
    match result with
    | none => pool'.Perm (newBuffs ++ pool) ∧ ¬ Granted n answers pool
    | some all => all = newBuffs ++ offered n answers ∧ Granted n answers pool ∧
        (all ++ pool').Perm (newBuffs ++ pool) := by
  induction n generalizing answers pool newBuffs with
  | zero =>
    obtain ⟨rfl, rfl⟩ := Prod.mk.inj h
    exact ⟨by rw [offered_zero, List.append_nil], granted_zero, List.Perm.refl _⟩
  | succ n ih =>
    rw [allocBuffers] at h
    split at h
    next halloc =>
      obtain ⟨rfl, rfl⟩ := Prod.mk.inj h
      refine ⟨?_, not_granted_succ_of_poolAlloc halloc⟩
      apply (foldl_poolFree_perm newBuffs.reverse pool).trans
      exact newBuffs.reverse_perm.append_right pool
    next newBuff rest halloc =>
      obtain ⟨hoffered, hgranted⟩ := granted_succ_of_poolAlloc (n := n) halloc
      have hmove : (newBuffs ++ [newBuff] ++ rest).Perm (newBuffs ++ pool) := by
        rw [List.append_assoc]
        exact (perm_of_poolAlloc halloc).symm.append_left newBuffs
      have hrest := ih h
      cases result with
      | none => exact ⟨hrest.1.trans hmove, fun hall => hrest.2 (hgranted.mp hall)⟩
      | some all =>
        refine ⟨?_, hgranted.mpr hrest.2.1, hrest.2.2.trans hmove⟩
        rw [hrest.1, hoffered, List.append_assoc]
        rfl

end Allocator

/-- A line of buffers with the frames in it, the owners of the other buffers, and the frames and results so far. -/
structure FrameQueue where
  /-- The frames that wait for a call. -/
  waiting : List RxFrame
  /-- The buffers behind them, in the order in which the hardware fills them. -/
  idle : List Nat
  pool : List Nat
  application : List Nat
  arrived : List RxFrame
  results : List (RxStatus × List Part)
deriving DecidableEq

namespace FrameQueue

/-- The line of the buffers. -/
def line (q : FrameQueue) : List Nat :=
  q.waiting.flatMap RxFrame.buffers ++ q.idle

/-- A frame arrives, when it leaves a buffer of the line idle. -/
def deliver (q : FrameQueue) (first : WriteBack) (rest : List WriteBack) : FrameQueue :=
  if rest.length + 1 < q.idle.length then
    let parts := (q.idle.take (rest.length + 1)).zip ((first :: rest).map WriteBack.bufLen)
    let frame : RxFrame := { error := first.error, hr := first.hr, parts := parts }
    { q with
      waiting := q.waiting ++ [frame]
      idle := q.idle.drop (rest.length + 1)
      arrived := q.arrived ++ [frame] }
  else q

/-- A call has returned. -/
def answer (q : FrameQueue) (status : RxStatus) (parts : List Part) : FrameQueue :=
  { q with
    application := q.application ++ parts.map Prod.fst
    results := q.results ++ [(status, parts)] }

/-- The first frame leaves the line, and buffers are put at its end. -/
def remove (q : FrameQueue) (buffers : List Nat) : FrameQueue :=
  { q with waiting := q.waiting.tail, idle := q.idle ++ buffers }

/-- The allocator has handed buffers out. -/
def allocate (q : FrameQueue) (buffers : List Nat) : FrameQueue :=
  { q with pool := q.pool.diff buffers }

/-- A call with an array of `length` entries: a frame with an error is dropped, one that is not for this function or too
long for the array stays, and a good one is handed over, or dropped when there are not enough buffers for it. -/
def receive (q : FrameQueue) (length : Nat) (answers : List (Option Nat)) : FrameQueue :=
  match q.waiting with
  | [] => q.answer .rxFrameEmpty []
  | frame :: _ =>
    let n := frame.parts.length
    if frame.error ≠ 0 then (q.remove frame.buffers).answer .rxFrameError []
    else if frame.hr = 3 then q.answer .rxTsrResp []
    else if frame.hr ≠ 0 then q.answer .rxHRNotZeroFrame []
    else if length < n then q.answer .lackOfResource []
    else if Granted n answers q.pool then
      ((q.allocate (offered n answers)).remove (offered n answers)).answer .success frame.parts
    else (q.remove frame.buffers).answer .lackOfResource []

/-- The application gives one of its buffers back to the allocator. -/
def free (q : FrameQueue) (buffer : Nat) : FrameQueue :=
  if buffer ∈ q.application then
    { q with application := q.application.erase buffer, pool := poolFree q.pool buffer }
  else q

/-- One event. -/
def step (q : FrameQueue) : RxEvent → FrameQueue
  | .deliver first rest => q.deliver first rest
  | .receive length answers => q.receive length answers
  | .free buffer => q.free buffer

/-- A line of idle buffers. -/
def start (buffers pool : List Nat) : FrameQueue :=
  { waiting := [], idle := buffers, pool := pool, application := [], arrived := [], results := [] }

variable {q : FrameQueue}

section Owners

/-- Every buffer of `buffers` is with the allocator, in the line or with the application. -/
def Owned (buffers : List Nat) (q : FrameQueue) : Prop :=
  (q.pool ++ q.line ++ q.application).Perm buffers

variable {buffers : List Nat}

lemma Owned.keep (h : Owned buffers q) (status : RxStatus) : Owned buffers (q.answer status []) := by
  rw [Owned, answer, List.map_nil, List.append_nil]
  exact h

lemma line_eq {frame : RxFrame} {waiting : List RxFrame} (hq : q.waiting = frame :: waiting) :
    q.line = frame.buffers ++ (waiting.flatMap RxFrame.buffers ++ q.idle) := by
  rw [line, hq, List.flatMap_cons, List.append_assoc]

lemma line_remove {frame : RxFrame} {waiting : List RxFrame} (hq : q.waiting = frame :: waiting) (fresh : List Nat) :
    (q.remove fresh).line = waiting.flatMap RxFrame.buffers ++ q.idle ++ fresh := by
  rw [line, remove, hq, List.tail_cons, List.append_assoc]

lemma Owned.drop {frame : RxFrame} {waiting : List RxFrame} (h : Owned buffers q) (hq : q.waiting = frame :: waiting)
    (status : RxStatus) : Owned buffers ((q.remove frame.buffers).answer status []) := by
  apply Owned.keep
  refine List.Perm.trans ?_ h
  rw [line_remove hq, line_eq hq]
  exact (List.perm_append_comm.append_left q.pool).append_right q.application

lemma Owned.hand {frame : RxFrame} {waiting : List RxFrame} {n : Nat} {answers : List (Option Nat)}
    (h : Owned buffers q) (hq : q.waiting = frame :: waiting) (hgranted : Granted n answers q.pool) :
    Owned buffers
      (((q.allocate (offered n answers)).remove (offered n answers)).answer .success frame.parts) := by
  refine List.Perm.trans ?_ h
  have hpool := hgranted.offered_append_diff
  change (q.pool.diff (offered n answers) ++ ((q.allocate (offered n answers)).remove (offered n answers)).line ++
    (q.application ++ frame.buffers)).Perm _
  rw [line_remove (q := q.allocate (offered n answers)) hq, line_eq hq]
  rw [List.perm_iff_count] at hpool ⊢
  intro b
  have hb := hpool b
  simp only [List.count_append, allocate] at hb ⊢
  omega

lemma Owned.receive (h : Owned buffers q) (length : Nat) (answers : List (Option Nat)) :
    Owned buffers (q.receive length answers) := by
  rw [FrameQueue.receive]
  rcases hq : q.waiting with _ | ⟨frame, waiting⟩
  · exact h.keep _
  · dsimp only
    split_ifs with _ _ _ _ hgranted
    · exact h.drop hq _
    · exact h.keep _
    · exact h.keep _
    · exact h.keep _
    · exact h.hand hq hgranted
    · exact h.drop hq _

lemma line_deliver (q : FrameQueue) (first : WriteBack) (rest : List WriteBack) :
    (q.deliver first rest).line = q.line := by
  rw [deliver]
  split
  next hroom =>
    have hfst : ((q.idle.take (rest.length + 1)).zip ((first :: rest).map WriteBack.bufLen)).map Prod.fst =
        q.idle.take (rest.length + 1) := by
      apply List.map_fst_zip
      rw [List.length_take, List.length_map, List.length_cons]
      omega
    simp only [line, List.flatMap_append, List.flatMap_singleton, RxFrame.buffers, hfst, List.append_assoc,
      List.take_append_drop]
  next => rfl

lemma Owned.deliver (h : Owned buffers q) (first : WriteBack) (rest : List WriteBack) :
    Owned buffers (q.deliver first rest) := by
  rw [Owned, line_deliver, FrameQueue.deliver]
  split <;> exact h

lemma Owned.free (h : Owned buffers q) (buffer : Nat) : Owned buffers (q.free buffer) := by
  rw [FrameQueue.free]
  split
  next hmem =>
    refine List.Perm.trans ?_ h
    have herase := List.perm_cons_erase hmem
    rw [List.perm_iff_count] at herase ⊢
    intro b
    have hb := herase b
    simp only [poolFree, line, List.count_append, List.count_cons] at hb ⊢
    omega
  next => exact h

end Owners

section Order

/-- The results of the calls account for the frames that have left the line: a success returns the next one, an error
code may take the next one away, any other code takes none. -/
inductive Served : List (RxStatus × List Part) → List RxFrame → Prop
  | nil : Served [] []
  | success {results : List (RxStatus × List Part)} {taken : List RxFrame} {frame : RxFrame} (h : Served results taken)
      (herror : frame.error = 0) (hhr : frame.hr = 0) :
      Served (results ++ [(.success, frame.parts)]) (taken ++ [frame])
  | error {results : List (RxStatus × List Part)} {taken : List RxFrame} {frame : RxFrame} (h : Served results taken)
      (herror : frame.error ≠ 0) : Served (results ++ [(.rxFrameError, [])]) (taken ++ [frame])
  | lack {results : List (RxStatus × List Part)} {taken : List RxFrame} {frame : RxFrame} (h : Served results taken)
      (herror : frame.error = 0) (hhr : frame.hr = 0) : Served (results ++ [(.lackOfResource, [])]) (taken ++ [frame])
  | kept {results : List (RxStatus × List Part)} {taken : List RxFrame} {status : RxStatus} (h : Served results taken)
      (hstatus : status ≠ .success ∧ status ≠ .rxFrameError) : Served (results ++ [(status, [])]) taken

/-- The frames that have arrived have been served or wait. -/
structure Accounted (q : FrameQueue) (taken : List RxFrame) : Prop where
  arrived : q.arrived = taken ++ q.waiting
  served : Served q.results taken

variable {taken : List RxFrame}

lemma Accounted.keep (h : Accounted q taken) {status : RxStatus} (hstatus : status ≠ .success ∧ status ≠ .rxFrameError) :
    Accounted (q.answer status []) taken :=
  ⟨h.arrived, .kept h.served hstatus⟩

lemma Accounted.remove {frame : RxFrame} {waiting : List RxFrame} {pool buffers : List Nat} {status : RxStatus}
    {parts : List Part} (h : Accounted q taken) (hq : q.waiting = frame :: waiting)
    (hserved : Served (q.results ++ [(status, parts)]) (taken ++ [frame])) :
    Accounted ((({ q with pool := pool } : FrameQueue).remove buffers).answer status parts) (taken ++ [frame]) := by
  refine ⟨?_, hserved⟩
  change q.arrived = taken ++ [frame] ++ q.waiting.tail
  rw [h.arrived, hq, List.tail_cons, List.append_assoc]
  rfl

lemma Accounted.receive (h : Accounted q taken) (length : Nat) (answers : List (Option Nat)) :
    ∃ taken', Accounted (q.receive length answers) taken' := by
  rw [FrameQueue.receive]
  rcases hq : q.waiting with _ | ⟨frame, waiting⟩
  · exact ⟨taken, h.keep (by decide)⟩
  · dsimp only
    split_ifs with herror htsr hhr _ _
    · exact ⟨_, h.remove hq (.error h.served herror)⟩
    · exact ⟨taken, h.keep (by decide)⟩
    · exact ⟨taken, h.keep (by decide)⟩
    · exact ⟨taken, h.keep (by decide)⟩
    · exact ⟨_, h.remove hq (.success h.served (not_not.mp herror) (not_not.mp hhr))⟩
    · exact ⟨_, h.remove hq (.lack h.served (not_not.mp herror) (not_not.mp hhr))⟩

lemma Accounted.deliver (h : Accounted q taken) (first : WriteBack) (rest : List WriteBack) :
    Accounted (q.deliver first rest) taken := by
  rw [FrameQueue.deliver]
  split
  next =>
    refine ⟨?_, h.served⟩
    dsimp only
    rw [h.arrived, List.append_assoc]
  next => exact h

lemma Accounted.free (h : Accounted q taken) (buffer : Nat) : Accounted (q.free buffer) taken := by
  rw [FrameQueue.free]
  split <;> exact ⟨h.arrived, h.served⟩

end Order

/-- In every run from idle buffers each buffer keeps one owner, and the results account for the frames in the order of
their arrival. -/
theorem run_accounted (buffers pool : List Nat) (events : List RxEvent) :
    Owned (pool ++ buffers) (events.foldl step (start buffers pool)) ∧
      ∃ taken, Accounted (events.foldl step (start buffers pool)) taken := by
  suffices h : ∀ q, Owned (pool ++ buffers) q → (∃ taken, Accounted q taken) →
      Owned (pool ++ buffers) (events.foldl step q) ∧ ∃ taken, Accounted (events.foldl step q) taken by
    apply h
    · rw [Owned, start, line, List.flatMap_nil, List.nil_append, List.append_nil]
    · exact ⟨[], rfl, .nil⟩
  induction events with
  | nil => exact fun q howned haccounted => ⟨howned, haccounted⟩
  | cons e events ih =>
    rintro q howned ⟨taken, haccounted⟩
    rw [List.foldl_cons]
    cases e with
    | deliver first rest => exact ih _ (howned.deliver first rest) ⟨taken, haccounted.deliver first rest⟩
    | receive length answers => exact ih _ (howned.receive length answers) (haccounted.receive length answers)
    | free buffer => exact ih _ (howned.free buffer) ⟨taken, haccounted.free buffer⟩

end FrameQueue

end McuxDrivers.Netc
