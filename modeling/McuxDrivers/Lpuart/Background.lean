import McuxDrivers.Lpuart.Driver

/-!
# Background reception refines a drop-oldest queue

The ring buffer, the pending request and the user's buffers implement a bounded queue: a character
goes to the pending request, else to the queue, which loses its oldest element when it is full.
-/

namespace McuxDrivers.Lpuart
open McuxDrivers.Lib

/-- The abstract receiver. `taken` are the characters read from the FIFO so far, `drops` counts the
characters lost. -/
structure Receiver where
  fifo : List Nat
  taken : List Nat
  handed : List Nat
  queue : List Nat
  demand : Nat
  script : List (Option Xfer)
  drops : Nat

/-- The fixed properties of a receiver: its capacity, whether there is a callback, and what is kept of
a character. -/
structure Setup where
  capacity : Nat
  callback : Bool
  convert : Nat → Nat

/-- A request takes what the queue has and waits for the rest. -/
def Receiver.request (a : Receiver) (xfer : Xfer) : Receiver :=
  if a.demand ≠ 0 then a
  else { a with
    handed := a.handed ++ a.queue.take xfer.dataSize
    queue := a.queue.drop xfer.dataSize
    demand := xfer.dataSize - a.queue.length }

/-- A completed request: the user may make the next one. -/
def Receiver.complete (g : Setup) (a : Receiver) : Receiver :=
  if g.callback then
    match a.script with
    | [] => a
    | none :: rest => { a with script := rest }
    | some xfer :: rest => Receiver.request { a with script := rest } xfer
  else a

/-- One character from the FIFO. -/
def Receiver.char (g : Setup) (a : Receiver) : Receiver :=
  match a.fifo with
  | [] => a
  | c :: fifo =>
    let v := g.convert c
    let a := { a with fifo := fifo, taken := a.taken ++ [v] }
    if a.demand ≠ 0 then
      let a := { a with handed := a.handed ++ [v], demand := a.demand - 1 }
      if a.demand = 0 then a.complete g else a
    else if a.queue.length = g.capacity then
      { a with queue := a.queue.tail ++ [v], drops := a.drops + 1 }
    else { a with queue := a.queue ++ [v] }

/-- What happens to a receiver: a character arrives, the interrupt handler runs, the user makes a
request. -/
inductive Event
  | arrive (c : Nat)
  | dataFull
  | receive (xfer : Xfer)

/-- An interrupt takes the characters that `RXCOUNT` counts. -/
def Receiver.step (g : Setup) (a : Receiver) : Event → Receiver
  | .arrive c => { a with fifo := a.fifo ++ [c] }
  | .dataFull => (Receiver.char g)^[a.fifo.length % 2 ^ 8] a
  | .receive xfer => a.request xfer

/-- The same events on the driver. -/
def step (s : Sys) : Event → Sys
  | .arrive c => { s with rxFifo := s.rxFifo ++ [c] }
  | .dataFull => transferHandleReceiveDataFull s
  | .receive xfer => (transferReceiveNonBlocking s xfer).2

/-- The driver `s` implements the receiver `a` with a ring of `size` slots. -/
structure Refines (size : Nat) (g : Setup) (s : Sys) (a : Receiver) : Prop where
  fifo : s.rxFifo = a.fifo
  handed : s.handed = a.handed
  demand : s.handle.rxDataSize = a.demand
  script : s.onRxIdle = a.script
  state : s.handle.rxState = .busy ↔ a.demand ≠ 0
  callback : s.handle.callback = g.callback
  convert : received s.handle = g.convert
  size_eq : s.handle.rxRingBufferSize = size
  head : s.handle.rxRingBufferHead < size
  tail : s.handle.rxRingBufferTail < size
  queue : ∃ ringBuffer, s.handle.rxRingBuffer = some ringBuffer ∧
    ringContents ringBuffer size s.handle.rxRingBufferHead s.handle.rxRingBufferTail = a.queue

section Refinement

variable {size : Nat} {g : Setup} {s : Sys} {a : Receiver}

lemma advance_eq {i : Nat} (hi : i < size) (hsize : size ≤ 2 ^ 16) : advance size i = ringNext size i := by
  unfold advance ringNext
  split
  · rfl
  · exact Nat.mod_eq_of_lt (by omega)

/-- `LPUART_TransferGetRxRingBufferLength` is the length of the queue. -/
lemma Refines.length (h : Refines size g s a) : transferGetRxRingBufferLength s.handle = a.queue.length := by
  obtain ⟨ringBuffer, -, hqueue⟩ := h.queue
  rw [← hqueue, length_ringContents, ← h.size_eq]
  rfl

lemma Refines.oldest (h : Refines size g s a) {ringBuffer : Nat → Nat}
    (hring : s.handle.rxRingBuffer = some ringBuffer) (hne : a.queue ≠ []) :
    a.queue = ringBuffer s.handle.rxRingBufferTail ::
      ringContents ringBuffer size s.handle.rxRingBufferHead (ringNext size s.handle.rxRingBufferTail) := by
  obtain ⟨ringBuffer', hring', hqueue⟩ := h.queue
  obtain rfl : ringBuffer = ringBuffer' := Option.some.inj (hring.symm.trans hring')
  have hlength : ringLength size s.handle.rxRingBufferHead s.handle.rxRingBufferTail ≠ 0 := by
    rw [← length_ringContents ringBuffer, hqueue]
    exact fun hzero => hne (List.eq_nil_of_length_eq_zero hzero)
  rw [← hqueue]
  exact ringContents_pop h.head h.tail hlength ringBuffer

lemma Refines.dropOldest (hsize : size ≤ 2 ^ 16) (h : Refines size g s a) (hne : a.queue ≠ []) :
    Refines size g
      { s with handle := { s.handle with
          rxRingBufferTail := advance s.handle.rxRingBufferSize s.handle.rxRingBufferTail } }
      { a with queue := a.queue.tail } := by
  obtain ⟨ringBuffer, hring, -⟩ := h.queue
  have htail : advance s.handle.rxRingBufferSize s.handle.rxRingBufferTail =
      ringNext size s.handle.rxRingBufferTail := by
    rw [h.size_eq, advance_eq h.tail hsize]
  refine ⟨h.fifo, h.handed, h.demand, h.script, h.state, h.callback, h.convert, h.size_eq, h.head, ?_, ?_⟩
  · rw [htail]
    exact ringNext_lt h.tail
  · refine ⟨ringBuffer, hring, ?_⟩
    rw [htail, h.oldest hring hne]
    rfl

/-- Copying from the ring hands over the front of the queue. -/
lemma Refines.copyFromRing (hsize : size ≤ 2 ^ 16) {ringBuffer : Nat → Nat} (n : Nat) {s : Sys} {a : Receiver}
    (h : Refines size g s a) (hring : s.handle.rxRingBuffer = some ringBuffer) (hn : n ≤ a.queue.length) :
    Refines size g (copyFromRing ringBuffer n s)
      { a with handed := a.handed ++ a.queue.take n, queue := a.queue.drop n } := by
  induction n generalizing s a with
  | zero => simpa [Lpuart.copyFromRing] using h
  | succ n ih =>
    have hne : a.queue ≠ [] := List.ne_nil_of_length_pos (by omega)
    have hone : a.queue.take 1 = [ringBuffer s.handle.rxRingBufferTail] := by
      rw [h.oldest hring hne]
      rfl
    have hpop := h.dropOldest hsize hne
    have hrest : Refines size g
        { s with
          handed := s.handed ++ [ringBuffer s.handle.rxRingBufferTail]
          handle := { s.handle with
            rxRingBufferTail := advance s.handle.rxRingBufferSize s.handle.rxRingBufferTail } }
        { a with handed := a.handed ++ a.queue.take 1, queue := a.queue.drop 1 } := by
      rw [hone, List.drop_one]
      exact ⟨hpop.fifo, congrArg (· ++ _) h.handed, hpop.demand, hpop.script, hpop.state, hpop.callback,
        hpop.convert, hpop.size_eq, hpop.head, hpop.tail, hpop.queue⟩
    have hnext := ih hrest hring (by simp only [List.length_drop]; omega)
    rw [Lpuart.copyFromRing]
    simpa [List.take_add, List.append_assoc, Nat.add_comm n 1] using hnext

/-- The relation does not depend on the interrupt enables, the callbacks made or the size of the
request as a whole. -/
lemma Refines.congr {s' : Sys} (h : Refines size g s a) (hfifo : s'.rxFifo = s.rxFifo)
    (hhanded : s'.handed = s.handed) (hscript : s'.onRxIdle = s.onRxIdle) (hhandle : s'.handle = s.handle) :
    Refines size g s' a := by
  refine ⟨hfifo.trans h.fifo, hhanded.trans h.handed, ?_, hscript.trans h.script, ?_, ?_, ?_, ?_, ?_, ?_, ?_⟩
  all_goals rw [hhandle]
  exacts [h.demand, h.state, h.callback, h.convert, h.size_eq, h.head, h.tail, h.queue]

lemma Refines.invokeCallback (h : Refines size g s a) (status : Status) :
    Refines size g (invokeCallback s status) a := by
  unfold Lpuart.invokeCallback
  split
  · exact h.congr rfl rfl rfl rfl
  · exact h

lemma Refines.saveRequest (h : Refines size g s a) {n : Nat} (hn : n ≠ 0) (all : Nat) :
    Refines size g (saveRequest s n all) { a with demand := n } :=
  ⟨h.fifo, h.handed, rfl, h.script, iff_of_true rfl hn, h.callback, h.convert, h.size_eq, h.head, h.tail,
    h.queue⟩

/-- `LPUART_TransferReceiveNonBlocking` is a request to the receiver. -/
lemma Refines.request (hsize : size ≤ 2 ^ 16) (h : Refines size g s a) (xfer : Xfer) :
    Refines size g (transferReceiveNonBlocking s xfer).2 (a.request xfer) := by
  unfold transferReceiveNonBlocking Receiver.request
  by_cases hbusy : s.handle.rxState = .busy
  · rw [if_pos hbusy, if_pos (h.state.mp hbusy)]
    exact h
  · have hidle : a.demand = 0 := not_not.mp (fun hne => hbusy (h.state.mpr hne))
    obtain ⟨ringBuffer, hring, -⟩ := h.queue
    rw [if_neg hbusy, if_neg (not_not_intro hidle), hring]
    have hlength : transferGetRxRingBufferLength
        { s with ctrl := { s.ctrl with rie := false, orie := false } }.handle = a.queue.length := h.length
    obtain ⟨n, hn⟩ : ∃ n, n = min xfer.dataSize a.queue.length := ⟨_, rfl⟩
    have hstart : Refines size g { s with ctrl := { s.ctrl with rie := false, orie := false } } a :=
      h.congr rfl rfl rfl rfl
    have hcopy := hstart.copyFromRing hsize n hring (by omega)
    have htake : a.queue.take n = a.queue.take xfer.dataSize := by
      rw [hn]
      exact List.take_eq_take_min.symm
    have hdrop : a.queue.drop n = a.queue.drop xfer.dataSize := by
      rw [hn]
      by_cases hle : xfer.dataSize ≤ a.queue.length
      · rw [Nat.min_eq_left hle]
      · rw [Nat.min_eq_right (by omega), List.drop_length, List.drop_of_length_le (by omega)]
    rw [htake, hdrop] at hcopy
    have hrest : xfer.dataSize - a.queue.length = xfer.dataSize - n := by omega
    simp only [hlength, ← hn, hrest]
    by_cases hmore : xfer.dataSize - n = 0
    · rw [if_neg (not_not_intro hmore), if_pos hmore, hmore]
      rw [hidle] at hcopy
      apply Refines.invokeCallback
      exact hcopy.congr rfl rfl rfl rfl
    · rw [if_pos hmore, if_neg hmore]
      exact (hcopy.saveRequest hmore xfer.dataSize).congr rfl rfl rfl rfl

lemma Refines.complete (hsize : size ≤ 2 ^ 16) (h : Refines size g s a) :
    Refines size g (rxIdleCallback s) (a.complete g) := by
  unfold rxIdleCallback Receiver.complete
  rw [h.callback]
  split
  · have hcall := h.invokeCallback .rxIdle
    -- the next entry of the script is taken off
    have hnext (rest : List (Option Xfer)) :
        Refines size g { Lpuart.invokeCallback s .rxIdle with onRxIdle := rest } { a with script := rest } :=
      ⟨hcall.fifo, hcall.handed, hcall.demand, rfl, hcall.state, hcall.callback, hcall.convert, hcall.size_eq,
        hcall.head, hcall.tail, hcall.queue⟩
    rw [← h.script]
    rcases s.onRxIdle with _ | ⟨_ | xfer, rest⟩
    · exact hcall
    · exact hnext rest
    · exact (hnext rest).request hsize xfer
  · exact h

/-- `n` characters for a request of at least `n`: all are handed over. -/
lemma Receiver.char_iterate (g : Setup) (n : Nat) {a : Receiver} (hlen : n ≤ a.fifo.length)
    (hn : n < a.demand) :
    (Receiver.char g)^[n] a = { a with
      fifo := a.fifo.drop n, taken := a.taken ++ (a.fifo.take n).map g.convert,
      handed := a.handed ++ (a.fifo.take n).map g.convert, demand := a.demand - n } := by
  induction n generalizing a with
  | zero => simp
  | succ n ih =>
    cases hfifo : a.fifo with
    | nil => simp [hfifo] at hlen
    | cons c cs =>
      have hpos : a.demand ≠ 0 := by omega
      have hrest : ¬ a.demand - 1 = 0 := by omega
      have hchar : a.char g = { a with
          fifo := cs, taken := a.taken ++ [g.convert c], handed := a.handed ++ [g.convert c],
          demand := a.demand - 1 } := by
        simp [Receiver.char, hfifo, hpos, hrest]
      have hlen' : n ≤ cs.length := by simpa [hfifo] using hlen
      rw [Function.iterate_succ_apply, hchar, ih hlen' (by dsimp only; omega)]
      simp [Nat.sub_sub, Nat.add_comm]

/-- The characters that complete a request. -/
lemma Receiver.char_iterate_complete (g : Setup) {a : Receiver} (hlen : a.demand ≤ a.fifo.length)
    (hpos : a.demand ≠ 0) :
    (Receiver.char g)^[a.demand] a = Receiver.complete g { a with
      fifo := a.fifo.drop a.demand, taken := a.taken ++ (a.fifo.take a.demand).map g.convert,
      handed := a.handed ++ (a.fifo.take a.demand).map g.convert, demand := 0 } := by
  obtain ⟨n, hn⟩ : ∃ n, a.demand = n + 1 := ⟨a.demand - 1, by omega⟩
  have hlt : n < a.fifo.length := by omega
  have hdrop := List.drop_eq_getElem_cons hlt
  have htake : a.fifo.take (n + 1) = a.fifo.take n ++ [a.fifo[n]] := List.take_succ_eq_append_getElem hlt
  have hone : n + 1 - n = 1 := by omega
  rw [hn, Function.iterate_succ_apply', Receiver.char_iterate g n hlt.le (by omega), Receiver.char]
  simp only [hdrop, hn, hone, htake, List.map_append, List.map_singleton, List.append_assoc, ne_eq,
    one_ne_zero, not_false_eq_true, if_true, Nat.sub_self]

@[simp]
lemma Receiver.fifo_request (a : Receiver) (xfer : Xfer) : (a.request xfer).fifo = a.fifo := by
  unfold Receiver.request
  split <;> rfl

@[simp]
lemma Receiver.fifo_complete (g : Setup) (a : Receiver) : (a.complete g).fifo = a.fifo := by
  unfold Receiver.complete
  split
  · split
    · rfl
    · rfl
    · exact Receiver.fifo_request _ _
  · rfl

lemma Receiver.fifo_char (g : Setup) (a : Receiver) : (a.char g).fifo = a.fifo.tail := by
  unfold Receiver.char
  split
  next hfifo => rw [hfifo, List.tail_nil]
  next c cs hfifo =>
    rw [hfifo, List.tail_cons]
    dsimp only
    split_ifs <;> simp

lemma Receiver.fifo_char_iterate (g : Setup) (n : Nat) (a : Receiver) :
    ((Receiver.char g)^[n] a).fifo = a.fifo.drop n := by
  induction n with
  | zero => rfl
  | succ n ih => rw [Function.iterate_succ_apply', Receiver.fifo_char, ih, List.tail_drop]

lemma Refines.serveRound (hsize : size ≤ 2 ^ 16) (h : Refines size g s a) {n : Nat} (hpos : n ≠ 0)
    (hdemand : n ≤ a.demand) (hlen : n ≤ a.fifo.length) :
    Refines size g (serveRound s n) ((Receiver.char g)^[n] a) := by
  have hfifo : s.rxFifo.drop n = a.fifo.drop n := by rw [h.fifo]
  have hhanded : s.handed ++ (s.rxFifo.take n).map (received s.handle) =
      a.handed ++ (a.fifo.take n).map g.convert := by
    rw [h.handed, h.fifo, h.convert]
  have hsub : s.handle.rxDataSize - n = a.demand - n := by rw [h.demand]
  unfold Lpuart.serveRound
  by_cases hzero : s.handle.rxDataSize - n = 0
  · -- the request is completed
    obtain rfl : n = a.demand := by omega
    simp only [readNonBlocking, hzero, if_true]
    rw [Receiver.char_iterate_complete g hlen hpos]
    apply Refines.complete hsize
    exact ⟨hfifo, hhanded, rfl, h.script, iff_of_false nofun (not_not_intro rfl), h.callback, h.convert,
      h.size_eq, h.head, h.tail, h.queue⟩
  · have hbusy : s.handle.rxState = .busy := h.state.mpr (by omega)
    simp only [readNonBlocking, hzero, if_false]
    rw [Receiver.char_iterate g n hlen (by omega)]
    exact ⟨hfifo, hhanded, hsub, h.script, iff_of_true hbusy (by dsimp only; omega), h.callback, h.convert,
      h.size_eq, h.head, h.tail, h.queue⟩

/-- The loop over the pending request takes characters until there are none left or no request
waits. -/
lemma Refines.serveRequest (hsize : size ≤ 2 ^ 16) (fuel : Nat) {count : Nat} {s : Sys} {a : Receiver}
    (h : Refines size g s a) (hfuel : count ≤ fuel) (hlen : count ≤ a.fifo.length) :
    ∃ n ≤ count, (serveRequest fuel count s).1 = count - n ∧
      Refines size g (serveRequest fuel count s).2 ((Receiver.char g)^[n] a) ∧
      (count - n ≠ 0 → ((Receiver.char g)^[n] a).demand = 0) := by
  induction fuel generalizing count s a with
  | zero =>
    obtain rfl : count = 0 := by omega
    exact ⟨0, le_rfl, rfl, h, fun hne => absurd rfl hne⟩
  | succ fuel ih =>
    rw [Lpuart.serveRequest]
    by_cases hcond : s.handle.rxDataSize ≠ 0 ∧ count ≠ 0
    · rw [if_pos hcond]
      obtain ⟨hdemand, hcount⟩ := hcond
      rw [h.demand] at hdemand
      have hmin : min s.handle.rxDataSize count = min a.demand count := by rw [h.demand]
      have hround := h.serveRound hsize (n := min a.demand count) (by omega) (by omega) (by omega)
      rw [← hmin] at hround
      have hless : count - min s.handle.rxDataSize count ≤ fuel := by omega
      obtain ⟨n, hn, hcount', hrefines, hdone⟩ := ih hround hless
        (by rw [Receiver.fifo_char_iterate, List.length_drop]; omega)
      rw [← Function.iterate_add_apply] at hrefines hdone
      refine ⟨n + min s.handle.rxDataSize count, by omega, ?_, hrefines, ?_⟩
      · rw [hcount']
        omega
      · intro hleft
        exact hdone (by omega)
    · rw [if_neg hcond]
      refine ⟨0, Nat.zero_le _, rfl, h, fun hne => ?_⟩
      rw [Function.iterate_zero, id_eq, ← h.demand]
      by_contra hdemand
      exact hcond ⟨hdemand, by omega⟩

section Ring

variable (hsize : size ≤ 2 ^ 16) (htwo : 2 ≤ size) (hcapacity : g.capacity = size - 1)

include htwo hcapacity in
lemma Refines.isRxRingBufferFull (h : Refines size g s a) :
    transferIsRxRingBufferFull s.handle = decide (a.queue.length = g.capacity) := by
  unfold transferIsRxRingBufferFull wsub32
  rw [h.length, h.size_eq, hcapacity, if_pos (by omega)]

/-- Storing at the head appends to the queue. The characters taken and lost are not part of the
relation. -/
lemma Refines.storeNewest (hsize : size ≤ 2 ^ 16) (h : Refines size g s a) {ringBuffer : Nat → Nat}
    (hring : s.handle.rxRingBuffer = some ringBuffer) (hroom : a.queue.length + 1 < size) {c : Nat}
    {cs : List Nat} (hfifo : a.fifo = c :: cs) (taken : List Nat) (drops : Nat) :
    Refines size g
      { s with
        rxFifo := s.rxFifo.drop 1
        handle := { s.handle with
          rxRingBuffer := some (Function.update ringBuffer s.handle.rxRingBufferHead
            (received s.handle (s.rxFifo.headD 0)))
          rxRingBufferHead := advance s.handle.rxRingBufferSize s.handle.rxRingBufferHead } }
      { a with fifo := cs, taken := taken, queue := a.queue ++ [g.convert c], drops := drops } := by
  obtain ⟨ringBuffer', hring', hqueue⟩ := h.queue
  obtain rfl : ringBuffer = ringBuffer' := Option.some.inj (hring.symm.trans hring')
  have hhead : advance s.handle.rxRingBufferSize s.handle.rxRingBufferHead =
      ringNext size s.handle.rxRingBufferHead := by
    rw [h.size_eq, advance_eq h.head hsize]
  have hlength : ringLength size s.handle.rxRingBufferHead s.handle.rxRingBufferTail + 1 < size := by
    rwa [← length_ringContents ringBuffer, hqueue]
  have hrx : s.rxFifo = c :: cs := h.fifo.trans hfifo
  refine ⟨?_, h.handed, h.demand, h.script, h.state, h.callback, h.convert, h.size_eq, ?_, h.tail, ?_⟩
  · rw [hrx]
    rfl
  · rw [hhead]
    exact ringNext_lt h.head
  · refine ⟨_, rfl, ?_⟩
    rw [hhead, ringContents_push h.head h.tail hlength, hqueue, h.convert, hrx]
    rfl

lemma Receiver.char_idle (g : Setup) {c : Nat} {cs : List Nat} (hfifo : a.fifo = c :: cs)
    (hdemand : a.demand = 0) :
    a.char g = if a.queue.length = g.capacity then
        { a with fifo := cs, taken := a.taken ++ [g.convert c], queue := a.queue.tail ++ [g.convert c],
                 drops := a.drops + 1 }
      else { a with fifo := cs, taken := a.taken ++ [g.convert c], queue := a.queue ++ [g.convert c] } := by
  simp [Receiver.char, hfifo, hdemand]

include hsize htwo hcapacity

lemma Refines.storeToRing (h : Refines size g s a) {ringBuffer : Nat → Nat}
    (hring : s.handle.rxRingBuffer = some ringBuffer) (hdemand : a.demand = 0) (hne : a.fifo ≠ []) :
    Refines size g (storeToRing ringBuffer s) (a.char g) := by
  obtain ⟨c, cs, hfifo⟩ := List.exists_cons_of_ne_nil hne
  have hlength : a.queue.length < size := by
    obtain ⟨mem, -, hqueue⟩ := h.queue
    rw [← hqueue, length_ringContents]
    exact ringLength_lt h.head h.tail
  have hfull := h.isRxRingBufferFull htwo hcapacity
  rw [Receiver.char_idle g hfifo hdemand]
  unfold Lpuart.storeToRing
  by_cases hlen : a.queue.length = g.capacity
  · have hcall := h.invokeCallback .rxRingBufferOverrun
    have hstill := hcall.isRxRingBufferFull htwo hcapacity
    have hring' : (Lpuart.invokeCallback s .rxRingBufferOverrun).handle.rxRingBuffer = some ringBuffer := by
      unfold Lpuart.invokeCallback
      split <;> exact hring
    have hdrop := hcall.dropOldest hsize (List.ne_nil_of_length_pos (by omega))
    simp only [hfull, hstill, hlen, decide_true, if_true]
    exact hdrop.storeNewest hsize hring' (by simp only [List.length_tail]; omega) hfifo _ _
  · simp only [hfull, hlen, decide_false, if_false, Bool.false_eq_true]
    exact h.storeNewest hsize hring (by omega) hfifo _ _

lemma Refines.fillRing (count : Nat) {s : Sys} {a : Receiver} (h : Refines size g s a) (hdemand : a.demand = 0)
    (hlen : count ≤ a.fifo.length) : Refines size g (fillRing count s) ((Receiver.char g)^[count] a) := by
  induction count generalizing s a with
  | zero => exact h
  | succ count ih =>
    obtain ⟨ringBuffer, hring, -⟩ := h.queue
    have hne : a.fifo ≠ [] := List.ne_nil_of_length_pos (by omega)
    obtain ⟨c, cs, hfifo⟩ := List.exists_cons_of_ne_nil hne
    have hstore := h.storeToRing hsize htwo hcapacity hring hdemand hne
    have hidle : (a.char g).demand = 0 := by
      rw [Receiver.char_idle g hfifo hdemand]
      split <;> exact hdemand
    rw [Lpuart.fillRing, hring, Function.iterate_succ_apply]
    apply ih hstore hidle
    rw [Receiver.fifo_char, List.length_tail]
    omega

/-- `LPUART_TransferHandleReceiveDataFull` takes the characters one by one. -/
lemma Refines.dataFull (h : Refines size g s a) :
    Refines size g (transferHandleReceiveDataFull s) ((Receiver.char g)^[a.fifo.length % 2 ^ 8] a) := by
  have hcount : rxCount s = a.fifo.length % 2 ^ 8 := by rw [rxCount, h.fifo]
  have hle : a.fifo.length % 2 ^ 8 ≤ a.fifo.length := Nat.mod_le _ _
  obtain ⟨n, hn, hleft, hserve, hdone⟩ := h.serveRequest hsize _ (le_refl (a.fifo.length % 2 ^ 8)) hle
  obtain ⟨ringBuffer, hring, -⟩ := hserve.queue
  unfold transferHandleReceiveDataFull
  rw [hcount]
  simp only [hring, Option.isSome_some, if_true, hleft]
  generalize a.fifo.length % 2 ^ 8 = count at *
  have hsum : (Receiver.char g)^[count] a = (Receiver.char g)^[count - n] ((Receiver.char g)^[n] a) := by
    rw [← Function.iterate_add_apply, Nat.sub_add_cancel hn]
  rw [hsum]
  by_cases hzero : count - n = 0
  · rw [hzero]
    exact hserve
  · apply hserve.fillRing hsize htwo hcapacity _ (hdone hzero)
    rw [Receiver.fifo_char_iterate, List.length_drop]
    omega

lemma Refines.step (h : Refines size g s a) (e : Event) : Refines size g (step s e) (a.step g e) := by
  cases e with
  | arrive c =>
    exact ⟨congrArg (· ++ [c]) h.fifo, h.handed, h.demand, h.script, h.state, h.callback, h.convert, h.size_eq,
      h.head, h.tail, h.queue⟩
  | dataFull => exact h.dataFull hsize htwo hcapacity
  | receive xfer => exact h.request hsize xfer

lemma Refines.run (events : List Event) {s : Sys} {a : Receiver} (h : Refines size g s a) :
    Refines size g (events.foldl Lpuart.step s) (events.foldl (Receiver.step g) a) := by
  induction events generalizing s a with
  | nil => exact h
  | cons e events ih => exact ih (h.step hsize htwo hcapacity e)

end Ring

end Refinement

section Conservation

variable {g : Setup} {arrived : List Nat} {a : Receiver}

/-- What the queue keeps of the characters that arrived: everything handed over or stored is in the
order of arrival, and the characters missing are those dropped. -/
structure Receiver.Conserves (g : Setup) (arrived : List Nat) (a : Receiver) : Prop where
  stream : arrived.map g.convert = a.taken ++ a.fifo.map g.convert
  order : List.Sublist (a.handed ++ a.queue) a.taken
  count : a.taken.length = (a.handed ++ a.queue).length + a.drops
  bound : a.queue.length ≤ g.capacity
  waiting : a.demand ≠ 0 → a.queue = []

lemma Receiver.Conserves.request (h : a.Conserves g arrived) (xfer : Xfer) :
    (a.request xfer).Conserves g arrived := by
  unfold Receiver.request
  split
  · exact h
  · have hkept : a.handed ++ a.queue.take xfer.dataSize ++ a.queue.drop xfer.dataSize = a.handed ++ a.queue := by
      rw [List.append_assoc, List.take_append_drop]
    refine ⟨h.stream, ?_, ?_, ?_, fun hne => ?_⟩
    · rw [hkept]
      exact h.order
    · rw [hkept]
      exact h.count
    · rw [List.length_drop]
      exact (Nat.sub_le _ _).trans h.bound
    · exact List.drop_of_length_le (by dsimp only at hne; omega)

lemma Receiver.Conserves.complete (h : a.Conserves g arrived) : (a.complete g).Conserves g arrived := by
  have hnext (rest : List (Option Xfer)) : Receiver.Conserves g arrived { a with script := rest } :=
    ⟨h.stream, h.order, h.count, h.bound, h.waiting⟩
  unfold Receiver.complete
  split
  · split
    · exact h
    · exact hnext _
    · exact (hnext _).request _
  · exact h

lemma Receiver.Conserves.char (hcapacity : 0 < g.capacity) (h : a.Conserves g arrived) :
    (a.char g).Conserves g arrived := by
  have hcount := h.count
  have hbound := h.bound
  unfold Receiver.char
  split
  · exact h
  next c cs hfifo =>
    have hstream : arrived.map g.convert = a.taken ++ [g.convert c] ++ cs.map g.convert := by
      rw [h.stream, hfifo, List.map_cons, List.append_assoc, List.singleton_append]
    dsimp only
    split
    next hdemand =>
      have hqueue : a.queue = [] := h.waiting hdemand
      have horder : List.Sublist a.handed a.taken := by simpa [hqueue] using h.order
      have hhanded : Receiver.Conserves g arrived { a with
          fifo := cs, taken := a.taken ++ [g.convert c], handed := a.handed ++ [g.convert c],
          demand := a.demand - 1 } := by
        refine ⟨hstream, ?_, ?_, hbound, fun _ => hqueue⟩
        · rw [hqueue, List.append_nil]
          exact horder.append (List.Sublist.refl _)
        · simp only [hqueue, List.append_nil, List.length_append, List.length_singleton] at hcount ⊢
          omega
      split
      · exact hhanded.complete
      · exact hhanded
    next hdemand =>
      split
      next hfull =>
        have hkept : List.Sublist (a.handed ++ a.queue.tail) a.taken :=
          ((List.Sublist.refl _).append (List.tail_sublist _)).trans h.order
        refine ⟨hstream, ?_, ?_, ?_, fun hne => absurd hne hdemand⟩
        · rw [← List.append_assoc]
          exact hkept.append (List.Sublist.refl _)
        · simp only [List.length_append, List.length_tail, List.length_singleton] at hcount ⊢
          omega
        · simp only [List.length_append, List.length_tail, List.length_singleton]
          omega
      next hroom =>
        refine ⟨hstream, ?_, ?_, ?_, fun hne => absurd hne hdemand⟩
        · rw [← List.append_assoc]
          exact h.order.append (List.Sublist.refl _)
        · simp only [List.length_append, List.length_singleton] at hcount ⊢
          omega
        · simp only [List.length_append, List.length_singleton]
          omega

lemma Receiver.Conserves.char_iterate (hcapacity : 0 < g.capacity) (n : Nat) (h : a.Conserves g arrived) :
    ((Receiver.char g)^[n] a).Conserves g arrived := by
  induction n with
  | zero => exact h
  | succ n ih =>
    rw [Function.iterate_succ_apply']
    exact ih.char hcapacity

/-- The character an event brings. -/
def Event.incoming : Event → List Nat
  | .arrive c => [c]
  | .dataFull => []
  | .receive _ => []

lemma Receiver.Conserves.step (hcapacity : 0 < g.capacity) (h : a.Conserves g arrived) (e : Event) :
    (a.step g e).Conserves g (arrived ++ e.incoming) := by
  cases e with
  | arrive c =>
    refine ⟨?_, h.order, h.count, h.bound, h.waiting⟩
    simp [Receiver.step, Event.incoming, h.stream]
  | dataFull =>
    rw [Event.incoming, List.append_nil]
    exact h.char_iterate hcapacity _
  | receive xfer =>
    rw [Event.incoming, List.append_nil]
    exact h.request xfer

lemma Receiver.Conserves.run (hcapacity : 0 < g.capacity) (events : List Event) {arrived : List Nat}
    {a : Receiver} (h : a.Conserves g arrived) :
    (events.foldl (Receiver.step g) a).Conserves g (arrived ++ events.flatMap Event.incoming) := by
  induction events generalizing arrived a with
  | nil => simpa using h
  | cons e events ih =>
    rw [List.flatMap_cons, ← List.append_assoc]
    exact ih (h.step hcapacity e)

end Conservation

/-- A new handle with a ring buffer of `ringBufferSize` bytes. -/
def startBackground (onRxIdle : List (Option Xfer)) (callback is16bitData : Bool) (ringBuffer : Nat → Nat)
    (ringBufferSize : Nat) : Sys :=
  transferStartRingBuffer
    (transferEnable16Bit (transferCreateHandle (reset onRxIdle) callback) is16bitData) ringBuffer ringBufferSize

/-- The receiver before the first character. -/
def Receiver.empty (onRxIdle : List (Option Xfer)) : Receiver :=
  { fifo := [], taken := [], handed := [], queue := [], demand := 0, script := onRxIdle, drops := 0 }

/-- The number of characters the ring buffer has slots for. -/
def ringSize (is16bitData : Bool) (ringBufferSize : Nat) : Nat :=
  if is16bitData then ringBufferSize / 2 else ringBufferSize

/-- One slot is never used. -/
def setup (callback is16bitData : Bool) (ringBufferSize : Nat) : Setup :=
  { capacity := ringSize is16bitData ringBufferSize - 1
    callback := callback
    convert := fun c => if is16bitData then c % 2 ^ 10 else c % 2 ^ 8 }

lemma refines_startBackground (onRxIdle : List (Option Xfer)) (callback is16bitData : Bool)
    (ringBuffer : Nat → Nat) (ringBufferSize : Nat) (hsize : 0 < ringSize is16bitData ringBufferSize) :
    Refines (ringSize is16bitData ringBufferSize) (setup callback is16bitData ringBufferSize)
      (startBackground onRxIdle callback is16bitData ringBuffer ringBufferSize) (Receiver.empty onRxIdle) :=
  ⟨rfl, rfl, rfl, rfl, iff_of_false nofun (not_not_intro rfl), rfl, rfl, rfl, hsize, hsize, ringBuffer, rfl, rfl⟩

/-- Whatever arrives, in whatever batches, and whatever is requested, the driver behaves as the
drop-oldest queue of capacity `rxRingBufferSize - 1`: it hands over the same data, waits for the
same number of characters, stores the same queue and reports its length. The queue keeps the order of
arrival and misses only what it dropped when it was full; a request waits only while nothing is stored. -/
theorem background_receive_refines_queue (onRxIdle : List (Option Xfer)) (callback is16bitData : Bool)
    (ringBuffer : Nat → Nat) (ringBufferSize : Nat) (htwo : 2 ≤ ringSize is16bitData ringBufferSize)
    (hsize : ringSize is16bitData ringBufferSize ≤ 65536) (events : List Event) :
    let s := events.foldl step (startBackground onRxIdle callback is16bitData ringBuffer ringBufferSize)
    let g := setup callback is16bitData ringBufferSize
    let a := events.foldl (Receiver.step g) (Receiver.empty onRxIdle)
    s.handed = a.handed ∧ s.handle.rxDataSize = a.demand ∧ s.rxFifo = a.fifo ∧
      (∃ mem, s.handle.rxRingBuffer = some mem ∧
        ringContents mem s.handle.rxRingBufferSize s.handle.rxRingBufferHead s.handle.rxRingBufferTail = a.queue) ∧
      transferGetRxRingBufferLength s.handle = a.queue.length ∧
      a.Conserves g (events.flatMap Event.incoming) := by
  intro s g a
  have hrefines : Refines (ringSize is16bitData ringBufferSize) g s a :=
    (refines_startBackground onRxIdle callback is16bitData ringBuffer ringBufferSize (by omega)).run hsize htwo
      rfl events
  have hempty : (Receiver.empty onRxIdle).Conserves g [] :=
    ⟨rfl, List.Sublist.refl _, rfl, Nat.zero_le _, fun _ => rfl⟩
  have hcapacity : 0 < g.capacity := Nat.sub_pos_of_lt htwo
  refine ⟨hrefines.handed, hrefines.demand, hrefines.fifo, ?_, hrefines.length, hempty.run hcapacity events⟩
  rw [hrefines.size_eq]
  exact hrefines.queue

/-- Three characters for a ring of two slots: the first is dropped, the request gets the others. -/
theorem background_receive_refines_queue_two :
    ([.arrive 1, .arrive 2, .dataFull, .receive ⟨2, by decide⟩, .arrive 300, .dataFull].foldl step
      (startBackground [] true false (fun _ => 0) 2)).handed = [2, 44] ∧
    transferGetRxRingBufferLength
      ([.arrive 1, .arrive 2, .dataFull, .receive ⟨2, by decide⟩, .arrive 300, .dataFull].foldl step
        (startBackground [] true false (fun _ => 0) 2)).handle = 0 := by
  obtain ⟨hhanded, -, -, -, hlength, -⟩ :=
    background_receive_refines_queue [] true false (fun _ => 0) 2 (by decide) (by decide)
      [.arrive 1, .arrive 2, .dataFull, .receive ⟨2, by decide⟩, .arrive 300, .dataFull]
  exact ⟨hhanded.trans rfl, hlength.trans rfl⟩

end McuxDrivers.Lpuart
