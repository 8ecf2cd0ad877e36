import McuxDrivers.Netc.FrameQueue
import McuxDrivers.Netc.TxReports

/-!
# The buffers of the NETC receive ring

Seen from the driver's index, a receive ring is the frames that the hardware has delivered and then the descriptors that
it may fill. `EP_ReceiveFrame` takes the first frame away and puts its descriptors, with as many buffers, behind the
others: the ring does what a `FrameQueue` does.
-/

namespace McuxDrivers.Netc
open McuxDrivers.Lib

/-- A descriptor with the buffer that the driver remembers for it. -/
abbrev RxSlot := RxBd × Nat

namespace RxSlot

/-- What the application gets of a slot. -/
def part (s : RxSlot) : Part :=
  (s.2, s.1.bufLen)

/-- The slot with a buffer, for the hardware to fill. -/
def refill (s : RxSlot) (buffer : Nat) : RxSlot :=
  ({ s.1 with addr := buffer, isReady := false, isFinal := false }, buffer)

/-- A slot that the hardware may fill. -/
structure Idle (s : RxSlot) : Prop where
  addr : s.1.addr = s.2
  isReady : s.1.isReady = false

lemma idle_refill (s : RxSlot) (buffer : Nat) : (s.refill buffer).Idle :=
  ⟨rfl, rfl⟩

end RxSlot

/-- The descriptors of one frame: the last one is the only final one. -/
inductive Chain : List RxSlot → Prop
  | last {s : RxSlot} (hfinal : s.1.isFinal = true) : Chain [s]
  | cons {s : RxSlot} {chain : List RxSlot} (hfinal : s.1.isFinal = false) (h : Chain chain) : Chain (s :: chain)

lemma Chain.length_pos {chain : List RxSlot} (h : Chain chain) : 0 < chain.length := by
  cases h <;> simp

namespace RxConfig

variable (c : RxConfig)

lemma count_pos : 0 < c.count := by
  have hpos := c.len_pos
  have heven := c.len_even
  unfold count
  split
  next hext =>
    have := heven hext
    omega
  next => exact hpos

lemma count_le : c.count ≤ c.len := by
  unfold count
  split <;> omega

lemma bdIndex_inj {u v : Nat} (h : c.bdIndex u = c.bdIndex v) : u = v := by
  unfold bdIndex at h
  split at h <;> omega

end RxConfig

namespace RxRing

variable {c : RxConfig} {r : RxRing}

lemma nextIndex_eq {u : Nat} (hu : u < c.count) : nextIndex c (c.bdIndex u) = c.bdIndex (ringNext c.count u) := by
  have hle := c.len_le
  have heven := c.len_even
  unfold nextIndex RxConfig.bdIndex RxConfig.count at *
  split_ifs at * with hext
  · have hlen := heven hext
    rw [TxRing.increaseIndex_eq hle (show 2 * u < c.len by omega)]
    unfold increaseIndex ringNext
    rw [if_neg (show ¬ 2 * u + 1 = c.len by omega)]
    split_ifs <;> omega
  · exact TxRing.increaseIndex_eq hle hu

lemma buffIdx_of_index {u : Nat} (h : r.index = c.bdIndex u) : r.buffIdx c = u := by
  unfold buffIdx RxConfig.bdIndex at *
  split_ifs at * <;> omega

/-- The index of the driver is at a descriptor of the ring. -/
structure Indexed (c : RxConfig) (r : RxRing) : Prop where
  index_eq : r.index = c.bdIndex (r.buffIdx c)
  buffIdx_lt : r.buffIdx c < c.count

/-- The descriptor `u` with its buffer. -/
def slot (c : RxConfig) (r : RxRing) (u : Nat) : RxSlot :=
  (r.bdBase (c.bdIndex u), r.buffArray u)

/-- The slots of the ring from the driver's index on. -/
def view (c : RxConfig) (r : RxRing) : List RxSlot :=
  ringView (r.slot c) c.count (r.buffIdx c)

@[simp]
lemma length_view : (r.view c).length = c.count :=
  length_ringView _ _ _

lemma slot_of_view {a b : List RxSlot} {s : RxSlot} (h : r.view c = a ++ s :: b) :
    r.slot c ((r.buffIdx c + a.length) % c.count) = s :=
  ringView_slot h

lemma Indexed.slot_head (h : Indexed c r) {s : RxSlot} {rest : List RxSlot} (hview : r.view c = s :: rest) :
    r.slot c (r.buffIdx c) = s := by
  have hslot : r.slot c ((r.buffIdx c + 0) % c.count) = s := slot_of_view (a := []) hview
  rwa [Nat.add_zero, Nat.mod_eq_of_lt h.buffIdx_lt] at hslot

lemma Indexed.bdBase_head (h : Indexed c r) {s : RxSlot} {rest : List RxSlot} (hview : r.view c = s :: rest) :
    r.bdBase r.index = s.1 := by
  rw [h.index_eq, ← h.slot_head hview]
  rfl

lemma Indexed.buffArray_head (h : Indexed c r) {s : RxSlot} {rest : List RxSlot} (hview : r.view c = s :: rest) :
    r.buffArray (r.buffIdx c) = s.2 := by
  rw [← h.slot_head hview]
  rfl

lemma Indexed.congr {r' : RxRing} (h : Indexed c r) (hindex : r'.index = r.index) : Indexed c r' := by
  have hbuffIdx : r'.buffIdx c = r.buffIdx c := by rw [buffIdx, buffIdx, hindex]
  constructor
  · rw [hindex, hbuffIdx]
    exact h.index_eq
  · exact hbuffIdx ▸ h.buffIdx_lt

lemma length_le_of_view {a b chain : List RxSlot} (h : r.view c = a ++ chain ++ b) : chain.length ≤ c.len := by
  have hlength := length_view (c := c) (r := r)
  rw [h, List.length_append, List.length_append] at hlength
  have := c.count_le
  omega

lemma ringBuffers_perm (h : Indexed c r) : (r.ringBuffers c).Perm ((r.view c).map Prod.snd) := by
  rw [view, ← ringView_map]
  exact (ringView_perm h.buffIdx_lt r.buffArray).symm

section Turn

/-- The current descriptor gets a buffer, also in `buffArray`, and the index moves on. -/
def turn (c : RxConfig) (r : RxRing) (buffer : Nat) : RxRing :=
  { r.release c buffer with buffArray := Function.update r.buffArray (r.buffIdx c) buffer }

/-- The ring `r'` is `r` with the index `k` descriptors further, and other descriptors and buffers. -/
structure Turned (c : RxConfig) (r r' : RxRing) (k : Nat) : Prop where
  indexed : Indexed c r'
  buffIdx : r'.buffIdx c = (r.buffIdx c + k) % c.count
  same : r' = { r with bdBase := r'.bdBase, buffArray := r'.buffArray, index := r'.index }

lemma Turned.trans {r₁ r₂ r₃ : RxRing} {j k : Nat} (h₁ : Turned c r₁ r₂ j) (h₂ : Turned c r₂ r₃ k) :
    Turned c r₁ r₃ (j + k) := by
  constructor
  · exact h₂.indexed
  · rw [h₂.buffIdx, h₁.buffIdx, Nat.mod_add_mod, Nat.add_assoc]
  · rw [h₂.same, h₁.same]

lemma release_eq_turn : r.release c (r.buffArray (r.buffIdx c)) = r.turn c (r.buffArray (r.buffIdx c)) := by
  rw [turn, Function.update_eq_self]
  rfl

lemma buffIdx_turn (h : Indexed c r) (buffer : Nat) : (r.turn c buffer).buffIdx c = ringNext c.count (r.buffIdx c) := by
  apply buffIdx_of_index
  rw [← nextIndex_eq h.buffIdx_lt, ← h.index_eq]
  rfl

lemma turned_turn (h : Indexed c r) (buffer : Nat) : Turned c r (r.turn c buffer) 1 := by
  have hidx := buffIdx_turn h buffer
  constructor
  · constructor
    · rw [hidx, ← nextIndex_eq h.buffIdx_lt, ← h.index_eq]
      rfl
    · rw [hidx]
      exact ringNext_lt h.buffIdx_lt
  · rw [hidx, ringNext_eq_mod h.buffIdx_lt]
  · rfl

lemma slot_turn (h : Indexed c r) (buffer : Nat) :
    (r.turn c buffer).slot c =
      Function.update (r.slot c) (r.buffIdx c) ((r.slot c (r.buffIdx c)).refill buffer) := by
  funext u
  by_cases hu : u = r.buffIdx c
  · rw [hu, Function.update_self]
    simp [slot, turn, release, RxSlot.refill, ← h.index_eq]
  · have hindex : c.bdIndex u ≠ r.index := by
      rw [h.index_eq]
      intro heq
      exact hu (c.bdIndex_inj heq)
    rw [Function.update_of_ne hu]
    simp [slot, turn, release, Function.update_of_ne hindex, Function.update_of_ne hu]

/-- A turn moves the first slot behind the others. -/
lemma view_turn (h : Indexed c r) {s : RxSlot} {rest : List RxSlot} (hview : r.view c = s :: rest) (buffer : Nat) :
    (r.turn c buffer).view c = rest ++ [s.refill buffer] := by
  rw [view, buffIdx_turn h, slot_turn h, ringView_push h.buffIdx_lt, h.slot_head hview]
  rw [view] at hview
  rw [hview, List.tail_cons]

end Turn

section Loops

/-- `EP_DropFrame` gives the descriptors of the frame back with the buffers that they have. -/
lemma dropLoop_chain {chain : List RxSlot} (hchain : Chain chain) {fuel : Nat} {rest : List RxSlot} (h : Indexed c r)
    (hview : r.view c = chain ++ rest) (hfuel : chain.length ≤ fuel) :
    ∃ r', dropLoop c fuel r = some r' ∧ Turned c r r' chain.length ∧
      r'.view c = rest ++ chain.map fun s => s.refill s.2 := by
  induction hchain generalizing r fuel rest with
  | @last s hfinal =>
    obtain ⟨fuel, rfl⟩ : ∃ m, fuel = m + 1 := Nat.exists_eq_succ_of_ne_zero (by simp at hfuel; omega)
    have hbuffer := h.buffArray_head hview
    refine ⟨r.turn c s.2, ?_, turned_turn h s.2, view_turn h hview s.2⟩
    rw [dropLoop, h.bdBase_head hview, hfinal, if_pos rfl, release_eq_turn, hbuffer]
  | @cons s chain hfinal _ ih =>
    obtain ⟨fuel, rfl⟩ : ∃ m, fuel = m + 1 := Nat.exists_eq_succ_of_ne_zero (by simp at hfuel; omega)
    rw [List.cons_append] at hview
    have hbuffer := h.buffArray_head hview
    have hturn := turned_turn h s.2
    have hnext := view_turn h hview s.2
    rw [List.append_assoc] at hnext
    obtain ⟨r', hloop, hturned, hview'⟩ := ih hturn.indexed hnext (by simpa using hfuel)
    refine ⟨r', ?_, ?_, ?_⟩
    · rw [dropLoop, h.bdBase_head hview, hfinal, if_neg Bool.false_ne_true, release_eq_turn, hbuffer, hloop]
    · rw [List.length_cons, Nat.add_comm]
      exact hturn.trans hturned
    · rw [hview', List.append_assoc]
      rfl

lemma dropLoop_buffArray {fuel : Nat} {r' : RxRing} (h : dropLoop c fuel r = some r') : r'.buffArray = r.buffArray := by
  induction fuel generalizing r with
  | zero => cases h
  | succ fuel ih =>
    rw [dropLoop] at h
    split at h
    next =>
      rw [← Option.some.inj h]
      rfl
    next =>
      rw [ih h]
      rfl

/-- The exchange hands the buffers of the frame out and puts the new ones in their place. -/
lemma exchange_chain {chain : List RxSlot} (hchain : Chain chain) {newBuffs : List Nat} (parts : List Part)
    {rest : List RxSlot} (h : Indexed c r) (hview : r.view c = chain ++ rest) (hlen : newBuffs.length = chain.length) :
    ∃ r', exchange c newBuffs r parts = some (r', parts ++ chain.map RxSlot.part) ∧ Turned c r r' chain.length ∧
      r'.view c = rest ++ List.zipWith RxSlot.refill chain newBuffs := by
  induction hchain generalizing r newBuffs parts rest with
  | @last s hfinal =>
    obtain ⟨newBuff, rfl⟩ := List.length_eq_one_iff.mp hlen
    have hbuffer := h.buffArray_head hview
    have hbd := h.bdBase_head hview
    refine ⟨r.turn c newBuff, ?_, turned_turn h newBuff, view_turn h hview newBuff⟩
    rw [exchange, hbd, hfinal, if_pos rfl, hbuffer]
    rfl
  | @cons s chain hfinal _ ih =>
    obtain ⟨newBuff, newBuffs, rfl⟩ := List.exists_cons_of_length_eq_add_one hlen
    rw [List.cons_append] at hview
    have hbuffer := h.buffArray_head hview
    have hbd := h.bdBase_head hview
    have hturn := turned_turn h newBuff
    have hnext := view_turn h hview newBuff
    rw [List.append_assoc] at hnext
    obtain ⟨r', hloop, hturned, hview'⟩ := ih (parts ++ [s.part]) hturn.indexed hnext (Nat.succ.inj hlen)
    refine ⟨r', ?_, ?_, ?_⟩
    · rw [exchange, hbd, hfinal, if_neg Bool.false_ne_true, hbuffer]
      refine Eq.trans hloop ?_
      rw [List.append_assoc]
      rfl
    · rw [List.length_cons, Nat.add_comm]
      exact hturn.trans hturned
    · rw [hview', List.append_assoc]
      rfl

/-- The count stops at the final descriptor of the frame. -/
lemma countLoop_chain {chain : List RxSlot} (hchain : Chain chain) {before rest : List RxSlot} {fuel index buffNum : Nat}
    (h : Indexed c r) (hview : r.view c = before ++ chain ++ rest)
    (hindex : index = c.bdIndex ((r.buffIdx c + before.length) % c.count)) (hfuel : chain.length ≤ fuel) :
    countLoop c r fuel index buffNum = some (buffNum + chain.length) := by
  induction hchain generalizing before fuel index buffNum with
  | @last s hfinal =>
    obtain ⟨fuel, rfl⟩ : ∃ m, fuel = m + 1 := Nat.exists_eq_succ_of_ne_zero (by simp at hfuel; omega)
    have hslot : r.slot c ((r.buffIdx c + before.length) % c.count) = s := by
      apply slot_of_view (b := rest)
      rw [hview, List.append_assoc]
      rfl
    have hbd : r.bdBase index = s.1 := by rw [hindex, ← hslot, slot]
    rw [countLoop, hbd, hfinal, if_pos rfl]
    rfl
  | @cons s chain hfinal hchain ih =>
    obtain ⟨fuel, rfl⟩ : ∃ m, fuel = m + 1 := Nat.exists_eq_succ_of_ne_zero (by simp at hfuel; omega)
    have hslot : r.slot c ((r.buffIdx c + before.length) % c.count) = s := by
      apply slot_of_view (b := chain ++ rest)
      rw [hview, List.append_assoc]
      rfl
    have hbd : r.bdBase index = s.1 := by rw [hindex, ← hslot, slot]
    have hlt : before.length + 1 < c.count := by
      have hpos := hchain.length_pos
      rw [← length_view (r := r), hview, List.length_append, List.length_append, List.length_cons]
      omega
    have hnext : nextIndex c index = c.bdIndex ((r.buffIdx c + (before ++ [s]).length) % c.count) := by
      have hslotLt : (r.buffIdx c + before.length) % c.count < c.count := Nat.mod_lt _ (by omega)
      rw [hindex, nextIndex_eq hslotLt, ringNext_eq_mod hslotLt, Nat.mod_add_mod, List.length_append,
        List.length_singleton, Nat.add_assoc]
    -- the frame ends before the loop is round
    have hround : nextIndex c index ≠ r.index := by
      rw [hnext, h.index_eq]
      intro heq
      have hsame : (r.buffIdx c + (before.length + 1)) % c.count = (r.buffIdx c + 0) % c.count := by
        rw [Nat.add_zero (r.buffIdx c), Nat.mod_eq_of_lt h.buffIdx_lt]
        simpa using c.bdIndex_inj heq
      have hoffset := ring_offset_inj hlt (by omega) hsame
      omega
    have hview' : r.view c = before ++ [s] ++ chain ++ rest := by
      rw [hview]
      simp
    rw [countLoop, hbd, hfinal, if_neg Bool.false_ne_true, if_neg hround,
      ih hview' hnext (by simpa using hfuel), List.length_cons]
    congr 1
    omega

end Loops

end RxRing

section Hardware

/-- A slot that the hardware has filled. -/
def RxSlot.filled (s : RxSlot) (w : WriteBack) (isFinal : Bool) : RxSlot :=
  ({ addr := w.word, bufLen := w.bufLen, hr := w.hr, error := w.error, isReady := true, isFinal := isFinal }, s.2)

/-- The slots that the hardware has filled with a frame. -/
def fillSlots : List WriteBack → List RxSlot → List RxSlot
  | w :: ws, s :: slots => s.filled w ws.isEmpty :: fillSlots ws slots
  | _, _ => []

lemma length_fillSlots {ws : List WriteBack} {slots : List RxSlot} (h : ws.length ≤ slots.length) :
    (fillSlots ws slots).length = ws.length := by
  induction ws generalizing slots with
  | nil => rfl
  | cons w ws ih =>
    cases slots with
    | nil => cases h
    | cons s slots => rw [fillSlots, List.length_cons, List.length_cons, ih (by simpa using h)]

lemma chain_fillSlots (w : WriteBack) {ws : List WriteBack} {slots : List RxSlot} (h : ws.length < slots.length) :
    Chain (fillSlots (w :: ws) slots) := by
  induction ws generalizing w slots with
  | nil =>
    cases slots with
    | nil => cases h
    | cons s slots => exact .last rfl
  | cons v ws ih =>
    cases slots with
    | nil => cases h
    | cons s slots => exact .cons rfl (ih v (by simpa using h))

lemma map_part_fillSlots {ws : List WriteBack} {slots : List RxSlot} (h : ws.length ≤ slots.length) :
    (fillSlots ws slots).map RxSlot.part = ((slots.map Prod.snd).take ws.length).zip (ws.map WriteBack.bufLen) := by
  induction ws generalizing slots with
  | nil => simp [fillSlots]
  | cons w ws ih =>
    cases slots with
    | nil => cases h
    | cons s slots =>
      rw [fillSlots, List.map_cons, List.map_cons, List.length_cons, List.take_succ_cons, List.map_cons,
        List.zip_cons_cons, ih (by simpa using h)]
      rfl

lemma map_snd_fillSlots {ws : List WriteBack} {slots : List RxSlot} (h : ws.length ≤ slots.length) :
    (fillSlots ws slots).map Prod.snd ++ (slots.drop ws.length).map Prod.snd = slots.map Prod.snd := by
  induction ws generalizing slots with
  | nil => rfl
  | cons w ws ih =>
    cases slots with
    | nil => cases h
    | cons s slots =>
      rw [fillSlots, List.map_cons, List.length_cons, List.drop_succ_cons, List.cons_append, ih (by simpa using h)]
      rfl

namespace RxRing

variable {c : RxConfig} {r : RxRing}

lemma slot_writeBack (w : WriteBack) (isFinal : Bool) :
    (r.writeBack c w isFinal).slot c =
      Function.update (r.slot c) r.rbpir ((r.slot c r.rbpir).filled w isFinal) := by
  funext u
  by_cases hu : u = r.rbpir
  · rw [hu, Function.update_self]
    simp [slot, writeBack, RxSlot.filled]
  · have hindex : c.bdIndex u ≠ c.bdIndex r.rbpir := fun heq => hu (c.bdIndex_inj heq)
    rw [Function.update_of_ne hu]
    simp only [slot, writeBack, Function.update_of_ne hindex]
    split
    next hext =>
      have hodd : c.bdIndex u ≠ c.bdIndex r.rbpir + 1 := by
        simp only [RxConfig.bdIndex, hext, if_true]
        omega
      rw [Function.update_of_ne hodd]
    next => rfl

lemma view_writeBack {busy free : List RxSlot} {s : RxSlot} (hview : r.view c = busy ++ s :: free)
    (hrbpir : r.rbpir = (r.buffIdx c + busy.length) % c.count) (w : WriteBack) (isFinal : Bool) :
    (r.writeBack c w isFinal).view c = busy ++ s.filled w isFinal :: free := by
  have hslot : r.slot c r.rbpir = s := by
    rw [hrbpir]
    exact slot_of_view hview
  rw [view, slot_writeBack, hslot, hrbpir]
  exact ringView_write hview (s.filled w isFinal)

/-- A frame fills the first free slots, and its parts are their buffers. -/
lemma writeFrame_view (ws : List WriteBack) {busy free : List RxSlot} (hview : r.view c = busy ++ free)
    (hrbpir : r.rbpir = (r.buffIdx c + busy.length) % c.count) (hlen : ws.length ≤ free.length)
    (hidle : ∀ s ∈ free, s.Idle) :
    (writeFrame c ws r).1.view c = busy ++ fillSlots ws free ++ free.drop ws.length ∧
      (writeFrame c ws r).2 = (fillSlots ws free).map RxSlot.part ∧
      (writeFrame c ws r).1.rbpir = (r.buffIdx c + (busy.length + ws.length)) % c.count ∧
      (writeFrame c ws r).1 =
        { r with bdBase := (writeFrame c ws r).1.bdBase, rbpir := (writeFrame c ws r).1.rbpir } := by
  induction ws generalizing r busy free with
  | nil =>
    refine ⟨?_, rfl, hrbpir, rfl⟩
    rw [writeFrame, hview, fillSlots, List.append_nil, List.length_nil, List.drop_zero]
    simp
  | cons w ws ih =>
    cases free with
    | nil => cases hlen
    | cons s free =>
      have hnext := view_writeBack hview hrbpir w ws.isEmpty
      rw [List.append_cons] at hnext
      have hrbpir' : (r.writeBack c w ws.isEmpty).rbpir =
          ((r.writeBack c w ws.isEmpty).buffIdx c + (busy ++ [s.filled w ws.isEmpty]).length) % c.count := by
        rw [List.length_append, List.length_singleton, ← Nat.add_assoc, ← Nat.mod_add_mod]
        change (r.rbpir + 1) % c.count = _
        rw [hrbpir]
        rfl
      obtain ⟨hview', hparts, hreg, hsame⟩ := ih hnext hrbpir' (by simpa using hlen)
        (fun t ht => hidle t (List.mem_cons_of_mem s ht))
      have haddr : (r.bdBase (c.bdIndex r.rbpir)).addr = s.2 := by
        have hslot : r.slot c r.rbpir = s := by
          rw [hrbpir]
          exact slot_of_view hview
        rw [← (hidle s (by simp)).addr, ← hslot, slot]
      refine ⟨?_, ?_, ?_, ?_⟩
      · rw [writeFrame, hview', fillSlots]
        simp
      · have hhead : ((r.bdBase (c.bdIndex r.rbpir)).addr, w.bufLen) = (s.filled w ws.isEmpty).part := by
          rw [haddr]
          rfl
        rw [writeFrame, fillSlots, List.map_cons, ← hparts, ← hhead]
      · rw [writeFrame, hreg, List.length_append, List.length_singleton, List.length_cons, Nat.add_assoc busy.length,
          Nat.add_comm 1]
        rfl
      · rw [writeFrame]
        exact hsame

end RxRing

end Hardware

/-- A chain of slots holds a frame. -/
structure Carried (frame : RxFrame) (chain : List RxSlot) : Prop where
  linked : Chain chain
  head : ∀ s ∈ chain.head?, s.1.isReady = true ∧ s.1.error = frame.error ∧ s.1.hr = frame.hr
  parts : chain.map RxSlot.part = frame.parts

lemma Carried.map_snd {frame : RxFrame} {chain : List RxSlot} (h : Carried frame chain) :
    chain.map Prod.snd = frame.buffers := by
  rw [RxFrame.buffers, ← h.parts, List.map_map]
  rfl

lemma Carried.length_eq {frame : RxFrame} {chain : List RxSlot} (h : Carried frame chain) :
    chain.length = frame.parts.length := by
  rw [← h.parts, List.length_map]

namespace RxRing

variable {c : RxConfig} {r : RxRing} {q : FrameQueue} {chains : List (List RxSlot)} {free : List RxSlot}

/-- The ring stands for a queue: the waiting frames lie in its first slots, in front of the ones that the hardware may
fill. -/
structure Stands (c : RxConfig) (r : RxRing) (q : FrameQueue) (chains : List (List RxSlot)) (free : List RxSlot) :
    Prop where
  indexed : Indexed c r
  rbcir : r.rbcir = r.buffIdx c
  rbpir : r.rbpir = (r.buffIdx c + chains.flatten.length) % c.count
  view : r.view c = chains.flatten ++ free
  carried : List.Forall₂ Carried q.waiting chains
  free_ne : free ≠ []
  idle : ∀ s ∈ free, s.Idle
  buffers : free.map Prod.snd = q.idle
  pool : r.pool.Perm q.pool
  application : r.application = q.application
  arrived : r.arrived = q.arrived
  results : r.results = q.results

/-- What a call leaves that is not a success: the buffers are where they were. -/
structure Unmoved (r r' : RxRing) : Prop where
  pool : r'.pool.Perm r.pool
  buffArray : r'.buffArray = r.buffArray
  application : r'.application = r.application

/-- What a success does: the slots of the frame, from the driver's index on, get as many fresh buffers out of the pool,
and the other slots keep theirs. -/
def Exchanged (c : RxConfig) (r r' : RxRing) (parts : List Part) : Prop :=
  ∃ fresh others : List Nat, fresh.length = parts.length ∧ r.pool.Perm (fresh ++ r'.pool) ∧
    ringView r.buffArray c.count (r.buffIdx c) = parts.map Prod.fst ++ others ∧
    ringView r'.buffArray c.count (r.buffIdx c) = fresh ++ others

/-- What a call does with the buffers. -/
structure CallSpec (c : RxConfig) (r r' : RxRing) (status : RxStatus) (parts : List Part) : Prop where
  success : status = .success → Exchanged c r r' parts
  failure : status ≠ .success → Unmoved r r' ∧ parts = []

/-- The ring after the application has taken the result of a call. -/
def conclude (r : RxRing) (status : RxStatus) (parts : List Part) : RxRing :=
  { r with
    application := r.application ++ parts.map Prod.fst
    results := r.results ++ [(status, parts)] }

lemma receive_eq {length : Nat} {answers : List (Option Nat)} {r' : RxRing} {status : RxStatus} {parts : List Part}
    (h : r.receiveFrame c length answers = some (r', status, parts)) :
    r.receive c length answers = some (r'.conclude status parts) := by
  rw [receive, h]
  rfl

/-- The ring holds the buffers of the line, from the driver's index on. -/
lemma Stands.line (h : Stands c r q chains free) : ringView r.buffArray c.count (r.buffIdx c) = q.line := by
  have hmap : ringView r.buffArray c.count (r.buffIdx c) = (r.view c).map Prod.snd :=
    ringView_map Prod.snd (r.slot c) c.count (r.buffIdx c)
  rw [hmap, h.view, List.map_append, h.buffers, FrameQueue.line]
  congr 1
  have hcarried := h.carried
  generalize q.waiting = waiting at hcarried
  clear h hmap
  induction hcarried with
  | nil => rfl
  | @cons frame chain waiting chains hframe _ ih =>
    rw [List.flatten_cons, List.map_append, List.flatMap_cons, ih, RxFrame.buffers, ← hframe.parts, List.map_map]
    rfl

/-- A call that changes nothing. -/
lemma Stands.keep (h : Stands c r q chains free) (status : RxStatus) :
    Stands c (r.conclude status []) (q.answer status []) chains free := by
  constructor
  · exact h.indexed.congr rfl
  · exact h.rbcir
  · exact h.rbpir
  · exact h.view
  · exact h.carried
  · exact h.free_ne
  · exact h.idle
  · exact h.buffers
  · exact h.pool
  · rw [conclude, FrameQueue.answer, h.application]
  · exact h.arrived
  · rw [conclude, FrameQueue.answer, h.results]

/-- A call that removes the first frame and refills its slots. -/
lemma Stands.remove {chain : List RxSlot} {r₀ r' : RxRing} {refilled : List RxSlot} {pool pool' : List Nat}
    (h : Stands c r q (chain :: chains) free) (hr₀ : r₀ = { r with pool := pool })
    (hturned : Turned c r₀ r' chain.length) (hview : r'.view c = chains.flatten ++ free ++ refilled)
    (hidle : ∀ s ∈ refilled, s.Idle) (hpool : pool.Perm pool') (status : RxStatus) (parts : List Part) :
    Stands c ((r'.setRxConsumer c).conclude status parts)
      ((({ q with pool := pool' } : FrameQueue).remove (refilled.map Prod.snd)).answer status parts) chains
      (free ++ refilled) := by
  have hbuffIdx : r'.buffIdx c = (r.buffIdx c + chain.length) % c.count := by
    rw [hturned.buffIdx, hr₀]
    rfl
  have hsame : r' = { r with pool := pool, bdBase := r'.bdBase, buffArray := r'.buffArray, index := r'.index } := by
    rw [hturned.same, hr₀]
  constructor
  · exact hturned.indexed.congr rfl
  · rfl
  · change r'.rbpir = (r'.buffIdx c + _) % c.count
    rw [hbuffIdx, Nat.mod_add_mod, hsame, h.rbpir, List.flatten_cons, List.length_append, Nat.add_assoc]
  · change r'.view c = _
    rw [hview, List.append_assoc]
  · change List.Forall₂ Carried q.waiting.tail chains
    obtain ⟨frame, waiting, -, hrest, hq⟩ := List.forall₂_cons_right_iff.mp h.carried
    rwa [hq, List.tail_cons]
  · intro hnil
    exact h.free_ne (List.append_eq_nil_iff.mp hnil).1
  · intro s hs
    rcases List.mem_append.mp hs with hs | hs
    · exact h.idle s hs
    · exact hidle s hs
  · rw [List.map_append, h.buffers]
    rfl
  · change r'.pool.Perm pool'
    rw [hsame]
    exact hpool
  · change r'.application ++ _ = q.application ++ _
    rw [hsame, ← h.application]
  · change r'.arrived = q.arrived
    rw [hsame, ← h.arrived]
  · change r'.results ++ _ = q.results ++ _
    rw [hsame, ← h.results]

lemma map_snd_refill_self (chain : List RxSlot) :
    (chain.map fun s => s.refill s.2).map Prod.snd = chain.map Prod.snd := by
  rw [List.map_map]
  rfl

lemma map_snd_zipWith_refill {chain : List RxSlot} {newBuffs : List Nat} (h : newBuffs.length = chain.length) :
    (List.zipWith RxSlot.refill chain newBuffs).map Prod.snd = newBuffs := by
  induction chain generalizing newBuffs with
  | nil => exact (List.eq_nil_of_length_eq_zero h).symm
  | cons s chain ih =>
    obtain ⟨newBuff, newBuffs, rfl⟩ := List.exists_cons_of_length_eq_add_one h
    rw [List.zipWith_cons_cons, List.map_cons, ih (Nat.succ.inj h)]
    rfl

/-- The frame is dropped, with the pool in another order. -/
lemma Stands.drop {frame : RxFrame} {chain : List RxSlot} {pool : List Nat} (h : Stands c r q (chain :: chains) free)
    (hframe : Carried frame chain) (hpool : pool.Perm r.pool) (status : RxStatus) :
    ∃ r' free', ({ r with pool := pool } : RxRing).dropWith c status = some (r', status, []) ∧ Unmoved r r' ∧
      Stands c (r'.conclude status []) ((q.remove frame.buffers).answer status []) chains free' := by
  have hview := h.view
  rw [List.flatten_cons, List.append_assoc] at hview
  have hlen : chain.length ≤ c.len := length_le_of_view (a := []) hview
  obtain ⟨r', hloop, hturned, hview'⟩ := dropLoop_chain (r := { r with pool := pool }) hframe.linked
    (h.indexed.congr rfl) hview hlen
  refine ⟨r'.setRxConsumer c, free ++ chain.map fun s => s.refill s.2, ?_, ?_, ?_⟩
  · rw [dropWith, dropFrame, hloop]
    rfl
  · constructor
    · change r'.pool.Perm r.pool
      rw [hturned.same]
      exact hpool
    · change r'.buffArray = r.buffArray
      rw [dropLoop_buffArray hloop]
    · change r'.application = r.application
      rw [hturned.same]
  · have hidle : ∀ s ∈ chain.map fun s => s.refill s.2, s.Idle := by
      intro s hs
      obtain ⟨t, -, rfl⟩ := List.mem_map.mp hs
      exact t.idle_refill t.2
    have hstands := h.remove rfl hturned hview' hidle (hpool.trans h.pool) status []
    rw [map_snd_refill_self, hframe.map_snd] at hstands
    exact hstands

/-- The frame is handed over for new buffers. -/
lemma Stands.hand {frame : RxFrame} {chain : List RxSlot} {pool newBuffs : List Nat}
    (h : Stands c r q (chain :: chains) free) (hframe : Carried frame chain) (hlen : newBuffs.length = chain.length)
    (hpool : (newBuffs ++ pool).Perm r.pool) :
    ∃ r' free', ({ r with pool := pool } : RxRing).receiveFrameCommon c newBuffs = some (r', frame.parts) ∧
      Exchanged c r r' frame.parts ∧
      Stands c (r'.conclude .success frame.parts)
        (((q.allocate newBuffs).remove newBuffs).answer .success frame.parts) chains free' := by
  have hview := h.view
  rw [List.flatten_cons, List.append_assoc] at hview
  obtain ⟨r', hloop, hturned, hview'⟩ := exchange_chain (r := { r with pool := pool }) hframe.linked []
    (h.indexed.congr rfl) hview hlen
  rw [List.nil_append, hframe.parts] at hloop
  have hrefilled := map_snd_zipWith_refill hlen
  refine ⟨r'.setRxConsumer c, free ++ List.zipWith RxSlot.refill chain newBuffs, ?_, ?_, ?_⟩
  · rw [receiveFrameCommon, hloop]
    rfl
  · refine ⟨newBuffs, (chains.flatten ++ free).map Prod.snd, ?_, ?_, ?_, ?_⟩
    · rw [hlen, hframe.length_eq]
    · change r.pool.Perm (newBuffs ++ r'.pool)
      rw [hturned.same]
      exact hpool.symm
    · have hmap : ringView r.buffArray c.count (r.buffIdx c) = (r.view c).map Prod.snd :=
        ringView_map Prod.snd (r.slot c) c.count (r.buffIdx c)
      rw [hmap, hview, List.map_append, hframe.map_snd, RxFrame.buffers]
    · -- the view from the new index is the one from the old index, rotated by the frame
      have hmap : ringView r'.buffArray c.count (r'.buffIdx c) = (r'.view c).map Prod.snd :=
        ringView_map Prod.snd (r'.slot c) c.count (r'.buffIdx c)
      rw [hturned.buffIdx, ringView_rotate, hview', List.map_append, hrefilled, ← hlen,
        ← List.rotate_append_length_eq] at hmap
      exact List.rotate_injective _ hmap
  · have hidle : ∀ s ∈ List.zipWith RxSlot.refill chain newBuffs, s.Idle := by
      intro s hs
      obtain ⟨k, hk, rfl⟩ := List.mem_iff_getElem.mp hs
      rw [List.getElem_zipWith]
      exact RxSlot.idle_refill _ _
    -- the pool of the queue is what the new buffers leave of it
    have hleft : pool.Perm (q.pool.diff newBuffs) := by
      have hcount := List.perm_iff_count.mp (hpool.trans h.pool)
      rw [List.perm_iff_count]
      intro b
      have hb := hcount b
      rw [List.count_append] at hb
      rw [List.count_diff]
      omega
    have hstands := h.remove rfl hturned hview' hidle hleft .success frame.parts
    rw [hrefilled] at hstands
    exact hstands

/-- Every call returns, and does what the call of the queue does. -/
theorem Stands.receiveFrame (h : Stands c r q chains free) (length : Nat) (answers : List (Option Nat)) :
    ∃ r' status parts, r.receiveFrame c length answers = some (r', status, parts) ∧ CallSpec c r r' status parts ∧
      ∃ chains' free', Stands c (r'.conclude status parts) (q.receive length answers) chains' free' := by
  have hkeep : ∀ status : RxStatus, status ≠ .success → CallSpec c r r status [] ∧
      ∃ chains' free', Stands c (r.conclude status []) (q.answer status []) chains' free' := by
    intro status hstatus
    refine ⟨⟨fun hsuccess => absurd hsuccess hstatus, ?_⟩, chains, free, h.keep status⟩
    intro _
    exact ⟨⟨List.Perm.refl _, rfl, rfl⟩, rfl⟩
  have hcarried := h.carried
  rcases hq : q.waiting with _ | ⟨frame, waiting⟩
  · obtain rfl : chains = [] := by
      rw [hq] at hcarried
      exact List.forall₂_nil_left_iff.mp hcarried
    obtain ⟨s, free', rfl⟩ := List.exists_cons_of_ne_nil h.free_ne
    have hready : (r.bdBase r.index).isReady = false := by
      rw [h.indexed.bdBase_head h.view]
      exact (h.idle s (by simp)).isReady
    refine ⟨r, .rxFrameEmpty, [], ?_, ?_⟩
    · rw [RxRing.receiveFrame, if_pos hready]
    · rw [FrameQueue.receive, hq]
      exact hkeep _ (by decide)
  · rw [hq] at hcarried
    obtain ⟨chain, chains', hframe, -, rfl⟩ := List.forall₂_cons_left_iff.mp hcarried
    have hdropped : ∀ (pool : List Nat) (status : RxStatus), pool.Perm r.pool → status ≠ .success →
        ∃ r' status' parts, ({ r with pool := pool } : RxRing).dropWith c status = some (r', status', parts) ∧
          CallSpec c r r' status' parts ∧ ∃ chains' free',
            Stands c (r'.conclude status' parts) ((q.remove frame.buffers).answer status []) chains' free' := by
      intro pool status hpool hsuccess
      obtain ⟨r', free', hdrop, hunmoved, hstands⟩ := h.drop hframe hpool status
      refine ⟨r', status, [], hdrop, ⟨fun heq => absurd heq hsuccess, ?_⟩, _, _, hstands⟩
      intro _
      exact ⟨hunmoved, rfl⟩
    have hbd : (r.bdBase r.index).isReady = true ∧ (r.bdBase r.index).error = frame.error ∧
        (r.bdBase r.index).hr = frame.hr := by
      obtain ⟨s, chain', rfl⟩ := List.exists_cons_of_length_pos hframe.linked.length_pos
      rw [h.indexed.bdBase_head h.view]
      exact hframe.head s rfl
    obtain ⟨hready, herror, hhr⟩ := hbd
    have hview : r.view c = [] ++ chain ++ (chains'.flatten ++ free) := by
      rw [h.view, List.flatten_cons, List.nil_append, List.append_assoc]
    have hlen : chain.length ≤ c.len := length_le_of_view hview
    have hindex : r.index = c.bdIndex ((r.buffIdx c + ([] : List RxSlot).length) % c.count) := by
      rw [List.length_nil, Nat.add_zero, Nat.mod_eq_of_lt h.indexed.buffIdx_lt]
      exact h.indexed.index_eq
    have hcount : r.countLoop c c.len r.index 0 = some (0 + chain.length) :=
      countLoop_chain hframe.linked h.indexed hview hindex hlen
    rw [Nat.zero_add, hframe.length_eq] at hcount
    rw [RxRing.receiveFrame, hready, herror, hhr, hcount, Option.bind_some, if_neg Bool.true_eq_false_eq_False,
      FrameQueue.receive, hq]
    dsimp only
    by_cases hbad : frame.error = 0
    · rw [if_neg (not_not_intro hbad), if_neg (not_not_intro hbad)]
      by_cases htsr : frame.hr = 3
      · rw [if_pos htsr, if_pos htsr]
        exact ⟨r, _, [], rfl, hkeep _ (by decide)⟩
      rw [if_neg htsr, if_neg htsr]
      by_cases hregular : frame.hr = 0
      · rw [if_neg (not_not_intro hregular), if_neg (not_not_intro hregular)]
        by_cases hshort : length < frame.parts.length
        · rw [if_pos hshort, if_pos hshort]
          exact ⟨r, _, [], rfl, hkeep _ (by decide)⟩
        rw [if_neg hshort, if_neg hshort]
        rcases hresult : allocBuffers frame.parts.length answers r.pool [] with ⟨pool, result⟩
        have halloc := allocBuffers_spec hresult
        cases result with
        | none =>
          have hdenied : ¬ Granted frame.parts.length answers q.pool :=
            fun hall => halloc.2 (hall.perm h.pool.symm)
          rw [if_neg hdenied]
          exact hdropped pool .lackOfResource halloc.1 (by decide)
        | some newBuffs =>
          obtain ⟨hoffered, hgranted, hpool⟩ := halloc
          rw [List.nil_append] at hoffered hpool
          have hsize : newBuffs.length = chain.length := by
            rw [hoffered, hgranted.1, hframe.length_eq]
          obtain ⟨r', free', hhand, hexchanged, hstands⟩ := h.hand hframe hsize hpool
          rw [if_pos (hgranted.perm h.pool), ← hoffered]
          simp only [hhand, Option.map_some]
          refine ⟨r', .success, frame.parts, rfl, ⟨fun _ => hexchanged, ?_⟩, _, _, hstands⟩
          intro hne
          exact absurd rfl hne
      · rw [if_pos hregular, if_pos hregular]
        exact ⟨r, _, [], rfl, hkeep _ (by decide)⟩
    · rw [if_pos hbad, if_pos hbad]
      exact hdropped r.pool .rxFrameError (List.Perm.refl _) (by decide)

/-- The hardware puts a frame behind the ones in the ring. -/
lemma Stands.deliver (h : Stands c r q chains free) (first : WriteBack) (rest : List WriteBack) :
    ∃ chains' free', Stands c (r.deliver c first rest) (q.deliver first rest) chains' free' := by
  have hlength := length_view (c := c) (r := r)
  rw [h.view, List.length_append] at hlength
  have hused : ringLength c.count r.rbpir r.rbcir = chains.flatten.length := by
    have hpos := List.length_pos_iff.mpr h.free_ne
    rw [h.rbcir, h.rbpir]
    exact ringLength_add_mod h.indexed.buffIdx_lt (by omega)
  have hidleLen : q.idle.length = free.length := by rw [← h.buffers, List.length_map]
  rw [RxRing.deliver, FrameQueue.deliver]
  split
  next hroom =>
    have hfits : rest.length + 1 < free.length := by omega
    rw [if_pos (by omega)]
    obtain ⟨hview, hparts, hreg, hsame⟩ := writeFrame_view (first :: rest) h.view h.rbpir hfits.le h.idle
    rcases hframe : writeFrame c (first :: rest) r with ⟨r', parts⟩
    rw [hframe] at hview hparts hreg hsame
    dsimp only at hview hparts hreg hsame
    have hindex : r'.buffIdx c = r.buffIdx c := by
      rw [hsame]
      rfl
    have hlen : (fillSlots (first :: rest) free).length = (first :: rest).length := length_fillSlots hfits.le
    have hzip : (q.idle.take (rest.length + 1)).zip ((first :: rest).map WriteBack.bufLen) = parts := by
      rw [hparts, ← h.buffers]
      exact (map_part_fillSlots (show (first :: rest).length ≤ free.length from hfits.le)).symm
    refine ⟨chains ++ [fillSlots (first :: rest) free], free.drop (rest.length + 1), ?_⟩
    constructor
    · exact h.indexed.congr (by rw [hsame])
    · change r'.rbcir = r'.buffIdx c
      rw [hindex, hsame]
      exact h.rbcir
    · change r'.rbpir = (r'.buffIdx c + _) % c.count
      rw [hreg, hindex, List.flatten_append, List.length_append, List.flatten_singleton, hlen]
    · change r'.view c = _
      rw [hview, List.flatten_append, List.flatten_singleton, List.length_cons]
    · apply List.rel_append h.carried
      refine .cons ⟨chain_fillSlots first (by omega), ?_, ?_⟩ .nil
      · intro s hs
        obtain ⟨t, free', rfl⟩ := List.exists_cons_of_ne_nil h.free_ne
        obtain rfl : t.filled first rest.isEmpty = s := Option.some.inj hs
        exact ⟨rfl, rfl, rfl⟩
      · rw [hzip, hparts]
    · intro hnil
      have := List.drop_eq_nil_iff.mp hnil
      omega
    · intro s hs
      exact h.idle s (List.mem_of_mem_drop hs)
    · rw [List.map_drop, h.buffers]
    · change r'.pool.Perm q.pool
      rw [hsame]
      exact h.pool
    · change r'.application = q.application
      rw [hsame, ← h.application]
    · change r'.arrived ++ _ = q.arrived ++ _
      rw [hsame, hzip, ← h.arrived]
    · change r'.results = q.results
      rw [hsame, ← h.results]
  next hroom =>
    rw [if_neg (by omega)]
    exact ⟨chains, free, h⟩

lemma Stands.giveBack (h : Stands c r q chains free) (buffer : Nat) :
    Stands c (r.free buffer) (q.free buffer) chains free := by
  rw [RxRing.free, FrameQueue.free, h.application]
  split
  next =>
    constructor
    · exact h.indexed.congr rfl
    · exact h.rbcir
    · exact h.rbpir
    · exact h.view
    · exact h.carried
    · exact h.free_ne
    · exact h.idle
    · exact h.buffers
    · exact h.pool.cons buffer
    · rfl
    · exact h.arrived
    · exact h.results
  next => exact h

lemma stands_init (c : RxConfig) (buffArray : Nat → Nat) (pool : List Nat) :
    ∃ free, Stands c (init c buffArray pool) (FrameQueue.start ((init c buffArray pool).ringBuffers c) pool) [] free := by
  have hidx : (init c buffArray pool).buffIdx c = 0 := by simp [buffIdx, init]
  have hindexed : Indexed c (init c buffArray pool) := by
    constructor
    · rw [hidx]
      simp [init, RxConfig.bdIndex]
    · rw [hidx]
      exact c.count_pos
  refine ⟨(init c buffArray pool).view c, hindexed, ?_, ?_, ?_, .nil, ?_, ?_, ?_, List.Perm.refl _, rfl, rfl, rfl⟩
  · simp [init, buffIdx]
  · rw [List.flatten_nil, List.length_nil, Nat.add_zero, Nat.mod_eq_of_lt hindexed.buffIdx_lt]
    simp [init, buffIdx]
  · rw [List.flatten_nil, List.nil_append]
  · intro hnil
    have hlength := length_view (c := c) (r := init c buffArray pool)
    have hpos := c.count_pos
    rw [hnil, List.length_nil] at hlength
    omega
  · intro s hs
    obtain ⟨k, -, rfl⟩ := List.mem_map.mp hs
    constructor
    · simp only [slot, init, RxConfig.bdIndex]
      split <;> simp
    · rfl
  · rw [view, hidx, ringView, List.map_map]
    apply List.map_congr_left
    intro k hk
    have hlt : k < c.count := List.mem_range.mp hk
    simp [slot, Nat.mod_eq_of_lt hlt]

lemma Stands.step (h : Stands c r q chains free) (e : RxEvent) :
    ∃ r' chains' free', RxRing.step c (some r) e = some r' ∧ Stands c r' (q.step e) chains' free' := by
  cases e with
  | deliver first rest =>
    obtain ⟨chains', free', hstands⟩ := h.deliver first rest
    exact ⟨_, _, _, rfl, hstands⟩
  | receive length answers =>
    obtain ⟨r', status, parts, hcall, -, chains', free', hstands⟩ := h.receiveFrame length answers
    exact ⟨_, _, _, receive_eq hcall, hstands⟩
  | free buffer => exact ⟨_, _, _, rfl, h.giveBack buffer⟩

lemma Stands.run (events : List RxEvent) (h : Stands c r q chains free) :
    ∃ r' chains' free', events.foldl (RxRing.step c) (some r) = some r' ∧
      Stands c r' (events.foldl FrameQueue.step q) chains' free' := by
  induction events generalizing r q chains free with
  | nil => exact ⟨_, _, _, rfl, h⟩
  | cons e events ih =>
    obtain ⟨r', chains', free', hstep, hstands⟩ := h.step e
    rw [List.foldl_cons, List.foldl_cons, hstep]
    exact ih hstands

/-- The ring shows a queue: what is in the line is in the ring, and the other owners, the frames and the results are the
same. -/
structure Shows (c : RxConfig) (r : RxRing) (q : FrameQueue) : Prop where
  line : ringView r.buffArray c.count (r.buffIdx c) = q.line
  pool : r.pool.Perm q.pool
  application : r.application = q.application
  arrived : r.arrived = q.arrived
  results : r.results = q.results

lemma Stands.shows (h : Stands c r q chains free) : Shows c r q :=
  ⟨h.line, h.pool, h.application, h.arrived, h.results⟩

/-- How often a buffer is with the allocator, in the ring, and with the application. -/
def owners (c : RxConfig) (r : RxRing) (b : Nat) : Nat :=
  r.pool.count b + (r.ringBuffers c).count b + r.application.count b

/-- Any run of a ring, started with distinct buffers, is the run of the queue. Every buffer has one owner, the results of
the calls account for the frames in the order of their arrival, and the next call returns, as the call of the queue
does, and treats the buffers as its code says. -/
theorem rx_conserves (c : RxConfig) (buffArray : Nat → Nat) (pool : List Nat)
    (hdistinct : (pool ++ (init c buffArray pool).ringBuffers c).Nodup) (events : List RxEvent) :
    ∃ r q, events.foldl (RxRing.step c) (some (init c buffArray pool)) = some r ∧
      events.foldl FrameQueue.step (FrameQueue.start ((init c buffArray pool).ringBuffers c) pool) = q ∧
      Shows c r q ∧ (∀ b, owners c r b = if b ∈ pool ++ (init c buffArray pool).ringBuffers c then 1 else 0) ∧
      (∃ taken, r.arrived = taken ++ q.waiting ∧ FrameQueue.Served r.results taken) ∧
      ∀ length answers, ∃ r' status parts, r.receiveFrame c length answers = some (r', status, parts) ∧
        Shows c (r'.conclude status parts) (q.receive length answers) ∧ CallSpec c r r' status parts := by
  obtain ⟨free, hinit⟩ := stands_init c buffArray pool
  obtain ⟨r, chains, free', hrun, hstands⟩ := hinit.run events
  obtain ⟨howned, taken, haccounted⟩ :=
    FrameQueue.run_accounted ((init c buffArray pool).ringBuffers c) pool events
  refine ⟨r, _, hrun, rfl, ?_, ?_, ?_, ?_⟩
  · exact hstands.shows
  · intro b
    have hring : (r.ringBuffers c).Perm _ := ringBuffers_perm hstands.indexed
    rw [view, ← ringView_map] at hring
    have hperm : (r.pool ++ r.ringBuffers c ++ r.application).Perm (pool ++ (init c buffArray pool).ringBuffers c) := by
      refine List.Perm.trans ?_ howned
      rw [hstands.application, ← hstands.line]
      exact (hstands.pool.append hring).append_right _
    rw [← List.Nodup.count hdistinct, ← hperm.count_eq, List.count_append, List.count_append, owners]
  · refine ⟨taken, ?_, ?_⟩
    · rw [hstands.arrived]
      exact haccounted.arrived
    · rw [hstands.results]
      exact haccounted.served
  · intro length answers
    obtain ⟨r', status, parts, hcall, hspec, chains', free'', hnext⟩ := hstands.receiveFrame length answers
    exact ⟨r', status, parts, hcall, hnext.shows, hspec⟩

/-- Eight standard descriptors. -/
def eightRx : RxConfig where
  len := 8
  extendDesc := false
  len_pos := by decide
  len_le := by decide
  len_even := by decide

/-- A frame of two descriptors, a call that gets it, and a call that finds nothing. -/
def twoPartRun : List RxEvent :=
  [.deliver ⟨0, 64, 0, 0, ⟨0, 0, 0, 0, false, false⟩⟩ [⟨0, 10, 0, 0, ⟨0, 0, 0, 0, false, false⟩⟩],
    .receive 2 [some 101, some 100], .receive 2 []]

theorem rx_conserves_eight :
    ([100, 101] ++ (init eightRx id [100, 101]).ringBuffers eightRx).Nodup ∧
      ∃ r, twoPartRun.foldl (RxRing.step eightRx) (some (init eightRx id [100, 101])) = some r ∧
        r.results = [(.success, [(0, 64), (1, 10)]), (.rxFrameEmpty, [])] := by
  have hdistinct : ([100, 101] ++ (init eightRx id [100, 101]).ringBuffers eightRx).Nodup := by decide
  obtain ⟨r, q, hrun, hqueue, hshows, -⟩ := rx_conserves eightRx id [100, 101] hdistinct twoPartRun
  refine ⟨hdistinct, r, hrun, ?_⟩
  rw [hshows.results, ← hqueue]
  rfl

example : (twoPartRun.foldl (RxRing.step eightRx) (some (init eightRx id [100, 101]))).map
    (fun r => (r.results, r.ringBuffers eightRx, r.pool)) =
      some ([(.success, [(0, 64), (1, 10)]), (.rxFrameEmpty, [])], [101, 100, 2, 3, 4, 5, 6, 7], []) := by
  decide

end RxRing

end McuxDrivers.Netc
