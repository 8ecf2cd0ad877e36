import McuxDrivers.Enet.TxRing

/-!
# The reports of the ENET transmit ring

Seen from `txConsumIdx`, the ring is the descriptors that the uDMA has completed, then those that it has still to read,
then those that no frame uses. `ENET_ReclaimTxDescriptor` moves the first kind behind the last. The frames lie in the
order of sending, each in as many descriptors as it needs, of which the last one is marked.
-/

namespace McuxDrivers.Enet
open McuxDrivers.Lib

lemma increaseIndex_eq {index max : Nat} (hmax : max < 2 ^ 16) (h : index < max) :
    increaseIndex index max = ringNext max index := by
  unfold increaseIndex ringNext
  rw [Nat.mod_eq_of_lt (by omega)]
  split_ifs <;> omega

lemma TxConfig.increaseIndex_add (c : TxConfig) (i k : Nat) :
    increaseIndex ((i + k) % c.txRingLen) c.txRingLen = (i + (k + 1)) % c.txRingLen := by
  have hlt : (i + k) % c.txRingLen < c.txRingLen := Nat.mod_lt _ c.len_pos
  rw [increaseIndex_eq c.len_lt hlt, ringNext_eq_mod hlt, Nat.mod_add_mod, Nat.add_assoc]

section Marks

/-- The LAST bits of the descriptors of one frame. -/
def mark (bdNum : Nat) : List Bool :=
  List.replicate (bdNum - 1) false ++ [true]

/-- The LAST bits of the descriptors of frames, which are given with their numbers of descriptors. -/
def marks (frames : List (Nat × Nat)) : List Bool :=
  frames.flatMap fun frame => mark frame.2

/-- How many of the frames are complete when the first `n` descriptors are. -/
def finished : List (Nat × Nat) → Nat → Nat
  | [], _ => 0
  | frame :: frames, n => if frame.2 ≤ n then finished frames (n - frame.2) + 1 else 0

lemma length_mark {bdNum : Nat} (h : 0 < bdNum) : (mark bdNum).length = bdNum := by
  rw [mark, List.length_append, List.length_replicate, List.length_singleton]
  omega

lemma count_mark (bdNum : Nat) : (mark bdNum).count true = 1 := by
  simp [mark, List.count_replicate]

lemma marks_append (frames : List (Nat × Nat)) (context bdNum : Nat) :
    marks (frames ++ [(context, bdNum)]) = marks frames ++ mark bdNum := by
  simp [marks]

variable {frames : List (Nat × Nat)}

lemma length_marks (hpos : ∀ frame ∈ frames, 0 < frame.2) : (marks frames).length = (frames.map Prod.snd).sum := by
  induction frames with
  | nil => rfl
  | cons frame frames ih =>
    rw [marks, List.flatMap_cons, List.length_append, length_mark (hpos frame (by simp)), List.map_cons, List.sum_cons,
      ← ih fun f hf => hpos f (List.mem_cons_of_mem frame hf)]
    rfl

/-- A frame is complete with its marked descriptor. -/
lemma count_take_marks (hpos : ∀ frame ∈ frames, 0 < frame.2) (n : Nat) :
    ((marks frames).take n).count true = finished frames n := by
  induction frames generalizing n with
  | nil => simp [marks, finished]
  | cons frame frames ih =>
    have hlen := length_mark (hpos frame (by simp))
    have htail := ih (fun f hf => hpos f (List.mem_cons_of_mem frame hf)) (n - frame.2)
    rw [marks, List.flatMap_cons, List.take_append, List.count_append, hlen, finished]
    change _ + ((marks frames).take (n - frame.2)).count true = _
    rw [htail]
    split
    next hle =>
      rw [List.take_of_length_le (by omega), count_mark, Nat.add_comm]
    next hlt =>
      have hzero : ((mark frame.2).take n).count true = 0 := by
        rw [mark, List.take_append_of_le_length (by rw [List.length_replicate]; omega)]
        simp [List.count_replicate]
      rw [hzero, show n - frame.2 = 0 by omega, Nat.zero_add, ← ih fun f hf => hpos f (List.mem_cons_of_mem frame hf),
        List.take_zero, List.count_nil]

end Marks

namespace TxRing

/-- What has been queued: the LAST bits of the descriptors made READY, the contexts of the frames whose last descriptor is
among them, and the frames of the calls that have returned. -/
structure Past where
  lasts : List Bool
  contexts : List Nat
  accepted : List (Nat × Nat)

/-- What is queued after another descriptor of a frame. -/
def Past.more (p : Past) : Past :=
  { p with lasts := p.lasts ++ [false] }

/-- What is queued after a frame of `bdNum` descriptors. -/
def Past.queue (p : Past) (bdNum context : Nat) : Past :=
  { p with lasts := p.lasts ++ mark bdNum, contexts := p.contexts ++ [context] }

lemma Past.more_queue (p : Past) (n context : Nat) : p.more.queue (n + 1) context = p.queue (n + 1 + 1) context := by
  simp [Past.queue, Past.more, mark, List.replicate_succ]

variable {c : TxConfig} {r : TxRing} {done wait idle : List TxBd} {pending rest : List Nat} {p : Past}

/-- The descriptors in the order of the ring. -/
structure Bds (c : TxConfig) (r : TxRing) (done wait idle : List TxBd) : Prop where
  enabled : r.txReclaimEnable = true
  consum_lt : r.txConsumIdx < c.txRingLen
  view : ringView r.txBdBase c.txRingLen r.txConsumIdx = done ++ wait ++ idle
  used : r.txDescUsed = done.length + wait.length
  done_ready : ∀ bd ∈ done, bd.ready = false
  wait_ready : ∀ bd ∈ wait, bd.ready = true
  idle_ready : ∀ bd ∈ idle, bd.ready = false
  gen : r.txGenIdx = (r.txConsumIdx + (done.length + wait.length)) % c.txRingLen
  dma : r.dmaIdx = (r.txConsumIdx + done.length) % c.txRingLen
  queued : r.queued = r.reclaimed + r.txDescUsed

/-- The frame info ring holds the contexts of the frames that are not yet reported. -/
structure Contexts (c : TxConfig) (r : TxRing) (pending rest contexts : List Nat) : Prop where
  contexts_eq : contexts = r.reports ++ pending
  consum_lt : r.dirtyConsumIdx < c.txRingLen
  view : ringView r.txDirtyBase c.txRingLen r.dirtyConsumIdx = pending ++ rest
  gen : r.dirtyGenIdx = (r.dirtyConsumIdx + pending.length) % c.txRingLen
  isFull : r.isFull = true ↔ pending.length = c.txRingLen

/-- The ring holds the descriptors that are not reclaimed yet, and the frames whose last descriptor is reclaimed are
reported. -/
structure Holds (c : TxConfig) (r : TxRing) (done wait idle : List TxBd) (pending rest : List Nat) (p : Past) :
    Prop where
  bds : Bds c r done wait idle
  contexts : Contexts c r pending rest p.contexts
  accepted : r.accepted = p.accepted
  lasts : (done ++ wait).map TxBd.last = p.lasts.drop r.reclaimed
  queued : p.lasts.length = r.queued
  completed : r.completed = r.reclaimed + done.length
  reported : (p.lasts.take r.reclaimed).count true = r.reports.length
  total : p.lasts.count true = p.contexts.length

namespace Bds

lemma length_eq (h : Bds c r done wait idle) : done.length + wait.length + idle.length = c.txRingLen := by
  have hlen := length_ringView r.txBdBase c.txRingLen r.txConsumIdx
  rwa [h.view, List.length_append, List.length_append] at hlen

/-- The descriptor at `txGenIdx` is not READY while no frame uses it. -/
lemma gen_ready (h : Bds c r done wait idle) (hidle : idle ≠ []) : (r.txBdBase r.txGenIdx).ready = false := by
  obtain ⟨bd, idle, rfl⟩ := List.exists_cons_of_ne_nil hidle
  have hslot := ringView_slot h.view
  rw [List.length_append, ← h.gen] at hslot
  rw [hslot]
  exact h.idle_ready bd (by simp)

/-- The uDMA has nothing to read: it waits at a descriptor that is not READY. -/
lemma dma_ready (h : Bds c r done [] idle) : (r.txBdBase r.dmaIdx).ready = false := by
  have hview := h.view
  rw [List.append_nil] at hview
  cases idle with
  | cons bd idle =>
    rw [h.dma, ringView_slot hview]
    exact h.idle_ready bd (by simp)
  | nil =>
    -- the ring is full of completed descriptors, and the first one is the next
    have hlen := h.length_eq
    simp only [List.length_nil, Nat.add_zero] at hlen
    have hpos := c.len_pos
    obtain ⟨bd, done, rfl⟩ := List.exists_cons_of_length_pos (hlen ▸ hpos)
    have hslot := ringView_slot (a := []) hview
    rw [List.length_nil, Nat.add_zero, Nat.mod_eq_of_lt h.consum_lt] at hslot
    rw [h.dma, hlen, Nat.add_mod_right, Nat.mod_eq_of_lt h.consum_lt, hslot]
    exact h.done_ready bd (by simp)

lemma dma_slot {bd : TxBd} (h : Bds c r done (bd :: wait) idle) : r.txBdBase r.dmaIdx = bd := by
  have hview := h.view
  rw [List.append_assoc, List.cons_append] at hview
  rw [h.dma]
  exact ringView_slot hview

lemma complete {bd : TxBd} (h : Bds c r done (bd :: wait) idle) :
    Bds c (r.complete c) (done ++ [{ bd with ready := false }]) wait idle := by
  have hview := h.view
  rw [List.append_assoc, List.cons_append] at hview
  rw [TxRing.complete, h.dma_slot, h.wait_ready bd (by simp), if_pos rfl]
  constructor
  · exact h.enabled
  · exact h.consum_lt
  · change ringView (Function.update r.txBdBase r.dmaIdx _) _ r.txConsumIdx = _
    rw [h.dma, ringView_write hview]
    simp
  · rw [h.used, List.length_append, List.length_cons, List.length_singleton]
    omega
  · intro x hx
    rcases List.mem_append.mp hx with hx | hx
    · exact h.done_ready x hx
    · rw [List.mem_singleton.mp hx]
  · intro x hx
    exact h.wait_ready x (List.mem_cons_of_mem bd hx)
  · exact h.idle_ready
  · rw [h.gen, List.length_append, List.length_cons, List.length_singleton, Nat.add_comm wait.length, Nat.add_assoc]
  · change increaseIndex r.dmaIdx _ = _
    rw [h.dma, c.increaseIndex_add, List.length_append, List.length_singleton]
  · exact h.queued

/-- A descriptor that no frame uses goes to the uDMA. -/
lemma queueBd {bd : TxBd} (h : Bds c r done wait (bd :: idle)) (last : Bool) :
    Bds c (r.queueBd c last) done (wait ++ [{ ready := true, last := last }]) idle := by
  have hlen := h.length_eq
  have hlt := c.len_lt
  rw [List.length_cons] at hlen
  have hused : (r.txDescUsed + 1) % 2 ^ 16 = r.txDescUsed + 1 := Nat.mod_eq_of_lt (by rw [h.used]; omega)
  constructor
  · exact h.enabled
  · exact h.consum_lt
  · change ringView (Function.update r.txBdBase r.txGenIdx _) _ r.txConsumIdx = _
    rw [h.gen, ← List.length_append, ringView_write h.view]
    simp
  · simp only [TxRing.queueBd, h.enabled, if_true, hused]
    rw [h.used, List.length_append, List.length_singleton, Nat.add_assoc]
  · exact h.done_ready
  · intro x hx
    rcases List.mem_append.mp hx with hx | hx
    · exact h.wait_ready x hx
    · rw [List.mem_singleton.mp hx]
  · intro x hx
    exact h.idle_ready x (List.mem_cons_of_mem bd hx)
  · change increaseIndex r.txGenIdx _ = _
    rw [h.gen, c.increaseIndex_add, List.length_append, List.length_singleton, Nat.add_assoc]
    rfl
  · exact h.dma
  · simp only [TxRing.queueBd, h.enabled, if_true, hused, h.queued, Nat.add_assoc]

lemma consum_slot {bd : TxBd} (h : Bds c r (bd :: done) wait idle) : r.txBdBase r.txConsumIdx = bd := by
  have hslot := ringView_slot (a := []) h.view
  rwa [List.length_nil, Nat.add_zero, Nat.mod_eq_of_lt h.consum_lt] at hslot

lemma reclaim {bd : TxBd} (h : Bds c r (bd :: done) wait idle) {r' : TxRing}
    (hr' : r' = { r with
      txDirtyBase := r'.txDirtyBase, dirtyConsumIdx := r'.dirtyConsumIdx, isFull := r'.isFull, reports := r'.reports
      txDescUsed := r.txDescUsed - 1, txConsumIdx := increaseIndex r.txConsumIdx c.txRingLen
      reclaimed := r.reclaimed + 1 }) : Bds c r' done wait (idle ++ [bd]) := by
  have hnext := increaseIndex_eq c.len_lt h.consum_lt
  have hmod := ringNext_eq_mod h.consum_lt
  have hused := h.used
  rw [List.length_cons] at hused
  rw [hr']
  constructor
  · exact h.enabled
  · change increaseIndex _ _ < _
    rw [hnext]
    exact ringNext_lt h.consum_lt
  · change ringView r.txBdBase _ (increaseIndex _ _) = _
    rw [hnext, ringView_next h.consum_lt, h.view, h.consum_slot]
    simp
  · change r.txDescUsed - 1 = _
    omega
  · intro x hx
    exact h.done_ready x (List.mem_cons_of_mem bd hx)
  · exact h.wait_ready
  · intro x hx
    rcases List.mem_append.mp hx with hx | hx
    · exact h.idle_ready x hx
    · rw [List.mem_singleton.mp hx]
      exact h.done_ready bd (by simp)
  · change r.txGenIdx = (increaseIndex _ _ + _) % _
    rw [h.gen, hnext, hmod, Nat.mod_add_mod, List.length_cons, Nat.add_right_comm, Nat.add_assoc, Nat.add_assoc]
    congr 2
    omega
  · change r.dmaIdx = (increaseIndex _ _ + _) % _
    rw [h.dma, hnext, hmod, Nat.mod_add_mod, List.length_cons, Nat.add_assoc, Nat.add_comm 1]
  · change r.queued = r.reclaimed + 1 + (r.txDescUsed - 1)
    have := h.queued
    omega

end Bds

namespace Contexts

variable {contexts : List Nat}

lemma length_le (h : Contexts c r pending rest contexts) : pending.length + rest.length = c.txRingLen := by
  have hlen := length_ringView r.txDirtyBase c.txRingLen r.dirtyConsumIdx
  rwa [h.view, List.length_append] at hlen

/-- The context of a frame goes behind the others. -/
lemma addContext {slot : Nat} (h : Contexts c r pending (slot :: rest) contexts) (henabled : r.txReclaimEnable = true)
    (context : Nat) :
    Contexts c (r.addContext c context) (pending ++ [context]) rest (contexts ++ [context]) := by
  have hlen := h.length_le
  rw [List.length_cons] at hlen
  have hgen : increaseIndex r.dirtyGenIdx c.txRingLen =
      (r.dirtyConsumIdx + (pending ++ [context]).length) % c.txRingLen := by
    rw [h.gen, c.increaseIndex_add, List.length_append, List.length_singleton]
  have hfull : r.isFull = false := by
    rw [← Bool.not_eq_true, h.isFull]
    omega
  rw [TxRing.addContext, if_pos henabled]
  constructor
  · change _ = r.reports ++ _
    rw [h.contexts_eq, List.append_assoc]
  · exact h.consum_lt
  · change ringView (Function.update r.txDirtyBase r.dirtyGenIdx context) _ r.dirtyConsumIdx = _
    rw [h.gen, ringView_write h.view]
    simp
  · exact hgen
  · change (if increaseIndex _ _ = r.dirtyConsumIdx then true else r.isFull) = true ↔ _
    rw [hgen, hfull, List.length_append, List.length_singleton, ring_add_mod h.consum_lt (by omega)]
    have := h.consum_lt
    split_ifs with h1 h2 h2 <;> simp <;> omega

lemma report {context : Nat} (h : Contexts c r (context :: pending) rest contexts) {r' : TxRing}
    (hdirty : r'.txDirtyBase = r.txDirtyBase)
    (hconsum : r'.dirtyConsumIdx = increaseIndex r.dirtyConsumIdx c.txRingLen) (hgen : r'.dirtyGenIdx = r.dirtyGenIdx)
    (hfull : r'.isFull = false) (hreports : r'.reports = r.reports ++ [r.txDirtyBase r.dirtyConsumIdx]) :
    Contexts c r' pending (rest ++ [context]) contexts := by
  have hnext := increaseIndex_eq c.len_lt h.consum_lt
  have hslot : r.txDirtyBase r.dirtyConsumIdx = context := by
    have hslot := ringView_slot (a := []) h.view
    rwa [List.length_nil, Nat.add_zero, Nat.mod_eq_of_lt h.consum_lt] at hslot
  have hlen := h.length_le
  rw [List.length_cons] at hlen
  constructor
  · rw [hreports, hslot, h.contexts_eq, List.append_assoc]
    rfl
  · rw [hconsum, hnext]
    exact ringNext_lt h.consum_lt
  · rw [hdirty, hconsum, hnext, ringView_next h.consum_lt, h.view, hslot]
    simp
  · rw [hgen, hconsum, h.gen, hnext, ringNext_eq_mod h.consum_lt, Nat.mod_add_mod, List.length_cons, Nat.add_assoc,
      Nat.add_comm 1]
  · rw [hfull]
    simp
    omega

end Contexts

namespace Holds

lemma complete (h : Holds c r done wait idle pending rest p) :
    ∃ done' wait', Holds c (r.complete c) done' wait' idle pending rest p := by
  cases wait with
  | nil =>
    refine ⟨done, [], ?_⟩
    rw [TxRing.complete, h.bds.dma_ready]
    exact h
  | cons bd wait =>
    refine ⟨_, wait, h.bds.complete, ?_, ?_, ?_, ?_, ?_, ?_, h.total⟩ <;>
      rw [TxRing.complete, h.bds.dma_slot, h.bds.wait_ready bd (by simp), if_pos rfl]
    · exact ⟨h.contexts.contexts_eq, h.contexts.consum_lt, h.contexts.view, h.contexts.gen, h.contexts.isFull⟩
    · exact h.accepted
    · rw [← h.lasts]
      simp
    · exact h.queued
    · change r.completed + 1 = r.reclaimed + _
      rw [h.completed, List.length_append, List.length_singleton, Nat.add_assoc]
    · exact h.reported

lemma completeMany (h : Holds c r done wait idle pending rest p) (n : Nat) :
    ∃ done' wait', Holds c (completeMany c n r) done' wait' idle pending rest p := by
  induction n generalizing r done wait with
  | zero => exact ⟨done, wait, h⟩
  | succ n ih =>
    obtain ⟨done', wait', h'⟩ := h.complete
    exact ih h'

lemma reclaimed_le (h : Holds c r done wait idle pending rest p) : r.reclaimed ≤ p.lasts.length := by
  rw [h.queued, h.bds.queued]
  exact Nat.le_add_right _ _

/-- The marks in the ring are those of the frames that are not reported. -/
lemma count_lasts (h : Holds c r done wait idle pending rest p) :
    ((done ++ wait).map TxBd.last).count true = pending.length := by
  have htotal := h.total
  rw [← List.take_append_drop r.reclaimed p.lasts, List.count_append, h.reported, ← h.lasts,
    h.contexts.contexts_eq, List.length_append] at htotal
  omega

/-- A descriptor of a frame goes behind the others. -/
lemma lasts_queueBd (h : Holds c r done wait idle pending rest p) (last : Bool) :
    (done ++ (wait ++ [({ ready := true, last := last } : TxBd)])).map TxBd.last =
      (p.lasts ++ [last]).drop r.reclaimed ∧
    ((p.lasts ++ [last]).take r.reclaimed).count true = r.reports.length := by
  have hle := h.reclaimed_le
  constructor
  · rw [List.drop_append_of_le_length hle, ← h.lasts]
    simp
  · rw [List.take_append_of_le_length hle]
    exact h.reported

lemma queueBd {bd : TxBd} (h : Holds c r done wait (bd :: idle) pending rest p) :
    Holds c (r.queueBd c false) done (wait ++ [{ ready := true, last := false }]) idle pending rest p.more := by
  obtain ⟨hlasts, hreported⟩ := h.lasts_queueBd false
  refine ⟨h.bds.queueBd false, ?_, h.accepted, hlasts, ?_, h.completed, hreported, ?_⟩
  · exact ⟨h.contexts.contexts_eq, h.contexts.consum_lt, h.contexts.view, h.contexts.gen, h.contexts.isFull⟩
  · rw [Past.more, List.length_append, h.queued]
    rfl
  · rw [Past.more, List.count_append, h.total]
    rfl

lemma rest_ne {bd : TxBd} (h : Holds c r done wait (bd :: idle) pending rest p) : rest ≠ [] := by
  rintro rfl
  have hlen := h.bds.length_eq
  have hcount := List.count_le_length (a := true) (l := (done ++ wait).map TxBd.last)
  have hpending := h.contexts.length_le
  rw [h.count_lasts, List.length_map, List.length_append] at hcount
  simp only [List.length_cons, List.length_nil] at hlen hpending
  omega

/-- The last descriptor of a frame takes the context of the frame along. -/
lemma queueLast {bd : TxBd} (h : Holds c r done wait (bd :: idle) pending rest p) (context : Nat) :
    ∃ rest', Holds c (r.queueLast c context) done (wait ++ [{ ready := true, last := true }]) idle
      (pending ++ [context]) rest' (p.queue 1 context) := by
  obtain ⟨slot, rest, rfl⟩ := List.exists_cons_of_ne_nil h.rest_ne
  obtain ⟨hlasts, hreported⟩ := h.lasts_queueBd true
  have hadd := h.contexts.addContext h.bds.enabled context
  have hbds : Bds c (r.addContext c context) done wait (bd :: idle) := by
    rw [TxRing.addContext, if_pos h.bds.enabled]
    exact ⟨h.bds.enabled, h.bds.consum_lt, h.bds.view, h.bds.used, h.bds.done_ready, h.bds.wait_ready,
      h.bds.idle_ready, h.bds.gen, h.bds.dma, h.bds.queued⟩
  have hcontexts : Contexts c (r.queueLast c context) (pending ++ [context]) rest (p.contexts ++ [context]) :=
    ⟨hadd.contexts_eq, hadd.consum_lt, hadd.view, hadd.gen, hadd.isFull⟩
  refine ⟨rest, hbds.queueBd true, hcontexts, ?_, ?_, ?_, ?_, ?_, ?_⟩
  · rw [queueLast, TxRing.queueBd, TxRing.addContext, if_pos h.bds.enabled]
    exact h.accepted
  · rw [queueLast, TxRing.queueBd, TxRing.addContext, if_pos h.bds.enabled]
    exact hlasts
  · rw [queueLast, TxRing.queueBd, TxRing.addContext, if_pos h.bds.enabled, Past.queue, List.length_append, h.queued]
    rfl
  · rw [queueLast, TxRing.queueBd, TxRing.addContext, if_pos h.bds.enabled]
    exact h.completed
  · rw [queueLast, TxRing.queueBd, TxRing.addContext, if_pos h.bds.enabled]
    exact hreported
  · rw [Past.queue, List.count_append, h.total, List.length_append]
    rfl

lemma reclaimBd {bd : TxBd} (h : Holds c r (bd :: done) wait idle pending rest p) :
    ∃ pending' rest', Holds c (r.reclaimBd c) done wait (idle ++ [bd]) pending' rest' p := by
  have hslot := h.bds.consum_slot
  have hlasts := h.lasts
  rw [List.cons_append, List.map_cons] at hlasts
  have hdrop : (done ++ wait).map TxBd.last = p.lasts.drop (r.reclaimed + 1) := by
    rw [← List.drop_drop, ← hlasts, List.drop_one, List.tail_cons]
  have htake : p.lasts.take (r.reclaimed + 1) = p.lasts.take r.reclaimed ++ [bd.last] := by
    have hget : p.lasts[r.reclaimed]? = some bd.last := by
      rw [← List.head?_drop, ← hlasts, List.head?_cons]
    rw [List.take_add_one, hget, Option.toList_some]
  have hcompleted : r.completed = r.reclaimed + 1 + done.length := by
    rw [h.completed, List.length_cons, Nat.add_assoc, Nat.add_comm 1]
  cases hlast : bd.last with
  | false =>
    have hr : r.reclaimBd c = { r with
        txDescUsed := r.txDescUsed - 1
        txConsumIdx := increaseIndex r.txConsumIdx c.txRingLen
        reclaimed := r.reclaimed + 1 } := by
      simp only [TxRing.reclaimBd, hslot, hlast, Bool.false_eq_true, if_false]
    rw [hr]
    refine ⟨pending, rest, h.bds.reclaim rfl, ?_, h.accepted, hdrop, h.queued, hcompleted, ?_, h.total⟩
    · exact ⟨h.contexts.contexts_eq, h.contexts.consum_lt, h.contexts.view, h.contexts.gen, h.contexts.isFull⟩
    · change (p.lasts.take (r.reclaimed + 1)).count true = r.reports.length
      rw [htake, hlast, List.count_append, h.reported]
      rfl
  | true =>
    have hcount := h.count_lasts
    rw [List.cons_append, List.map_cons, hlast, List.count_cons_self] at hcount
    obtain ⟨context, pending, rfl⟩ := List.exists_cons_of_length_pos (l := pending) (by omega)
    have hr : r.reclaimBd c = { r with
        dirtyConsumIdx := increaseIndex r.dirtyConsumIdx c.txRingLen
        isFull := false
        reports := r.reports ++ [r.txDirtyBase r.dirtyConsumIdx]
        txDescUsed := r.txDescUsed - 1
        txConsumIdx := increaseIndex r.txConsumIdx c.txRingLen
        reclaimed := r.reclaimed + 1 } := by
      simp only [TxRing.reclaimBd, hslot, hlast, if_true]
    rw [hr]
    refine ⟨pending, rest ++ [context], h.bds.reclaim rfl, h.contexts.report rfl rfl rfl rfl rfl, h.accepted, hdrop,
      h.queued, hcompleted, ?_, h.total⟩
    change (p.lasts.take (r.reclaimed + 1)).count true = (r.reports ++ _).length
    rw [htake, hlast, List.count_append, h.reported, List.length_append]
    rfl

end Holds

section Calls

lemma complete_fixed : (r.complete c).txDescUsed = r.txDescUsed ∧ (r.complete c).txGenIdx = r.txGenIdx := by
  rw [TxRing.complete]
  split <;> exact ⟨rfl, rfl⟩

/-- The uDMA changes neither the indices of the driver nor its count. -/
lemma completeMany_fixed (n : Nat) :
    (completeMany c n r).txDescUsed = r.txDescUsed ∧ (completeMany c n r).txGenIdx = r.txGenIdx := by
  induction n generalizing r with
  | zero => exact ⟨rfl, rfl⟩
  | succ n ih =>
    rw [completeMany, ih.1, ih.2]
    exact complete_fixed

lemma reclaimBd_used : (r.reclaimBd c).txDescUsed = r.txDescUsed - 1 := by
  rw [TxRing.reclaimBd]
  dsimp only
  split <;> rfl

/-- A frame of several buffers, with enough descriptors that no frame uses. -/
lemma sendLoop_success {fuel sizeleft : Nat} (context : Nat) (completions : List Nat)
    (h : Holds c r done wait idle pending rest p) (hidle : idle ≠ []) (hfuel : sizeleft ≤ fuel) (hpos : 0 < sizeleft)
    (henough : sizeleft ≤ c.txBuffSizeAlign * idle.length) :
    ∃ r' done' wait' idle' rest', sendLoop c context fuel sizeleft r completions = some (r', .success) ∧
      Holds c r' done' wait' idle' (pending ++ [context]) rest'
        (p.queue ((sizeleft - 1) / c.txBuffSizeAlign + 1) context) := by
  obtain ⟨bd, idle, rfl⟩ := List.exists_cons_of_ne_nil hidle
  induction fuel generalizing r done wait bd idle sizeleft completions p with
  | zero => omega
  | succ fuel ih =>
    have hsize := c.size_pos
    rw [sendLoop]
    by_cases hmore : sizeleft > c.txBuffSizeAlign
    · rw [if_pos hmore]
      have hidle' : idle ≠ [] := by
        rintro rfl
        rw [List.length_singleton, Nat.mul_one] at henough
        omega
      obtain ⟨done', wait', h'⟩ := h.queueBd.completeMany (completions.headD 0)
      dsimp only
      rw [h'.bds.gen_ready hidle', if_neg Bool.false_ne_true]
      obtain ⟨bd', idle', rfl⟩ := List.exists_cons_of_ne_nil hidle'
      have hleft : sizeleft - c.txBuffSizeAlign ≤ c.txBuffSizeAlign * (bd' :: idle').length := by
        rw [List.length_cons, Nat.mul_succ] at henough
        omega
      have hrest := ih completions.tail (by omega) (by omega) bd' idle' h' hidle' hleft
      have hdiv : (sizeleft - 1) / c.txBuffSizeAlign = (sizeleft - c.txBuffSizeAlign - 1) / c.txBuffSizeAlign + 1 := by
        rw [← Nat.add_div_right _ hsize]
        congr 1
        omega
      rwa [Past.more_queue, ← hdiv] at hrest
    · rw [if_neg hmore]
      obtain ⟨rest', h'⟩ := h.queueLast context
      have hdiv : (sizeleft - 1) / c.txBuffSizeAlign = 0 := Nat.div_eq_of_lt (by omega)
      rw [hdiv]
      exact ⟨_, _, _, _, _, rfl, h'⟩

/-- The buffers of a frame, with enough descriptors that no frame uses. -/
lemma startLoop_holds {count : Nat} (context : Nat) (h : Holds c r done wait idle pending rest p)
    (henough : count < idle.length) :
    ∃ wait' idle' rest', Holds c (startLoop c context count r) done wait' idle' (pending ++ [context]) rest'
      (p.queue (count + 1) context) := by
  induction count generalizing r wait idle p with
  | zero =>
    obtain ⟨bd, idle, rfl⟩ := List.exists_cons_of_length_pos henough
    obtain ⟨rest', h'⟩ := h.queueLast context
    exact ⟨_, _, _, h'⟩
  | succ count ih =>
    obtain ⟨bd, idle, rfl⟩ := List.exists_cons_of_length_pos (Nat.zero_lt_of_lt henough)
    rw [← Past.more_queue]
    exact ih h.queueBd (by simpa using henough)

/-- The count of the idle descriptors comes to an end. -/
lemma idleLoop_returns {fuel k : Nat} (txBuffNum idleDescNum : Nat) (completions : List Nat)
    (h : Holds c r done wait idle pending rest p) (hk : k < c.txRingLen) (hfuel : c.txRingLen ≤ k + fuel) :
    ∃ r' n done' wait',
      idleLoop c txBuffNum fuel ((r.txGenIdx + k) % c.txRingLen) idleDescNum r completions = some (r', n) ∧
      Holds c r' done' wait' idle pending rest p ∧ r'.txDescUsed = r.txDescUsed := by
  induction fuel generalizing r done wait k idleDescNum completions with
  | zero => omega
  | succ fuel ih =>
    obtain ⟨done', wait', h'⟩ := h.completeMany (completions.headD 0)
    obtain ⟨hused, hgen⟩ := completeMany_fixed (c := c) (r := r) (completions.headD 0)
    rw [idleLoop]
    split
    next => exact ⟨_, _, done', wait', rfl, h', hused⟩
    next =>
      split
      next => exact ⟨_, _, done', wait', rfl, h', hused⟩
      next =>
        split
        next => exact ⟨_, _, done', wait', rfl, h', hused⟩
        next hround =>
          rw [c.increaseIndex_add, hgen] at hround
          have hk' : k + 1 < c.txRingLen := by
            by_contra hlast
            have hlen : k + 1 = c.txRingLen := by omega
            rw [hlen, Nat.add_mod_right, h.bds.gen, Nat.mod_mod] at hround
            exact hround rfl
          rw [c.increaseIndex_add, ← hgen]
          obtain ⟨r', n, done₂, wait₂, hloop, h₂, hused₂⟩ := ih (idleDescNum + 1) completions.tail h' hk' (by omega)
          exact ⟨r', n, done₂, wait₂, hloop, h₂, hused₂.trans hused⟩

/-- A reclaim leaves no descriptor that the uDMA has completed. -/
lemma reclaimLoop_returns {fuel : Nat} (completions : List Nat) (h : Holds c r done wait idle pending rest p)
    (hfuel : r.txDescUsed < fuel) :
    ∃ r' wait' idle' pending' rest', reclaimLoop c fuel r completions = some r' ∧
      Holds c r' [] wait' idle' pending' rest' p := by
  induction fuel generalizing r done wait idle pending rest completions with
  | zero => omega
  | succ fuel ih =>
    obtain ⟨done', wait', h'⟩ := h.completeMany (completions.headD 0)
    obtain ⟨hused, -⟩ := completeMany_fixed (c := c) (r := r) (completions.headD 0)
    rw [reclaimLoop]
    have hcount := h'.bds.used
    cases done' with
    | cons bd done' =>
      rw [List.length_cons] at hcount
      rw [if_pos ⟨by rw [h'.bds.consum_slot]; exact h'.bds.done_ready bd (by simp), by omega⟩]
      obtain ⟨pending₁, rest₁, h₁⟩ := h'.reclaimBd
      have hused₁ := reclaimBd_used (c := c) (r := completeMany c (completions.headD 0) r)
      exact ih completions.tail h₁ (by omega)
    | nil =>
      have hstop : ¬ (((completeMany c (completions.headD 0) r).txBdBase
          (completeMany c (completions.headD 0) r).txConsumIdx).ready = false ∧
            (completeMany c (completions.headD 0) r).txDescUsed > 0) := by
        rintro ⟨hready, hpos⟩
        cases wait' with
        | nil =>
          simp only [List.length_nil] at hcount
          omega
        | cons bd wait' =>
          have hslot := ringView_slot (a := []) h'.bds.view
          rw [List.length_nil, Nat.add_zero, Nat.mod_eq_of_lt h'.bds.consum_lt] at hslot
          rw [hslot, h'.bds.wait_ready bd (by simp)] at hready
          cases hready
      rw [if_neg hstop]
      exact ⟨_, wait', _, _, _, rfl, h'⟩

end Calls

/-- A call gets past its checks and makes descriptors READY. -/
def Starts (c : TxConfig) (r : TxRing) : TxEvent → Prop
  | .sendFrame length _ completions =>
    let r' := completeMany c (completions.headD 0) r
    length ≤ c.lenLimitation ∧ (r'.txBdBase r'.txGenIdx).ready = false ∧ r'.isFull = false
  | .startTxFrame first rest _ completions =>
    ∃ x ∈ idleLoop c (rest.length + 1) c.txRingLen r.txGenIdx 0 r completions,
      first + rest.sum ≤ c.lenLimitation ∧ rest.length + 1 ≤ x.2 ∧ x.1.isFull = false
  | _ => False

/-- A call that gets past its checks finds as many descriptors that are reclaimed as it takes. -/
def Enough (c : TxConfig) (r : Option TxRing) (e : TxEvent) : Prop :=
  ∀ s ∈ r, Starts c s e → bdNum c e ≤ c.txRingLen - s.txDescUsed

/-- The count is right, and the reports are the frames whose descriptors are all completed, once each and in the order of
sending. -/
structure Faithful (c : TxConfig) (r : TxRing) : Prop where
  queued : r.queued = (r.accepted.map Prod.snd).sum
  used : r.queued = r.reclaimed + r.txDescUsed
  used_le : r.txDescUsed ≤ c.txRingLen
  inOrder : r.reports <+: r.accepted.map Prod.fst
  afterCompletion : r.reports.length ≤ finished r.accepted r.completed
  reclaim : ∀ completions, ∃ r', r.reclaimTxDescriptor c completions = some r' ∧ r'.accepted = r.accepted ∧
    r'.reports = (r.accepted.map Prod.fst).take (finished r.accepted r'.completed) ∧
    ((∀ i < c.txRingLen, (r'.txBdBase i).ready = false) → r'.reports = r.accepted.map Prod.fst)

/-- What is queued when no call is running. -/
structure Settled (p : Past) : Prop where
  lasts : p.lasts = marks p.accepted
  contexts : p.contexts = p.accepted.map Prod.fst
  pos : ∀ frame ∈ p.accepted, 0 < frame.2

/-- The frame of a call that has returned. -/
def Past.conclude (p : Past) (context bdNum : Nat) : Past :=
  { p with accepted := p.accepted ++ [(context, bdNum)] }

lemma Settled.queue (h : Settled p) {bdNum : Nat} (hpos : 0 < bdNum) (context : Nat) :
    Settled ((p.queue bdNum context).conclude context bdNum) := by
  refine ⟨?_, ?_, ?_⟩
  · change p.lasts ++ mark bdNum = _
    rw [h.lasts]
    exact (marks_append p.accepted context bdNum).symm
  · change p.contexts ++ [context] = (p.accepted ++ [(context, bdNum)]).map Prod.fst
    rw [h.contexts, List.map_append]
    rfl
  · intro frame hframe
    rcases List.mem_append.mp hframe with hframe | hframe
    · exact h.pos frame hframe
    · rw [List.mem_singleton.mp hframe]
      exact hpos

lemma Holds.conclude (h : Holds c r done wait idle pending rest p) (context bdNum : Nat) :
    Holds c (TxRing.conclude context bdNum (r, .success)) done wait idle pending rest (p.conclude context bdNum) := by
  refine ⟨?_, ?_, ?_, h.lasts, h.queued, h.completed, h.reported, h.total⟩
  · exact ⟨h.bds.enabled, h.bds.consum_lt, h.bds.view, h.bds.used, h.bds.done_ready, h.bds.wait_ready,
      h.bds.idle_ready, h.bds.gen, h.bds.dma, h.bds.queued⟩
  · exact ⟨h.contexts.contexts_eq, h.contexts.consum_lt, h.contexts.view, h.contexts.gen, h.contexts.isFull⟩
  · rw [TxRing.conclude, Past.conclude, h.accepted]

lemma Holds.idle_length (h : Holds c r done wait idle pending rest p) : c.txRingLen - r.txDescUsed = idle.length := by
  have hlen := h.bds.length_eq
  have hused := h.bds.used
  omega

/-- A call sends the frame in `bdNum` descriptors, or only lets the uDMA complete some. -/
def Sends (c : TxConfig) (p : Past) (context bdNum : Nat) (r : TxRing) (status : TxStatus) : Prop :=
  ∃ done wait idle pending rest,
    (status ≠ .success ∧ Holds c r done wait idle pending rest p) ∨
      (status = .success ∧ Holds c r done wait idle pending rest (p.queue bdNum context))

lemma Holds.sendFrame (h : Holds c r done wait idle pending rest p) (length context : Nat) (completions : List Nat)
    (henough : Enough c (some r) (.sendFrame length context completions)) :
    ∃ r' status, r.sendFrame c length context completions = some (r', status) ∧
      Sends c p context (bdNum c (.sendFrame length context completions)) r' status := by
  rw [TxRing.sendFrame]
  by_cases hover : length > c.lenLimitation
  · rw [if_pos hover]
    exact ⟨_, _, rfl, _, _, _, _, _, .inl ⟨by decide, h⟩⟩
  rw [if_neg hover]
  obtain ⟨done', wait', h'⟩ := h.completeMany (completions.headD 0)
  dsimp only
  cases hready : ((TxRing.completeMany c (completions.headD 0) r).txBdBase
      (TxRing.completeMany c (completions.headD 0) r).txGenIdx).ready with
  | true => exact ⟨_, _, rfl, _, _, _, _, _, .inl ⟨by decide, h'⟩⟩
  | false =>
    rw [if_neg Bool.false_ne_true, h'.bds.enabled, Bool.true_and]
    cases hfull : (TxRing.completeMany c (completions.headD 0) r).isFull with
    | true => exact ⟨_, _, rfl, _, _, _, _, _, .inl ⟨by decide, h'⟩⟩
    | false =>
      rw [if_neg Bool.false_ne_true]
      have hbds := henough r rfl ⟨Nat.le_of_not_lt hover, hready, hfull⟩
      rw [h.idle_length, bdNum] at hbds
      have hidle : idle ≠ [] := List.ne_nil_of_length_pos (Nat.lt_of_lt_of_le (Nat.succ_pos _) hbds)
      have hsize := c.size_pos
      split
      next hone =>
        obtain ⟨bd, idle, rfl⟩ := List.exists_cons_of_ne_nil hidle
        obtain ⟨rest', h₂⟩ := h'.queueLast context
        have hdiv : (length - 1) / c.txBuffSizeAlign = 0 := Nat.div_eq_of_lt (by omega)
        rw [bdNum, hdiv]
        exact ⟨_, _, rfl, _, _, _, _, _, .inr ⟨rfl, h₂⟩⟩
      next hmany =>
        have hfits : length ≤ c.txBuffSizeAlign * idle.length := by
          have hdiv : (length - 1) / c.txBuffSizeAlign < idle.length := by omega
          have hlt := (Nat.div_lt_iff_lt_mul c.size_pos).mp hdiv
          rw [Nat.mul_comm] at hlt
          omega
        obtain ⟨r', done₂, wait₂, idle₂, rest₂, hloop, h₂⟩ :=
          sendLoop_success context completions.tail h' hidle (Nat.le_refl length) (by omega) hfits
        exact ⟨_, _, hloop, _, _, _, _, _, .inr ⟨rfl, h₂⟩⟩

lemma Holds.startTxFrame (h : Holds c r done wait idle pending rest p) (first : Nat) (others : List Nat) (context : Nat)
    (completions : List Nat) (henough : Enough c (some r) (.startTxFrame first others context completions)) :
    ∃ r' status, r.startTxFrame c first others context completions = some (r', status) ∧
      Sends c p context (bdNum c (.startTxFrame first others context completions)) r' status := by
  obtain ⟨r', n, done', wait', hloop, h', hused⟩ := idleLoop_returns (others.length + 1) 0
    completions h c.len_pos (Nat.le_add_left _ _)
  have hgen : (r.txGenIdx + 0) % c.txRingLen = r.txGenIdx := by
    rw [Nat.add_zero, h.bds.gen, Nat.mod_mod]
  rw [hgen] at hloop
  rw [TxRing.startTxFrame, hloop, Option.map_some]
  dsimp only
  split
  next => exact ⟨_, _, rfl, _, _, _, _, _, .inl ⟨by decide, h'⟩⟩
  next hover =>
    split
    next => exact ⟨_, _, rfl, _, _, _, _, _, .inl ⟨by decide, h'⟩⟩
    next hidle =>
      cases hfull : r'.isFull with
      | true => exact ⟨_, _, rfl, _, _, _, _, _, .inl ⟨by decide, h'⟩⟩
      | false =>
        have hstarts : Starts c r (.startTxFrame first others context completions) :=
          ⟨_, hloop, Nat.le_of_not_lt hover, Nat.le_of_not_lt hidle, hfull⟩
        have hbds := henough r rfl hstarts
        rw [h.idle_length, bdNum] at hbds
        obtain ⟨wait₂, idle₂, rest₂, h₂⟩ := startLoop_holds context h' hbds
        exact ⟨_, _, rfl, _, _, _, _, _, .inr ⟨rfl, h₂⟩⟩

/-- No call is running. -/
def Rests (c : TxConfig) (r : TxRing) : Prop :=
  ∃ done wait idle pending rest p, Holds c r done wait idle pending rest p ∧ Settled p

/-- A call that returns leaves the frame it has sent among the accepted ones. -/
lemma Sends.rests {context bdNum : Nat} {status : TxStatus} (h : Sends c p context bdNum r status) (hsettled : Settled p)
    (hpos : 0 < bdNum) : Rests c (conclude context bdNum (r, status)) := by
  obtain ⟨done, wait, idle, pending, rest, ⟨hfailed, h⟩ | ⟨rfl, h⟩⟩ := h
  · have hsame : conclude context bdNum (r, status) = r := by
      cases status with
      | success => exact absurd rfl hfailed
      | txFrameBusy => rfl
      | txFrameOverLen => rfl
    rw [hsame]
    exact ⟨_, _, _, _, _, _, h, hsettled⟩
  · exact ⟨_, _, _, _, _, _, h.conclude context bdNum, hsettled.queue hpos context⟩

lemma Rests.step (h : Rests c r) (e : TxEvent) (henough : Enough c (some r) e) :
    ∃ r', TxRing.step c (some r) e = some r' ∧ Rests c r' := by
  obtain ⟨done, wait, idle, pending, rest, p, h, hsettled⟩ := h
  cases e with
  | sendFrame length context completions =>
    obtain ⟨r', status, hsend, hsends⟩ := h.sendFrame length context completions henough
    refine ⟨_, ?_, hsends.rests hsettled (Nat.succ_pos _)⟩
    rw [TxRing.step, Option.bind_some, hsend]
    rfl
  | startTxFrame first others context completions =>
    obtain ⟨r', status, hsend, hsends⟩ := h.startTxFrame first others context completions henough
    refine ⟨_, ?_, hsends.rests hsettled (Nat.succ_pos _)⟩
    rw [TxRing.step, Option.bind_some, hsend]
    rfl
  | complete =>
    obtain ⟨done', wait', h'⟩ := h.complete
    exact ⟨_, rfl, _, _, _, _, _, _, h', hsettled⟩
  | reclaim completions =>
    obtain ⟨r', wait', idle', pending', rest', hloop, h'⟩ := reclaimLoop_returns completions h (Nat.lt_succ_self _)
    exact ⟨r', hloop, _, _, _, _, _, _, h', hsettled⟩

/-- The reports are the first frames. -/
lemma Holds.reports_eq (h : Holds c r done wait idle pending rest p) (hsettled : Settled p) :
    r.reports = (p.accepted.map Prod.fst).take (finished p.accepted r.reclaimed) := by
  have hreported := h.reported
  rw [hsettled.lasts, count_take_marks hsettled.pos] at hreported
  rw [hreported, ← hsettled.contexts, h.contexts.contexts_eq, List.take_left]

lemma Holds.faithful (h : Holds c r done wait idle pending rest p) (hsettled : Settled p) : Faithful c r := by
  constructor
  · rw [← h.queued, hsettled.lasts, length_marks hsettled.pos, h.accepted]
  · exact h.bds.queued
  · have hlen := h.bds.length_eq
    have hused := h.bds.used
    omega
  · rw [h.accepted, ← hsettled.contexts, h.contexts.contexts_eq]
    exact List.prefix_append _ _
  · rw [← h.reported, h.accepted, ← count_take_marks hsettled.pos, ← hsettled.lasts]
    apply List.Sublist.count_le
    apply List.IsPrefix.sublist
    apply List.take_prefix_take_left
    rw [h.completed]
    exact Nat.le_add_right _ _
  · intro completions
    obtain ⟨r', wait', idle', pending', rest', hloop, h'⟩ := reclaimLoop_returns completions h (Nat.lt_succ_self _)
    refine ⟨r', hloop, h'.accepted.trans h.accepted.symm, ?_, ?_⟩
    · rw [h'.reports_eq hsettled, h.accepted, h'.completed, List.length_nil, Nat.add_zero]
    · intro hready
      have hwait : wait' = [] := by
        rw [List.eq_nil_iff_forall_not_mem]
        intro bd hbd
        have hmem : bd ∈ ringView r'.txBdBase c.txRingLen r'.txConsumIdx := by
          rw [h'.bds.view]
          simp [hbd]
        obtain ⟨k, -, rfl⟩ := List.mem_map.mp hmem
        have hfalse := hready _ (Nat.mod_lt (r'.txConsumIdx + k) c.len_pos)
        rw [h'.bds.wait_ready _ hbd] at hfalse
        cases hfalse
      have hcount := h'.count_lasts
      subst hwait
      obtain rfl : pending' = [] := List.eq_nil_of_length_eq_zero hcount.symm
      rw [h.accepted, ← hsettled.contexts, h'.contexts.contexts_eq, List.append_nil]

lemma rests_empty (c : TxConfig) (lasts : Nat → Bool) {txGenIdx dirtyIdx : Nat} (txConsumIdx : Nat)
    (hgen : txGenIdx < c.txRingLen) (hdirty : dirtyIdx < c.txRingLen) :
    Rests c ((empty lasts txGenIdx txConsumIdx dirtyIdx).setTxReclaim true).1 := by
  refine ⟨[], [], ringView (fun i => { ready := false, last := lasts i }) c.txRingLen txGenIdx, [],
    ringView (fun _ => 0) c.txRingLen dirtyIdx, ⟨[], [], []⟩, ?_, rfl, rfl, by simp⟩
  have hset : ((empty lasts txGenIdx txConsumIdx dirtyIdx).setTxReclaim true).1 =
      { empty lasts txGenIdx txConsumIdx dirtyIdx with txReclaimEnable := true, txConsumIdx := txGenIdx } := by
    simp [setTxReclaim, empty]
  rw [hset]
  constructor
  · refine ⟨rfl, hgen, rfl, rfl, by simp, by simp, ?_, ?_, ?_, rfl⟩
    · intro bd hbd
      obtain ⟨k, -, rfl⟩ := List.mem_map.mp hbd
      rfl
    · exact (Nat.mod_eq_of_lt hgen).symm
    · exact (Nat.mod_eq_of_lt hgen).symm
  · refine ⟨rfl, hdirty, rfl, (Nat.mod_eq_of_lt hdirty).symm, ?_⟩
    have hpos := c.len_pos
    simp [empty]
    omega
  all_goals rfl

/-- In every run of an empty ring with reclaim in which each call that gets past its checks finds enough descriptors
that are reclaimed, the count and the reports are right. -/
theorem txReclaim_faithful (c : TxConfig) (lasts : Nat → Bool) (txGenIdx txConsumIdx dirtyIdx : Nat)
    (hgen : txGenIdx < c.txRingLen) (hdirty : dirtyIdx < c.txRingLen) (events : List TxEvent)
    (hrun : EachStep (TxRing.step c) (Enough c)
      (some ((empty lasts txGenIdx txConsumIdx dirtyIdx).setTxReclaim true).1) events) :
    ∃ r, events.foldl (TxRing.step c) (some ((empty lasts txGenIdx txConsumIdx dirtyIdx).setTxReclaim true).1) = some r ∧
      Faithful c r := by
  have hinit := rests_empty c lasts txConsumIdx hgen hdirty
  have hstep : ∀ (s : Option TxRing) (e : TxEvent), (∃ r, s = some r ∧ Rests c r) → Enough c s e →
      ∃ r, TxRing.step c s e = some r ∧ Rests c r := by
    rintro s e ⟨r, rfl, h⟩ henough
    exact h.step e henough
  obtain ⟨r, hr, done, wait, idle, pending, rest, p, h, hsettled⟩ := hrun.invariant hstep events ⟨_, rfl, hinit⟩
  exact ⟨r, hr, h.faithful hsettled⟩

/-- A ring of two descriptors with buffers of 256 bytes. -/
def twoTx : TxConfig where
  txRingLen := 2
  txBuffSizeAlign := 256
  lenLimitation := 1518
  len_pos := by decide
  len_lt := by decide
  size_pos := by decide

def emptyTwo : Option TxRing :=
  some ((empty (fun _ => false) 0 0 0).setTxReclaim true).1

theorem txReclaim_faithful_two :
    EachStep (TxRing.step twoTx) (Enough twoTx) emptyTwo
        [.startTxFrame 60 [40] 7 [], .complete, .complete, .reclaim []] ∧
      ∃ r, [TxEvent.startTxFrame 60 [40] 7 [], .complete, .complete, .reclaim []].foldl (TxRing.step twoTx) emptyTwo =
        some r ∧ Faithful twoTx r := by
  have hrun : EachStep (TxRing.step twoTx) (Enough twoTx) emptyTwo
      [.startTxFrame 60 [40] 7 [], .complete, .complete, .reclaim []] := by
    refine ⟨?_, ?_, ?_, ?_, trivial⟩
    · intro s hs _
      cases hs
      decide
    · intro s _ hstarts
      exact hstarts.elim
    · intro s _ hstarts
      exact hstarts.elim
    · intro s _ hstarts
      exact hstarts.elim
  exact ⟨hrun, txReclaim_faithful twoTx (fun _ => false) 0 0 0 (by decide) (by decide) _ hrun⟩

/-- The descriptors of the first frame are complete but not reclaimed when the second frame takes them again. -/
theorem txReclaim_not_faithful :
    ∃ r, [TxEvent.startTxFrame 60 [40] 7 [], .complete, .complete, .startTxFrame 60 [40] 8 []].foldl (TxRing.step twoTx)
        emptyTwo = some r ∧ r.txDescUsed = 4 ∧ ¬ Faithful twoTx r := by
  refine ⟨_, rfl, by decide, ?_⟩
  intro h
  exact absurd h.used_le (by decide)

end TxRing

end McuxDrivers.Enet
