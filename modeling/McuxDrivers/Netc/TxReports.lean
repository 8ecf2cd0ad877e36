import McuxDrivers.Netc.TxRing

/-!
# The reports of the NETC transmit ring

The descriptors from the clean index up to the producer index are a queue of frames, of which the hardware has
consumed the first ones. A reclaim reports the consumed frames, one callback for each.
-/

namespace McuxDrivers.Netc
open McuxDrivers.Lib

/-- A descriptor with what the ring remembers of its frame. -/
abbrev Slot := TxBd × TxFrameInfo

/-- A descriptor that the reclaim takes for the first one of a frame. -/
def TxBd.opens (bd : TxBd) : Bool :=
  bd.written || bd.frameLen != 0

/-- Frames behind each other, given by their contexts: one opening descriptor each, and other ones behind it. -/
inductive Frames : List Nat → List Slot → Prop
  | nil : Frames [] []
  | cons {context : Nat} {contexts : List Nat} {head : Slot} {tail slots : List Slot} (hopen : head.1.opens = true)
      (hcontext : head.2.context = context) (htail : ∀ x ∈ tail, x.1.opens = false) (h : Frames contexts slots) :
      Frames (context :: contexts) (head :: (tail ++ slots))

/-- Frames of which the last descriptor is the only final one. -/
inductive Queued : List Nat → List Slot → Prop
  | nil : Queued [] []
  | cons {context : Nat} {contexts : List Nat} {chain init : List Slot} {last : Slot} {slots : List Slot}
      (hframe : Frames [context] chain) (hchain : chain = init ++ [last])
      (hinit : ∀ x ∈ init, x.1.isFinal = false) (hlast : last.1.isFinal = true) (h : Queued contexts slots) :
      Queued (context :: contexts) (chain ++ slots)

lemma Frames.append {c₁ c₂ : List Nat} {s₁ s₂ : List Slot} (h₁ : Frames c₁ s₁) (h₂ : Frames c₂ s₂) :
    Frames (c₁ ++ c₂) (s₁ ++ s₂) := by
  induction h₁ with
  | nil => exact h₂
  | cons hopen hcontext htail _ ih =>
    rw [List.cons_append, List.cons_append, List.append_assoc]
    exact .cons hopen hcontext htail ih

lemma Queued.concat {contexts : List Nat} {slots : List Slot} (h : Queued contexts slots) {context : Nat}
    {chain : List Slot} (hchain : Queued [context] chain) : Queued (contexts ++ [context]) (slots ++ chain) := by
  induction h with
  | nil => exact hchain
  | cons hframe heq hinit hlast _ ih =>
    rw [List.cons_append, List.append_assoc]
    exact .cons hframe heq hinit hlast ih

/-- The descriptors of the first frame end at the first final one. -/
lemma findIdx_final {init : List Slot} {last : Slot} {slots : List Slot} (hinit : ∀ x ∈ init, x.1.isFinal = false)
    (hlast : last.1.isFinal = true) :
    ((init ++ [last] ++ slots).map Prod.fst).findIdx TxBd.isFinal = init.length := by
  induction init with
  | nil => simp [List.findIdx_cons, hlast]
  | cons x init ih =>
    have hx : x.1.isFinal = false := hinit x (by simp)
    have hrest := ih fun y hy => hinit y (List.mem_cons_of_mem x hy)
    simpa [List.findIdx_cons, hx] using hrest

namespace TxRing

variable {r : TxRing}

/-- The descriptor `i` with its frame information. -/
def slot (r : TxRing) (i : Nat) : Slot :=
  (r.bdBase i, r.dirtyBase i)

/-- The slots from the clean index up to the producer index. -/
def contents (r : TxRing) : List Slot :=
  ringContents r.slot r.len r.producerIndex r.cleanIndex

/-- The number of slots from the clean index up to the producer index. -/
def used (r : TxRing) : Nat :=
  ringLength r.len r.producerIndex r.cleanIndex

/-- The indices lie in the ring, which the 16-bit indices can address. -/
structure Indexed (r : TxRing) : Prop where
  len_le : r.len ≤ 2 ^ 16
  producer_lt : r.producerIndex < r.len
  clean_lt : r.cleanIndex < r.len

@[simp]
lemma length_contents : r.contents.length = r.used :=
  length_ringContents _ _ _ _

lemma slot_of_contents {a b : List Slot} {x : Slot} (h : r.contents = a ++ x :: b) :
    r.slot ((r.cleanIndex + a.length) % r.len) = x := by
  have hlt : a.length < r.used := by
    rw [← length_contents, h, List.length_append, List.length_cons]
    omega
  have hget : r.contents[a.length]? = _ := ringContents_getElem? hlt r.slot
  rw [h, List.getElem?_append_right (Nat.le_refl _), Nat.sub_self, List.getElem?_cons_zero] at hget
  exact (Option.some.inj hget).symm

lemma Indexed.slot_head (h : Indexed r) {x : Slot} {slots : List Slot} (hcontents : r.contents = x :: slots) :
    r.slot r.cleanIndex = x := by
  have hslot : r.slot ((r.cleanIndex + 0) % r.len) = x := slot_of_contents (a := []) hcontents
  rwa [Nat.add_zero, Nat.mod_eq_of_lt h.clean_lt] at hslot

lemma Indexed.bdBase_head (h : Indexed r) {x : Slot} {slots : List Slot} (hcontents : r.contents = x :: slots) :
    r.bdBase r.cleanIndex = x.1 :=
  congrArg Prod.fst (h.slot_head hcontents)

lemma Indexed.used_lt (h : Indexed r) : r.used < r.len :=
  ringLength_lt h.producer_lt h.clean_lt

lemma increaseIndex_eq {index max : Nat} (hmax : max ≤ 2 ^ 16) (h : index < max) :
    increaseIndex index max = ringNext max index := by
  unfold increaseIndex ringNext
  split_ifs with h1 h2 h2
  · rfl
  · omega
  · omega
  · exact Nat.mod_eq_of_lt (by omega)

lemma Indexed.getIdleTxBDNum (h : Indexed r) : r.getIdleTxBDNum + 1 + r.used = r.len := by
  have hlen := h.len_le
  have hp := h.producer_lt
  have hc := h.clean_lt
  unfold TxRing.getIdleTxBDNum used ringLength
  split_ifs with hge hgt hgt
  · omega
  · rw [Nat.mod_eq_of_lt (by omega)]
    omega
  · omega
  · omega

section Produce

/-- The ring `r'` has more slots at its producer index, and is the same otherwise. -/
structure Filled (r r' : TxRing) (added : List Slot) : Prop where
  indexed : Indexed r'
  contents : r'.contents = r.contents ++ added
  same : r' = { r with bdBase := r'.bdBase, dirtyBase := r'.dirtyBase, producerIndex := r'.producerIndex }

lemma Filled.trans {r₁ r₂ r₃ : TxRing} {a b : List Slot} (h₁ : Filled r₁ r₂ a) (h₂ : Filled r₂ r₃ b) :
    Filled r₁ r₃ (a ++ b) := by
  constructor
  · exact h₂.indexed
  · rw [h₂.contents, h₁.contents, List.append_assoc]
  · rw [h₂.same, h₁.same]

lemma Filled.len {r' : TxRing} {a : List Slot} (h : Filled r r' a) : r'.len = r.len := by
  rw [h.same]

lemma Filled.used {r' : TxRing} {a : List Slot} (h : Filled r r' a) : r'.used = r.used + a.length := by
  have hlength := congrArg List.length h.contents
  rwa [List.length_append, length_contents, length_contents] at hlength

lemma filled_produce {r' : TxRing} (h : Indexed r) (hroom : r.used + 1 < r.len) {v : Slot}
    (hslot : r'.slot = Function.update r.slot r.producerIndex v)
    (hsame : r' = { r with bdBase := r'.bdBase, dirtyBase := r'.dirtyBase }) : Filled r r'.produce [v] := by
  have hnext := increaseIndex_eq h.len_le h.producer_lt
  have hlen : r'.len = r.len := by rw [hsame]
  have hclean : r'.cleanIndex = r.cleanIndex := by rw [hsame]
  have hproducer : r'.produce.producerIndex = ringNext r.len r.producerIndex := by
    rw [← hnext, hsame]
    rfl
  constructor
  · constructor
    · change r'.len ≤ _
      rw [hlen]
      exact h.len_le
    · rw [hproducer]
      change _ < r'.len
      rw [hlen]
      exact ringNext_lt h.producer_lt
    · change r'.cleanIndex < r'.len
      rw [hclean, hlen]
      exact h.clean_lt
  · unfold TxRing.contents
    rw [hproducer]
    change ringContents r'.slot r'.len _ r'.cleanIndex = _
    rw [hslot, hlen, hclean]
    exact ringContents_push h.producer_lt h.clean_lt hroom r.slot v
  · rw [produce, hsame]

lemma slot_update_bdBase (i : Nat) (bd : TxBd) :
    ({ r with bdBase := Function.update r.bdBase i bd } : TxRing).slot =
      Function.update r.slot i (bd, r.dirtyBase i) := by
  funext j
  by_cases hj : j = i
  · subst hj
    simp [slot]
  · simp [slot, Function.update_of_ne hj]

lemma filled_writeBd (h : Indexed r) (hroom : r.used + 1 < r.len) (bd : TxBd) :
    Filled r (r.writeBd bd).produce [(bd, r.dirtyBase r.producerIndex)] :=
  filled_produce h hroom (slot_update_bdBase r.producerIndex bd) rfl

lemma controlWord_final (flags : BitVec 29) (enableInterrupt isExtended : Bool) :
    (TxBd.controlWord flags enableInterrupt isExtended).getLsbD 31 = false := by
  simp only [TxBd.controlWord, BitVec.getLsbD_append]
  simp

lemma filled_writeFirst (h : Indexed r) (hroom : r.used + 1 < r.len) (frameLen context : Nat)
    (txDesc0 txDesc1 : TxBd) (txBuff : Buffer) :
    ∃ v : Slot, Filled r (r.writeFirst frameLen context txDesc0 txDesc1 txBuff).produce [v] ∧
      v.2.context = context ∧ v.1.frameLen = BitVec.ofNat 16 frameLen ∧ v.1.isFinal = false := by
  refine ⟨(r.writeFirst frameLen context txDesc0 txDesc1 txBuff).slot r.producerIndex, ?_, ?_, ?_, ?_⟩
  · apply filled_produce h hroom _ rfl
    funext i
    by_cases hi : i = r.producerIndex
    · subst hi
      rw [Function.update_self]
    · simp [slot, writeFirst, writeBd, Function.update_of_ne hi]
  · simp [slot, writeFirst, writeBd]
  · simp [slot, writeFirst, writeBd]
  · simpa [slot, writeFirst, writeBd, TxBd.isFinal] using controlWord_final _ _ _

end Produce

section Fill

variable {frameLen context totBdNum : Nat} {txDesc0 txDesc1 : TxBd}

lemma Indexed.filled (h : Indexed r) : Filled r r [] :=
  ⟨h, (List.append_nil _).symm, rfl⟩

/-- A descriptor is the last one written. -/
structure Last (r : TxRing) (txDes : Nat) : Prop where
  lt : txDes < r.len
  next : increaseIndex txDes r.len = r.producerIndex

lemma last_produce {r' : TxRing} {added : List Slot} (h : Indexed r) (hfill : Filled r r'.produce added)
    (hproducer : r'.producerIndex = r.producerIndex) : Last r'.produce r.producerIndex := by
  have hlen := hfill.len
  constructor
  · rw [hlen]
    exact h.producer_lt
  · rw [hlen, ← hproducer, ← hlen]
    rfl

lemma fill_rest (frameLen context : Nat) (txDesc0 txDesc1 : TxBd) (buffers : List Buffer) {bdIndex : Nat} (hpos : bdIndex ≠ 0)
    (hbd : bdIndex + buffers.length ≤ totBdNum) {r : TxRing} (h : Indexed r)
    (hroom : r.used + buffers.length < r.len) {txDes : Nat} (hlast : Last r txDes) :
    ∃ r' added, Filled r r' added ∧ (∀ x ∈ added, x.1.opens = false ∧ x.1.isFinal = false) ∧
      ((fill frameLen context txDesc0 txDesc1 totBdNum bdIndex buffers r txDes = .error r' ∧
          ∃ b ∈ buffers, b.buffer = 0) ∨
        ∃ last, fill frameLen context txDesc0 txDesc1 totBdNum bdIndex buffers r txDes = .ok (r', last) ∧
          Last r' last ∧ ∀ b ∈ buffers, b.buffer ≠ 0) := by
  induction buffers generalizing bdIndex r txDes with
  | nil => exact ⟨r, [], h.filled, by simp, .inr ⟨txDes, rfl, hlast, by simp⟩⟩
  | cons b buffers ih =>
    rw [List.length_cons] at hbd hroom
    rw [fill, if_pos (by omega)]
    by_cases hnull : b.buffer = 0
    · rw [if_pos hnull]
      exact ⟨r, [], h.filled, by simp, .inl ⟨rfl, b, by simp, hnull⟩⟩
    rw [if_neg hnull, if_neg hpos]
    dsimp only
    set bd : TxBd := { clearTxDescriptor with addr := b.buffer.setWidth 64, bufLen := b.length } with hbdef
    have hfill := filled_writeBd h (by omega) bd
    have hnext : (r.writeBd bd).produce.used + buffers.length < (r.writeBd bd).produce.len := by
      rw [hfill.used, hfill.len, List.length_singleton]
      omega
    obtain ⟨r', added, hrest, hplain, hresult⟩ := ih (Nat.succ_ne_zero bdIndex) (by omega) hfill.indexed hnext
      (last_produce h hfill rfl)
    refine ⟨r', _, hfill.trans hrest, ?_, ?_⟩
    · intro x hx
      rcases List.mem_append.mp hx with hx | hx
      · rw [List.mem_singleton.mp hx]
        simp [hbdef, TxBd.opens, TxBd.written, TxBd.isFinal, clearTxDescriptor]
      · exact hplain x hx
    · rcases hresult with ⟨herror, b', hmem, hnull'⟩ | ⟨last, hok, hlast', hnonnull⟩
      · exact .inl ⟨herror, b', List.mem_cons_of_mem b hmem, hnull'⟩
      · exact .inr ⟨last, hok, hlast', List.forall_mem_cons.mpr ⟨hnull, hnonnull⟩⟩

/-- The slots of a frame that has been written, before its last descriptor is marked. -/
structure Chain (frameLen context : Nat) (head : Slot) (tail : List Slot) : Prop where
  context_eq : head.2.context = context
  frameLen_eq : head.1.frameLen = BitVec.ofNat 16 frameLen
  not_final : head.1.isFinal = false
  tail : ∀ x ∈ tail, x.1.opens = false ∧ x.1.isFinal = false

/-- What the loop does to a ring, whose frame has `buffers` of which some may be NULL. -/
def FillSpec (frameLen context : Nat) (r : TxRing) (buffers : List Buffer) (result : Except TxRing (TxRing × Nat)) :
    Prop :=
  ∃ r' added, Filled r r' added ∧
    ((result = .error r' ∧ ∃ b ∈ buffers, b.buffer = 0) ∨
      ∃ last head tail, result = .ok (r', last) ∧ Last r' last ∧ added = head :: tail ∧
        Chain frameLen context head tail ∧ ∀ b ∈ buffers, b.buffer ≠ 0)

/-- The loop once the first descriptor has been written, and perhaps the extension. -/
lemma fill_after (buffers : List Buffer) {bdIndex : Nat} (hpos : bdIndex ≠ 0)
    (hbd : bdIndex + buffers.length ≤ totBdNum) {b : Buffer} (hb : b.buffer ≠ 0) {r₁ : TxRing} {head : Slot}
    {extra : List Slot} (hfirst : Filled r r₁ (head :: extra)) (hchain : Chain frameLen context head extra)
    (hroom : r₁.used + buffers.length < r₁.len) {txDes : Nat} (hlast : Last r₁ txDes) :
    FillSpec frameLen context r (b :: buffers)
      (fill frameLen context txDesc0 txDesc1 totBdNum bdIndex buffers r₁ txDes) := by
  obtain ⟨r', added, hrest, hplain, hresult⟩ := fill_rest frameLen context txDesc0 txDesc1 buffers hpos hbd
    hfirst.indexed hroom hlast
  refine ⟨r', _, hfirst.trans hrest, ?_⟩
  rcases hresult with ⟨herror, b', hmem, hnull⟩ | ⟨last, hok, hlast', hnonnull⟩
  · exact .inl ⟨herror, b', List.mem_cons_of_mem b hmem, hnull⟩
  · right
    refine ⟨last, head, extra ++ added, hok, hlast', rfl, ?_, List.forall_mem_cons.mpr ⟨hb, hnonnull⟩⟩
    constructor
    · exact hchain.context_eq
    · exact hchain.frameLen_eq
    · exact hchain.not_final
    · intro x hx
      exact (List.mem_append.mp hx).elim (hchain.tail x) (hplain x)

/-- The rounds of the first buffer and of the extension. -/
lemma fill_first (frameLen context : Nat) (frame : Frame) (hext : txDesc1.opens = false ∧ txDesc1.isFinal = false)
    (h : Indexed r) (hroom : r.used + frame.totBdNum txDesc0.isExtended < r.len) (hnull : frame.first.buffer ≠ 0) :
    ∃ r₁ head extra bdIndex txDes, Filled r r₁ (head :: extra) ∧ Chain frameLen context head extra ∧ Last r₁ txDes ∧
      bdIndex ≠ 0 ∧ bdIndex + frame.rest.length ≤ frame.totBdNum txDesc0.isExtended ∧
      r₁.used + frame.rest.length < r₁.len ∧
      fill frameLen context txDesc0 txDesc1 (frame.totBdNum txDesc0.isExtended) 0 frame.buffArray r r.producerIndex =
        fill frameLen context txDesc0 txDesc1 (frame.totBdNum txDesc0.isExtended) bdIndex frame.rest r₁ txDes := by
  have hlength : frame.buffArray.length = frame.rest.length + 1 := rfl
  have htot : frame.rest.length < frame.totBdNum txDesc0.isExtended := by
    unfold Frame.totBdNum
    split <;> omega
  rw [show frame.buffArray = frame.first :: frame.rest from rfl, fill, if_pos (by omega), if_neg hnull, if_pos rfl]
  dsimp only
  obtain ⟨v, hfirst, hcontext, hframeLen, hfinal⟩ :=
    filled_writeFirst h (by omega) frameLen context txDesc0 txDesc1 frame.first
  have hlast := last_produce h hfirst rfl
  have hused := hfirst.used
  have hlen := hfirst.len
  rw [List.length_singleton] at hused
  by_cases hx : txDesc0.isExtended = true
  · rw [if_pos hx]
    rw [hx, Frame.totBdNum, if_pos rfl] at hroom ⊢
    have hsecond := filled_writeBd hfirst.indexed (by omega) txDesc1
    have hused' := hsecond.used
    have hlen' := hsecond.len
    rw [List.length_singleton] at hused'
    exact ⟨_, _, _, _, _, hfirst.trans hsecond, ⟨hcontext, hframeLen, hfinal, List.forall_mem_singleton.mpr hext⟩,
      last_produce hfirst.indexed hsecond rfl, by omega, by omega, by omega, rfl⟩
  · rw [if_neg hx]
    exact ⟨_, _, _, _, _, hfirst, ⟨hcontext, hframeLen, hfinal, by simp⟩, hlast, by omega, by omega, by omega, rfl⟩

lemma fill_spec (frameLen context : Nat) (frame : Frame) (hext : txDesc1.opens = false ∧ txDesc1.isFinal = false) (h : Indexed r)
    (hroom : r.used + frame.totBdNum txDesc0.isExtended < r.len) :
    FillSpec frameLen context r frame.buffArray
      (fill frameLen context txDesc0 txDesc1 (frame.totBdNum txDesc0.isExtended) 0 frame.buffArray r
        r.producerIndex) := by
  by_cases hnull : frame.first.buffer = 0
  · have hpos : 0 < frame.totBdNum txDesc0.isExtended := by
      rw [Frame.totBdNum, show frame.buffArray.length = frame.rest.length + 1 from rfl]
      split <;> omega
    rw [show frame.buffArray = frame.first :: frame.rest from rfl, fill, if_pos hpos, if_pos hnull]
    exact ⟨r, [], h.filled, .inl ⟨rfl, frame.first, by simp, hnull⟩⟩
  · obtain ⟨r₁, head, extra, bdIndex, txDes, hfirst, hchain, hlast, hpos, hbd, hused, heq⟩ :=
      fill_first frameLen context frame hext h hroom hnull
    rw [heq]
    exact fill_after frame.rest hpos hbd hnull hfirst hchain hused hlast

/-- A NULL first buffer leaves the ring alone. -/
lemma fill_null (frame : Frame) (hnull : frame.first.buffer = 0) (hpos : 0 < totBdNum) (txDes : Nat) :
    fill frameLen context txDesc0 txDesc1 totBdNum 0 frame.buffArray r txDes = .error r := by
  rw [show frame.buffArray = frame.first :: frame.rest from rfl, fill, if_pos hpos, if_pos hnull]

end Fill

section Send

lemma opens_setFinal (bd : TxBd) : bd.setFinal.opens = bd.opens := by
  simp [TxBd.opens, TxBd.setFinal, TxBd.written]

lemma isFinal_setFinal (bd : TxBd) : bd.setFinal.isFinal = true := by
  simp [TxBd.isFinal, TxBd.setFinal]

/-- The mark on the last descriptor makes a frame for the hardware of the chain. -/
lemma Chain.queued {frameLen context : Nat} {head last : Slot} {tail init : List Slot}
    (h : Chain frameLen context head tail) (hlen : BitVec.ofNat 16 frameLen ≠ 0)
    (hinit : head :: tail = init ++ [last]) : Queued [context] (init ++ [(last.1.setFinal, last.2)]) := by
  have hopen : head.1.opens = true := by
    rw [TxBd.opens, h.frameLen_eq, bne_iff_ne.mpr hlen, Bool.or_true]
  have hplain : ∀ x ∈ head :: tail, x.1.isFinal = false :=
    List.forall_mem_cons.mpr ⟨h.not_final, fun x hx => (h.tail x hx).2⟩
  rw [hinit] at hplain
  have hframe : Frames [context] (init ++ [(last.1.setFinal, last.2)]) := by
    cases init with
    | nil =>
      obtain ⟨rfl, -⟩ := List.cons_eq_cons.mp hinit
      have hcons : Frames [context] ((head.1.setFinal, head.2) :: ([] ++ [])) :=
        .cons ((opens_setFinal head.1).trans hopen) h.context_eq (List.forall_mem_nil _) .nil
      exact hcons
    | cons x init =>
      obtain ⟨rfl, rfl⟩ := List.cons_eq_cons.mp hinit
      have htail : ∀ y ∈ init ++ [(last.1.setFinal, last.2)], y.1.opens = false := by
        intro y hy
        rcases List.mem_append.mp hy with hy | hy
        · exact (h.tail y (List.mem_append_left _ hy)).1
        · rw [List.mem_singleton.mp hy, opens_setFinal]
          exact (h.tail last (by simp)).1
      have hcons := Frames.cons hopen h.context_eq htail .nil
      rwa [List.append_nil] at hcons
  have hqueued := Queued.cons hframe rfl (fun x hx => hplain x (List.mem_append_left _ hx))
    (isFinal_setFinal last.1) .nil
  rwa [List.append_nil] at hqueued

lemma contents_setFinal (h : Indexed r) {i : Nat} (hlast : Last r i) {init : List Slot} {last : Slot}
    (hcontents : r.contents = init ++ [last]) :
    ({ r with bdBase := Function.update r.bdBase i (r.bdBase i).setFinal, tbpir := r.producerIndex } : TxRing).contents =
      init ++ [(last.1.setFinal, last.2)] := by
  have hused : r.used = init.length + 1 := by
    rw [← length_contents, hcontents, List.length_append, List.length_singleton]
  have hnext := increaseIndex_eq h.len_le hlast.lt
  have hindex : i = (r.cleanIndex + init.length) % r.len := by
    rw [ring_last h.clean_lt hlast.lt (hnext ▸ hlast.next) (by rw [← used]; omega), ← used, hused,
      Nat.add_sub_cancel]
  have hslot : r.slot i = last := by
    rw [hindex]
    exact slot_of_contents hcontents
  change ringContents ({ r with bdBase := Function.update r.bdBase i (r.bdBase i).setFinal } : TxRing).slot r.len
    r.producerIndex r.cleanIndex = _
  rw [slot_update_bdBase, hindex, ringContents_update h.producer_lt h.clean_lt (by rw [← used]; omega), ← hindex]
  change r.contents.set _ _ = _
  rw [hcontents, List.set_append_right _ _ (Nat.le_refl _), Nat.sub_self, List.set_cons_zero]
  have hfst : r.bdBase i = last.1 := congrArg Prod.fst hslot
  have hsnd : r.dirtyBase i = last.2 := congrArg Prod.snd hslot
  rw [hfst, hsnd]

/-- The ring `r'` has one more frame for the hardware. -/
structure Submitted (r r' : TxRing) (chain : List Slot) : Prop where
  indexed : Indexed r'
  contents : r'.contents = r.contents ++ chain
  same : r' = { r with
    bdBase := r'.bdBase, dirtyBase := r'.dirtyBase, producerIndex := r'.producerIndex, tbpir := r'.producerIndex }

lemma Filled.submitted {r' : TxRing} {init : List Slot} {last : Slot} (hfill : Filled r r' (init ++ [last])) {i : Nat}
    (hlast : Last r' i) :
    Submitted r
      { r' with bdBase := Function.update r'.bdBase i (r'.bdBase i).setFinal, tbpir := r'.producerIndex }
      (init ++ [(last.1.setFinal, last.2)]) := by
  constructor
  · exact ⟨hfill.indexed.len_le, hfill.indexed.producer_lt, hfill.indexed.clean_lt⟩
  · have hcontents := hfill.contents
    rw [← List.append_assoc] at hcontents
    rw [contents_setFinal hfill.indexed hlast hcontents, List.append_assoc]
  · rw [hfill.same]

variable {txDesc0 txDesc1 : TxBd} {context : Nat} {frame : Frame}

/-- Neither of the checks that come before the descriptors are written fails. -/
def Fits (r : TxRing) (frame : Frame) (isExtEnable : Bool) : Prop :=
  frame.frameLen ≤ 9600 ∧ frame.totBdNum isExtEnable ≤ r.getIdleTxBDNum

lemma sendFrameCommon_rejected (context : Nat) (txDesc1 : TxBd) (hfits : ¬ Fits r frame txDesc0.isExtended) :
    ∃ status, r.sendFrameCommon frame context txDesc0 txDesc1 = (r, status) ∧ status ≠ .success := by
  unfold sendFrameCommon
  by_cases hlen : frame.frameLen > 9600
  · exact ⟨.txFrameOverLen, if_pos hlen, by decide⟩
  · have hbusy : frame.totBdNum txDesc0.isExtended > r.getIdleTxBDNum := by
      by_contra hidle
      exact hfits ⟨by omega, by omega⟩
    refine ⟨.busy, ?_, by decide⟩
    dsimp only
    rw [if_neg hlen, if_pos hbusy]

lemma Fits.room (h : Indexed r) {isExtEnable : Bool} (hfits : Fits r frame isExtEnable) :
    r.used + frame.totBdNum isExtEnable < r.len := by
  have hidle := h.getIdleTxBDNum
  have hle := hfits.2
  omega

lemma sendFrameCommon_fits (hfits : Fits r frame txDesc0.isExtended) :
    r.sendFrameCommon frame context txDesc0 txDesc1 =
      match fill frame.frameLen context txDesc0 txDesc1 (frame.totBdNum txDesc0.isExtended) 0 frame.buffArray r
          r.producerIndex with
      | .error r' => (r', .invalidArgument)
      | .ok (r', txDesTemp) =>
        ({ r' with
            bdBase := Function.update r'.bdBase txDesTemp (r'.bdBase txDesTemp).setFinal
            tbpir := r'.producerIndex },
          if frame.first.length.toNat < 16 then .txFrameOverLen else .success) := by
  have hlen : ¬ frame.frameLen > 9600 := by
    have := hfits.1
    omega
  have hidle : ¬ frame.totBdNum txDesc0.isExtended > r.getIdleTxBDNum := by
    have := hfits.2
    omega
  unfold sendFrameCommon
  dsimp only
  rw [if_neg hlen]
  exact if_neg hidle

/-- A NULL buffer leaves the descriptors of the buffers before it. -/
lemma sendFrameCommon_null (context : Nat) (h : Indexed r) (hext : txDesc1.opens = false ∧ txDesc1.isFinal = false)
    (hfits : Fits r frame txDesc0.isExtended) (hnull : ∃ b ∈ frame.buffArray, b.buffer = 0) :
    ∃ r' added, r.sendFrameCommon frame context txDesc0 txDesc1 = (r', .invalidArgument) ∧ Filled r r' added := by
  obtain ⟨b, hmem, hb⟩ := hnull
  rw [sendFrameCommon_fits hfits]
  obtain ⟨r', added, hfill, ⟨herror, -⟩ | ⟨last, head, tail, -, -, -, -, hnonnull⟩⟩ :=
    fill_spec frame.frameLen context frame hext h (hfits.room h)
  · exact ⟨r', added, by rw [herror], hfill⟩
  · exact absurd hb (hnonnull b hmem)

/-- Without a NULL buffer the frame goes to the hardware, whatever the status says. -/
lemma sendFrameCommon_submits (context : Nat) (h : Indexed r) (hext : txDesc1.opens = false ∧ txDesc1.isFinal = false)
    (hfits : Fits r frame txDesc0.isExtended) (hnonnull : ∀ b ∈ frame.buffArray, b.buffer ≠ 0) :
    ∃ r' init last head tail,
      r.sendFrameCommon frame context txDesc0 txDesc1 =
        (r', if frame.first.length.toNat < 16 then .txFrameOverLen else .success) ∧
      Submitted r r' (init ++ [(last.1.setFinal, last.2)]) ∧ Chain frame.frameLen context head tail ∧
      head :: tail = init ++ [last] := by
  rw [sendFrameCommon_fits hfits]
  obtain ⟨r', added, hfill, ⟨-, b, hmem, hb⟩ | ⟨i, head, tail, hok, hlast, rfl, hchain, -⟩⟩ :=
    fill_spec frame.frameLen context frame hext h (hfits.room h)
  · exact absurd hb (hnonnull b hmem)
  · have hinit := (List.dropLast_concat_getLast (List.cons_ne_nil head tail)).symm
    rw [hinit] at hfill
    exact ⟨_, _, _, head, tail, by rw [hok], hfill.submitted hlast, hchain, hinit⟩

end Send

section Consume

/-- The queue of a ring: the rest `tail` of a frame that is being reclaimed, the frames that the hardware has
consumed, and those that it has not. -/
structure Linked (r : TxRing) (tail : List Slot) (done todo : List Nat) : Prop where
  indexed : Indexed r
  plain : ∀ x ∈ tail, x.1.opens = false
  tbpir_eq : r.tbpir = r.producerIndex
  split : ∃ a b, r.contents = tail ++ a ++ b ∧ Frames done a ∧ Queued todo b ∧
    r.tbcir = (r.cleanIndex + (tail ++ a).length) % r.len

lemma submitted_eq (h : Indexed r) (htbpir : r.tbpir = r.producerIndex) {a b : List Slot} (hcontents : r.contents = a ++ b)
    (htbcir : r.tbcir = (r.cleanIndex + a.length) % r.len) :
    ringContents r.bdBase r.len r.tbpir r.tbcir = b.map Prod.fst := by
  have hle : a.length ≤ r.used := by
    rw [← length_contents, hcontents, List.length_append]
    omega
  have hmap := ringContents_map Prod.fst r.slot r.len r.producerIndex r.tbcir
  rw [htbcir, ringContents_drop h.producer_lt h.clean_lt hle r.slot] at hmap
  change _ = (r.contents.drop _).map _ at hmap
  rw [hcontents, List.drop_left] at hmap
  rw [htbpir, htbcir]
  exact hmap

/-- The first slot of the next frame after the hardware has perhaps written it back. -/
lemma contents_writeback (h : Indexed r) {a slots : List Slot} {head : Slot} (hcontents : r.contents = a ++ head :: slots)
    (htbcir : r.tbcir = (r.cleanIndex + a.length) % r.len) (hopen : head.1.opens = true) (writeback : Option TxBd) :
    ∃ bd : TxBd, bd.opens = true ∧ ∀ tbcir completed,
      ({ r with bdBase := r.writeBack writeback, tbcir := tbcir, completed := completed } : TxRing).contents =
        a ++ (bd, head.2) :: slots := by
  cases writeback with
  | none => exact ⟨head.1, hopen, fun _ _ => hcontents⟩
  | some w =>
    refine ⟨{ w with ctrl := w.ctrl ||| 0x04000000#32 }, by simp [TxBd.opens, TxBd.written], ?_⟩
    intro tbcir completed
    have hlt : a.length < r.used := by
      rw [← length_contents, hcontents, List.length_append, List.length_cons]
      omega
    have hinfo : r.dirtyBase r.tbcir = head.2 := by
      rw [htbcir]
      exact congrArg Prod.snd (slot_of_contents hcontents)
    change ringContents ({ r with bdBase := Function.update r.bdBase r.tbcir _ } : TxRing).slot r.len r.producerIndex
      r.cleanIndex = _
    rw [slot_update_bdBase, hinfo, htbcir, ringContents_update h.producer_lt h.clean_lt hlt]
    change r.contents.set _ _ = _
    rw [hcontents, List.set_append_right _ _ (Nat.le_refl _), Nat.sub_self, List.set_cons_zero]

/-- The hardware and the reclaim keep the order of the frames, and change neither the reports nor the frame information
of the other frames. -/
structure Moved (r r' : TxRing) (done todo done' todo' : List Nat) : Prop where
  frames : done' ++ todo' = done ++ todo
  completed : r'.completed + done.length = r.completed + done'.length
  used_le : r'.used ≤ r.used
  len : r'.len = r.len
  dirtyBase : r'.dirtyBase = r.dirtyBase
  reclaimCallback : r'.reclaimCallback = r.reclaimCallback
  accepted : r'.accepted = r.accepted
  reports : r'.reports = r.reports

lemma Moved.refl (r : TxRing) (done todo : List Nat) : Moved r r done todo done todo := by
  constructor <;> rfl

lemma Moved.trans {r₁ r₂ r₃ : TxRing} {d₁ t₁ d₂ t₂ d₃ t₃ : List Nat} (h₁ : Moved r₁ r₂ d₁ t₁ d₂ t₂)
    (h₂ : Moved r₂ r₃ d₂ t₂ d₃ t₃) : Moved r₁ r₃ d₁ t₁ d₃ t₃ := by
  have hc₁ := h₁.completed
  have hc₂ := h₂.completed
  constructor
  · rw [h₂.frames, h₁.frames]
  · omega
  · exact h₂.used_le.trans h₁.used_le
  · rw [h₂.len, h₁.len]
  · rw [h₂.dirtyBase, h₁.dirtyBase]
  · rw [h₂.reclaimCallback, h₁.reclaimCallback]
  · rw [h₂.accepted, h₁.accepted]
  · rw [h₂.reports, h₁.reports]

theorem consume_linked {tail : List Slot} {done todo : List Nat} (h : Linked r tail done todo)
    (writeback : Option TxBd) :
    ∃ done' todo', Linked (r.consume writeback) tail done' todo' ∧
      Moved r (r.consume writeback) done todo done' todo' := by
  obtain ⟨a, b, hcontents, hdone, htodo, htbcir⟩ := h.split
  have hsubmitted := submitted_eq h.indexed h.tbpir_eq hcontents htbcir
  unfold consume
  rw [hsubmitted]
  cases htodo with
  | nil => exact ⟨done, [], h, .refl r done []⟩
  | @cons context todo chain init last slots hframe hchain hinit hlast hrest =>
    have hcount : ((chain ++ slots).map Prod.fst).findIdx TxBd.isFinal + 1 = chain.length := by
      rw [hchain, findIdx_final hinit hlast, List.length_append, List.length_singleton]
    have hmin : min chain.length ((chain ++ slots).map Prod.fst).length = chain.length := by
      rw [List.length_map, List.length_append]
      omega
    have hne : (chain ++ slots).map Prod.fst ≠ [] := by
      rw [hchain]
      simp
    rw [if_neg hne]
    simp only [hcount, hmin]
    obtain _ | ⟨hopen, hcontext, htail, hnil⟩ := hframe
    cases hnil
    rename_i head rest
    rw [List.append_nil, List.cons_append] at hcontents
    obtain ⟨bd, hbd, hwritten⟩ := contents_writeback h.indexed hcontents htbcir hopen writeback
    refine ⟨done ++ [context], todo, ?_, ?_⟩
    · constructor
      · exact ⟨h.indexed.len_le, h.indexed.producer_lt, h.indexed.clean_lt⟩
      · exact h.plain
      · exact h.tbpir_eq
      · refine ⟨a ++ (bd, head.2) :: rest, slots, ?_, ?_, hrest, ?_⟩
        · rw [hwritten]
          simp
        · have hframe : Frames [context] ((bd, head.2) :: (rest ++ [])) := .cons hbd hcontext htail .nil
          rw [List.append_nil] at hframe
          exact hdone.append hframe
        · rw [htbcir, Nat.mod_add_mod]
          simp [Nat.add_assoc]
    · constructor
      · simp
      · change r.completed + 1 + done.length = _
        rw [List.length_append, List.length_singleton]
        omega
      all_goals rfl

/-- The frames that the hardware consumes before a read. -/
lemma getTxConsumer_linked {tail : List Slot} {done todo : List Nat} (h : Linked r tail done todo)
    (reads : List (List (Option TxBd))) :
    ∃ done' todo', Linked (r.getTxConsumer reads).1 tail done' todo' ∧
      Moved r (r.getTxConsumer reads).1 done todo done' todo' := by
  cases reads with
  | nil => exact ⟨done, todo, h, .refl r done todo⟩
  | cons frames reads =>
    change ∃ done' todo', Linked (frames.foldl consume r) tail done' todo' ∧
      Moved r (frames.foldl consume r) done todo done' todo'
    induction frames generalizing r done todo with
    | nil => exact ⟨done, todo, h, .refl r done todo⟩
    | cons w frames ih =>
      obtain ⟨done₁, todo₁, h₁, hmoved₁⟩ := consume_linked h w
      obtain ⟨done₂, todo₂, h₂, hmoved₂⟩ := ih h₁
      exact ⟨done₂, todo₂, h₂, hmoved₁.trans hmoved₂⟩

end Consume

section Reclaim

lemma dirtyNum_eq (h : Indexed r) {n : Nat} (hn : n < r.len) (htbcir : r.tbcir = (r.cleanIndex + n) % r.len) :
    r.dirtyNum = n := by
  have hlength := ringLength_add_mod h.clean_lt hn
  have htbcir_lt : r.tbcir < r.len := by
    rw [htbcir]
    exact Nat.mod_lt _ (by omega)
  have hlen := h.len_le
  have hclean := h.clean_lt
  rw [← htbcir] at hlength
  unfold TxRing.dirtyNum
  unfold ringLength at hlength
  split_ifs at * with h₁ h₂ h₂
  · omega
  · omega
  · rw [Nat.mod_eq_of_lt (by omega)]
    omega
  · omega

lemma Linked.dirtyNum {tail : List Slot} {done todo : List Nat} (h : Linked r tail done todo) :
    ∃ a b, r.contents = tail ++ a ++ b ∧ Frames done a ∧ Queued todo b ∧ r.dirtyNum = (tail ++ a).length ∧
      r.tbcir = (r.cleanIndex + (tail ++ a).length) % r.len := by
  obtain ⟨a, b, hcontents, hdone, htodo, htbcir⟩ := h.split
  refine ⟨a, b, hcontents, hdone, htodo, dirtyNum_eq h.indexed ?_ htbcir, htbcir⟩
  have hused := h.indexed.used_lt
  rw [← length_contents, hcontents, List.length_append] at hused
  omega

lemma frameInfo_isSome : r.frameInfo.isSome = (r.bdBase r.cleanIndex).opens := by
  unfold frameInfo TxBd.opens
  dsimp only
  cases hwritten : (r.bdBase r.cleanIndex).written with
  | true => rfl
  | false =>
    rw [if_neg Bool.false_ne_true]
    by_cases hlen : (r.bdBase r.cleanIndex).frameLen ≠ 0
    · rw [if_pos hlen, bne_iff_ne.mpr hlen]
      rfl
    · rw [if_neg hlen, not_not.mp hlen]
      rfl

lemma frameInfo_context {info : TxFrameInfo} (h : r.frameInfo = some info) :
    info.context = (r.dirtyBase r.cleanIndex).context := by
  unfold frameInfo at h
  dsimp only at h
  split_ifs at h <;> cases h <;> rfl

lemma Linked.clean {x : Slot} {tail : List Slot} {done todo : List Nat} (h : Indexed r)
    (htbpir : r.tbpir = r.producerIndex) (hplain : ∀ y ∈ tail, y.1.opens = false) {a b : List Slot}
    (hcontents : r.contents = x :: tail ++ a ++ b) (hdone : Frames done a) (htodo : Queued todo b)
    (htbcir : r.tbcir = (r.cleanIndex + (x :: tail ++ a).length) % r.len) :
    Linked r.clean tail done todo ∧ r.clean.used + 1 = r.used ∧ r.clean.dirtyNum = (tail ++ a).length := by
  have hlength : r.used = (tail ++ a).length + b.length + 1 := by
    rw [← length_contents, hcontents]
    simp only [List.cons_append, List.length_cons, List.length_append]
  have hne : r.used ≠ 0 := by omega
  have hnext : r.clean.cleanIndex = ringNext r.len r.cleanIndex := increaseIndex_eq h.len_le h.clean_lt
  have hpop : r.contents = r.slot r.cleanIndex :: r.clean.contents := by
    unfold TxRing.contents
    rw [hnext]
    exact ringContents_pop h.producer_lt h.clean_lt hne r.slot
  rw [hcontents, List.cons_append, List.cons_append] at hpop
  have hindexed : Indexed r.clean := ⟨h.len_le, h.producer_lt, hnext ▸ ringNext_lt h.clean_lt⟩
  have htbcir' : r.clean.tbcir = (r.clean.cleanIndex + (tail ++ a).length) % r.clean.len := by
    change r.tbcir = (r.clean.cleanIndex + (tail ++ a).length) % r.len
    rw [htbcir, hnext, ringNext_eq_mod h.clean_lt, Nat.mod_add_mod, List.cons_append, List.length_cons]
    congr 1
    omega
  refine ⟨⟨hindexed, hplain, htbpir, a, b, (List.cons_eq_cons.mp hpop).2.symm, hdone, htodo, htbcir'⟩, ?_, ?_⟩
  · change ringLength r.len r.producerIndex r.clean.cleanIndex + 1 = _
    rw [hnext]
    exact ringLength_pop h.producer_lt h.clean_lt hne
  · apply dirtyNum_eq hindexed _ htbcir'
    have hused := h.used_lt
    change _ < r.len
    omega

/-- The first slot of the queue when its frame information changes. -/
lemma contents_setInfo (h : Indexed r) {x : Slot} {slots : List Slot} (hcontents : r.contents = x :: slots)
    (info : TxFrameInfo) : (r.setInfo info).contents = (x.1, info) :: slots := by
  have hpos : 0 < r.used := by
    rw [← length_contents, hcontents]
    simp
  have hindex : (r.cleanIndex + 0) % r.len = r.cleanIndex := Nat.mod_eq_of_lt h.clean_lt
  have hx := h.slot_head hcontents
  have hslot : (r.setInfo info).slot = Function.update r.slot r.cleanIndex (x.1, info) := by
    funext i
    by_cases hi : i = r.cleanIndex
    · rw [hi, Function.update_self, ← hx]
      simp [slot, setInfo]
    · simp [slot, setInfo, Function.update_of_ne hi]
  change ringContents (r.setInfo info).slot r.len r.producerIndex r.cleanIndex = _
  rw [hslot]
  have hupdate := ringContents_update h.producer_lt h.clean_lt hpos r.slot (x.1, info)
  rw [hindex] at hupdate
  rw [hupdate]
  change r.contents.set 0 _ = _
  rw [hcontents, List.set_cons_zero]

/-- The next round of the loop, after another read if nothing is left to clean. -/
lemma reclaimLoop_next {tail : List Slot} {done todo : List Nat} (h : Linked r tail done todo) (fuel : Nat)
    (found : Option Nat) (reads : List (List (Option TxBd))) :
    ∃ r' reads' done' todo',
      (if r.dirtyNum = 0 then
          reclaimLoop true fuel (r.getTxConsumer reads).1.dirtyNum found (r.getTxConsumer reads).1
            (r.getTxConsumer reads).2
        else reclaimLoop true fuel r.dirtyNum found r reads) =
        reclaimLoop true fuel r'.dirtyNum found r' reads' ∧
      Linked r' tail done' todo' ∧ Moved r r' done todo done' todo' := by
  by_cases hnum : r.dirtyNum = 0
  · rw [if_pos hnum]
    obtain ⟨done', todo', hlinked, hmoved⟩ := getTxConsumer_linked h reads
    exact ⟨_, _, done', todo', rfl, hlinked, hmoved⟩
  · rw [if_neg hnum]
    exact ⟨r, reads, done, todo, rfl, h, .refl r done todo⟩

lemma moved_clean {done todo : List Nat} (hused : r.clean.used + 1 = r.used) : Moved r r.clean done todo done todo := by
  constructor
  case used_le => omega
  all_goals rfl

/-- Once a frame has been found, the loop cleans the rest of it and stops before the next one. -/
theorem reclaimLoop_found (fuel : Nat) {tail : List Slot} {done todo : List Nat} (h : Linked r tail done todo)
    (hfuel : r.used < fuel) (i : Nat) (reads : List (List (Option TxBd))) :
    ∃ r' reads' done' todo', reclaimLoop true fuel r.dirtyNum (some i) r reads = some (r', reads', some i) ∧
      Linked r' [] done' todo' ∧ Moved r r' done todo done' todo' := by
  induction fuel generalizing r tail done todo reads with
  | zero => omega
  | succ fuel ih =>
    obtain ⟨a, b, hcontents, hdone, htodo, hnum, htbcir⟩ := h.dirtyNum
    rw [reclaimLoop]
    cases tail with
    | nil =>
      by_cases hzero : r.dirtyNum = 0
      · rw [if_pos hzero]
        exact ⟨r, reads, done, todo, rfl, h, .refl r done todo⟩
      rw [if_neg hzero]
      cases hdone with
      | nil => exact absurd hnum hzero
      | @cons context done head rest slots hopen _ _ _ =>
        have hsome : r.frameInfo.isSome = true := by
          rw [frameInfo_isSome, h.indexed.bdBase_head hcontents, hopen]
        obtain ⟨info, hinfo⟩ := Option.isSome_iff_exists.mp hsome
        simp only [if_true, hinfo, Option.isSome_some]
        exact ⟨r, reads, _, todo, rfl, h, .refl r _ todo⟩
    | cons x tail =>
      have hzero : r.dirtyNum ≠ 0 := by
        rw [hnum]
        simp
      have hnone : r.frameInfo = none := by
        rw [← Option.not_isSome_iff_eq_none, frameInfo_isSome, h.indexed.bdBase_head hcontents, h.plain x (by simp)]
        exact Bool.false_ne_true
      obtain ⟨hlinked, hused, hdirty⟩ := Linked.clean h.indexed h.tbpir_eq
        (fun y hy => h.plain y (List.mem_cons_of_mem x hy)) hcontents hdone htodo htbcir
      have hnum' : r.clean.dirtyNum = r.dirtyNum - 1 := by
        rw [hdirty, hnum, List.cons_append, List.length_cons, Nat.add_sub_cancel]
      obtain ⟨r₁, reads₁, done₁, todo₁, heq, hlinked₁, hmoved₁⟩ := reclaimLoop_next hlinked fuel (some i) reads
      have hfuel₁ : r₁.used < fuel := by
        have := hmoved₁.used_le
        omega
      obtain ⟨r₂, reads₂, done₂, todo₂, hloop, hlinked₂, hmoved₂⟩ := ih hlinked₁ hfuel₁ reads₁
      refine ⟨r₂, reads₂, done₂, todo₂, ?_, hlinked₂, ((moved_clean hused).trans hmoved₁).trans hmoved₂⟩
      rw [if_neg hzero]
      simp only [if_true, hnone]
      rw [← hnum', heq, hloop]

/-- A round that finds a frame: the reclaim stores its information and cleans its descriptors. -/
theorem reclaimLoop_frame (fuel : Nat) {context : Nat} {done todo : List Nat} (h : Linked r [] (context :: done) todo)
    (hfuel : r.used < fuel) (reads : List (List (Option TxBd))) :
    ∃ r' reads' i done' todo', reclaimLoop true fuel r.dirtyNum none r reads = some (r', reads', some i) ∧
      (r'.dirtyBase i).context = context ∧ Linked r' [] done' todo' ∧ done' ++ todo' = done ++ todo ∧
      r'.completed + done.length = r.completed + done'.length ∧ r'.used < r.used ∧ r'.len = r.len ∧
      r'.reclaimCallback = r.reclaimCallback ∧ r'.accepted = r.accepted ∧ r'.reports = r.reports := by
  obtain _ | fuel := fuel
  · omega
  obtain ⟨a, b, hcontents, hdone, htodo, hnum, htbcir⟩ := h.dirtyNum
  cases hdone with
  | @cons _ _ head tail slots hopen hcontext htail hrest =>
    have hsome : r.frameInfo.isSome = true := by
      rw [frameInfo_isSome, h.indexed.bdBase_head hcontents, hopen]
    obtain ⟨info, hinfo⟩ := Option.isSome_iff_exists.mp hsome
    have hinfoContext : info.context = context := by
      rw [frameInfo_context hinfo, ← hcontext, ← h.indexed.slot_head hcontents]
      rfl
    rw [List.nil_append] at hcontents hnum htbcir
    have hset := contents_setInfo h.indexed hcontents info
    obtain ⟨hlinked, hused, hdirty⟩ := Linked.clean (r := r.setInfo info)
      ⟨h.indexed.len_le, h.indexed.producer_lt, h.indexed.clean_lt⟩ h.tbpir_eq htail hset hrest htodo htbcir
    have hused' : (r.setInfo info).clean.used + 1 = r.used := hused
    have hnum' : (r.setInfo info).clean.dirtyNum = r.dirtyNum - 1 := by
      rw [hdirty, hnum, List.length_cons, Nat.add_sub_cancel]
    have hzero : r.dirtyNum ≠ 0 := by
      rw [hnum]
      simp
    obtain ⟨r₁, reads₁, done₁, todo₁, heq, hlinked₁, hmoved₁⟩ :=
      reclaimLoop_next hlinked fuel (some r.cleanIndex) reads
    have hfuel₁ : r₁.used < fuel := by
      have := hmoved₁.used_le
      omega
    obtain ⟨r₂, reads₂, done₂, todo₂, hloop, hlinked₂, hmoved₂⟩ :=
      reclaimLoop_found fuel hlinked₁ hfuel₁ r.cleanIndex reads₁
    have hmoved := hmoved₁.trans hmoved₂
    refine ⟨r₂, reads₂, r.cleanIndex, done₂, todo₂, ?_, ?_, hlinked₂, hmoved.frames, hmoved.completed, ?_, hmoved.len,
      hmoved.reclaimCallback, hmoved.accepted, hmoved.reports⟩
    · rw [reclaimLoop, if_neg hzero]
      simp only [if_true, hinfo, Option.isSome_none, Bool.false_eq_true, if_false]
      rw [← hnum', heq, hloop]
    · rw [hmoved.dirtyBase, ← hinfoContext]
      simp [TxRing.clean, setInfo]
    · have := hmoved.used_le
      omega

/-- The queue of a ring with the account of its frames: the reported ones, the consumed and the others, in the order in
which they were accepted. -/
structure Accounted (r : TxRing) (done todo : List Nat) : Prop where
  linked : Linked r [] done todo
  reclaimCallback : r.reclaimCallback = true
  accepted : r.accepted = r.reports.map TxFrameInfo.context ++ (done ++ todo)
  completed : r.completed = r.reports.length + done.length

lemma Accounted.moved {r' : TxRing} {done todo done' todo' : List Nat} (h : Accounted r done todo)
    (hlinked : Linked r' [] done' todo') (hmoved : Moved r r' done todo done' todo') : Accounted r' done' todo' := by
  have hcompleted := hmoved.completed
  have hcount := h.completed
  constructor
  · exact hlinked
  · rw [hmoved.reclaimCallback, h.reclaimCallback]
  · rw [hmoved.accepted, hmoved.reports, hmoved.frames, h.accepted]
  · rw [hmoved.reports]
    omega

/-- The loop over the frames ends when no consumed frame is left. -/
theorem reclaimFrames_accounted (fuel : Nat) {done todo : List Nat} (h : Accounted r done todo) (hfuel : r.used < fuel)
    (reads : List (List (Option TxBd))) :
    ∃ r' todo', reclaimFrames fuel r reads = some r' ∧ Accounted r' [] todo' := by
  induction fuel generalizing r done todo reads with
  | zero => omega
  | succ fuel ih =>
    obtain ⟨done₁, todo₁, hlinked₁, hmoved₁⟩ := getTxConsumer_linked h.linked reads
    have h₁ := h.moved hlinked₁ hmoved₁
    rw [reclaimFrames, h.reclaimCallback, reclaimTxDescCommon]
    dsimp only
    generalize (r.getTxConsumer reads).1 = r₁ at *
    have hlen : r₁.used < r₁.len := hlinked₁.indexed.used_lt
    cases done₁ with
    | nil =>
      obtain ⟨a, b, -, hdone, -, hnum, -⟩ := hlinked₁.dirtyNum
      cases hdone
      obtain ⟨n, hn⟩ : ∃ n, r₁.len = n + 1 := Nat.exists_eq_succ_of_ne_zero (by omega)
      have hzero : r₁.dirtyNum = 0 := hnum
      rw [hn, reclaimLoop, if_pos hzero]
      exact ⟨r₁, todo₁, rfl, h₁⟩
    | cons context done₁ =>
      obtain ⟨r₂, reads₂, i, done₂, todo₂, hloop, hcontext, hlinked₂, hframes, hcompleted, hused, -, hcallback,
        haccepted, hreports⟩ := reclaimLoop_frame r₁.len hlinked₁ hlen (r.getTxConsumer reads).2
      rw [hloop]
      have hcount := h₁.completed
      have h₂ : Accounted { r₂ with reports := r₂.reports ++ [r₂.dirtyBase i] } done₂ todo₂ := by
        constructor
        · exact ⟨⟨hlinked₂.indexed.len_le, hlinked₂.indexed.producer_lt, hlinked₂.indexed.clean_lt⟩, hlinked₂.plain,
            hlinked₂.tbpir_eq, hlinked₂.split⟩
        · exact hcallback.trans h₁.reclaimCallback
        · change r₂.accepted = (r₂.reports ++ [r₂.dirtyBase i]).map TxFrameInfo.context ++ (done₂ ++ todo₂)
          rw [haccepted, hreports, hframes, h₁.accepted, List.map_append, List.map_singleton, hcontext]
          simp
        · change r₂.completed = (r₂.reports ++ [r₂.dirtyBase i]).length + done₂.length
          rw [hreports, List.length_append, List.length_singleton]
          rw [List.length_cons] at hcount
          omega
      have hfuel₂ : ({ r₂ with reports := r₂.reports ++ [r₂.dirtyBase i] } : TxRing).used < fuel := by
        have hle := hmoved₁.used_le
        change r₂.used < fuel
        omega
      exact ih h₂ hfuel₂ reads₂

end Reclaim

section Run

/-- A call of `EP_SendFrame` that gets past the length and the room check has no NULL buffer behind a valid one, and no
first buffer that is too short. -/
def SendSound (r : TxRing) : TxEvent → Prop
  | .send frame _ opt =>
    Fits r frame (txDesc0 opt).isExtended → frame.first.buffer = 0 ∨
      (16 ≤ frame.first.length.toNat ∧ ∀ b ∈ frame.buffArray, b.buffer ≠ 0)
  | _ => True

lemma txDesc1_plain (opt : Option TxOpt) : (txDesc1 opt).opens = false ∧ (txDesc1 opt).isFinal = false := by
  cases opt with
  | none => exact ⟨rfl, rfl⟩
  | some opt =>
    simp only [txDesc1, clearTxDescriptor, TxBd.opens, TxBd.written, TxBd.isFinal, BitVec.getLsbD_append]
    simp

lemma frameLen_ne_zero {frame : Frame} (hmin : 16 ≤ frame.first.length.toNat) (hmax : frame.frameLen ≤ 9600) :
    BitVec.ofNat 16 frame.frameLen ≠ 0 := by
  have hle : frame.first.length.toNat ≤ frame.frameLen := by
    rw [Frame.frameLen, Frame.buffArray, List.map_cons, List.sum_cons]
    omega
  intro hzero
  have hnat := congrArg BitVec.toNat hzero
  rw [BitVec.toNat_ofNat, Nat.mod_eq_of_lt (by omega)] at hnat
  change frame.frameLen = 0 at hnat
  omega

variable {done todo : List Nat} {frame : Frame} {context : Nat} {opt : Option TxOpt}

/-- A frame that the driver takes is queued behind the others. -/
lemma Accounted.submitted {r' : TxRing} {chain : List Slot} (h : Accounted r done todo) (hsubmit : Submitted r r' chain)
    (hchain : Queued [context] chain) :
    Accounted { r' with accepted := r'.accepted ++ [context] } done (todo ++ [context]) := by
  obtain ⟨a, b, hcontents, hdone, htodo, htbcir⟩ := h.linked.split
  constructor
  · constructor
    · exact ⟨hsubmit.indexed.len_le, hsubmit.indexed.producer_lt, hsubmit.indexed.clean_lt⟩
    · exact h.linked.plain
    · exact congrArg TxRing.tbpir hsubmit.same
    · refine ⟨a, b ++ chain, ?_, hdone, htodo.concat hchain, ?_⟩
      · rw [← List.append_assoc, ← hcontents, ← hsubmit.contents]
        rfl
      · change r'.tbcir = (r'.cleanIndex + _) % r'.len
        rw [hsubmit.same]
        exact htbcir
  · change r'.reclaimCallback = true
    rw [hsubmit.same]
    exact h.reclaimCallback
  · change r'.accepted ++ [context] = r'.reports.map _ ++ _
    rw [hsubmit.same]
    change r.accepted ++ _ = _
    rw [h.accepted]
    simp
  · change r'.completed = r'.reports.length + _
    rw [hsubmit.same]
    exact h.completed

lemma sendFrame_accounted (h : Accounted r done todo) (hsound : SendSound r (.send frame context opt)) :
    ∃ todo', Accounted (r.sendFrame frame context opt).1 done todo' := by
  have hindexed := h.linked.indexed
  unfold sendFrame
  dsimp only
  by_cases hfits : Fits r frame (txDesc0 opt).isExtended
  · rcases hsound hfits with hnull | ⟨hmin, hnonnull⟩
    · have hpos : 0 < frame.totBdNum (txDesc0 opt).isExtended := by
        unfold Frame.totBdNum Frame.buffArray
        split <;> simp
      rw [sendFrameCommon_fits hfits, fill_null frame hnull hpos]
      exact ⟨todo, h⟩
    · obtain ⟨r', init, last, head, tail, hsend, hsubmit, hchain, hinit⟩ :=
        sendFrameCommon_submits context hindexed (txDesc1_plain opt) hfits hnonnull
      have hlong : ¬ frame.first.length.toNat < 16 := by omega
      rw [if_neg hlong] at hsend
      rw [hsend, if_pos rfl]
      exact ⟨_, h.submitted hsubmit (hchain.queued (frameLen_ne_zero hmin hfits.1) hinit)⟩
  · obtain ⟨status, hsend, hstatus⟩ := sendFrameCommon_rejected context (txDesc1 opt) hfits
    rw [hsend, if_neg hstatus]
    exact ⟨todo, h⟩

/-- Whatever a call of `EP_SendFrame` is given, it leaves the slots of the queue alone. -/
lemma sendFrame_contents (h : Indexed r) (frame : Frame) (context : Nat) (opt : Option TxOpt) :
    ∃ added, (r.sendFrame frame context opt).1.contents = r.contents ++ added ∧
      (r.sendFrame frame context opt).1.cleanIndex = r.cleanIndex ∧ (r.sendFrame frame context opt).1.len = r.len := by
  have hcommon : ∃ added, (r.sendFrameCommon frame context (txDesc0 opt) (txDesc1 opt)).1.contents = r.contents ++ added ∧
      (r.sendFrameCommon frame context (txDesc0 opt) (txDesc1 opt)).1.cleanIndex = r.cleanIndex ∧
      (r.sendFrameCommon frame context (txDesc0 opt) (txDesc1 opt)).1.len = r.len := by
    by_cases hfits : Fits r frame (txDesc0 opt).isExtended
    · by_cases hnull : ∃ b ∈ frame.buffArray, b.buffer = 0
      · obtain ⟨r', added, hsend, hfill⟩ :=
          sendFrameCommon_null context h (txDesc1_plain opt) hfits hnull
        rw [hsend]
        refine ⟨added, hfill.contents, ?_, hfill.len⟩
        change r'.cleanIndex = _
        rw [hfill.same]
      · push Not at hnull
        obtain ⟨r', init, last, head, tail, hsend, hsubmit, -⟩ :=
          sendFrameCommon_submits context h (txDesc1_plain opt) hfits hnull
        rw [hsend]
        refine ⟨_, hsubmit.contents, ?_, ?_⟩
        · change r'.cleanIndex = _
          rw [hsubmit.same]
        · change r'.len = _
          rw [hsubmit.same]
    · obtain ⟨status, hsend, -⟩ := sendFrameCommon_rejected context (txDesc1 opt) hfits
      rw [hsend]
      exact ⟨[], (List.append_nil _).symm, rfl, rfl⟩
  unfold sendFrame
  dsimp only
  split_ifs
  · exact hcommon
  · exact hcommon

lemma sendFrame_slot (h : Indexed r) (frame : Frame) (context : Nat) (opt : Option TxOpt) {k : Nat} (hk : k < r.used) :
    (r.sendFrame frame context opt).1.slot ((r.cleanIndex + k) % r.len) = r.slot ((r.cleanIndex + k) % r.len) := by
  obtain ⟨added, hcontents, hclean, hlen⟩ := sendFrame_contents h frame context opt
  have hk' : k < (r.sendFrame frame context opt).1.used := by
    rw [← length_contents, hcontents, List.length_append, length_contents]
    omega
  have hold : r.contents[k]? = _ := ringContents_getElem? hk r.slot
  have hnew : (r.sendFrame frame context opt).1.contents[k]? = _ := ringContents_getElem? hk' _
  rw [hcontents, List.getElem?_append_left (by rwa [length_contents]), hold, hclean, hlen] at hnew
  exact (Option.some.inj hnew).symm

/-- The reports are the contexts of the first accepted frames, in their order. A send leaves the queue alone, and a
reclaim returns, has then reported each consumed frame, and leaves an empty queue, with every accepted frame reported, if the
hardware has consumed everything up to the producer register. -/
structure Faithful (r : TxRing) : Prop where
  reports : r.reports.map TxFrameInfo.context = r.accepted.take r.reports.length
  reports_le : r.reports.length ≤ r.completed
  completed_le : r.completed ≤ r.accepted.length
  untouched : ∀ frame context opt k, k < r.used →
    (r.sendFrame frame context opt).1.slot ((r.cleanIndex + k) % r.len) = r.slot ((r.cleanIndex + k) % r.len)
  reclaimed : ∀ reads, ∃ r', r.reclaimTxDescriptor reads = some r' ∧ r'.reports.length = r'.completed ∧
    (r'.tbcir = r'.tbpir →
      r'.cleanIndex = r'.producerIndex ∧ r'.reports.map TxFrameInfo.context = r'.accepted)

lemma reclaimTxDescriptor_accounted (h : Accounted r done todo) (reads : List (List (Option TxBd))) :
    ∃ r' todo', r.reclaimTxDescriptor reads = some r' ∧ Accounted r' [] todo' :=
  reclaimFrames_accounted r.len h h.linked.indexed.used_lt reads

/-- With no consumed frame left, the queue begins at the consumer index. -/
lemma Accounted.drained (h : Accounted r [] todo) (hconsumed : r.tbcir = r.tbpir) :
    r.cleanIndex = r.producerIndex ∧ r.reports.map TxFrameInfo.context = r.accepted := by
  obtain ⟨a, b, hcontents, hdone, htodo, htbcir⟩ := h.linked.split
  have hindexed := h.linked.indexed
  cases hdone
  rw [List.append_nil, List.length_nil, Nat.add_zero, Nat.mod_eq_of_lt hindexed.clean_lt] at htbcir
  have hclean : r.cleanIndex = r.producerIndex := by rw [← htbcir, hconsumed, h.linked.tbpir_eq]
  have hused : r.used = 0 := by simp [used, ringLength, hclean]
  rw [← length_contents, hcontents] at hused
  refine ⟨hclean, ?_⟩
  cases htodo with
  | nil => rw [h.accepted, List.nil_append, List.append_nil]
  | cons _ hchain => simp [hchain] at hused

theorem Accounted.faithful (h : Accounted r done todo) : Faithful r := by
  have hcompleted := h.completed
  constructor
  · rw [h.accepted, List.take_left' (by rw [List.length_map])]
  · omega
  · rw [h.accepted, List.length_append, List.length_append, List.length_map]
    omega
  · intro frame context opt k hk
    exact sendFrame_slot h.linked.indexed frame context opt hk
  · intro reads
    obtain ⟨r', todo', hreclaim, h'⟩ := reclaimTxDescriptor_accounted h reads
    exact ⟨r', hreclaim, h'.completed.symm, h'.drained⟩

/-- Each event of a run is sound in the ring that it finds. -/
def StepSound (r : Option TxRing) (e : TxEvent) : Prop :=
  ∀ r' ∈ r, SendSound r' e

/-- There is a ring, and the account of its frames is right. -/
def Sound (r : Option TxRing) : Prop :=
  ∃ r' done todo, r = some r' ∧ Accounted r' done todo

lemma step_sound (r : Option TxRing) (e : TxEvent) (h : Sound r) (hsound : StepSound r e) : Sound (TxRing.step r e) := by
  obtain ⟨r, done, todo, rfl, h⟩ := h
  cases e with
  | send frame context opt =>
    obtain ⟨todo', h'⟩ := sendFrame_accounted h (hsound r rfl)
    exact ⟨_, done, todo', rfl, h'⟩
  | consume writeback =>
    obtain ⟨done', todo', hlinked, hmoved⟩ := consume_linked h.linked writeback
    exact ⟨_, done', todo', rfl, h.moved hlinked hmoved⟩
  | reclaim reads =>
    obtain ⟨r', todo', hreclaim, h'⟩ := reclaimTxDescriptor_accounted h reads
    exact ⟨r', [], todo', hreclaim, h'⟩

lemma init_accounted {len : Nat} (hpos : 0 < len) (hlen : len ≤ 2 ^ 16) (bdBase : Nat → TxBd)
    (dirtyBase : Nat → TxFrameInfo) (txfie : Bool) : Accounted (init len bdBase dirtyBase txfie) [] [] := by
  constructor
  · constructor
    · exact ⟨hlen, hpos, hpos⟩
    · exact List.forall_mem_nil _
    · rfl
    · exact ⟨[], [], rfl, .nil, .nil, (Nat.zero_mod len).symm⟩
  all_goals rfl

end Run

end TxRing

/-- In every run from an empty ring whose calls of `EP_SendFrame` are sound, the ring is faithful. -/
theorem txRing_faithful {len : Nat} (hpos : 0 < len) (hlen : len ≤ 2 ^ 16) (bdBase : Nat → TxBd)
    (dirtyBase : Nat → TxFrameInfo) (txfie : Bool) (events : List TxEvent)
    (hrun : EachStep TxRing.step TxRing.StepSound (some (TxRing.init len bdBase dirtyBase txfie)) events) :
    ∃ r, events.foldl TxRing.step (some (TxRing.init len bdBase dirtyBase txfie)) = some r ∧ r.Faithful := by
  have hinit : TxRing.Sound (some (TxRing.init len bdBase dirtyBase txfie)) :=
    ⟨_, [], [], rfl, TxRing.init_accounted hpos hlen bdBase dirtyBase txfie⟩
  obtain ⟨r, done, todo, hr, h⟩ := EachStep.invariant TxRing.step_sound events hrun hinit
  exact ⟨r, hr, h.faithful⟩

/-- A ring of eight cleared descriptors. -/
def ringOfEight : TxRing :=
  TxRing.init 8 (fun _ => clearTxDescriptor)
    (fun _ => { isTsAvail := false, timestamp := 0, isTxTsIdAvail := false, txtsid := 0, context := 0, status := 0 }) true

/-- A frame of one buffer. -/
def oneBuffer (length : BitVec 16) : Frame :=
  { first := { buffer := 0x1000, length := length }, rest := [], length_lt := by decide }

/-- A frame with a NULL buffer behind its first one. -/
def nullBuffer : Frame :=
  { first := { buffer := 0x1000, length := 64 }, rest := [{ buffer := 0, length := 64 }], length_lt := by decide }

theorem txRing_faithful_eight :
    ∃ r, [TxEvent.send (oneBuffer 64) 7 none, .consume none, .reclaim []].foldl TxRing.step (some ringOfEight) = some r ∧
      r.Faithful := by
  apply txRing_faithful (by decide) (by decide)
  refine ⟨?_, ?_, ?_, trivial⟩
  · intro r _ _
    exact .inr ⟨by decide, by decide⟩
  · exact fun _ _ => trivial
  · exact fun _ _ => trivial

/-- A frame whose first buffer is too short is refused, and reported all the same. A NULL buffer leaves a descriptor
between the clean and the producer index that no reclaim gets to. -/
theorem txRing_not_faithful :
    (∃ r, [TxEvent.send (oneBuffer 15) 7 none, .consume none, .reclaim []].foldl TxRing.step (some ringOfEight) = some r ∧
      r.accepted = [] ∧ r.reports.map TxFrameInfo.context = [7]) ∧
    ∃ r, [TxEvent.send nullBuffer 7 none, .reclaim []].foldl TxRing.step (some ringOfEight) = some r ∧
      r.accepted = [] ∧ r.tbcir = r.tbpir ∧ r.cleanIndex ≠ r.producerIndex := by
  constructor
  · exact ⟨_, rfl, rfl, by decide⟩
  · exact ⟨_, rfl, rfl, by decide, by decide⟩

end McuxDrivers.Netc
