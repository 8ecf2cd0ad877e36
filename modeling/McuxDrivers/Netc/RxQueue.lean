import Mathlib.Algebra.Order.BigOperators.Group.List
import McuxDrivers.Netc.RxCopies

/-!
# The NETC receive ring as a queue of frames

The frames that the application takes with `EP_ReceiveFrameCopy` are those that the hardware has delivered, in this order
and with their own bytes, while the hardware goes on to fill the other descriptors.
-/

namespace McuxDrivers.Netc
open McuxDrivers.Lib

namespace RxSlot

def len (s : RxSlot) : Nat :=
  s.1.bufLen.toNat

/-- The bytes of the slot's part of a frame. -/
def content (memory : Nat → List UInt8) (s : RxSlot) : List UInt8 :=
  (memory s.2).take s.len

lemma len_lt (s : RxSlot) : s.len < 2 ^ 16 :=
  s.1.bufLen.isLt

lemma bufLen_eq_zero_iff (s : RxSlot) : s.1.bufLen = 0 ↔ s.len = 0 :=
  BitVec.toNat_eq.trans Iff.rfl

end RxSlot

section Dma

variable {buffers : List Nat} {parts : List (List UInt8)} {memory : Nat → List UInt8} {b : Nat}

lemma dma_other (h : b ∉ buffers) : dma buffers parts memory b = memory b := by
  induction buffers generalizing parts memory with
  | nil => rfl
  | cons buffer buffers ih =>
    obtain ⟨hne, hmem⟩ := List.ne_and_not_mem_of_not_mem_cons h
    cases parts with
    | nil => rfl
    | cons data parts =>
      rw [dma, ih hmem]
      exact Function.update_of_ne hne _ _

/-- Each buffer begins with its data. -/
lemma dma_take (hnodup : buffers.Nodup) :
    ∀ p ∈ buffers.zip parts, (dma buffers parts memory p.1).take p.2.length = p.2 := by
  induction buffers generalizing parts memory with
  | nil => simp
  | cons buffer buffers ih =>
    rw [List.nodup_cons] at hnodup
    cases parts with
    | nil => simp
    | cons data parts =>
      intro p hp
      rw [List.zip_cons_cons] at hp
      rw [dma]
      rcases List.mem_cons.mp hp with rfl | hp
      · rw [dma_other hnodup.1, Function.update_self]
        exact List.take_left
      · exact ih hnodup.2 p hp

end Dma

namespace RxRing

variable {c : RxConfig} {r : RxRing}

section Loops

lemma bdBase_within {before rest : List RxSlot} {s : RxSlot} {index : Nat} (hview : r.view c = before ++ s :: rest)
    (hindex : index = c.bdIndex ((r.buffIdx c + before.length) % c.count)) : r.bdBase index = s.1 := by
  rw [hindex, ← slot_of_view hview, slot]

/-- The place of a slot that lies `before` the others, and of the one behind it. -/
lemma nextIndex_within (h : Indexed c r) {before rest : List RxSlot} {s : RxSlot} {index : Nat}
    (hview : r.view c = before ++ s :: rest) (hrest : rest ≠ [])
    (hindex : index = c.bdIndex ((r.buffIdx c + before.length) % c.count)) :
    nextIndex c index = c.bdIndex ((r.buffIdx c + (before ++ [s]).length) % c.count) ∧ nextIndex c index ≠ r.index := by
  have hlt : before.length + 1 < c.count := by
    have hpos := List.length_pos_iff.mpr hrest
    rw [← length_view (r := r), hview, List.length_append, List.length_cons]
    omega
  have hslot : (r.buffIdx c + before.length) % c.count < c.count := Nat.mod_lt _ (by omega)
  have hnext : nextIndex c index = c.bdIndex ((r.buffIdx c + (before.length + 1)) % c.count) := by
    rw [hindex, nextIndex_eq hslot, ringNext_eq_mod hslot, Nat.mod_add_mod, Nat.add_assoc]
  constructor
  · rw [hnext, List.length_append, List.length_singleton]
  · rw [hnext, h.index_eq]
    intro heq
    have hsame : (r.buffIdx c + (before.length + 1)) % c.count = (r.buffIdx c + 0) % c.count := by
      rw [Nat.add_zero (r.buffIdx c), Nat.mod_eq_of_lt h.buffIdx_lt]
      exact c.bdIndex_inj heq
    have hoffset := ring_offset_inj hlt (by omega) hsame
    omega

/-- The size of a frame is the sum of its parts, unless one of them is empty. -/
lemma sizeLoop_chain {chain : List RxSlot} (hchain : Chain chain) {before rest : List RxSlot} {fuel index totlen : Nat}
    (result : RxSizeStatus) (h : Indexed c r) (hview : r.view c = before ++ chain ++ rest)
    (hindex : index = c.bdIndex ((r.buffIdx c + before.length) % c.count)) (hfuel : chain.length ≤ fuel)
    (htotal : totlen + (chain.map RxSlot.len).sum < 2 ^ 32) :
    sizeLoop c r result fuel index totlen =
      some (if 0 ∈ chain.map RxSlot.len then (.rxFrameError, 0)
        else (result, totlen + (chain.map RxSlot.len).sum)) := by
  induction hchain generalizing before fuel index totlen with
  | @last s hfinal =>
    obtain ⟨fuel, rfl⟩ : ∃ m, fuel = m + 1 := Nat.exists_eq_succ_of_ne_zero (by simp at hfuel; omega)
    rw [List.append_assoc] at hview
    rw [List.map_singleton, List.sum_singleton] at htotal ⊢
    rw [sizeLoop, bdBase_within hview hindex]
    dsimp only
    by_cases hzero : s.len = 0
    · rw [if_pos (s.bufLen_eq_zero_iff.mpr hzero), if_pos (by simp [hzero])]
    · have hlen : (totlen + s.1.bufLen.toNat) % 2 ^ 32 = totlen + s.len := Nat.mod_eq_of_lt htotal
      have hnotMem : 0 ∉ [s.len] := fun hmem => hzero (List.mem_singleton.mp hmem).symm
      rw [if_neg (mt s.bufLen_eq_zero_iff.mp hzero), hfinal, if_pos rfl, hlen, if_neg hnotMem]
  | @cons s chain hfinal hchain ih =>
    obtain ⟨fuel, rfl⟩ : ∃ m, fuel = m + 1 := Nat.exists_eq_succ_of_ne_zero (by simp at hfuel; omega)
    have hview' : r.view c = before ++ s :: (chain ++ rest) := by
      rw [hview, List.append_assoc]
      rfl
    rw [List.map_cons, List.sum_cons] at htotal ⊢
    rw [sizeLoop, bdBase_within hview' hindex]
    dsimp only
    by_cases hzero : s.len = 0
    · rw [if_pos (s.bufLen_eq_zero_iff.mpr hzero), if_pos (by simp [hzero])]
    · have hlen : (totlen + s.1.bufLen.toNat) % 2 ^ 32 = totlen + s.len := by
        apply Nat.mod_eq_of_lt
        exact lt_of_le_of_lt (Nat.add_le_add_left (Nat.le_add_right _ _) _) htotal
      have hne : chain ++ rest ≠ [] := List.append_ne_nil_of_left_ne_nil (List.length_pos_iff.mp hchain.length_pos) _
      obtain ⟨hnext, hround⟩ := nextIndex_within h hview' hne hindex
      have hview'' : r.view c = before ++ [s] ++ chain ++ rest := by
        rw [hview]
        simp
      have hmem : 0 ∈ s.len :: chain.map RxSlot.len ↔ 0 ∈ chain.map RxSlot.len := by
        rw [List.mem_cons, or_iff_right (Ne.symm hzero)]
      rw [if_neg (mt s.bufLen_eq_zero_iff.mp hzero), hfinal, if_neg Bool.false_ne_true, if_neg hround, hlen,
        ih hview'' hnext (by simpa using hfuel) (by omega), Nat.add_assoc, if_congr hmem rfl rfl]

/-- The loop that copies leaves the ring that the loop that drops leaves. -/
lemma copyLoop_chain {chain : List RxSlot} (hchain : Chain chain) (memory : Nat → List UInt8) {fuel leftLen : Nat}
    {buffer : List UInt8} {rest : List RxSlot} (h : Indexed c r) (hview : r.view c = chain ++ rest)
    (hcontent : ∀ s ∈ chain, (s.content memory).length = s.len) (hfuel : chain.length ≤ fuel) :
    copyLoop c memory fuel r leftLen buffer = (dropLoop c fuel r).map fun r' =>
      (r', buffer ++ (chain.map (RxSlot.content memory)).flatten.take leftLen) := by
  -- what one round copies is what the buffer has room for of the slot's bytes
  have hround (s : RxSlot) (leftLen : Nat) :
      let copyLen := if leftLen ≠ 0 then (if leftLen > s.1.bufLen.toNat then s.1.bufLen.toNat else leftLen) else 0
      (memory s.2).take copyLen = (s.content memory).take leftLen ∧ leftLen - copyLen = leftLen - s.len := by
    intro copyLen
    have hmin : copyLen = min leftLen s.len := by
      change (if leftLen ≠ 0 then (if leftLen > s.len then s.len else leftLen) else 0) = _
      split_ifs <;> omega
    constructor
    · rw [hmin, RxSlot.content, List.take_take]
    · omega
  induction hchain generalizing r fuel leftLen buffer rest with
  | @last s hfinal =>
    obtain ⟨fuel, rfl⟩ : ∃ m, fuel = m + 1 := Nat.exists_eq_succ_of_ne_zero (by simp at hfuel; omega)
    rw [copyLoop, dropLoop, h.bdBase_head hview, hfinal, if_pos rfl, if_pos rfl, h.buffArray_head hview,
      (hround s leftLen).1]
    simp
  | @cons s chain hfinal _ ih =>
    obtain ⟨fuel, rfl⟩ : ∃ m, fuel = m + 1 := Nat.exists_eq_succ_of_ne_zero (by simp at hfuel; omega)
    rw [List.cons_append] at hview
    have hbuffer := h.buffArray_head hview
    have hturn := turned_turn h s.2
    have hnext := view_turn h hview s.2
    rw [List.append_assoc] at hnext
    have hlen : (s.content memory).length = s.len := hcontent s List.mem_cons_self
    rw [copyLoop, dropLoop, h.bdBase_head hview, hfinal, if_neg Bool.false_ne_true, if_neg Bool.false_ne_true,
      release_eq_turn, hbuffer, (hround s leftLen).1, (hround s leftLen).2,
      ih hturn.indexed hnext (fun t ht => hcontent t (List.mem_cons_of_mem s ht)) (by simpa using hfuel)]
    rw [List.map_cons, List.flatten_cons, List.take_append, hlen, List.append_assoc]

end Loops

end RxRing

lemma BusFrame.size_ne_empty (f : BusFrame) : f.size.1 ≠ .rxFrameEmpty := by
  unfold BusFrame.size
  split_ifs <;> simp

/-- A chain of slots holds a frame, with the bytes of its parts in their buffers. -/
structure Carries (memory : Nat → List UInt8) (frame : BusFrame) (chain : List RxSlot) : Prop where
  linked : Chain chain
  head : ∀ s ∈ chain.head?, s.1.isReady = true ∧ s.1.error = frame.error ∧ s.1.hr = frame.hr
  parts : chain.map (RxSlot.content memory) = frame.parts
  len : ∀ s ∈ chain, (s.content memory).length = s.len

section Carrying

variable {memory memory' : Nat → List UInt8} {frame : BusFrame} {chain : List RxSlot}

/-- What is written elsewhere leaves the frame. -/
lemma Carries.elsewhere (h : Carries memory frame chain) (hsame : ∀ s ∈ chain, memory' s.2 = memory s.2) :
    Carries memory' frame chain := by
  have hcontent : ∀ s ∈ chain, s.content memory' = s.content memory := by
    intro s hs
    rw [RxSlot.content, hsame s hs, RxSlot.content]
  constructor
  · exact h.linked
  · exact h.head
  · rw [← h.parts]
    exact List.map_congr_left hcontent
  · intro s hs
    rw [hcontent s hs]
    exact h.len s hs

lemma forall₂_elsewhere {pending : List BusFrame} {chains : List (List RxSlot)}
    (h : List.Forall₂ (Carries memory) pending chains) (hsame : ∀ s ∈ chains.flatten, memory' s.2 = memory s.2) :
    List.Forall₂ (Carries memory') pending chains := by
  induction h with
  | nil => exact .nil
  | cons hframe _ ih =>
    rw [List.flatten_cons] at hsame
    constructor
    · exact hframe.elsewhere fun s hs => hsame s (List.mem_append_left _ hs)
    · exact ih fun s hs => hsame s (List.mem_append_right _ hs)

lemma Carries.lens (h : Carries memory frame chain) : chain.map RxSlot.len = frame.parts.map List.length := by
  rw [← h.parts, List.map_map]
  exact List.map_congr_left fun s hs => (h.len s hs).symm

lemma Carries.sum (h : Carries memory frame chain) : (chain.map RxSlot.len).sum = frame.bytes.length := by
  rw [h.lens, BusFrame.bytes, List.length_flatten]

lemma Carries.zero_mem (h : Carries memory frame chain) : 0 ∈ chain.map RxSlot.len ↔ [] ∈ frame.parts := by
  rw [h.lens, List.mem_map]
  constructor
  · rintro ⟨part, hpart, hlen⟩
    rwa [List.length_eq_zero_iff.mp hlen] at hpart
  · exact fun hmem => ⟨[], hmem, rfl⟩

namespace RxRing

variable {c : RxConfig} {r : RxRing}

lemma chain_length_le {rest : List RxSlot} (hview : r.view c = chain ++ rest) : chain.length ≤ c.len := by
  have hlength := length_view (c := c) (r := r)
  rw [hview, List.length_append] at hlength
  have := c.count_le
  omega

lemma sum_len_lt {rest : List RxSlot} (hview : r.view c = chain ++ rest) : (chain.map RxSlot.len).sum < 2 ^ 32 := by
  have hlength := chain_length_le hview
  have hsum : (chain.map RxSlot.len).sum ≤ chain.length * (2 ^ 16 - 1) := by
    have hcard := List.sum_le_card_nsmul (chain.map RxSlot.len) (2 ^ 16 - 1) (by
      intro n hn
      obtain ⟨s, -, rfl⟩ := List.mem_map.mp hn
      exact Nat.le_sub_one_of_lt s.len_lt)
    rwa [List.length_map, Nat.nsmul_eq_mul] at hcard
  have hlen := c.len_le
  calc (chain.map RxSlot.len).sum ≤ chain.length * (2 ^ 16 - 1) := hsum
    _ ≤ 2 ^ 16 * (2 ^ 16 - 1) := Nat.mul_le_mul_right _ (hlength.trans hlen)
    _ < 2 ^ 32 := by decide

/-- The size of the first frame in the ring. -/
lemma getRxFrameSize_eq (h : Indexed c r) {rest : List RxSlot} (hcarries : Carries memory frame chain)
    (hview : r.view c = chain ++ rest) : r.getRxFrameSize c = some frame.size := by
  obtain ⟨s, chain', hcons⟩ := List.exists_cons_of_length_pos hcarries.linked.length_pos
  have hbd : r.bdBase r.index = s.1 := by
    rw [hcons] at hview
    exact h.bdBase_head hview
  obtain ⟨hready, herror, hhr⟩ := hcarries.head s (by rw [hcons]; rfl)
  have hindex : r.index = c.bdIndex ((r.buffIdx c + ([] : List RxSlot).length) % c.count) := by
    rw [List.length_nil, Nat.add_zero, Nat.mod_eq_of_lt h.buffIdx_lt]
    exact h.index_eq
  have htotal : 0 + (chain.map RxSlot.len).sum < 2 ^ 32 := by
    rw [Nat.zero_add]
    exact sum_len_lt hview
  have hview' : r.view c = [] ++ chain ++ rest := hview
  have hloop (result : RxSizeStatus) :=
    sizeLoop_chain hcarries.linked result h hview' hindex (chain_length_le hview) htotal
  have hhead : s.len = (frame.parts.headD []).length := by
    rw [← hcarries.parts, hcons, List.map_cons, List.headD_cons]
    exact (hcarries.len s (by rw [hcons]; exact List.mem_cons_self)).symm
  rw [getRxFrameSize, getRxFrameSizeCommon, hbd, hready, herror, hhr, if_neg Bool.true_eq_false_eq_False]
  dsimp only
  rw [BusFrame.size]
  by_cases hbad : frame.error = 0
  · rw [if_neg (not_not_intro hbad), if_neg (not_not_intro hbad)]
    by_cases htsr : frame.hr = 3
    · rw [if_neg (not_not_intro htsr), if_pos htsr, ← hhead]
      rfl
    · rw [if_pos htsr, if_neg htsr, hloop, Nat.zero_add, hcarries.sum, if_congr hcarries.zero_mem rfl rfl]
      split_ifs <;> rfl
  · rw [if_pos hbad, if_pos hbad]
    rfl

end RxRing

end Carrying

/-- The application has got the frame: the driver said its size, and the buffer holds as much of it as it has room for. -/
structure Reads (t : Taken) (frame : BusFrame) : Prop where
  size : (t.status, t.length) = frame.size
  bytes : t.bytes = (t.buffer.map frame.bytes.take).getD []

namespace CopyRing

open RxRing

variable {c : RxConfig} {s : CopyRing} {taken pending : List BusFrame} {chains : List (List RxSlot)} {free : List RxSlot}

/-- The frames that have arrived are taken or lie in the ring, in front of the slots that the hardware may fill. -/
structure Holds (c : RxConfig) (s : CopyRing) (taken pending : List BusFrame) (chains : List (List RxSlot))
    (free : List RxSlot) : Prop where
  indexed : Indexed c s.ring
  rbcir : s.ring.rbcir = s.ring.buffIdx c
  rbpir : s.ring.rbpir = (s.ring.buffIdx c + chains.flatten.length) % c.count
  view : s.ring.view c = chains.flatten ++ free
  carried : List.Forall₂ (Carries s.memory) pending chains
  free_ne : free ≠ []
  idle : ∀ t ∈ free, t.Idle
  distinct : ((s.ring.view c).map Prod.snd).Nodup
  arrived : s.arrived = taken ++ pending
  taken_reads : List.Forall₂ Reads s.taken taken

lemma map_len_fillSlots {segments : List Segment} {free : List RxSlot} (h : segments.length ≤ free.length) :
    (fillSlots (segments.map Segment.writeBack) free).map RxSlot.len =
      (segments.map Segment.data).map List.length := by
  induction segments generalizing free with
  | nil => rfl
  | cons segment segments ih =>
    cases free with
    | nil => cases h
    | cons t free =>
      have hlen : (t.filled segment.writeBack (segments.map Segment.writeBack).isEmpty).len = segment.data.length := by
        change segment.data.length % 2 ^ 16 = _
        exact Nat.mod_eq_of_lt segment.data_lt
      rw [List.map_cons, fillSlots, List.map_cons, hlen, ih (Nat.le_of_succ_le_succ h)]
      rfl

/-- Slots whose buffers begin with the parts of a frame hold these parts. -/
lemma content_of_zip {memory : Nat → List UInt8} {slots : List RxSlot} {parts : List (List UInt8)}
    (hlen : slots.map RxSlot.len = parts.map List.length)
    (hzip : ∀ p ∈ (slots.map Prod.snd).zip parts, (memory p.1).take p.2.length = p.2) :
    slots.map (RxSlot.content memory) = parts ∧ ∀ t ∈ slots, (t.content memory).length = t.len := by
  induction slots generalizing parts with
  | nil =>
    cases parts with
    | nil => exact ⟨rfl, by simp⟩
    | cons part parts => cases hlen
  | cons t slots ih =>
    cases parts with
    | nil => cases hlen
    | cons part parts =>
      obtain ⟨hhead, htail⟩ := List.cons.inj hlen
      rw [List.map_cons, List.zip_cons_cons] at hzip
      have hcontent : t.content memory = part := by
        rw [RxSlot.content, hhead]
        exact hzip _ List.mem_cons_self
      obtain ⟨hmap, hall⟩ := ih htail (fun p hp => hzip p (List.mem_cons_of_mem _ hp))
      constructor
      · rw [List.map_cons, hcontent, hmap]
      · intro u hu
        rcases List.mem_cons.mp hu with rfl | hu
        · rw [hcontent, hhead]
        · exact hall u hu

/-- The slots that the hardware has filled hold the data that it has written to their buffers. -/
lemma carries_fillSlots (memory : Nat → List UInt8) (first : Segment) {rest : List Segment} {free : List RxSlot}
    (hlen : rest.length < free.length) (hdistinct : (free.map Prod.snd).Nodup) :
    let slots := fillSlots (first.writeBack :: rest.map Segment.writeBack) free
    let parts := first.data :: rest.map Segment.data
    Carries (dma (slots.map Prod.snd) parts memory) { error := first.error, hr := first.hr, parts := parts } slots := by
  intro slots parts
  have hlens : slots.map RxSlot.len = parts.map List.length := @map_len_fillSlots (first :: rest) free hlen
  have hroom : (first.writeBack :: rest.map Segment.writeBack).length ≤ free.length := by
    rw [List.length_cons, List.length_map]
    exact hlen
  have hsnd : slots.map Prod.snd ++ _ = free.map Prod.snd := map_snd_fillSlots hroom
  have hnodup : (slots.map Prod.snd).Nodup := by
    rw [← hsnd] at hdistinct
    exact (List.nodup_append.mp hdistinct).1
  have hzip : ∀ p ∈ (slots.map Prod.snd).zip parts,
      (dma (slots.map Prod.snd) parts memory p.1).take p.2.length = p.2 := dma_take hnodup
  obtain ⟨hparts, hall⟩ := content_of_zip hlens hzip
  refine ⟨chain_fillSlots first.writeBack (by simpa using hlen), ?_, hparts, hall⟩
  intro t ht
  obtain ⟨u, free', rfl⟩ := List.exists_cons_of_length_pos (Nat.lt_of_le_of_lt (Nat.zero_le _) hlen)
  obtain rfl : u.filled first.writeBack (rest.map Segment.writeBack).isEmpty = t := Option.some.inj ht
  exact ⟨rfl, rfl, rfl⟩

/-- The hardware puts a frame behind the ones in the ring, in buffers that no other frame lies in. -/
lemma Holds.deliver (h : Holds c s taken pending chains free) (first : Segment) (rest : List Segment) :
    ∃ pending' chains' free', Holds c (s.deliver c first rest) taken pending' chains' free' := by
  rw [CopyRing.deliver]
  split
  next hroom =>
    have hlength := length_view (c := c) (r := s.ring)
    rw [h.view, List.length_append] at hlength
    have hused : ringLength c.count s.ring.rbpir s.ring.rbcir = chains.flatten.length := by
      have hpos := List.length_pos_iff.mpr h.free_ne
      rw [h.rbcir, h.rbpir]
      exact ringLength_add_mod h.indexed.buffIdx_lt (by omega)
    have hfits : rest.length + 1 < free.length := by omega
    have hws : (first.writeBack :: rest.map Segment.writeBack).length = rest.length + 1 := by
      rw [List.length_cons, List.length_map]
    obtain ⟨hview, hparts, hreg, hsame⟩ :=
      writeFrame_view (first.writeBack :: rest.map Segment.writeBack) h.view h.rbpir (hws ▸ hfits.le) h.idle
    rcases hframe : writeFrame c (first.writeBack :: rest.map Segment.writeBack) s.ring with ⟨r', parts⟩
    rw [hframe] at hview hparts hreg hsame
    rw [hws] at hview hreg
    dsimp only at hview hparts hreg hsame ⊢
    have hroom : (first.writeBack :: rest.map Segment.writeBack).length ≤ free.length := hws ▸ hfits.le
    have hfill := map_snd_fillSlots hroom
    rw [hws] at hfill
    have hfst : parts.map Prod.fst =
        (fillSlots (first.writeBack :: rest.map Segment.writeBack) free).map Prod.snd := by
      rw [hparts, List.map_map]
      rfl
    have hdistinct := h.distinct
    rw [h.view, List.map_append] at hdistinct
    obtain ⟨-, hfree, hdisjoint⟩ := List.nodup_append.mp hdistinct
    have hindex : r'.buffIdx c = s.ring.buffIdx c := by
      rw [hsame]
      rfl
    refine ⟨pending ++ [{ error := first.error, hr := first.hr, parts := first.data :: rest.map Segment.data }],
      chains ++ [fillSlots (first.writeBack :: rest.map Segment.writeBack) free], free.drop (rest.length + 1), ?_⟩
    constructor
    · exact h.indexed.congr (by rw [hsame])
    · change r'.rbcir = r'.buffIdx c
      rw [hindex, hsame]
      exact h.rbcir
    · change r'.rbpir = (r'.buffIdx c + _) % c.count
      rw [hreg, hindex, List.flatten_append, List.length_append, List.flatten_singleton,
        length_fillSlots (hws ▸ hfits.le), hws]
    · change r'.view c = _
      rw [hview, List.flatten_append, List.flatten_singleton]
    · apply List.rel_append
      · -- the frames in the ring lie in other buffers
        apply forall₂_elsewhere h.carried
        intro t ht
        rw [hfst]
        apply dma_other
        intro hmem
        have hmem' : t.2 ∈ free.map Prod.snd := by
          rw [← hfill]
          exact List.mem_append_left _ hmem
        exact hdisjoint t.2 (List.mem_map_of_mem ht) t.2 hmem' rfl
      · rw [hfst]
        exact .cons (carries_fillSlots s.memory first (by omega) hfree) .nil
    · intro hnil
      have := List.drop_eq_nil_iff.mp hnil
      omega
    · intro t ht
      exact h.idle t (List.mem_of_mem_drop ht)
    · change ((r'.view c).map Prod.snd).Nodup
      rw [hview, List.append_assoc, List.map_append, List.map_append, hfill]
      exact hdistinct
    · change s.arrived ++ _ = _
      rw [h.arrived, List.append_assoc]
    · exact h.taken_reads
  next => exact ⟨pending, chains, free, h⟩

/-- A call that takes the first frame gives its descriptors back with the buffers that they have. -/
lemma Holds.take {frame : BusFrame} {chain : List RxSlot}
    (h : Holds c s taken (frame :: pending) (chain :: chains) free) (buffer : Option Nat) :
    ∃ r' bytes free', s.ring.receiveFrameCopy c s.memory buffer = some (r', bytes) ∧
      Holds c { s with ring := r', taken := s.taken ++ [⟨frame.size.1, frame.size.2, buffer, bytes⟩] }
        (taken ++ [frame]) pending chains free' := by
  obtain ⟨hcarries, hcarried⟩ := List.forall₂_cons.mp h.carried
  have hview := h.view
  rw [List.flatten_cons, List.append_assoc] at hview
  obtain ⟨r', hloop, hturned, hview'⟩ :=
    dropLoop_chain hcarries.linked h.indexed hview (chain_length_le hview)
  have hcall : s.ring.receiveFrameCopy c s.memory buffer =
      some (r'.setRxConsumer c, (buffer.map frame.bytes.take).getD []) := by
    cases buffer with
    | none =>
      rw [receiveFrameCopy, dropFrame, hloop]
      rfl
    | some length =>
      rw [receiveFrameCopy]
      dsimp only
      rw [copyLoop_chain hcarries.linked s.memory h.indexed hview hcarries.len (chain_length_le hview), hloop,
        hcarries.parts]
      rfl
  refine ⟨r'.setRxConsumer c, _, free ++ chain.map fun t => t.refill t.2, hcall, ?_⟩
  have hsame := hturned.same
  have hrefilled : ((r'.view c).map Prod.snd).Perm ((s.ring.view c).map Prod.snd) := by
    rw [hview', hview, List.map_append, map_snd_refill_self, ← List.map_append]
    exact List.perm_append_comm.map Prod.snd
  constructor
  · exact hturned.indexed.congr rfl
  · rfl
  · change r'.rbpir = (r'.buffIdx c + _) % c.count
    rw [hturned.buffIdx, Nat.mod_add_mod, hsame, h.rbpir, List.flatten_cons, List.length_append, Nat.add_assoc]
  · change r'.view c = _
    rw [hview', List.append_assoc]
  · exact hcarried
  · intro hnil
    exact h.free_ne (List.append_eq_nil_iff.mp hnil).1
  · intro t ht
    rcases List.mem_append.mp ht with ht | ht
    · exact h.idle t ht
    · obtain ⟨u, -, rfl⟩ := List.mem_map.mp ht
      exact u.idle_refill u.2
  · exact hrefilled.nodup_iff.mpr h.distinct
  · rw [h.arrived, List.append_assoc]
    rfl
  · exact List.rel_append h.taken_reads (.cons ⟨rfl, rfl⟩ .nil)

/-- The answer of `EP_GetRxFrameSize` is about the first frame of the queue. -/
lemma Holds.getRxFrameSize (h : Holds c s taken pending chains free) :
    s.ring.getRxFrameSize c = some ((pending.head?.map BusFrame.size).getD (.rxFrameEmpty, 0)) := by
  have hcarried := h.carried
  cases hcarried with
  | nil =>
    obtain ⟨t, free', rfl⟩ := List.exists_cons_of_ne_nil h.free_ne
    have hready : (s.ring.bdBase s.ring.index).isReady = false := by
      rw [h.indexed.bdBase_head h.view]
      exact (h.idle t List.mem_cons_self).isReady
    rw [RxRing.getRxFrameSize, getRxFrameSizeCommon, if_pos hready]
    rfl
  | @cons frame chain pending' chains' hframe _ =>
    have hview := h.view
    rw [List.flatten_cons, List.append_assoc] at hview
    exact getRxFrameSize_eq h.indexed hframe hview

/-- A poll finds the first frame of the queue, if there is one, and takes it or leaves it. -/
lemma Holds.poll (h : Holds c s taken pending chains free) (choice : RxStatus → Nat → Option (Option Nat)) :
    ∃ s' taken' pending' chains' free', s.poll c choice = some s' ∧ Holds c s' taken' pending' chains' free' := by
  rw [CopyRing.poll, h.getRxFrameSize, Option.bind_some]
  have hcarried := h.carried
  cases hcarried with
  | nil => exact ⟨s, taken, [], [], _, rfl, h⟩
  | @cons frame chain pending' chains' _ _ =>
    rw [List.head?_cons, Option.map_some, Option.getD_some]
    dsimp only
    rw [if_neg frame.size_ne_empty]
    cases choice frame.size.1 frame.size.2 with
    | none => exact ⟨s, _, _, _, _, rfl, h⟩
    | some buffer =>
      obtain ⟨r', bytes, free', hcall, hholds⟩ := h.take buffer
      dsimp only
      rw [hcall]
      exact ⟨_, _, _, _, _, rfl, hholds⟩

/-- A ring as `EP_RxBufferAllocAll` leaves it, and the memory of its buffers. -/
def start (c : RxConfig) (buffArray : Nat → Nat) (memory : Nat → List UInt8) : CopyRing where
  ring := RxRing.init c buffArray []
  memory := memory
  arrived := []
  taken := []

lemma holds_start (c : RxConfig) (buffArray : Nat → Nat) (memory : Nat → List UInt8)
    (hdistinct : ((RxRing.init c buffArray []).ringBuffers c).Nodup) :
    ∃ free, Holds c (start c buffArray memory) [] [] [] free := by
  obtain ⟨free, hinit⟩ := stands_init c buffArray []
  refine ⟨free, hinit.indexed, hinit.rbcir, hinit.rbpir, hinit.view, .nil, hinit.free_ne, hinit.idle, ?_, rfl, .nil⟩
  exact (ringBuffers_perm hinit.indexed).nodup_iff.mp hdistinct

lemma Holds.run (events : List CopyEvent) (h : Holds c s taken pending chains free) :
    ∃ s' taken' pending' chains' free', events.foldl (CopyRing.step c) (some s) = some s' ∧
      Holds c s' taken' pending' chains' free' := by
  induction events generalizing s taken pending chains free with
  | nil => exact ⟨_, _, _, _, _, rfl, h⟩
  | cons e events ih =>
    rw [List.foldl_cons]
    cases e with
    | deliver first rest =>
      obtain ⟨pending', chains', free', hholds⟩ := h.deliver first rest
      exact ih hholds
    | poll choice =>
      obtain ⟨s', taken', pending', chains', free', hpoll, hholds⟩ := h.poll choice
      rw [CopyRing.step, Option.bind_some, hpoll]
      exact ih hholds

/-- In every run of a ring with distinct buffers the calls return, the frames that the application takes are those that
have arrived, in this order and with their own sizes and bytes, and the next question is answered about the first frame
that is not taken. -/
theorem polled_frames (c : RxConfig) (buffArray : Nat → Nat) (memory : Nat → List UInt8)
    (hdistinct : ((RxRing.init c buffArray []).ringBuffers c).Nodup) (events : List CopyEvent) :
    ∃ s, events.foldl (CopyRing.step c) (some (start c buffArray memory)) = some s ∧
      ∃ taken pending, s.arrived = taken ++ pending ∧ List.Forall₂ Reads s.taken taken ∧
        s.ring.getRxFrameSize c = some ((pending.head?.map BusFrame.size).getD (.rxFrameEmpty, 0)) := by
  obtain ⟨free, hstart⟩ := holds_start c buffArray memory hdistinct
  obtain ⟨s, taken, pending, chains, free', hrun, hholds⟩ := hstart.run events
  exact ⟨s, hrun, taken, pending, hholds.arrived, hholds.taken_reads, hholds.getRxFrameSize⟩

/-- A part of a frame without errors. -/
def plainSegment (data : List UInt8) (data_lt : data.length < 2 ^ 16) : Segment :=
  ⟨0, 0, 0, ⟨0, 0, 0, 0, false, false⟩, data, data_lt⟩

theorem polled_frames_eight :
    let events := [.deliver (plainSegment [1, 2, 3] (by decide)) [plainSegment [4] (by decide)],
      .poll (fun _ length => some (some length))]
    ∃ s, events.foldl (CopyRing.step eightRx) (some (start eightRx id fun _ => [])) = some s ∧
      ∃ taken pending, s.arrived = taken ++ pending ∧ List.Forall₂ Reads s.taken taken :=
  have hdistinct : ((RxRing.init eightRx id []).ringBuffers eightRx).Nodup := by decide
  have ⟨s, hrun, taken, pending, harrived, hreads, _⟩ := polled_frames eightRx id (fun _ => []) hdistinct _
  ⟨s, hrun, taken, pending, harrived, hreads⟩

example : (([.deliver (plainSegment [1, 2, 3] (by decide)) [plainSegment [4] (by decide)],
    .poll (fun _ length => some (some length))] : List CopyEvent).foldl (CopyRing.step eightRx)
      (some (start eightRx id fun _ => []))).map CopyRing.taken = some [⟨.success, 4, some 4, [1, 2, 3, 4]⟩] := by
  decide

end CopyRing

end McuxDrivers.Netc
