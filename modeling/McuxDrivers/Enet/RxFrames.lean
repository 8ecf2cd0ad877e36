import McuxDrivers.Enet.RxRing
import McuxDrivers.Enet.TxReclaim

/-!
# The buffers of the ENET receive ring

Seen from `rxGenIdx`, the ring is the descriptors that the hardware has filled and then the empty ones. A frame, as
`ENET_GetRxFrame` reads them, goes up to a descriptor with LAST or to one without data.
-/

namespace McuxDrivers.Enet
open McuxDrivers.Lib

/-- The descriptor is the last one of a frame for the driver. -/
def RxBd.ends (bd : RxBd) : Bool :=
  bd.last || bd.length == 0

/-- The descriptor with a buffer, for the hardware to fill. -/
def RxBd.refill (bd : RxBd) (buffer : Nat) : RxBd :=
  { bd with buffer := buffer, empty := true, last := false, error := false }

/-- A frame of the descriptors `front` and `final`. -/
structure IsFrame (front : List RxBd) (final : RxBd) : Prop where
  front_ends : ∀ bd ∈ front, bd.ends = false
  final_ends : final.ends = true

/-- The sum of the lengths. -/
def lengths (bds : List RxBd) : Nat :=
  (bds.map RxBd.length).sum

/-- What the application gets of a frame. The last descriptor tells the length of all. -/
def frameParts (front : List RxBd) (final : RxBd) : List Part :=
  front.map (fun bd => (bd.buffer, bd.length)) ++ [(final.buffer, final.length - lengths front)]

lemma RxBd.last_of_ends {bd : RxBd} (h : bd.ends = false) : bd.last = false ∧ bd.length ≠ 0 := by
  simpa [RxBd.ends] using h

/-- A list of descriptors has a first frame, or nothing in it ends one. -/
lemma first_frame (bds : List RxBd) :
    (∃ front final rest, bds = front ++ final :: rest ∧ IsFrame front final) ∨ ∀ bd ∈ bds, bd.ends = false := by
  induction bds with
  | nil => exact .inr (by simp)
  | cons bd bds ih =>
    cases hends : bd.ends with
    | true => exact .inl ⟨[], bd, bds, rfl, by simp, hends⟩
    | false =>
      rcases ih with ⟨front, final, rest, rfl, hframe⟩ | hnone
      · refine .inl ⟨bd :: front, final, rest, rfl, ?_, hframe.final_ends⟩
        intro x hx
        rcases List.mem_cons.mp hx with rfl | hx
        · exact hends
        · exact hframe.front_ends x hx
      · refine .inr fun x hx => ?_
        rcases List.mem_cons.mp hx with rfl | hx
        · exact hends
        · exact hnone x hx

section Totals

/-- The length of the frame that is not yet at its end, after `t` bytes and the descriptors. -/
def trail : Nat → List RxBd → Nat
  | t, [] => t
  | t, bd :: bds => if bd.last then trail 0 bds else trail (t + bd.length) bds

/-- The last descriptors tell at least the lengths of the others. -/
def Totals : Nat → List RxBd → Prop
  | _, [] => True
  | t, bd :: bds => if bd.last then t ≤ bd.length ∧ Totals 0 bds else Totals (t + bd.length) bds

lemma totals_mono {t t' : Nat} {bds : List RxBd} (hle : t' ≤ t) (h : Totals t bds) : Totals t' bds := by
  induction bds generalizing t t' with
  | nil => trivial
  | cons bd bds ih =>
    rw [Totals] at h ⊢
    split
    next hlast =>
      rw [if_pos hlast] at h
      exact ⟨hle.trans h.1, h.2⟩
    next hlast =>
      rw [if_neg hlast] at h
      exact ih (Nat.add_le_add_right hle _) h

lemma trail_mono {t t' : Nat} {bds : List RxBd} (hle : t' ≤ t) : trail t' bds ≤ trail t bds := by
  induction bds generalizing t t' with
  | nil => exact hle
  | cons bd bds ih =>
    rw [trail, trail]
    split
    next => exact Nat.le_refl _
    next => exact ih (Nat.add_le_add_right hle _)

lemma trail_concat {t : Nat} {bds : List RxBd} {bd : RxBd} :
    trail t (bds ++ [bd]) = if bd.last then 0 else trail t bds + bd.length := by
  induction bds generalizing t with
  | nil => rfl
  | cons x bds ih =>
    rw [List.cons_append, trail, trail]
    split
    next => exact ih
    next => exact ih

lemma totals_concat {t : Nat} {bds : List RxBd} {bd : RxBd} (h : Totals t bds)
    (hbd : bd.last = true → trail t bds ≤ bd.length) : Totals t (bds ++ [bd]) := by
  induction bds generalizing t with
  | nil =>
    rw [List.nil_append, Totals]
    split
    next hlast => exact ⟨hbd hlast, trivial⟩
    next => trivial
  | cons x bds ih =>
    rw [List.cons_append, Totals]
    rw [Totals] at h
    rw [trail] at hbd
    split
    next hlast =>
      rw [if_pos hlast] at h hbd
      exact ⟨h.1, ih h.2 hbd⟩
    next hlast =>
      rw [if_neg hlast] at h hbd
      exact ih h hbd

lemma totals_drop {t : Nat} {front rest : List RxBd} {final : RxBd} (hfront : ∀ bd ∈ front, bd.ends = false)
    (h : Totals t (front ++ final :: rest)) :
    Totals 0 rest ∧ trail 0 rest ≤ trail t (front ++ final :: rest) ∧
      (final.last = true → t + lengths front ≤ final.length) := by
  induction front generalizing t with
  | nil =>
    rw [List.nil_append, Totals] at h
    rw [List.nil_append, trail]
    split at h
    next hlast =>
      rw [if_pos hlast]
      exact ⟨h.2, Nat.le_refl _, fun _ => h.1⟩
    next hlast =>
      rw [if_neg hlast]
      exact ⟨totals_mono (Nat.zero_le _) h, trail_mono (Nat.zero_le _), fun hl => absurd hl hlast⟩
  | cons bd front ih =>
    have hlast := (RxBd.last_of_ends (hfront bd (by simp))).1
    rw [List.cons_append, Totals, hlast, if_neg Bool.false_ne_true] at h
    obtain ⟨hrest, htrail, hfinal⟩ := ih (fun x hx => hfront x (List.mem_cons_of_mem bd hx)) h
    refine ⟨hrest, ?_, ?_⟩
    · rw [List.cons_append, trail, hlast, if_neg Bool.false_ne_true]
      exact htrail
    · intro hl
      have hle := hfinal hl
      simp only [lengths, List.map_cons, List.sum_cons] at hle ⊢
      omega

end Totals

namespace RxRing

variable {c : RxConfig} {r : RxRing}

lemma increaseIndex_add (c : RxConfig) (i k : Nat) :
    increaseIndex ((i + k) % c.rxRingLen) c.rxRingLen = (i + (k + 1)) % c.rxRingLen := by
  have hlt : (i + k) % c.rxRingLen < c.rxRingLen := Nat.mod_lt _ c.len_pos
  rw [increaseIndex_eq c.len_lt hlt, ringNext_eq_mod hlt, Nat.mod_add_mod, Nat.add_assoc]

/-- The descriptors from `rxGenIdx` on. -/
def view (c : RxConfig) (r : RxRing) : List RxBd :=
  ringView r.rxBdBase c.rxRingLen r.rxGenIdx

lemma length_view : (r.view c).length = c.rxRingLen :=
  length_ringView _ _ _

lemma head_of_view (hlt : r.rxGenIdx < c.rxRingLen) {bd : RxBd} {rest : List RxBd} (h : r.view c = bd :: rest) :
    r.rxBdBase r.rxGenIdx = bd := by
  have hslot := ringView_slot (a := []) h
  rwa [List.length_nil, Nat.add_zero, Nat.mod_eq_of_lt hlt] at hslot

section Search

/-- The search stops at the end of the first frame. -/
lemma searchLoop_frame (before : List RxBd) {front rest : List RxBd} {final : RxBd} {fuel : Nat}
    (hview : r.view c = before ++ front ++ final :: rest) (hframe : IsFrame front final)
    (hfilled : ∀ bd ∈ front ++ [final], bd.empty = false) (hlt : r.rxGenIdx < c.rxRingLen)
    (hfuel : front.length < fuel) :
    searchLoop c r fuel ((r.rxGenIdx + before.length) % c.rxRingLen) =
      some (if final.last then .last final.error
        else .abnormal ((r.rxGenIdx + (before.length + front.length)) % c.rxRingLen)) := by
  induction front generalizing before fuel with
  | nil =>
    obtain ⟨fuel, rfl⟩ : ∃ m, fuel = m + 1 := Nat.exists_eq_succ_of_ne_zero (by omega)
    rw [List.append_nil] at hview
    have hslot := ringView_slot hview
    have hends := hframe.final_ends
    rw [searchLoop, hslot, hfilled final (by simp), if_neg Bool.false_ne_true]
    cases hlast : final.last with
    | true => rfl
    | false =>
      have hzero : final.length = 0 := by simpa [RxBd.ends, hlast] using hends
      rw [if_neg Bool.false_ne_true, if_pos hzero]
      rfl
  | cons bd front ih =>
    obtain ⟨fuel, rfl⟩ : ∃ m, fuel = m + 1 := Nat.exists_eq_succ_of_ne_zero (by omega)
    rw [List.append_assoc, List.cons_append] at hview
    have hslot := ringView_slot hview
    obtain ⟨hlast, hlength⟩ := RxBd.last_of_ends (hframe.front_ends bd (by simp))
    have hcount : before.length + 1 < c.rxRingLen := by
      rw [← length_view (r := r), hview]
      simp
    have hround : (r.rxGenIdx + (before.length + 1)) % c.rxRingLen ≠ r.rxGenIdx := by
      intro heq
      have hsame : (r.rxGenIdx + (before.length + 1)) % c.rxRingLen = (r.rxGenIdx + 0) % c.rxRingLen := by
        rw [heq, Nat.add_zero, Nat.mod_eq_of_lt hlt]
      have := ring_offset_inj hcount c.len_pos hsame
      omega
    have hview' : r.view c = before ++ [bd] ++ front ++ final :: rest := by
      rw [hview]
      simp
    have hnext := ih (before ++ [bd]) hview' ⟨fun x hx => hframe.front_ends x (List.mem_cons_of_mem bd hx), hframe.final_ends⟩
      (fun x hx => hfilled x (List.mem_cons_of_mem bd hx)) (by simpa using hfuel)
    rw [List.length_append, List.length_singleton] at hnext
    rw [searchLoop, hslot, hfilled bd (by simp), hlast, increaseIndex_add, if_neg hlength, if_neg hround]
    rw [List.length_cons, Nat.add_comm front.length, ← Nat.add_assoc before.length]
    exact hnext

/-- The search finds nothing when no descriptor ends a frame. -/
lemma searchLoop_empty (before : List RxBd) {pending free : List RxBd} {fuel : Nat}
    (hview : r.view c = before ++ pending ++ free)
    (hpending : ∀ bd ∈ pending, bd.ends = false) (hfree : ∀ bd ∈ free, bd.empty = true)
    (hlt : r.rxGenIdx < c.rxRingLen) (hbefore : before.length < c.rxRingLen)
    (hfuel : c.rxRingLen ≤ before.length + fuel) :
    searchLoop c r fuel ((r.rxGenIdx + before.length) % c.rxRingLen) = some .frameEmpty := by
  induction pending generalizing before fuel with
  | nil =>
    obtain ⟨fuel, rfl⟩ : ∃ m, fuel = m + 1 := Nat.exists_eq_succ_of_ne_zero (by omega)
    rw [List.append_nil] at hview
    cases free with
    | nil =>
      rw [← length_view (r := r), hview, List.append_nil] at hbefore
      omega
    | cons bd free =>
      rw [searchLoop, ringView_slot hview, hfree bd (by simp), if_pos rfl]
  | cons bd pending ih =>
    obtain ⟨fuel, rfl⟩ : ∃ m, fuel = m + 1 := Nat.exists_eq_succ_of_ne_zero (by omega)
    have hview₁ := hview
    rw [List.append_assoc, List.cons_append] at hview₁
    obtain ⟨hlast, hlength⟩ := RxBd.last_of_ends (hpending bd (by simp))
    rw [searchLoop, ringView_slot hview₁, hlast, increaseIndex_add, if_neg hlength]
    by_cases hempty : bd.empty = true
    · rw [if_pos hempty]
    · rw [if_neg hempty, if_neg Bool.false_ne_true]
      by_cases hround : (r.rxGenIdx + (before.length + 1)) % c.rxRingLen = r.rxGenIdx
      · rw [if_pos hround]
      · rw [if_neg hround]
        have hcount : before.length + 1 < c.rxRingLen := by
          by_contra hge
          have hlen : before.length + 1 = c.rxRingLen := by omega
          rw [hlen, Nat.add_mod_right, Nat.mod_eq_of_lt hlt] at hround
          exact hround rfl
        have hview' : r.view c = before ++ [bd] ++ pending ++ free := by
          rw [hview]
          simp
        have hfuel' : c.rxRingLen ≤ (before ++ [bd]).length + fuel := by
          rw [List.length_append, List.length_singleton]
          omega
        have hnext := ih (before ++ [bd]) hview' (fun x hx => hpending x (List.mem_cons_of_mem bd hx))
          (by simpa using hcount) hfuel'
        rwa [List.length_append, List.length_singleton] at hnext

end Search

section Loops

/-- The ring `r'` is `r` with the index `k` descriptors further and the descriptors `refilled` behind the others. -/
structure Turned (c : RxConfig) (r r' : RxRing) (rest refilled : List RxBd) : Prop where
  gen : r'.rxGenIdx = (r.rxGenIdx + refilled.length) % c.rxRingLen
  view : r'.view c = rest ++ refilled
  empty : ∀ bd ∈ refilled, bd.empty = true
  same : r' = { r with rxBdBase := r'.rxBdBase, rxGenIdx := r'.rxGenIdx, pool := r'.pool }

lemma Turned.trans {r₁ r₂ r₃ : RxRing} {front rest refilled : List RxBd} {bd : RxBd}
    (h₁ : Turned c r₁ r₂ (front ++ rest) [bd]) (h₂ : Turned c r₂ r₃ (rest ++ [bd]) refilled) :
    Turned c r₁ r₃ rest (bd :: refilled) := by
  constructor
  · rw [h₂.gen, h₁.gen, Nat.mod_add_mod, List.length_singleton, List.length_cons, Nat.add_assoc, Nat.add_comm 1]
  · rw [h₂.view, List.append_assoc]
    rfl
  · intro x hx
    rcases List.mem_cons.mp hx with rfl | hx
    · exact h₁.empty x (by simp)
    · exact h₂.empty x hx
  · rw [h₂.same, h₁.same]

lemma Turned.gen_lt {r' : RxRing} {rest refilled : List RxBd} (h : Turned c r r' rest refilled) :
    r'.rxGenIdx < c.rxRingLen := by
  rw [h.gen]
  exact Nat.mod_lt _ c.len_pos

lemma turned_release {bd : RxBd} {rest : List RxBd} (hlt : r.rxGenIdx < c.rxRingLen) (hview : r.view c = bd :: rest)
    (buffer : Nat) (pool : List Nat) :
    Turned c r { r.release c buffer with pool := pool } rest [bd.refill buffer] := by
  have hnext := increaseIndex_eq c.len_lt hlt
  constructor
  · change increaseIndex _ _ = _
    rw [hnext, ringNext_eq_mod hlt, List.length_singleton]
  · change ringView (Function.update r.rxBdBase r.rxGenIdx _) _ (increaseIndex _ _) = _
    rw [hnext, ringView_push hlt, head_of_view hlt hview]
    rw [RxRing.view] at hview
    rw [hview]
    rfl
  · intro x hx
    rw [List.mem_singleton.mp hx]
    rfl
  · rfl

/-- The drop gives the descriptors of the frame back with the buffers that they have. -/
lemma dropLoop_frame {front rest : List RxBd} {final : RxBd} {fuel : Nat} (hlt : r.rxGenIdx < c.rxRingLen)
    (hview : r.view c = front ++ final :: rest) (hfront : ∀ bd ∈ front, bd.last = false) (hfinal : final.last = true)
    (hfuel : front.length < fuel) :
    ∃ r', dropLoop c fuel r = some r' ∧ r'.pool = r.pool ∧
      Turned c r r' rest ((front ++ [final]).map fun bd => bd.refill bd.buffer) := by
  induction front generalizing r rest fuel with
  | nil =>
    obtain ⟨fuel, rfl⟩ : ∃ m, fuel = m + 1 := Nat.exists_eq_succ_of_ne_zero (by omega)
    refine ⟨r.release c final.buffer, ?_, rfl, turned_release hlt hview final.buffer r.pool⟩
    rw [dropLoop, head_of_view hlt hview, hfinal]
    rfl
  | cons bd front ih =>
    obtain ⟨fuel, rfl⟩ : ∃ m, fuel = m + 1 := Nat.exists_eq_succ_of_ne_zero (by omega)
    rw [List.cons_append] at hview
    have hturn := turned_release hlt hview bd.buffer r.pool
    have hnext := hturn.view
    rw [List.append_assoc, List.cons_append] at hnext
    obtain ⟨r', hloop, hpool, hturned⟩ := ih hturn.gen_lt hnext
      (fun x hx => hfront x (List.mem_cons_of_mem bd hx)) (by simpa using hfuel)
    refine ⟨r', ?_, hpool, ?_⟩
    · rw [dropLoop, head_of_view hlt hview, hfront bd (by simp)]
      exact hloop
    · have hturn' : Turned c r { r.release c bd.buffer with pool := r.pool } (front ++ [final] ++ rest)
          [bd.refill bd.buffer] := by
        rw [List.append_assoc]
        exact hturn
      exact hturn'.trans hturned

lemma map_buffer_refill (bds : List RxBd) :
    (bds.map fun bd => bd.refill bd.buffer).map RxBd.buffer = bds.map RxBd.buffer := by
  rw [List.map_map]
  rfl

/-- What the hand-over of a frame can end with. -/
def HandResult (rxBuffArray : List Part) (buffLen : Nat) (front : List RxBd) (final : RxBd) (result : RxResult) : Prop :=
  result = { status := .rxFrameDrop, rxBuffArray := [], totLen := 0 } ∨
    result =
      { status := .success
        rxBuffArray := rxBuffArray ++ (front.map (fun bd => (bd.buffer, bd.length)) ++
          [(final.buffer, final.length - (buffLen + lengths front))])
        totLen := final.length }

/-- A failed allocation drops what is left of the frame and frees what was taken out of the ring. -/
lemma handLoop_none {front rest : List RxBd} {final : RxBd} {fuel : Nat} {answers : List (Option Nat)}
    (rxBuffArray : List Part) (buffLen : Nat) (hlt : r.rxGenIdx < c.rxRingLen)
    (hview : r.view c = front ++ final :: rest) (hfront : ∀ bd ∈ front, bd.last = false) (hfinal : final.last = true)
    (hnone : poolAlloc r.pool (answers.headD none) = none) :
    ∃ r' result refilled, handLoop c (fuel + 1) r answers rxBuffArray buffLen = some (r', result) ∧
      HandResult rxBuffArray buffLen front final result ∧ Turned c r r' rest refilled ∧
      refilled.length = front.length + 1 ∧
      (r'.pool ++ refilled.map RxBd.buffer ++ result.rxBuffArray.map Prod.fst).Perm
        (r.pool ++ (front ++ [final]).map RxBd.buffer ++ rxBuffArray.map Prod.fst) := by
  have hlen : front.length < c.rxRingLen := by
    rw [← length_view (r := r), hview, List.length_append, List.length_cons]
    omega
  obtain ⟨r', hloop, hpool, hturned⟩ :=
    dropLoop_frame (r := { r with pool := (rxBuffArray.map Prod.fst).reverse.foldl poolFree r.pool }) hlt hview hfront
      hfinal hlen
  refine ⟨r', _, _, ?_, .inl rfl, ⟨hturned.gen, hturned.view, hturned.empty, ?_⟩, ?_, ?_⟩
  · rw [handLoop, hnone]
    dsimp only
    rw [hloop]
    rfl
  · rw [hturned.same]
  · rw [List.length_map, List.length_append, List.length_singleton]
  · rw [hpool, map_buffer_refill, List.map_nil, List.append_nil]
    have hfree := foldl_poolFree_perm (rxBuffArray.map Prod.fst).reverse r.pool
    rw [List.perm_iff_count] at hfree ⊢
    intro b
    have hb := hfree b
    simp only [List.count_append, List.count_reverse] at hb ⊢
    omega

/-- The hand-over takes the frame out of the ring, whether the allocations succeed or not, and loses no buffer. -/
lemma handLoop_frame {front rest : List RxBd} {final : RxBd} {fuel : Nat} (answers : List (Option Nat))
    (rxBuffArray : List Part) (buffLen : Nat) (hlt : r.rxGenIdx < c.rxRingLen)
    (hview : r.view c = front ++ final :: rest) (hfront : ∀ bd ∈ front, bd.last = false) (hfinal : final.last = true)
    (hlength : buffLen + lengths front ≤ final.length) (hmax : final.length < 2 ^ 16) (hfuel : front.length < fuel) :
    ∃ r' result refilled, handLoop c fuel r answers rxBuffArray buffLen = some (r', result) ∧
      HandResult rxBuffArray buffLen front final result ∧ Turned c r r' rest refilled ∧
      refilled.length = front.length + 1 ∧
      (r'.pool ++ refilled.map RxBd.buffer ++ result.rxBuffArray.map Prod.fst).Perm
        (r.pool ++ (front ++ [final]).map RxBd.buffer ++ rxBuffArray.map Prod.fst) := by
  obtain ⟨fuel, rfl⟩ : ∃ m, fuel = m + 1 := Nat.exists_eq_succ_of_ne_zero (by omega)
  induction front generalizing r rest fuel answers rxBuffArray buffLen with
  | nil =>
    cases halloc : poolAlloc r.pool (answers.headD none) with
    | none => exact handLoop_none rxBuffArray buffLen hlt hview hfront hfinal halloc
    | some x =>
      obtain ⟨newBuff, pool⟩ := x
      refine ⟨_, _, _, ?_, .inr rfl, turned_release hlt hview newBuff pool, rfl, ?_⟩
      · have hsub : (final.length + 2 ^ 16 - buffLen) % 2 ^ 16 = final.length - buffLen := by omega
        rw [handLoop, halloc, head_of_view hlt hview, hfinal, hsub]
        rfl
      · have hpool := perm_of_poolAlloc halloc
        rw [List.perm_iff_count] at hpool ⊢
        intro b
        have hb := hpool b
        simp only [List.map_append, List.map_cons, List.map_nil, List.nil_append, List.count_append, List.count_cons,
          List.count_nil, RxBd.refill] at hb ⊢
        omega
  | cons bd front ih =>
    cases halloc : poolAlloc r.pool (answers.headD none) with
    | none => exact handLoop_none rxBuffArray buffLen hlt hview hfront hfinal halloc
    | some x =>
      obtain ⟨newBuff, pool⟩ := x
      rw [List.cons_append] at hview
      have hturn := turned_release hlt hview newBuff pool
      have hnext := hturn.view
      rw [List.append_assoc, List.cons_append] at hnext
      have hsum : lengths (bd :: front) = bd.length + lengths front := rfl
      have hadd : (buffLen + bd.length) % 2 ^ 16 = buffLen + bd.length := Nat.mod_eq_of_lt (by omega)
      obtain ⟨fuel, rfl⟩ : ∃ m, fuel = m + 1 := Nat.exists_eq_succ_of_ne_zero (by simp at hfuel; omega)
      obtain ⟨r', result, refilled, hloop, hresult, hturned, hlen, hperm⟩ :=
        ih answers.tail (rxBuffArray ++ [(bd.buffer, bd.length)]) (buffLen + bd.length) hturn.gen_lt hnext
          (fun x hx => hfront x (List.mem_cons_of_mem bd hx)) (by omega) fuel (by simpa using hfuel)
      refine ⟨r', result, bd.refill newBuff :: refilled, ?_, ?_, ?_, ?_, ?_⟩
      · rw [handLoop, halloc, head_of_view hlt hview, hfront bd (by simp), hadd]
        exact hloop
      · rcases hresult with hdrop | hsuccess
        · exact .inl hdrop
        · right
          rw [hsuccess, hsum]
          simp [Nat.add_assoc]
      · have hturn' : Turned c r { r.release c newBuff with pool := pool } (front ++ [final] ++ rest)
            [bd.refill newBuff] := by
          rw [List.append_assoc]
          exact hturn
        exact hturn'.trans hturned
      · rw [List.length_cons, hlen, List.length_cons]
      · have hpool := perm_of_poolAlloc halloc
        rw [List.perm_iff_count] at hpool hperm ⊢
        intro b
        have hb := hpool b
        have hb' := hperm b
        simp only [List.map_append, List.map_cons, List.map_nil, List.cons_append, List.count_append, List.count_cons,
          List.count_nil, RxBd.refill] at hb hb' ⊢
        omega

end Loops

/-- The descriptors that the hardware has filled and the driver has not given back, in order. -/
def Filled (c : RxConfig) (r : RxRing) (pending : List RxBd) : Prop :=
  ∃ free, r.view c = pending ++ free ∧ (∀ bd ∈ pending, bd.empty = false) ∧ ∀ bd ∈ free, bd.empty = true

/-- What a call does: nothing, or it takes the first frame out of the ring. -/
inductive Outcome (c : RxConfig) (r : RxRing) (pending : List RxBd) (r' : RxRing) : RxResult → Prop
  | empty (hnone : ∀ bd ∈ pending, bd.ends = false) (hr : r' = r) :
      Outcome c r pending r' { status := .rxFrameEmpty, rxBuffArray := [], totLen := 0 }
  | error {front rest : List RxBd} {final : RxBd} (hpending : pending = front ++ final :: rest)
      (hframe : IsFrame front final) (hbad : final.last = false ∨ final.error = true) (hrest : Filled c r' rest) :
      Outcome c r pending r' { status := .rxFrameError, rxBuffArray := [], totLen := 0 }
  | drop {front rest : List RxBd} {final : RxBd} (hpending : pending = front ++ final :: rest)
      (hframe : IsFrame front final) (hgood : final.last = true ∧ final.error = false) (hrest : Filled c r' rest) :
      Outcome c r pending r' { status := .rxFrameDrop, rxBuffArray := [], totLen := 0 }
  | success {front rest : List RxBd} {final : RxBd} (hpending : pending = front ++ final :: rest)
      (hframe : IsFrame front final) (hgood : final.last = true ∧ final.error = false) (hrest : Filled c r' rest)
      (htotLen : ((frameParts front final).map Prod.snd).sum = final.length) :
      Outcome c r pending r'
        { status := .success, rxBuffArray := frameParts front final, totLen := final.length }

/-- The results of the calls account for the descriptors that were given back, frame by frame. -/
inductive Served : List RxResult → List RxBd → Prop
  | nil : Served [] []
  | empty {results : List RxResult} {taken : List RxBd} (h : Served results taken) :
      Served (results ++ [{ status := .rxFrameEmpty, rxBuffArray := [], totLen := 0 }]) taken
  | error {results : List RxResult} {taken front : List RxBd} {final : RxBd} (h : Served results taken)
      (hframe : IsFrame front final) (hbad : final.last = false ∨ final.error = true) :
      Served (results ++ [{ status := .rxFrameError, rxBuffArray := [], totLen := 0 }]) (taken ++ (front ++ [final]))
  | drop {results : List RxResult} {taken front : List RxBd} {final : RxBd} (h : Served results taken)
      (hframe : IsFrame front final) :
      Served (results ++ [{ status := .rxFrameDrop, rxBuffArray := [], totLen := 0 }]) (taken ++ (front ++ [final]))
  | success {results : List RxResult} {taken front : List RxBd} {final : RxBd} (h : Served results taken)
      (hframe : IsFrame front final) :
      Served (results ++ [{ status := .success, rxBuffArray := frameParts front final, totLen := final.length }])
        (taken ++ (front ++ [final]))

variable {buffers : List Nat} {taken pending free : List RxBd}

/-- The filled descriptors stand in front of the empty ones, and no buffer is lost. -/
structure Stands (c : RxConfig) (buffers : List Nat) (r : RxRing) (taken pending free : List RxBd) : Prop where
  gen_lt : r.rxGenIdx < c.rxRingLen
  view : r.view c = pending ++ free
  filled : ∀ bd ∈ pending, bd.empty = false
  empty : ∀ bd ∈ free, bd.empty = true
  dma : r.dmaIdx = (r.rxGenIdx + pending.length) % c.rxRingLen
  arrived : r.arrived = taken ++ pending
  served : Served r.results taken
  owned : (r.pool ++ (r.view c).map RxBd.buffer ++ r.application).Perm buffers
  totals : Totals 0 pending
  trail_le : trail 0 pending ≤ r.frameLength
  length_lt : ∀ bd ∈ pending, bd.length < 2 ^ 16

/-- The ring after the application has taken the result of a call. -/
def conclude (r : RxRing) (result : RxResult) : RxRing :=
  { r with
    application := r.application ++ result.rxBuffArray.map Prod.fst
    results := r.results ++ [result] }

lemma receive_eq {answers : List (Option Nat)} {r' : RxRing} {result : RxResult}
    (h : r.getRxFrame c answers = some (r', result)) : r.receive c answers = some (r'.conclude result) := by
  rw [receive, h]
  rfl

lemma Stands.empty_turned {view pending refilled : List RxBd} {r' : RxRing} (h : Stands c buffers r taken pending free)
    (hturned : Turned c r r' view refilled) : ∀ bd ∈ free ++ refilled, bd.empty = true := by
  intro bd hbd
  rcases List.mem_append.mp hbd with hbd | hbd
  · exact h.empty bd hbd
  · exact hturned.empty bd hbd

/-- A call that takes the first frame out of the ring. -/
lemma Stands.remove {front rest refilled : List RxBd} {final : RxBd} {r' : RxRing} {result : RxResult}
    (h : Stands c buffers r taken (front ++ final :: rest) free) (hframe : IsFrame front final)
    (hturned : Turned c r r' (rest ++ free) refilled) (hlen : refilled.length = front.length + 1)
    (hserved : Served (r.results ++ [result]) (taken ++ (front ++ [final])))
    (hbuffers : (r'.pool ++ refilled.map RxBd.buffer ++ result.rxBuffArray.map Prod.fst).Perm
      (r.pool ++ (front ++ [final]).map RxBd.buffer)) :
    Stands c buffers (r'.conclude result) (taken ++ (front ++ [final])) rest (free ++ refilled) := by
  obtain ⟨htotals, htrail, -⟩ := totals_drop hframe.front_ends h.totals
  have hsame := hturned.same
  constructor
  · exact hturned.gen_lt
  · change r'.view c = _
    rw [hturned.view, List.append_assoc]
  · intro bd hbd
    exact h.filled bd (by simp [hbd])
  · exact h.empty_turned hturned
  · change r'.dmaIdx = (r'.rxGenIdx + rest.length) % c.rxRingLen
    have hdma : r'.dmaIdx = r.dmaIdx := by rw [hsame]
    rw [hdma, hturned.gen, Nat.mod_add_mod, h.dma, hlen, List.length_append, List.length_cons]
    congr 1
    omega
  · change r'.arrived = _
    have harrived : r'.arrived = r.arrived := by rw [hsame]
    rw [harrived, h.arrived]
    simp
  · change Served (r'.results ++ [result]) _
    have hresults : r'.results = r.results := by rw [hsame]
    rw [hresults]
    exact hserved
  · change (r'.pool ++ (r'.view c).map RxBd.buffer ++ (r'.application ++ result.rxBuffArray.map Prod.fst)).Perm buffers
    have happ : r'.application = r.application := by rw [hsame]
    have howned := h.owned
    rw [h.view] at howned
    rw [hturned.view, happ]
    refine List.Perm.trans ?_ howned
    rw [List.perm_iff_count] at hbuffers ⊢
    intro b
    have hb := hbuffers b
    simp only [List.map_append, List.map_cons, List.map_nil, List.count_append, List.count_cons, List.count_nil]
      at hb ⊢
    omega
  · exact htotals
  · change _ ≤ r'.frameLength
    have hlength : r'.frameLength = r.frameLength := by rw [hsame]
    rw [hlength]
    exact htrail.trans h.trail_le
  · intro bd hbd
    exact h.length_lt bd (by simp [hbd])

lemma filled_of_turned {front rest refilled : List RxBd} {final : RxBd} {r' : RxRing}
    (h : Stands c buffers r taken (front ++ final :: rest) free) (hturned : Turned c r r' (rest ++ free) refilled) :
    Filled c r' rest := by
  refine ⟨free ++ refilled, ?_, ?_, ?_⟩
  · rw [hturned.view, List.append_assoc]
  · intro bd hbd
    exact h.filled bd (by simp [hbd])
  · exact h.empty_turned hturned

/-- The descriptors that the hardware owns are as they were. -/
def Untouched (c : RxConfig) (r r' : RxRing) : Prop :=
  ∀ i < c.rxRingLen, (r.rxBdBase i).empty = true → r'.rxBdBase i = r.rxBdBase i

lemma untouched_of_turned {front rest refilled : List RxBd} {final : RxBd} {r' : RxRing}
    (h : Stands c buffers r taken (front ++ final :: rest) free) (hturned : Turned c r r' (rest ++ free) refilled)
    (hlen : refilled.length = front.length + 1) : Untouched c r r' := by
  have hview : ringView r.rxBdBase c.rxRingLen r.rxGenIdx = (front ++ [final]) ++ (rest ++ free) := by
    have hview := h.view
    rw [RxRing.view] at hview
    rw [hview]
    simp
  -- from the old index on, the refilled descriptors stand where the frame stood
  have hview' : ringView r'.rxBdBase c.rxRingLen r.rxGenIdx = refilled ++ (rest ++ free) := by
    have hrotate := hturned.view
    rw [RxRing.view, hturned.gen, ringView_rotate, ← List.rotate_append_length_eq] at hrotate
    exact List.rotate_injective _ hrotate
  intro i hi hempty
  rcases ringView_same_end h.gen_lt hview hview' (by simp [hlen]) hi with hmem | hsame
  · have hpending : r.rxBdBase i ∈ front ++ final :: rest := by
      rw [List.append_cons]
      exact List.mem_append_left rest hmem
    have hfilled := h.filled (r.rxBdBase i) hpending
    rw [hempty] at hfilled
    cases hfilled
  · exact hsame

lemma sum_frameParts {front : List RxBd} {final : RxBd} (h : lengths front ≤ final.length) :
    ((frameParts front final).map Prod.snd).sum = final.length := by
  have hfront : (front.map fun bd => (bd.buffer, bd.length)).map Prod.snd = front.map RxBd.length := by
    rw [List.map_map]
    rfl
  rw [frameParts, List.map_append, List.sum_append, hfront, List.map_singleton, List.sum_singleton]
  exact Nat.add_sub_cancel' h

/-- A call that drops the first frame as an error. The driver may have set LAST in its final descriptor. -/
lemma Stands.drop {front rest : List RxBd} {final : RxBd} {bds : Nat → RxBd}
    (h : Stands c buffers r taken (front ++ final :: rest) free) (hframe : IsFrame front final)
    (hbad : final.last = false ∨ final.error = true)
    (hview : ringView bds c.rxRingLen r.rxGenIdx = front ++ { final with last := true } :: (rest ++ free)) :
    ∃ r' refilled, dropLoop c c.rxRingLen { r with rxBdBase := bds } = some r' ∧ Filled c r' rest ∧ Untouched c r r' ∧
      Stands c buffers (r'.conclude { status := .rxFrameError, rxBuffArray := [], totLen := 0 })
        (taken ++ (front ++ [final])) rest (free ++ refilled) := by
  have hlen : front.length < c.rxRingLen := by
    rw [← length_view (r := r), h.view, List.length_append, List.length_append, List.length_cons]
    omega
  obtain ⟨r', hloop, hpool, hturned⟩ := dropLoop_frame (r := { r with rxBdBase := bds }) h.gen_lt hview
    (fun bd hbd => (RxBd.last_of_ends (hframe.front_ends bd hbd)).1) rfl hlen
  have hturned' : Turned c r r' (rest ++ free) _ :=
    ⟨hturned.gen, hturned.view, hturned.empty, by rw [hturned.same]⟩
  have hcount : ((front ++ [({ final with last := true } : RxBd)]).map fun bd => bd.refill bd.buffer).length =
      front.length + 1 := by
    rw [List.length_map, List.length_append, List.length_singleton]
  refine ⟨r', (front ++ [({ final with last := true } : RxBd)]).map fun bd => bd.refill bd.buffer, hloop,
    filled_of_turned h hturned', untouched_of_turned h hturned' hcount, ?_⟩
  apply h.remove hframe hturned' hcount (.error h.served hframe hbad)
  rw [hpool, map_buffer_refill, List.map_nil, List.append_nil]
  simp

/-- Every call returns, and does what the descriptors in the ring ask for. -/
theorem Stands.getRxFrame (h : Stands c buffers r taken pending free) (answers : List (Option Nat)) :
    ∃ r' result, r.getRxFrame c answers = some (r', result) ∧ Outcome c r pending r' result ∧ Untouched c r r' ∧
      ∃ taken' pending' free', Stands c buffers (r'.conclude result) taken' pending' free' := by
  have hgen : (r.rxGenIdx + ([] : List RxBd).length) % c.rxRingLen = r.rxGenIdx := Nat.mod_eq_of_lt h.gen_lt
  have hview := h.view
  have hlength := length_view (c := c) (r := r)
  rw [hview, List.length_append] at hlength
  rcases first_frame pending with ⟨front, final, rest, rfl, hframe⟩ | hnone
  · have hfilled : ∀ bd ∈ front ++ [final], bd.empty = false := by
      intro bd hbd
      apply h.filled
      rw [List.append_cons]
      exact List.mem_append_left rest hbd
    rw [List.length_append, List.length_cons] at hlength
    rw [List.append_assoc, List.cons_append] at hview
    have hsearch := searchLoop_frame [] hview hframe hfilled h.gen_lt
      (show front.length < c.rxRingLen by omega)
    rw [hgen, List.length_nil, Nat.zero_add] at hsearch
    rw [RxRing.getRxFrame, hsearch, Option.bind_some]
    cases hlast : final.last with
    | false =>
      -- the descriptor without data
      have hslot := ringView_slot hview
      have hwrite := ringView_write hview { final with last := true }
      obtain ⟨r', refilled, hloop, hrest, huntouched, hstands⟩ := h.drop hframe (.inl hlast) hwrite
      refine ⟨r', _, ?_, .error rfl hframe (.inl hlast) hrest, huntouched, _, _, _, hstands⟩
      simp only [Bool.false_eq_true, if_false, hslot, hloop, Option.map_some]
    | true =>
      cases herror : final.error with
      | true =>
        have hsame : ({ final with last := true } : RxBd) = final := by rw [← hlast]
        obtain ⟨r', refilled, hloop, hrest, huntouched, hstands⟩ := h.drop hframe (.inr herror) (by rw [hsame]; exact hview)
        refine ⟨r', _, ?_, .error rfl hframe (.inr herror) hrest, huntouched, _, _, _, hstands⟩
        simp only [if_true, hloop, Option.map_some]
      | false =>
        obtain ⟨-, -, htotal⟩ := totals_drop hframe.front_ends h.totals
        have hsum := htotal hlast
        rw [Nat.zero_add] at hsum
        obtain ⟨r', result, refilled, hloop, hresult, hturned, hcount, hperm⟩ := handLoop_frame answers [] 0 h.gen_lt hview
          (fun bd hbd => (RxBd.last_of_ends (hframe.front_ends bd hbd)).1) hlast (by rwa [Nat.zero_add])
          (h.length_lt final (by simp)) (show front.length < c.rxRingLen by omega)
        rw [List.map_nil, List.append_nil] at hperm
        have hrest := filled_of_turned h hturned
        have huntouched := untouched_of_turned h hturned hcount
        rcases hresult with rfl | rfl
        · exact ⟨r', _, hloop, .drop rfl hframe ⟨hlast, herror⟩ hrest, huntouched, _, _, _,
            h.remove hframe hturned hcount (.drop h.served hframe) hperm⟩
        · rw [Nat.zero_add, List.nil_append] at hloop hperm
          exact ⟨r', _, hloop, .success rfl hframe ⟨hlast, herror⟩ hrest (sum_frameParts hsum), huntouched, _, _, _,
            h.remove hframe hturned hcount (.success h.served hframe) hperm⟩
  · have hsearch := searchLoop_empty [] hview hnone h.empty h.gen_lt c.len_pos (Nat.le_add_left _ _)
    rw [hgen] at hsearch
    refine ⟨r, _, ?_, .empty hnone rfl, fun _ _ _ => rfl, taken, pending, free, ?_⟩
    · rw [RxRing.getRxFrame, hsearch, Option.bind_some]
    · refine ⟨h.gen_lt, h.view, h.filled, h.empty, h.dma, h.arrived, .empty h.served, ?_, h.totals, h.trail_le, h.length_lt⟩
      rw [conclude, List.map_nil, List.append_nil]
      exact h.owned

lemma Stands.fill (h : Stands c buffers r taken pending free) (length : Nat) (last error : Bool) :
    ∃ pending' free', Stands c buffers (r.fill c length last error) taken pending' free' := by
  rw [RxRing.fill]
  split
  next hroom =>
    obtain ⟨hempty, hmax⟩ := hroom
    have hview := h.view
    cases free with
    | nil =>
      -- the ring is full, and the hardware stands at a descriptor that it has filled
      rw [List.append_nil] at hview
      have hlength := length_view (c := c) (r := r)
      rw [hview] at hlength
      have hpos := c.len_pos
      obtain ⟨bd, pending, rfl⟩ := List.exists_cons_of_length_pos (hlength ▸ hpos)
      rw [h.dma, hlength, Nat.add_mod_right, Nat.mod_eq_of_lt h.gen_lt, head_of_view h.gen_lt hview,
        h.filled bd (by simp)] at hempty
      cases hempty
    | cons bd free =>
      have hslot : r.rxBdBase r.dmaIdx = bd := by
        rw [h.dma]
        exact ringView_slot hview
      rw [hslot]
      refine ⟨pending ++ [⟨bd.buffer, if last then r.frameLength + length else length, false, last, error⟩], free, ?_⟩
      constructor
      · exact h.gen_lt
      · change ringView (Function.update r.rxBdBase r.dmaIdx _) _ r.rxGenIdx = _
        rw [h.dma, ringView_write hview]
        simp
      · intro x hx
        rcases List.mem_append.mp hx with hx | hx
        · exact h.filled x hx
        · rw [List.mem_singleton.mp hx]
      · intro x hx
        exact h.empty x (List.mem_cons_of_mem bd hx)
      · change increaseIndex r.dmaIdx _ = _
        rw [h.dma, increaseIndex_add, List.length_append, List.length_singleton]
      · change r.arrived ++ _ = _
        rw [h.arrived, List.append_assoc]
      · exact h.served
      · change (r.pool ++ (ringView (Function.update r.rxBdBase r.dmaIdx _) _ r.rxGenIdx).map RxBd.buffer ++
          r.application).Perm buffers
        have howned := h.owned
        rw [hview] at howned
        rw [h.dma, ringView_write hview]
        simpa using howned
      · apply totals_concat h.totals
        intro hlast
        change last = true at hlast
        change _ ≤ if last = true then r.frameLength + length else length
        rw [if_pos hlast]
        exact h.trail_le.trans (Nat.le_add_right _ _)
      · rw [trail_concat]
        change (if last = true then 0 else _ + if last = true then _ else length) ≤
          if last = true then 0 else r.frameLength + length
        split
        next => exact Nat.le_refl _
        next => exact Nat.add_le_add_right h.trail_le _
      · intro x hx
        rcases List.mem_append.mp hx with hx | hx
        · exact h.length_lt x hx
        · rw [List.mem_singleton.mp hx]
          dsimp only
          split <;> omega
  next => exact ⟨pending, free, h⟩

lemma Stands.giveBack (h : Stands c buffers r taken pending free) (buffer : Nat) :
    Stands c buffers (r.free buffer) taken pending free := by
  rw [RxRing.free]
  split
  next hmem =>
    refine ⟨h.gen_lt, h.view, h.filled, h.empty, h.dma, h.arrived, h.served, ?_, h.totals, h.trail_le, h.length_lt⟩
    apply List.Perm.trans _ h.owned
    have herase := List.perm_cons_erase hmem
    rw [List.perm_iff_count] at herase ⊢
    intro b
    have hb := herase b
    change ((poolFree r.pool buffer) ++ (r.view c).map RxBd.buffer ++ r.application.erase buffer).count b = _
    simp only [poolFree, List.count_append, List.count_cons] at hb ⊢
    omega
  next => exact h

lemma stands_init (c : RxConfig) (buffers : Nat → Nat) (pool : List Nat) :
    ∃ free, Stands c (pool ++ (init buffers pool).ringBuffers c) (init buffers pool) [] [] free := by
  refine ⟨(init buffers pool).view c, c.len_pos, rfl, by simp, ?_, ?_, rfl, .nil, ?_, trivial, Nat.le_refl _, by simp⟩
  · intro bd hbd
    obtain ⟨k, -, rfl⟩ := List.mem_map.mp hbd
    rfl
  · exact (Nat.mod_eq_of_lt c.len_pos).symm
  · change (pool ++ ((init buffers pool).view c).map RxBd.buffer ++ []).Perm _
    rw [List.append_nil, RxRing.view, ← ringView_map]
    exact (ringView_perm c.len_pos _).append_left pool

lemma Stands.step (h : Stands c buffers r taken pending free) (e : RxEvent) :
    ∃ r' taken' pending' free', RxRing.step c (some r) e = some r' ∧ Stands c buffers r' taken' pending' free' := by
  cases e with
  | fill length last error =>
    obtain ⟨pending', free', hstands⟩ := h.fill length last error
    exact ⟨_, _, _, _, rfl, hstands⟩
  | receive answers =>
    obtain ⟨r', result, hcall, -, -, taken', pending', free', hstands⟩ := h.getRxFrame answers
    exact ⟨_, _, _, _, receive_eq hcall, hstands⟩
  | free buffer => exact ⟨_, _, _, _, rfl, h.giveBack buffer⟩

lemma Stands.run (events : List RxEvent) (h : Stands c buffers r taken pending free) :
    ∃ r' taken' pending' free', events.foldl (RxRing.step c) (some r) = some r' ∧
      Stands c buffers r' taken' pending' free' := by
  induction events generalizing r taken pending free with
  | nil => exact ⟨_, _, _, _, rfl, h⟩
  | cons e events ih =>
    obtain ⟨r', taken', pending', free', hstep, hstands⟩ := h.step e
    rw [List.foldl_cons, hstep]
    exact ih hstands

/-- How often a buffer is with the allocator, in the ring, and with the application. -/
def owners (c : RxConfig) (r : RxRing) (b : Nat) : Nat :=
  r.pool.count b + (r.ringBuffers c).count b + r.application.count b

/-- After any run of a ring, started with distinct buffers, every buffer has one owner, the results account for the
descriptors frame by frame in the order of their arrival, and the next call returns, does what its code says and leaves
the descriptors of the hardware alone. -/
theorem getRxFrame_conserves (c : RxConfig) (buffers : Nat → Nat) (pool : List Nat)
    (hdistinct : (pool ++ (init buffers pool).ringBuffers c).Nodup) (events : List RxEvent) :
    ∃ r, events.foldl (RxRing.step c) (some (init buffers pool)) = some r ∧
      (∀ b, owners c r b = if b ∈ pool ++ (init buffers pool).ringBuffers c then 1 else 0) ∧
      ∃ taken pending, r.arrived = taken ++ pending ∧ Filled c r pending ∧ Served r.results taken ∧
        ∀ answers, ∃ r' result, r.getRxFrame c answers = some (r', result) ∧ Outcome c r pending r' result ∧
          Untouched c r r' := by
  obtain ⟨free, hinit⟩ := stands_init c buffers pool
  obtain ⟨r, taken, pending, free', hrun, hstands⟩ := hinit.run events
  refine ⟨r, hrun, ?_, taken, pending, hstands.arrived, ⟨free', hstands.view, hstands.filled, hstands.empty⟩,
    hstands.served, ?_⟩
  · intro b
    have hring : (r.ringBuffers c).Perm ((r.view c).map RxBd.buffer) := by
      rw [RxRing.view, ← ringView_map]
      exact (ringView_perm hstands.gen_lt _).symm
    have hperm : (r.pool ++ r.ringBuffers c ++ r.application).Perm (pool ++ (init buffers pool).ringBuffers c) :=
      ((hring.append_left r.pool).append_right r.application).trans hstands.owned
    rw [← List.Nodup.count hdistinct, ← hperm.count_eq, List.count_append, List.count_append, owners]
  · intro answers
    obtain ⟨r', result, hcall, houtcome, huntouched, -⟩ := hstands.getRxFrame answers
    exact ⟨r', result, hcall, houtcome, huntouched⟩

/-- Four descriptors. -/
def fourRx : RxConfig where
  rxRingLen := 4
  len_pos := by decide
  len_lt := by decide

theorem getRxFrame_conserves_four :
    ([10, 11] ++ (init id [10, 11]).ringBuffers fourRx).Nodup ∧
      ∃ r, [RxEvent.fill 64 false false, .fill 10 true false, .receive [some 11, some 10]].foldl (RxRing.step fourRx)
        (some (init id [10, 11])) = some r ∧ ∃ taken pending, r.arrived = taken ++ pending ∧ Filled fourRx r pending ∧
          Served r.results taken := by
  have hdistinct : ([10, 11] ++ (init id [10, 11]).ringBuffers fourRx).Nodup := by decide
  obtain ⟨r, hrun, -, taken, pending, harrived, hfilled, hserved, -⟩ := getRxFrame_conserves fourRx id [10, 11] hdistinct
    [.fill 64 false false, .fill 10 true false, .receive [some 11, some 10]]
  exact ⟨hdistinct, r, hrun, taken, pending, harrived, hfilled, hserved⟩

/-- The number of frames in the ring, as the hardware ends them. -/
def framesInRing (c : RxConfig) (r : RxRing) : Nat :=
  (List.range c.rxRingLen).countP fun i => (r.rxBdBase i).last && !(r.rxBdBase i).empty

/-- A frame with a descriptor without data in front: the call reports an error, and the rest of the frame stays in the
ring, where the next call takes it for a frame. -/
theorem getRxFrame_splits_frame :
    ∃ r r₁ r₂, [RxEvent.fill 0 false false, .fill 64 true false].foldl (RxRing.step fourRx) (some (init id [10, 11])) =
        some r ∧
      r.getRxFrame fourRx [] = some (r₁, { status := .rxFrameError, rxBuffArray := [], totLen := 0 }) ∧
      framesInRing fourRx r = 1 ∧ framesInRing fourRx r₁ = 1 ∧
      r₁.getRxFrame fourRx [some 10] = some (r₂, { status := .success, rxBuffArray := [(1, 64)], totLen := 64 }) := by
  refine ⟨_, _, _, rfl, rfl, ?_, ?_, rfl⟩
  · decide
  · decide

end RxRing

end McuxDrivers.Enet
