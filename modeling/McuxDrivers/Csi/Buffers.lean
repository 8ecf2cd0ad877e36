import Mathlib.Data.List.Perm.Basic
import McuxDrivers.Csi.Driver

/-!
# The buffers of the CSI driver

A buffer that was submitted waits in the empty queue, is in a DMA register or waits in the full queue. The queues do not
wrap: their positions start again only when they become empty, so there can be no room at the tail of a queue that is
not full.
-/

namespace McuxDrivers.Csi
open McuxDrivers.Lib

namespace BufQueue

variable {size : Nat} {bq : BufQueue} {a : Nat} {xs : List Nat}

/-- The positions lie in the array, the head not behind the tail. -/
def Placed (size : Nat) (bq : BufQueue) : Prop :=
  bq.isEmpty ∨ ∃ h n : Nat, bq.head = h ∧ bq.tail = h + n ∧ h + n < size

lemma contents_of_isEmpty (h : bq.isEmpty) : bq.contents = [] := by
  rw [contents, count, if_pos h]
  rfl

lemma not_isEmpty_of_head {h : Nat} (hhead : bq.head = h) : ¬bq.isEmpty := by
  intro hempty
  have := hempty.1
  omega

lemma count_eq {h n : Nat} (hhead : bq.head = h) (htail : bq.tail = h + n) : bq.count = n + 1 := by
  rw [count, if_neg (not_isEmpty_of_head hhead), hhead, htail]
  omega

lemma contents_eq {h n : Nat} (hhead : bq.head = h) (htail : bq.tail = h + n) :
    bq.contents = (List.range' h (n + 1)).map bq.addr := by
  rw [contents, count_eq hhead htail, hhead]
  rfl

lemma length_contents : bq.contents.length = bq.count := by
  rw [contents, List.length_map, List.length_range']

namespace Placed

lemma init (bq : BufQueue) : bq.init.Placed size :=
  Or.inl ⟨rfl, rfl⟩

lemma isEmpty_iff (h : bq.Placed size) : bq.isEmpty ↔ bq.contents = [] := by
  constructor
  · exact contents_of_isEmpty
  · intro hnil
    rcases h with hempty | ⟨h, n, hhead, htail, -⟩
    · exact hempty
    · rw [contents_eq hhead htail] at hnil
      cases hnil

/-- A full queue whose head has not moved holds as many buffers as the array. -/
lemma length_of_isFull (h : bq.Placed size) (hfull : bq.isFull size) (hhead : bq.head ≤ 0) :
    bq.contents.length = size := by
  rw [isFull] at hfull
  rcases h with hempty | ⟨h, n, hh, ht, -⟩
  · rw [contents_of_isEmpty hempty]
    have := hempty.2
    simp only [List.length_nil]
    omega
  · rw [length_contents, count_eq hh ht]
    omega

lemma enqueue (h : bq.Placed size) (hfull : ¬bq.isFull size) (a : Nat) :
    (bq.enqueue size a).1.Placed size ∧ (bq.enqueue size a).1.contents = bq.contents ++ [a] := by
  rw [BufQueue.enqueue, if_neg hfull]
  rw [isFull] at hfull
  rcases h with hempty | ⟨h, n, hhead, htail, hlt⟩
  · have htail := hempty.2
    constructor
    · refine Or.inr ⟨0, 0, ?_, ?_, ?_⟩
      · exact if_pos hempty
      · simp [htail]
      · omega
    · rw [contents_of_isEmpty hempty, contents_eq (h := 0) (n := 0) (if_pos hempty) (by simp [htail])]
      simp [htail]
  · have hne := not_isEmpty_of_head hhead
    constructor
    · refine Or.inr ⟨h, n + 1, ?_, ?_, ?_⟩
      · exact (if_neg hne).trans hhead
      · simp only [htail]
        omega
      · omega
    · rw [contents_eq hhead htail, contents_eq (h := h) (n := n + 1) ((if_neg hne).trans hhead)
        (by simp only [htail]; omega), List.range'_1_concat, List.map_append, List.map_singleton]
      have htoNat : (bq.tail + 1).toNat = h + (n + 1) := by omega
      simp only [htoNat, Function.update_self]
      congr 1
      apply List.map_congr_left
      intro i hi
      rw [List.mem_range'_1] at hi
      exact Function.update_of_ne (by omega) _ _

lemma tail_enqueue (hfull : ¬bq.isFull size) (a : Nat) : (bq.enqueue size a).1.tail = bq.tail + 1 := by
  rw [BufQueue.enqueue, if_neg hfull]

lemma dequeue (h : bq.Placed size) (hcontents : bq.contents = a :: xs) :
    bq.dequeue.1.Placed size ∧ bq.dequeue.1.contents = xs ∧ bq.dequeue.2 = a := by
  rcases h with hempty | ⟨h, n, hhead, htail, hlt⟩
  · rw [contents_of_isEmpty hempty] at hcontents
    cases hcontents
  · rw [contents_eq hhead htail, List.range'_succ, List.map_cons] at hcontents
    obtain ⟨hfirst, hrest⟩ := List.cons.inj hcontents
    rw [BufQueue.dequeue, if_neg (not_isEmpty_of_head hhead)]
    have haddr : bq.addr bq.head.toNat = a := by rw [hhead, Int.toNat_natCast, hfirst]
    cases n with
    | zero =>
      rw [if_pos (by omega)]
      refine ⟨init bq, ?_, haddr⟩
      rw [contents_of_isEmpty ⟨rfl, rfl⟩, ← hrest]
      rfl
    | succ n =>
      rw [if_neg (by omega)]
      have hhead' : bq.head + 1 = ((h + 1 : Nat) : Int) := by omega
      have htail' : bq.tail = ((h + 1 : Nat) : Int) + n := by omega
      have hcontents' : ({ bq with head := bq.head + 1 } : BufQueue).contents =
          (List.range' (h + 1) (n + 1)).map bq.addr := contents_eq hhead' htail'
      exact ⟨Or.inr ⟨h + 1, n, hhead', htail', by omega⟩, hcontents'.trans hrest, haddr⟩

end Placed

end BufQueue

namespace Handle

variable {size : Nat} {s : Handle}

/-- Every buffer that was submitted and not returned is in one place, the full buffers are returned in the order in which
they were done, and every refused submission met a queue of `size` buffers. -/
structure Conserved (size : Nat) (s : Handle) : Prop where
  places : (s.emptyBufferQueue.contents ++ s.active ++ s.fullBufferQueue.contents).Perm s.outstanding
  distinct : s.outstanding.Nodup
  order : s.completed = s.returned ++ s.fullBufferQueue.contents
  refused : ∀ n ∈ s.refusals, n = size

/-- The queues and the registers between two calls. -/
structure Inv (size : Nat) (s : Handle) : Prop extends Conserved size s where
  empty_placed : s.emptyBufferQueue.Placed size
  full_placed : s.fullBufferQueue.Placed size
  num_le : s.activeBufferNum ≤ 2
  one : s.activeBufferNum = 1 → s.fb1 = s.fb2 ∧ s.emptyBufferQueue.isEmpty
  two : s.activeBufferNum = 2 → s.fb1 ≠ s.fb2

/-- The application submits a buffer only when it has it. -/
def Fresh (s : Handle) : Event → Prop
  | .submit frameBuffer => frameBuffer ∉ s.outstanding
  | _ => True

/-- The call finds room at the tails of the queues that it writes to, and no buffers in the registers that it
overwrites. -/
def HasRoom (size : Nat) (s : Handle) : Event → Prop
  | .submit _ => s.activeBufferNum = 1 ∨ ¬s.emptyBufferQueue.isFull size ∨ s.emptyBufferQueue.head ≤ 0
  | .start => s.activeBufferNum = 0 ∨ s.emptyBufferQueue.count < maxActiveFrameNum
  | .stop => s.emptyBufferQueue.tail + s.activeBufferNum < size
  | .getFull => True
  | .irq fb1Done fb2Done =>
    fb1Done = fb2Done ∨
      (s.activeBufferNum = 0 ∧ s.emptyBufferQueue.isEmpty) ∨
      (s.activeBufferNum = 1) ∨
      (1 < s.activeBufferNum ∧ ¬s.fullBufferQueue.isFull size)

instance (s : Handle) : (event : Event) → Decidable (s.Fresh event)
  | .submit _ => inferInstanceAs (Decidable (_ ∉ _))
  | .start | .stop | .getFull | .irq _ _ => isTrue trivial

instance (s : Handle) : (event : Event) → Decidable (s.HasRoom size event)
  | .submit _ => inferInstanceAs (Decidable (_ ∨ _ ∨ _))
  | .start => inferInstanceAs (Decidable (_ ∨ _))
  | .stop => inferInstanceAs (Decidable (_ < _))
  | .getFull => isTrue trivial
  | .irq _ _ => inferInstanceAs (Decidable (_ ∨ _ ∨ _ ∨ _))

namespace Inv

lemma transferCreateHandle (fb1 fb2 : Nat) : Inv size (transferCreateHandle fb1 fb2) where
  places := List.Perm.nil
  distinct := List.nodup_nil
  order := rfl
  refused := nofun
  empty_placed := BufQueue.Placed.init _
  full_placed := BufQueue.Placed.init _
  num_le := Nat.zero_le 2
  one := nofun
  two := nofun

lemma places_nodup (h : Inv size s) :
    (s.emptyBufferQueue.contents ++ s.active ++ s.fullBufferQueue.contents).Nodup :=
  h.places.nodup_iff.mpr h.distinct

lemma active_zero (hnum : s.activeBufferNum = 0) : s.active = [] :=
  if_pos hnum

lemma active_one (hnum : s.activeBufferNum = 1) (hsame : s.fb1 = s.fb2) : s.active = [s.fb1] := by
  rw [active, if_neg (by omega), if_pos hsame]

lemma active_two (hnum : s.activeBufferNum = 2) (hne : s.fb1 ≠ s.fb2) : s.active = [s.fb1, s.fb2] := by
  rw [active, if_neg (by omega), if_neg hne]

lemma of_two (hne : s.fb1 ≠ s.fb2)
    (hplaces : (s.emptyBufferQueue.contents ++ [s.fb1, s.fb2] ++ s.fullBufferQueue.contents).Perm s.outstanding)
    (hdistinct : s.outstanding.Nodup) (horder : s.completed = s.returned ++ s.fullBufferQueue.contents)
    (hrefused : ∀ n ∈ s.refusals, n = size) (hempty : s.emptyBufferQueue.Placed size)
    (hfull : s.fullBufferQueue.Placed size) (hnum : s.activeBufferNum = 2) : Inv size s where
  places := by rwa [active_two hnum hne]
  distinct := hdistinct
  order := horder
  refused := hrefused
  empty_placed := hempty
  full_placed := hfull
  num_le := by omega
  one := by omega
  two := fun _ => hne

lemma fresh_ne {a b : Nat} (h : Inv size s) (hfresh : b ∉ s.outstanding) (ha : a ∈ s.active) : b ≠ a := by
  rintro rfl
  apply hfresh
  apply h.places.subset
  simp [ha]

/-- With one active buffer, a submitted buffer goes to the register of the last frame. -/
lemma submit_active {b : Nat} (h : Inv size s) (hfresh : b ∉ s.outstanding) (hnum : s.activeBufferNum = 1) :
    Inv size (s.submit size b) := by
  obtain ⟨hsame, hempty⟩ := h.one hnum
  have hactive := active_one hnum hsame
  have hne : b ≠ s.fb1 := h.fresh_ne hfresh (by simp [hactive])
  have hplaces := h.places
  rw [hactive, BufQueue.contents_of_isEmpty hempty] at hplaces
  have hperm : ([b, s.fb1] ++ s.fullBufferQueue.contents).Perm (b :: s.outstanding) := hplaces.cons b
  have hswap : ([s.fb1, b] ++ s.fullBufferQueue.contents).Perm (b :: s.outstanding) :=
    (List.Perm.swap b s.fb1 _).trans hperm
  have hdistinct : (b :: s.outstanding).Nodup := List.nodup_cons.mpr ⟨hfresh, h.distinct⟩
  rw [submit, transferSubmitEmptyBuffer, if_pos hnum, if_pos rfl, setRxBufferAddr]
  split_ifs
  · apply of_two
    · exact hne.symm
    · simpa [BufQueue.contents_of_isEmpty hempty] using hswap
    · exact hdistinct
    · exact h.order
    · exact h.refused
    · exact h.empty_placed
    · exact h.full_placed
    · exact congrArg (· + 1) hnum
  · apply of_two
    · exact hsame ▸ hne
    · simpa [BufQueue.contents_of_isEmpty hempty, hsame] using hperm
    · exact hdistinct
    · exact h.order
    · exact h.refused
    · exact h.empty_placed
    · exact h.full_placed
    · exact congrArg (· + 1) hnum

/-- The other submitted buffers wait in the empty queue. -/
lemma submit_queue {b : Nat} (h : Inv size s) (hfresh : b ∉ s.outstanding) (hnum : s.activeBufferNum ≠ 1)
    (hroom : ¬s.emptyBufferQueue.isFull size ∨ s.emptyBufferQueue.head ≤ 0) : Inv size (s.submit size b) := by
  rw [submit, transferSubmitEmptyBuffer, if_neg hnum]
  by_cases hfull : s.emptyBufferQueue.isFull size
  · have hhead : s.emptyBufferQueue.head ≤ 0 := hroom.resolve_left (not_not.mpr hfull)
    have hlength := h.empty_placed.length_of_isFull hfull hhead
    have hresult : s.emptyBufferQueue.enqueue size b = (s.emptyBufferQueue, .queueFull) := if_pos hfull
    rw [hresult]
    exact { h with
      refused := by
        intro n hn
        rcases List.mem_cons.mp hn with rfl | hn
        · exact hlength
        · exact h.refused n hn }
  · have hstatus : (s.emptyBufferQueue.enqueue size b).2 = .success := by rw [BufQueue.enqueue, if_neg hfull]
    obtain ⟨hplaced, hcontents⟩ := h.empty_placed.enqueue hfull b
    have hplaces : (s.emptyBufferQueue.contents ++ [b] ++ s.active ++ s.fullBufferQueue.contents).Perm
        (b :: s.outstanding) := by
      apply List.Perm.trans _ (h.places.cons b)
      simp only [List.append_assoc, List.singleton_append]
      exact List.perm_middle
    rw [if_pos hstatus]
    exact {
      places := by
        rw [← hcontents] at hplaces
        exact hplaces
      distinct := List.nodup_cons.mpr ⟨hfresh, h.distinct⟩
      order := h.order
      refused := h.refused
      empty_placed := hplaced
      full_placed := h.full_placed
      num_le := h.num_le
      one := fun hone => absurd hone hnum
      two := h.two }

lemma start (h : Inv size s) (hroom : s.activeBufferNum = 0 ∨ s.emptyBufferQueue.count < maxActiveFrameNum) :
    Inv size s.transferStart.1 := by
  rw [transferStart]
  split_ifs with hcount
  · exact h
  · have hnum := hroom.resolve_right hcount
    rw [← BufQueue.length_contents, maxActiveFrameNum, Nat.not_lt] at hcount
    obtain ⟨a, b, rest, hcontents⟩ : ∃ a b rest, s.emptyBufferQueue.contents = a :: b :: rest := by
      match hs : s.emptyBufferQueue.contents with
      | [] => simp [hs] at hcount
      | [_] => simp [hs] at hcount
      | a :: b :: rest => exact ⟨a, b, rest, rfl⟩
    obtain ⟨hplaced, hrest, ha⟩ := h.empty_placed.dequeue hcontents
    obtain ⟨hplaced, hrest, hb⟩ := hplaced.dequeue hrest
    have hplaces := h.places
    have hnodup := h.places_nodup
    rw [hcontents, active_zero hnum] at hplaces hnodup
    apply of_two
    · simp only [ha, hb]
      rintro rfl
      simp at hnodup
    · simp only [ha, hb, hrest]
      rw [List.append_assoc]
      apply (List.perm_append_comm_assoc rest [a, b] s.fullBufferQueue.contents).trans
      simpa using hplaces
    · exact h.distinct
    · exact h.order
    · exact h.refused
    · exact hplaced
    · exact h.full_placed
    · rfl

/-- The empty queue of a stopped transfer takes the active buffers back. -/
lemma of_stopped {bq : BufQueue} (h : Inv size s) (hplaced : bq.Placed size)
    (hcontents : bq.contents = s.emptyBufferQueue.contents ++ s.active) :
    Inv size { s with transferStarted := false, activeBufferNum := 0, emptyBufferQueue := bq } where
  places := by
    have hplaces := h.places
    rw [← hcontents] at hplaces
    simpa [active_zero] using hplaces
  distinct := h.distinct
  order := h.order
  refused := h.refused
  empty_placed := hplaced
  full_placed := h.full_placed
  num_le := Nat.zero_le 2
  one := nofun
  two := nofun

lemma stop (h : Inv size s) (hroom : s.emptyBufferQueue.tail + s.activeBufferNum < size) :
    Inv size (s.transferStop size).1 := by
  have hle := h.num_le
  rw [transferStop]
  obtain hnum | hnum | hnum : s.activeBufferNum = 0 ∨ s.activeBufferNum = 1 ∨ s.activeBufferNum = 2 := by omega
  · rw [hnum]
    exact h.of_stopped h.empty_placed (by rw [active_zero hnum, List.append_nil])
  · have hfull : ¬s.emptyBufferQueue.isFull size := by
      rw [BufQueue.isFull]
      omega
    obtain ⟨hplaced, hcontents⟩ := h.empty_placed.enqueue hfull s.fb1
    rw [← active_one hnum (h.one hnum).1] at hcontents
    rw [hnum]
    exact h.of_stopped hplaced hcontents
  · have hfull : ¬s.emptyBufferQueue.isFull size := by
      rw [BufQueue.isFull]
      omega
    obtain ⟨hplaced, hcontents⟩ := h.empty_placed.enqueue hfull s.fb1
    have hfull' : ¬(s.emptyBufferQueue.enqueue size s.fb1).1.isFull size := by
      rw [BufQueue.isFull, BufQueue.Placed.tail_enqueue hfull]
      omega
    obtain ⟨hplaced, hcontents'⟩ := hplaced.enqueue hfull' s.fb2
    rw [hcontents, List.append_assoc, List.singleton_append, ← active_two hnum (h.two hnum)] at hcontents'
    rw [hnum]
    exact h.of_stopped hplaced hcontents'

lemma getFull (h : Inv size s) : Inv size s.getFull := by
  rw [Handle.getFull, transferGetFullBuffer]
  by_cases hempty : s.fullBufferQueue.isEmpty
  · rw [if_pos hempty]
    exact h
  · rw [if_neg hempty]
    rw [h.full_placed.isEmpty_iff] at hempty
    obtain ⟨a, rest, hcontents⟩ := List.exists_cons_of_ne_nil hempty
    obtain ⟨hplaced, hrest, ha⟩ := h.full_placed.dequeue hcontents
    have hplaces : (s.emptyBufferQueue.contents ++ s.active ++ rest).Perm (s.outstanding.erase a) := by
      have hall := h.places
      rw [hcontents] at hall
      have herase := (List.perm_middle.symm.trans hall).erase a
      rwa [List.erase_cons_head] at herase
    have horder : s.completed = s.returned ++ [a] ++ rest := by
      rw [h.order, hcontents, List.append_assoc]
      rfl
    dsimp only
    rw [ha]
    exact {
      places := by
        rw [← hrest] at hplaces
        exact hplaces
      distinct := h.distinct.erase a
      order := by
        rw [← hrest] at horder
        exact horder
      refused := h.refused
      empty_placed := h.empty_placed
      full_placed := hplaced
      num_le := h.num_le
      one := h.one
      two := h.two }

/-- The two registers, the one of the frame that is done first. -/
lemma active_perm {index : Nat} (hnum : s.activeBufferNum = 2) (hne : s.fb1 ≠ s.fb2) (hindex : index = 0 ∨ index = 1) :
    s.active.Perm [s.getRxBufferAddr index, s.getRxBufferAddr (index ^^^ 1)] := by
  rw [active_two hnum hne]
  rcases hindex with rfl | rfl
  · exact List.Perm.refl _
  · exact List.Perm.swap _ _ _

/-- The register of the frame that is done gets the next empty buffer. -/
lemma frameDone_replace {index : Nat} (h : Inv size s) (hindex : index = 0 ∨ index = 1) (hnum : s.activeBufferNum = 2)
    (hfull : ¬s.fullBufferQueue.isFull size) (hcount : 0 < s.emptyBufferQueue.count) :
    Inv size (s.frameDone size index).1 := by
  rw [← BufQueue.length_contents, List.length_pos_iff] at hcount
  obtain ⟨a, rest, hcontents⟩ := List.exists_cons_of_ne_nil hcount
  obtain ⟨hplaced, hrest, ha⟩ := h.empty_placed.dequeue hcontents
  obtain ⟨hfullPlaced, hfullContents⟩ := h.full_placed.enqueue hfull (s.getRxBufferAddr index)
  have hactive := active_perm hnum (h.two hnum) hindex
  have hother : a ≠ s.getRxBufferAddr (index ^^^ 1) := by
    have hnodup := h.places_nodup
    rw [hcontents] at hnodup
    rintro rfl
    have hmem : s.getRxBufferAddr (index ^^^ 1) ∈ s.active := hactive.mem_iff.mpr (by simp)
    simp [hmem] at hnodup
  have hplaces : (rest ++ [a, s.getRxBufferAddr (index ^^^ 1)] ++
      (s.fullBufferQueue.contents ++ [s.getRxBufferAddr index])).Perm s.outstanding := by
    apply List.Perm.trans _ h.places
    rw [List.perm_iff_count]
    intro x
    have hx := hactive.count_eq x
    simp only [hcontents, List.count_append, List.count_cons, List.count_nil] at hx ⊢
    omega
  have horder : s.completed ++ [s.getRxBufferAddr index] =
      s.returned ++ (s.fullBufferQueue.contents ++ [s.getRxBufferAddr index]) := by
    rw [h.order, List.append_assoc]
  rw [← hrest, ← hfullContents, ← ha] at hplaces
  rw [← hfullContents] at horder
  rw [← ha] at hother
  rw [← List.length_pos_iff, BufQueue.length_contents] at hcount
  have hresult : (s.frameDone size index).1 =
      ({ s with
          dmaDoneBufferIdx := index
          fullBufferQueue := (s.fullBufferQueue.enqueue size (s.getRxBufferAddr index)).1
          completed := s.completed ++ [s.getRxBufferAddr index]
          emptyBufferQueue := s.emptyBufferQueue.dequeue.1 } : Handle).setRxBufferAddr index
        s.emptyBufferQueue.dequeue.2 := by
    rw [frameDone, if_pos hcount, storeFull, if_neg hfull]
    rfl
  rw [hresult]
  rcases hindex with rfl | rfl
  · exact of_two hother hplaces h.distinct horder h.refused hplaced hfullPlaced hnum
  · have hswap := (((List.Perm.swap (s.emptyBufferQueue.dequeue.2) s.fb1 []).append_left _).append_right _).trans hplaces
    exact of_two hother.symm hswap h.distinct horder h.refused hplaced hfullPlaced hnum

/-- Without an empty buffer, both registers get the buffer of the other one. -/
lemma frameDone_last {index : Nat} (h : Inv size s) (hindex : index = 0 ∨ index = 1) (hnum : s.activeBufferNum = 2)
    (hfull : ¬s.fullBufferQueue.isFull size) (hcount : s.emptyBufferQueue.count = 0) :
    Inv size (s.frameDone size index).1 := by
  have hnil : s.emptyBufferQueue.contents = [] := by
    rwa [← List.length_eq_zero_iff, BufQueue.length_contents]
  obtain ⟨hfullPlaced, hfullContents⟩ := h.full_placed.enqueue hfull (s.getRxBufferAddr index)
  have hactive := active_perm hnum (h.two hnum) hindex
  have hplaces : (s.emptyBufferQueue.contents ++ [s.getRxBufferAddr (index ^^^ 1)] ++
      (s.fullBufferQueue.contents ++ [s.getRxBufferAddr index])).Perm s.outstanding := by
    apply List.Perm.trans _ h.places
    rw [List.perm_iff_count]
    intro x
    have hx := hactive.count_eq x
    simp only [hnil, List.count_append, List.count_cons, List.count_nil] at hx ⊢
    omega
  have horder : s.completed ++ [s.getRxBufferAddr index] =
      s.returned ++ (s.fullBufferQueue.contents ++ [s.getRxBufferAddr index]) := by
    rw [h.order, List.append_assoc]
  rw [← hfullContents] at hplaces horder
  have hresult : (s.frameDone size index).1 =
      { s with
          dmaDoneBufferIdx := index
          fullBufferQueue := (s.fullBufferQueue.enqueue size (s.getRxBufferAddr index)).1
          completed := s.completed ++ [s.getRxBufferAddr index]
          activeBufferNum := 1
          fb1 := s.getRxBufferAddr (index ^^^ 1)
          fb2 := s.getRxBufferAddr (index ^^^ 1) } := by
    simp only [frameDone, hcount, Nat.lt_irrefl, if_false, hnum, storeFull, if_neg hfull]
    rcases hindex with rfl | rfl <;> rfl
  rw [hresult]
  exact {
    places := by
      rw [active_one rfl rfl]
      exact hplaces
    distinct := h.distinct
    order := horder
    refused := h.refused
    empty_placed := h.empty_placed
    full_placed := hfullPlaced
    num_le := Nat.le_succ 1
    one := fun _ => ⟨rfl, h.empty_placed.isEmpty_iff.mpr hnil⟩
    two := nofun }

/-- Without an empty buffer and a second active one, the frame is skipped. -/
lemma frameDone_skip {index : Nat} (h : Inv size s) (hnum : s.activeBufferNum ≤ 1) (hempty : s.emptyBufferQueue.isEmpty) :
    Inv size (s.frameDone size index).1 := by
  have hcount : s.emptyBufferQueue.count = 0 := if_pos hempty
  have hresult : (s.frameDone size index).1 = { s with dmaDoneBufferIdx := index } := by
    simp only [frameDone, hcount, Nat.lt_irrefl, if_false, Nat.not_lt.mpr hnum]
    split_ifs <;> rfl
  rw [hresult]
  exact { h with }

lemma frameDone {index : Nat} (h : Inv size s) (hindex : index = 0 ∨ index = 1)
    (hroom : (s.activeBufferNum = 0 ∧ s.emptyBufferQueue.isEmpty) ∨ (s.activeBufferNum = 1) ∨
      (1 < s.activeBufferNum ∧ ¬s.fullBufferQueue.isFull size)) :
    Inv size (s.frameDone size index).1 := by
  rcases hroom with ⟨hnum, hempty⟩ | hnum | ⟨hnum, hfull⟩
  · exact h.frameDone_skip (by omega) hempty
  · exact h.frameDone_skip (by omega) (h.one hnum).2
  · have hle := h.num_le
    rcases Nat.eq_zero_or_pos s.emptyBufferQueue.count with hcount | hcount
    · exact h.frameDone_last hindex (by omega) hfull hcount
    · exact h.frameDone_replace hindex (by omega) hfull hcount

lemma step (h : Inv size s) {event : Event} (hfresh : s.Fresh event) (hroom : s.HasRoom size event) :
    Inv size (s.step size event) := by
  cases event with
  | submit frameBuffer =>
    by_cases hnum : s.activeBufferNum = 1
    · exact h.submit_active hfresh hnum
    · exact h.submit_queue hfresh hnum (hroom.resolve_left hnum)
  | start => exact h.start hroom
  | stop => exact h.stop hroom
  | getFull => exact h.getFull
  | irq fb1Done fb2Done =>
    cases fb1Done <;> cases fb2Done
    · exact h
    · exact h.frameDone (Or.inr rfl) (hroom.resolve_left nofun)
    · exact h.frameDone (Or.inl rfl) (hroom.resolve_left nofun)
    · exact h

end Inv

/-- While the calls find room, no buffer is lost or doubled. -/
theorem buffers_conserved (size fb1 fb2 : Nat) (events : List Event)
    (hrun : EachStep (step size) (fun s event => s.Fresh event ∧ s.HasRoom size event)
      (transferCreateHandle fb1 fb2) events) :
    Conserved size (events.foldl (step size) (transferCreateHandle fb1 fb2)) := by
  have hinv := hrun.invariant (I := Inv size) (fun s event h hcond => h.step hcond.1 hcond.2) events
    (Inv.transferCreateHandle fb1 fb2)
  exact hinv.toConserved

/-- Four buffers through queues of four, with a stop in the middle. -/
theorem buffers_conserved_four :
    Conserved 4 (([.submit 1, .submit 2, .start, .submit 3, .irq true false, .irq false true, .irq true false, .getFull,
      .stop, .submit 1, .getFull, .getFull] : List Event).foldl (step 4) (transferCreateHandle 0 0)) :=
  buffers_conserved 4 0 0 _ (by decide)

/-- The full queue of two holds one buffer, at its last place: the next full buffer drops it. -/
theorem buffers_not_conserved :
    ¬∀ (size fb1 fb2 : Nat) (events : List Event),
      EachStep (step size) Fresh (transferCreateHandle fb1 fb2) events →
        Conserved size (events.foldl (step size) (transferCreateHandle fb1 fb2)) := by
  intro h
  have hlost := h 2 0 0 [.submit 1, .submit 2, .start, .submit 3, .submit 4, .irq true false, .irq false true, .getFull,
    .submit 1, .irq true false] (by decide)
  have hlength := hlost.places.length_eq
  revert hlength
  decide

end Handle

end McuxDrivers.Csi
