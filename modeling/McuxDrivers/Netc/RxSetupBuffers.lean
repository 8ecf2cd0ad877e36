import McuxDrivers.Netc.RxSetup
import Mathlib.Algebra.Group.Nat.Defs
import Mathlib.Data.List.Perm.Basic
import Mathlib.Data.List.Nodup
import Mathlib.Data.List.Range

/-!
# Which setups of the receive rings leave no buffer behind

The buffers of a setup with zero copy, ring by ring. In a ring with more than 65535 descriptors the 16-bit index comes
back to the first places of the array before the end.
-/

namespace McuxDrivers.Netc

namespace RxBdrConfig

variable (c : RxBdrConfig)

lemma len_eq : c.len = c.bdIndex c.maxHwBdNum := by
  have hok := c.len_ok
  unfold bdIndex maxHwBdNum
  split_ifs at hok ⊢ <;> omega

lemma maxHwBdNum_le : c.maxHwBdNum ≤ 2 * c.period := by
  have hok := c.len_ok
  unfold maxHwBdNum period
  split_ifs at hok ⊢ <;> omega

lemma maxHwBdNum_eq_zero_iff : c.maxHwBdNum = 0 ↔ c.len = 0 := by
  have hok := c.len_ok
  unfold maxHwBdNum
  split_ifs at hok ⊢ <;> omega

/-- The index of a ring that it can count to does not come back. -/
lemma maxHwBdNum_lt_period (h : c.len < 2 ^ 16) : c.maxHwBdNum < c.period := by
  unfold maxHwBdNum period
  split_ifs <;> omega

lemma bdIndex_injective : Function.Injective c.bdIndex := by
  intro i j h
  unfold bdIndex at h
  split_ifs at h <;> omega

end RxBdrConfig

/-- The array of a ring after the first `a` buffers. -/
def filled (period : Nat) (buffer init : Nat → Nat) : Nat → Nat → Nat
  | 0 => init
  | a + 1 => Function.update (filled period buffer init a) (a % period) (buffer a)

section Places

variable {period : Nat} {buffer init : Nat → Nat}

lemma filled_eq {a : Nat} (ha : a ≤ 2 * period) (j : Nat) : filled period buffer init a j =
    if j + period < a then buffer (j + period) else if j < min a period then buffer j else init j := by
  induction a with
  | zero => simp [filled]
  | succ a ih =>
    rw [filled, Function.update_apply, ih (by omega)]
    by_cases hlt : a < period
    · rw [Nat.mod_eq_of_lt hlt]
      by_cases hj : j = a
      · rw [if_pos hj, if_neg (by omega), if_pos (by omega), hj]
      · rw [if_neg hj]
        split_ifs <;> first | rfl | omega
    · have hmod : a % period = a - period := by
        rw [Nat.mod_eq_sub_mod (by omega), Nat.mod_eq_of_lt (by omega)]
      rw [hmod]
      by_cases hj : j = a - period
      · rw [if_pos hj, if_pos (by omega), hj]
        exact congrArg buffer (by omega)
      · rw [if_neg hj]
        split_ifs <;> first | rfl | omega

/-- The first contents of the places that no buffer has come to. -/
def leftOver (period : Nat) (init : Nat → Nat) (a n : Nat) : List Nat :=
  ((List.range' (min a period) (n - min a period)).map init).filter (· ≠ 0)

/-- The buffers whose places have been written again. -/
def overwritten (period : Nat) (buffer : Nat → Nat) (a : Nat) : List Nat :=
  (List.range (a - period)).map buffer

lemma range_split {i j : Nat} (h : i ≤ j) : List.range j = List.range i ++ List.range' i (j - i) := by
  have happend := List.range'_append_1 (s := 0) (m := i) (n := j - i)
  rw [Nat.zero_add, Nat.add_sub_cancel' h] at happend
  rw [List.range_eq_range', List.range_eq_range', happend]

/-- The places of a ring: those written twice, those written once, and the others. -/
lemma filled_places {a n : Nat} (ha : a ≤ n) (hn : n ≤ 2 * period) (hnonnull : ∀ t < a, buffer t ≠ 0) :
    ((List.range n).map (filled period buffer init a)).filter (· ≠ 0) =
      (List.range' (min a period) (a - period)).map buffer ++
        (List.range' (a - period) (min a period - (a - period))).map buffer ++ leftOver period init a n := by
  set k := a - period with hk
  set m := min a period with hm
  have hagain : (List.range k).map (filled period buffer init a) = (List.range' m k).map buffer := by
    rw [List.range'_eq_map_range, List.map_map]
    apply List.map_congr_left
    intro j hj
    rw [List.mem_range] at hj
    change filled period buffer init a j = buffer (m + j)
    rw [filled_eq (by omega), if_pos (by omega)]
    exact congrArg buffer (by omega)
  have honce : (List.range' k (m - k)).map (filled period buffer init a) = (List.range' k (m - k)).map buffer := by
    apply List.map_congr_left
    intro j hj
    rw [List.mem_range'_1] at hj
    rw [filled_eq (by omega), if_neg (by omega), if_pos (by omega)]
  have hnever : (List.range' m (n - m)).map (filled period buffer init a) = (List.range' m (n - m)).map init := by
    apply List.map_congr_left
    intro j hj
    rw [List.mem_range'_1] at hj
    rw [filled_eq (by omega), if_neg (by omega), if_neg (by omega)]
  have hbuffers : ∀ i l : Nat, i + l ≤ a → ((List.range' i l).map buffer).filter (· ≠ 0) = (List.range' i l).map buffer := by
    intro i l hl
    apply List.filter_eq_self.2
    intro b hb
    obtain ⟨t, ht, rfl⟩ := List.mem_map.1 hb
    rw [List.mem_range'_1] at ht
    simpa using hnonnull t (by omega)
  rw [range_split (show m ≤ n by omega), range_split (show k ≤ m by omega), List.map_append, List.map_append, List.filter_append,
    List.filter_append, hagain, honce, hnever, hbuffers m k (by omega), hbuffers k (m - k) (by omega)]
  rfl

lemma filled_perm_iff {a n : Nat} (ha : a ≤ n) (hn : n ≤ 2 * period) (hnonnull : ∀ t < a, buffer t ≠ 0) :
    (((List.range n).map (filled period buffer init a)).filter (· ≠ 0)).Perm ((List.range a).map buffer) ↔
      (leftOver period init a n).Perm (overwritten period buffer a) := by
  set k := a - period with hk
  set m := min a period with hm
  have hall : (List.range a).map buffer =
      overwritten period buffer a ++ (List.range' k (m - k)).map buffer ++ (List.range' m k).map buffer := by
    rw [range_split (show m ≤ a by omega), range_split (show k ≤ m by omega), List.map_append, List.map_append, show a - m = k by omega]
    rfl
  have hswap : (overwritten period buffer a ++ (List.range' k (m - k)).map buffer ++ (List.range' m k).map buffer).Perm
      ((List.range' m k).map buffer ++ (List.range' k (m - k)).map buffer ++ overwritten period buffer a) := by
    apply List.perm_append_comm.trans
    rw [List.append_assoc]
    exact List.Perm.append_left _ List.perm_append_comm
  rw [filled_places ha hn hnonnull, hall, hswap.congr_right, List.perm_append_left_iff]

end Places
namespace RxSetup

section Ring

variable (alloc : BuffAlloc) (c : RxBdrConfig) (ring : Nat)

@[simp]
lemma allocated_setAddr (s : RxSetup) (ring index addr : Nat) : (s.setAddr ring index addr).allocated = s.allocated :=
  rfl

/-- One round for a descriptor. -/
lemma fillRing_succ (left rxDesc : Nat) {index : Nat} (h : index < c.len) (s : RxSetup) :
    fillRing alloc true c ring (left + 1) rxDesc index s =
      let s := s.setAddr ring rxDesc 0
      let next := fillRing alloc true c ring left (rxDesc + 1) ((index + 1) % 2 ^ 16)
      if c.extendDescEn ∧ index % 2 ≠ 0 then next s
      else if alloc.answer s.allocated.length = 0 then some (true, s)
      else next ((s.keep ring (if c.extendDescEn then index / 2 else index) (alloc.answer s.allocated.length)).setAddr ring
        rxDesc (alloc.answer s.allocated.length)) := by
  rw [fillRing.eq_def]
  exact if_pos h

/-- The setup after the round for the buffer `a` of a ring. -/
def afterRound (s : RxSetup) (a buffAddr : Nat) : RxSetup :=
  let s := ((s.setAddr ring (c.bdIndex a) 0).keep ring (a % c.period) buffAddr).setAddr ring (c.bdIndex a) buffAddr
  if c.extendDescEn then s.setAddr ring (c.bdIndex a + 1) 0 else s

/-- The rounds of the loop from the buffer `a` on. -/
def fillFrom (a : Nat) (s : RxSetup) : Option (Bool × RxSetup) :=
  fillRing alloc true c ring (c.len - c.bdIndex a) (c.bdIndex a) (c.bdIndex (a % c.period)) s

lemma fillFrom_round {a : Nat} (ha : a < c.maxHwBdNum) (s : RxSetup) :
    fillFrom alloc c ring a s =
      if alloc.answer s.allocated.length = 0 then some (true, s.setAddr ring (c.bdIndex a) 0)
      else fillFrom alloc c ring (a + 1) (s.afterRound c ring a (alloc.answer s.allocated.length)) := by
  have hok := c.len_ok
  unfold fillFrom afterRound RxBdrConfig.bdIndex RxBdrConfig.period
  unfold RxBdrConfig.maxHwBdNum at ha
  cases hx : c.extendDescEn with
  | true =>
    simp only [hx, if_true] at hok ha ⊢
    have hmod : a % 2 ^ 15 ≤ a := Nat.mod_le _ _
    obtain ⟨left, hleft⟩ : ∃ left, c.len - 2 * a = left + 2 := ⟨c.len - 2 * a - 2, by omega⟩
    have hrest : c.len - 2 * (a + 1) = left := by omega
    have hindex : (2 * (a % 2 ^ 15) + 1 + 1) % 2 ^ 16 = 2 * ((a + 1) % 2 ^ 15) := by omega
    have hodd : (2 * (a % 2 ^ 15) + 1) % 2 ^ 16 = 2 * (a % 2 ^ 15) + 1 := by omega
    have heven : ¬ 2 * (a % 2 ^ 15) % 2 ≠ 0 := by omega
    have hodd' : (2 * (a % 2 ^ 15) + 1) % 2 ≠ 0 := by omega
    have hdiv : 2 * (a % 2 ^ 15) / 2 = a % 2 ^ 15 := by omega
    have hlt : 2 * (a % 2 ^ 15) < c.len := by omega
    have hlt' : 2 * (a % 2 ^ 15) + 1 < c.len := by omega
    rw [hleft, hrest, fillRing_succ alloc c ring _ _ hlt]
    simp only [hx, heven, hdiv, hodd, and_false, if_false, if_true, allocated_setAddr]
    split_ifs with hnull
    · rfl
    · rw [fillRing_succ alloc c ring _ _ hlt']
      simp only [hx, hindex, true_and]
      exact if_pos hodd'
  | false =>
    simp only [hx, Bool.false_eq_true, if_false] at hok ha ⊢
    have hmod : a % 2 ^ 16 = a := Nat.mod_eq_of_lt (by omega)
    obtain ⟨left, hleft⟩ : ∃ left, c.len - a = left + 1 := ⟨c.len - a - 1, by omega⟩
    have hrest : c.len - (a + 1) = left := by omega
    have hlt : a < c.len := by omega
    rw [hleft, hrest, hmod, fillRing_succ alloc c ring _ _ hlt]
    simp only [hx, Bool.false_eq_true, false_and, if_false]
    rfl

lemma fillRing_zero (rxDesc index : Nat) (s : RxSetup) :
    fillRing alloc true c ring 0 rxDesc index s = if index < c.len then none else some (false, s) := by
  rw [fillRing.eq_def]

/-- After the last round. -/
lemma fillFrom_end (s : RxSetup) :
    fillFrom alloc c ring c.maxHwBdNum s = if c.len < 2 ^ 16 then some (false, s) else none := by
  have hzero : c.len - c.bdIndex c.maxHwBdNum = 0 := by rw [← c.len_eq, Nat.sub_self]
  rw [fillFrom, hzero, fillRing_zero]
  by_cases hlen : c.len < 2 ^ 16
  · have hend : c.bdIndex (c.maxHwBdNum % c.period) = c.len := by
      rw [Nat.mod_eq_of_lt (c.maxHwBdNum_lt_period hlen), ← c.len_eq]
    rw [if_pos hlen, if_neg (by omega)]
  · have hback : c.bdIndex (c.maxHwBdNum % c.period) < c.len := by
      have hok := c.len_ok
      unfold RxBdrConfig.bdIndex RxBdrConfig.period RxBdrConfig.maxHwBdNum
      split_ifs at hok ⊢ <;> omega
    rw [if_neg hlen, if_pos hback]

/-- The setup `s` after the first `a` buffers of a ring, from the setup `s₀` on. -/
structure Filled (s₀ s : RxSetup) (a : Nat) : Prop where
  nonnull : ∀ t < a, alloc.answer (s₀.allocated.length + t) ≠ 0
  allocated : s.allocated = s₀.allocated ++ (List.range a).map fun t => alloc.answer (s₀.allocated.length + t)
  buffArray : s.buffArray = Function.update s₀.buffArray ring
    (filled c.period (fun t => alloc.answer (s₀.allocated.length + t)) (s₀.buffArray ring) a)
  addr : ∀ t < a, s.bdBase ring (c.bdIndex t) = alloc.answer (s₀.allocated.length + t)
  frame : s = { s₀ with bdBase := s.bdBase, buffArray := s.buffArray, allocated := s.allocated }
  bdBase : ∀ r ≠ ring, s.bdBase r = s₀.bdBase r

lemma Filled.refl (s : RxSetup) : Filled alloc c ring s s 0 where
  nonnull := by simp
  allocated := by simp
  buffArray := by simp [filled]
  addr := by simp
  frame := rfl
  bdBase := by simp

variable {alloc c ring} {s₀ s : RxSetup} {a : Nat}

lemma Filled.length (h : Filled alloc c ring s₀ s a) : s.allocated.length = s₀.allocated.length + a := by
  simp [h.allocated]

lemma Filled.clear (h : Filled alloc c ring s₀ s a) : Filled alloc c ring s₀ (s.setAddr ring (c.bdIndex a) 0) a where
  nonnull := h.nonnull
  allocated := h.allocated
  buffArray := h.buffArray
  addr := by
    intro t ht
    have hne : c.bdIndex t ≠ c.bdIndex a := fun heq => absurd (c.bdIndex_injective heq) (by omega)
    simp [setAddr, hne, h.addr t ht]
  frame := by
    rw [h.frame]
    rfl
  bdBase := by
    intro r hr
    simp [setAddr, hr, h.bdBase r hr]

lemma allocated_afterRound (buffAddr : Nat) :
    (s.afterRound c ring a buffAddr).allocated = s.allocated ++ [buffAddr] := by
  unfold afterRound
  split_ifs <;> rfl

lemma buffArray_afterRound (buffAddr : Nat) : (s.afterRound c ring a buffAddr).buffArray =
    Function.update s.buffArray ring (Function.update (s.buffArray ring) (a % c.period) buffAddr) := by
  unfold afterRound
  split_ifs <;> rfl

/-- The last write to the descriptor of a buffer is its address. -/
lemma bdBase_afterRound (buffAddr t : Nat) : (s.afterRound c ring a buffAddr).bdBase ring (c.bdIndex t) =
    if t = a then buffAddr else s.bdBase ring (c.bdIndex t) := by
  unfold afterRound
  by_cases ht : t = a
  · rw [ht, if_pos rfl]
    split_ifs
    · simp [setAddr, keep]
    · simp [setAddr]
  · have hne : c.bdIndex t ≠ c.bdIndex a := fun heq => ht (c.bdIndex_injective heq)
    rw [if_neg ht]
    split_ifs with hx
    · have hne' : c.bdIndex t ≠ c.bdIndex a + 1 := by
        unfold RxBdrConfig.bdIndex
        rw [if_pos hx, if_pos hx]
        omega
      simp [setAddr, keep, hne, hne']
    · simp [setAddr, keep, hne]

lemma frame_afterRound (buffAddr : Nat) : s.afterRound c ring a buffAddr =
    { s with
      bdBase := (s.afterRound c ring a buffAddr).bdBase
      buffArray := (s.afterRound c ring a buffAddr).buffArray
      allocated := (s.afterRound c ring a buffAddr).allocated } := by
  unfold afterRound
  split_ifs <;> rfl

lemma bdBase_afterRound_of_ne (buffAddr : Nat) {r : Nat} (hr : r ≠ ring) :
    (s.afterRound c ring a buffAddr).bdBase r = s.bdBase r := by
  unfold afterRound
  split_ifs <;> simp [setAddr, keep, hr]

lemma Filled.round (h : Filled alloc c ring s₀ s a) (hnull : alloc.answer s.allocated.length ≠ 0) :
    Filled alloc c ring s₀ (s.afterRound c ring a (alloc.answer s.allocated.length)) (a + 1) := by
  rw [h.length] at hnull ⊢
  constructor
  · intro t ht
    rcases Nat.lt_succ_iff_lt_or_eq.1 ht with hlt | rfl
    · exact h.nonnull t hlt
    · exact hnull
  · rw [allocated_afterRound, h.allocated, List.range_succ, List.map_append, List.append_assoc]
    rfl
  · rw [buffArray_afterRound, h.buffArray, Function.update_self, Function.update_idem]
    rfl
  · intro t ht
    rw [bdBase_afterRound]
    split_ifs with hlast
    · rw [hlast]
    · exact h.addr t (by omega)
  · rw [frame_afterRound, h.frame]
  · intro r hr
    rw [bdBase_afterRound_of_ne _ hr, h.bdBase r hr]

variable (alloc c ring) in
/-- What the loop over the descriptors of a ring comes to: a failed allocation, the end of the ring, or the first
descriptor behind it. -/
inductive RingOutcome (s₀ : RxSetup) : Option (Bool × RxSetup) → Prop where
  | failed (a : Nat) (s : RxSetup) (h : Filled alloc c ring s₀ s a) (hlt : a < c.maxHwBdNum)
      (hnull : alloc.answer (s₀.allocated.length + a) = 0) : RingOutcome s₀ (some (true, s))
  | done (s : RxSetup) (h : Filled alloc c ring s₀ s c.maxHwBdNum) (hlen : c.len < 2 ^ 16) :
      RingOutcome s₀ (some (false, s))
  | behind (hnonnull : ∀ t < c.maxHwBdNum, alloc.answer (s₀.allocated.length + t) ≠ 0) (hlen : ¬ c.len < 2 ^ 16) :
      RingOutcome s₀ none

lemma fillFrom_outcome (n : Nat) : ∀ (a : Nat) (s : RxSetup), a + n = c.maxHwBdNum → Filled alloc c ring s₀ s a →
    RingOutcome alloc c ring s₀ (fillFrom alloc c ring a s) := by
  induction n with
  | zero =>
    rintro a s rfl h
    rw [fillFrom_end]
    split_ifs with hlen
    · exact .done s h hlen
    · exact .behind h.nonnull hlen
  | succ n ih =>
    intro a s ha h
    rw [fillFrom_round alloc c ring (by omega)]
    split_ifs with hnull
    · rw [h.length] at hnull
      exact .failed a _ h.clear (by omega) hnull
    · exact ih (a + 1) _ (by omega) (h.round hnull)

end Ring

section Free

variable {s : RxSetup}

/-- The buffers in the places of a ring. -/
def ringBuffers (c : RxBdrConfig) (ring : Nat) (s : RxSetup) : List Nat :=
  (List.range c.maxHwBdNum).map (s.buffArray ring)

/-- The buffers in the places of all rings. -/
def allBuffers : Nat → List RxBdrConfig → RxSetup → List Nat
  | _, [], _ => []
  | ring, c :: cs, s => s.ringBuffers c ring ++ allBuffers (ring + 1) cs s

/-- Free the buffers of a list that are not NULL. -/
def give (s : RxSetup) (buffers : List Nat) : RxSetup :=
  { s with freed := s.freed ++ buffers.filter (· ≠ 0) }

lemma give_nil : s.give [] = s := by
  simp [give]

lemma give_give (a b : List Nat) : (s.give a).give b = s.give (a ++ b) := by
  simp [give]

lemma freeBuffer_eq {ring : Nat} (hring : s.installed ring = true) (i : Nat) :
    freeBuffer ring s i = some (s.give [s.buffArray ring i]) := by
  unfold freeBuffer give
  by_cases hi : s.buffArray ring i = 0 <;> simp [hring, hi]

lemma freeBuffer_foldlM {ring : Nat} (is : List Nat) : ∀ {s : RxSetup}, s.installed ring = true →
    is.foldlM (freeBuffer ring) s = some (s.give (is.map (s.buffArray ring))) := by
  induction is with
  | nil => exact fun _ => congrArg some give_nil.symm
  | cons i is ih =>
    intro s hring
    have hring' : (s.give [s.buffArray ring i]).installed ring = true := hring
    rw [List.foldlM_cons, freeBuffer_eq hring, Option.bind_eq_bind, Option.bind_some, ih hring', give_give]
    rfl

lemma allBuffers_give (buffers : List Nat) (cs : List RxBdrConfig) : ∀ ring,
    allBuffers ring cs (s.give buffers) = allBuffers ring cs s := by
  induction cs with
  | nil => exact fun _ => rfl
  | cons c cs ih =>
    intro ring
    rw [allBuffers, ih]
    rfl

lemma freeRings_append (done : List RxBdrConfig) : ∀ (ring : Nat) (cs : List RxBdrConfig) (s : RxSetup),
    (∀ r, ring ≤ r → r < ring + done.length → s.installed r = true) →
    freeRings ring (done ++ cs) s = freeRings (ring + done.length) cs (s.give (s.allBuffers ring done)) := by
  induction done with
  | nil =>
    intro ring cs s _
    rw [allBuffers, give_nil]
    rfl
  | cons c done ih =>
    intro ring cs s h
    rw [List.length_cons] at h
    have hrest := ih (ring + 1) cs (s.give (s.ringBuffers c ring)) fun r hr hlt => h r (by omega) (by omega)
    rw [allBuffers_give, give_give, Nat.add_assoc, Nat.add_comm 1] at hrest
    rw [List.cons_append, freeRings, freeBuffer_foldlM _ (h ring (le_refl _) (by omega)), Option.bind_eq_bind,
      Option.bind_some]
    exact hrest

/-- The cleanup goes through the rings that are not set up yet only if they are empty. -/
lemma freeRings_missing (cs : List RxBdrConfig) : ∀ (ring : Nat) (s : RxSetup),
    (∀ r, ring ≤ r → s.installed r = false) →
    freeRings ring cs s = if ∀ c ∈ cs, c.len = 0 then some s else none := by
  induction cs with
  | nil => exact fun _ _ _ => by simp [freeRings]
  | cons c cs ih =>
    intro ring s h
    rw [freeRings]
    by_cases hempty : c.len = 0
    · rw [c.maxHwBdNum_eq_zero_iff.2 hempty, List.range_zero, List.foldlM_nil]
      simp only [Option.pure_def, Option.bind_eq_bind, Option.bind_some, List.forall_mem_cons, hempty, true_and]
      exact ih (ring + 1) s fun r hr => h r (by omega)
    · obtain ⟨n, hn⟩ : ∃ n, c.maxHwBdNum = n + 1 :=
        ⟨c.maxHwBdNum - 1, by have := mt c.maxHwBdNum_eq_zero_iff.1 hempty; omega⟩
      rw [hn, List.range_succ_eq_map, List.foldlM_cons]
      simp [freeBuffer, h ring (le_refl _), hempty]

end Free

section Run

variable {alloc : BuffAlloc}

lemma allBuffers_append (done cs : List RxBdrConfig) (s : RxSetup) : ∀ ring,
    allBuffers ring (done ++ cs) s = allBuffers ring done s ++ allBuffers (ring + done.length) cs s := by
  induction done with
  | nil => exact fun _ => rfl
  | cons c done ih =>
    intro ring
    rw [List.cons_append, allBuffers, ih, allBuffers, List.length_cons, List.append_assoc, Nat.add_assoc, Nat.add_comm 1]

lemma allBuffers_congr (cs : List RxBdrConfig) {s s' : RxSetup} : ∀ ring,
    (∀ r, ring ≤ r → r < ring + cs.length → s'.buffArray r = s.buffArray r) →
    allBuffers ring cs s' = allBuffers ring cs s := by
  induction cs with
  | nil => exact fun _ _ => rfl
  | cons c cs ih =>
    intro ring h
    rw [List.length_cons] at h
    rw [allBuffers, allBuffers, ringBuffers, ringBuffers, h ring (le_refl _) (by omega),
      ih (ring + 1) fun r hr hlt => h r (by omega) (by omega)]

/-- The setup `s` between two rings. -/
structure Ready (alloc : BuffAlloc) (buffArray : Nat → Nat → Nat) (done : List RxBdrConfig) (s : RxSetup) : Prop where
  allocated : s.allocated = (List.range s.allocated.length).map alloc.answer
  nonnull : ∀ t < s.allocated.length, alloc.answer t ≠ 0
  buffers : s.allBuffers 0 done = s.allocated
  addr : ∀ ring c, done[ring]? = some c → ∀ u < c.maxHwBdNum, s.bdBase ring (c.bdIndex u) = s.buffArray ring u
  installed : ∀ r, s.installed r = true ↔ r < done.length
  freed : s.freed = []
  rest : ∀ r, done.length ≤ r → s.buffArray r = buffArray r

/-- Every descriptor that the hardware has holds a buffer of its own. -/
structure Complete (rings : List RxBdrConfig) (s : RxSetup) : Prop where
  nodup : (s.allBuffers 0 rings).Nodup
  allocated : ∀ b ∈ s.allBuffers 0 rings, b ∈ s.allocated
  addr : ∀ ring c, rings[ring]? = some c → ∀ u < c.maxHwBdNum, s.bdBase ring (c.bdIndex u) = s.buffArray ring u

/-- What the caller may expect of a setup that returns. -/
def AllOrNothing (rings : List RxBdrConfig) : SetupStatus → RxSetup → Prop
  | .success, s => Complete rings s ∧ s.freed = []
  | .lackOfResource, s => s.freed.Perm s.allocated ∧ s.allocated.Nodup

/-- The setup that starts with ring `ring`, when `n` buffers are allocated, is all or nothing: the index can count to the
end of each ring that is filled, and where an allocation fails the rest of the arrays is empty, and there are no more
rings. -/
def SetupFits (alloc : BuffAlloc) (buffArray : Nat → Nat → Nat) : Nat → Nat → List RxBdrConfig → Prop
  | _, _, [] => True
  | ring, n, c :: cs =>
    ((∀ t < c.maxHwBdNum, alloc.answer (n + t) ≠ 0) →
      c.len < 2 ^ 16 ∧ SetupFits alloc buffArray (ring + 1) (n + c.maxHwBdNum) cs) ∧
    ∀ a < c.maxHwBdNum, (∀ t < a, alloc.answer (n + t) ≠ 0) → alloc.answer (n + a) = 0 →
      (leftOver c.period (buffArray ring) a c.maxHwBdNum).Perm (overwritten c.period (fun t => alloc.answer (n + t)) a) ∧
        ∀ c' ∈ cs, c'.len = 0

/-- Buffers that the allocator has handed out one after the other. -/
lemma nodup_answers {buffers : List Nat} (hanswers : buffers = (List.range buffers.length).map alloc.answer)
    (hnonnull : ∀ t < buffers.length, alloc.answer t ≠ 0) : buffers.Nodup := by
  rw [hanswers]
  apply List.Nodup.map_on
  · intro i hi j _ heq
    exact alloc.distinct i j (hnonnull i (List.mem_range.1 hi)) heq
  · exact List.nodup_range

lemma answers_nonnull {buffers : List Nat} (hanswers : buffers = (List.range buffers.length).map alloc.answer)
    (hnonnull : ∀ t < buffers.length, alloc.answer t ≠ 0) : buffers.filter (· ≠ 0) = buffers := by
  apply List.filter_eq_self.2
  intro b hb
  rw [hanswers] at hb
  obtain ⟨t, ht, rfl⟩ := List.mem_map.1 hb
  simpa using hnonnull t (List.mem_range.1 ht)

/-- The handle has the array of one more ring. -/
def install (s : RxSetup) (ring : Nat) : RxSetup :=
  { s with installed := Function.update s.installed ring true }

/-- The setup `s'` after the first `a` buffers of the ring behind `done`. -/
structure Opened (alloc : BuffAlloc) (buffArray : Nat → Nat → Nat) (done : List RxBdrConfig) (c : RxBdrConfig)
    (s s' : RxSetup) (a : Nat) : Prop where
  length : s'.allocated.length = s.allocated.length + a
  allocated : s'.allocated = s.allocated ++ (List.range a).map fun t => alloc.answer (s.allocated.length + t)
  answers : s'.allocated = (List.range s'.allocated.length).map alloc.answer
  nonnull : ∀ t < s'.allocated.length, alloc.answer t ≠ 0
  buffers : s'.allBuffers 0 done = s.allocated
  array : s'.buffArray done.length =
    filled c.period (fun t => alloc.answer (s.allocated.length + t)) (buffArray done.length) a
  other : ∀ r ≠ done.length, s'.buffArray r = s.buffArray r
  installed : ∀ r, s'.installed r = true ↔ r < done.length + 1
  freed : s'.freed = []

lemma Ready.opened {buffArray : Nat → Nat → Nat} {done : List RxBdrConfig} {s s' : RxSetup} {c : RxBdrConfig} {a : Nat}
    (h : Ready alloc buffArray done s) (hfill : Filled alloc c done.length (s.install done.length) s' a) :
    Opened alloc buffArray done c s s' a := by
  have hlength : s'.allocated.length = s.allocated.length + a := hfill.length
  have hallocated : s'.allocated = s.allocated ++ (List.range a).map fun t => alloc.answer (s.allocated.length + t) :=
    hfill.allocated
  have hother : ∀ r ≠ done.length, s'.buffArray r = s.buffArray r := by
    intro r hr
    rw [hfill.buffArray, Function.update_of_ne hr]
    rfl
  constructor
  · exact hlength
  · exact hallocated
  · rw [hlength, hallocated, List.range_add, List.map_append, List.map_map, ← h.allocated]
    rfl
  · intro t ht
    rw [hlength] at ht
    by_cases hold : t < s.allocated.length
    · exact h.nonnull t hold
    · have hnew := hfill.nonnull (t - s.allocated.length) (by omega)
      change alloc.answer (s.allocated.length + (t - s.allocated.length)) ≠ 0 at hnew
      rwa [Nat.add_sub_cancel' (by omega)] at hnew
  · rw [← h.buffers]
    exact allBuffers_congr done 0 fun r _ hr => hother r (by omega)
  · rw [hfill.buffArray, Function.update_self, ← h.rest done.length (le_refl _)]
    rfl
  · exact hother
  · intro r
    rw [hfill.frame]
    change Function.update s.installed done.length true r = true ↔ _
    by_cases hr : r = done.length
    · simp [hr]
    · rw [Function.update_of_ne hr, h.installed]
      omega
  · rw [hfill.frame]
    exact h.freed

/-- A ring that has been filled. -/
lemma Ready.ring {buffArray : Nat → Nat → Nat} {done : List RxBdrConfig} {s s' : RxSetup} {c : RxBdrConfig}
    (h : Ready alloc buffArray done s) (hlen : c.len < 2 ^ 16)
    (hfill : Filled alloc c done.length (s.install done.length) s' c.maxHwBdNum) :
    Ready alloc buffArray (done ++ [c]) s' := by
  have hopened := h.opened hfill
  have hperiod := c.maxHwBdNum_lt_period hlen
  have hplace : ∀ u < c.maxHwBdNum, s'.buffArray done.length u = alloc.answer (s.allocated.length + u) := by
    intro u hu
    rw [hopened.array, filled_eq (by omega), if_neg (by omega), if_pos (by omega)]
  constructor
  · exact hopened.answers
  · exact hopened.nonnull
  · rw [allBuffers_append, hopened.buffers, hopened.allocated, Nat.zero_add, allBuffers, allBuffers, List.append_nil]
    congr 1
    apply List.map_congr_left
    exact fun u hu => hplace u (List.mem_range.1 hu)
  · intro ring c' hc u hu
    by_cases hring : ring = done.length
    · subst hring
      rw [List.getElem?_concat_length, Option.some.injEq] at hc
      subst hc
      rw [hplace u hu]
      exact hfill.addr u hu
    · have hlt : ring < done.length := by
        have hlast := (List.getElem?_eq_some_iff.1 hc).1
        rw [List.length_append, List.length_singleton] at hlast
        omega
      rw [List.getElem?_append_left hlt] at hc
      rw [hfill.bdBase ring hring, hopened.other ring hring]
      exact h.addr ring c' hc u hu
  · intro r
    rw [hopened.installed, List.length_append, List.length_singleton]
  · exact hopened.freed
  · intro r hr
    rw [List.length_append, List.length_singleton] at hr
    rw [hopened.other r (by omega), h.rest r (by omega)]

/-- The cleanup after an allocation has failed. -/
lemma Opened.free {buffArray : Nat → Nat → Nat} {done : List RxBdrConfig} {s s' : RxSetup} {c : RxBdrConfig} {a : Nat}
    (h : Opened alloc buffArray done c s s' a) (hlt : a < c.maxHwBdNum) (cs : List RxBdrConfig) :
    (∃ s'', rxBufferFreeAll true (done ++ c :: cs) s' = some s'' ∧ AllOrNothing (done ++ c :: cs) .lackOfResource s'') ↔
      (leftOver c.period (buffArray done.length) a c.maxHwBdNum).Perm
        (overwritten c.period (fun t => alloc.answer (s.allocated.length + t)) a) ∧ ∀ c' ∈ cs, c'.len = 0 := by
  have hlength : (done ++ [c]).length = done.length + 1 := by rw [List.length_append, List.length_singleton]
  have hfree : rxBufferFreeAll true (done ++ c :: cs) s' =
      if ∀ c' ∈ cs, c'.len = 0 then some (s'.give (s'.allBuffers 0 (done ++ [c]))) else none := by
    rw [rxBufferFreeAll, if_pos rfl, List.append_cons, freeRings_append, freeRings_missing]
    · intro r hr
      rw [← Bool.not_eq_true]
      intro hinstalled
      have hlt := (h.installed r).1 hinstalled
      omega
    · exact fun r _ hr => (h.installed r).2 (by omega)
  have hold : s.allocated.filter (· ≠ 0) = s.allocated := by
    apply List.filter_eq_self.2
    intro b hb
    apply List.filter_eq_self.1 (answers_nonnull h.answers h.nonnull) b
    rw [h.allocated]
    exact List.mem_append_left _ hb
  have hperm : (s'.give (s'.allBuffers 0 (done ++ [c]))).freed.Perm s'.allocated ↔
      (leftOver c.period (buffArray done.length) a c.maxHwBdNum).Perm
        (overwritten c.period (fun t => alloc.answer (s.allocated.length + t)) a) := by
    rw [give, h.freed, List.nil_append, allBuffers_append, h.buffers, h.allocated, Nat.zero_add, allBuffers, allBuffers,
      List.append_nil, List.filter_append, hold, List.perm_append_left_iff, ringBuffers, h.array,
      filled_perm_iff (by omega) c.maxHwBdNum_le]
    intro t ht
    exact h.nonnull _ (by have := h.length; omega)
  rw [hfree, ← hperm]
  split_ifs with hempty
  · rw [and_iff_left hempty]
    constructor
    · rintro ⟨s'', heq, hfreed, -⟩
      cases heq
      exact hfreed
    · exact fun hfreed => ⟨_, rfl, hfreed, nodup_answers h.answers h.nonnull⟩
  · apply iff_of_false
    · rintro ⟨s'', heq, -⟩
      cases heq
    · exact fun hboth => hempty hboth.2

/-- The rings from one on, when those before are filled. -/
theorem allocRings_iff (buffArray : Nat → Nat → Nat) (cs : List RxBdrConfig) : ∀ (done : List RxBdrConfig) (s : RxSetup),
    Ready alloc buffArray done s →
    ((∃ status s', allocRings alloc true (done ++ cs) done.length cs s = some (status, s') ∧
      AllOrNothing (done ++ cs) status s') ↔ SetupFits alloc buffArray done.length s.allocated.length cs) := by
  induction cs with
  | nil =>
    intro done s h
    rw [List.append_nil]
    apply iff_of_true _ trivial
    refine ⟨.success, s, rfl, ⟨?_, ?_, h.addr⟩, h.freed⟩
    · rw [h.buffers]
      exact nodup_answers h.allocated h.nonnull
    · rw [h.buffers]
      exact fun _ hb => hb
  | cons c cs ih =>
    intro done s h
    have houtcome : RingOutcome alloc c done.length (s.install done.length)
        (fillRing alloc true c done.length c.len 0 0 (s.install done.length)) := by
      have hrun := fillFrom_outcome c.maxHwBdNum 0 (s.install done.length) (Nat.zero_add _)
        (Filled.refl alloc c done.length _)
      have hzero : c.bdIndex 0 = 0 := by simp [RxBdrConfig.bdIndex]
      rwa [fillFrom, Nat.zero_mod, hzero, Nat.sub_zero] at hrun
    rw [allocRings, SetupFits]
    change (∃ status s', (fillRing alloc true c done.length c.len 0 0 (s.install done.length)).bind _ = _ ∧ _) ↔ _
    generalize fillRing alloc true c done.length c.len 0 0 (s.install done.length) = result at houtcome
    cases houtcome with
    | failed a s' hfill hlt hnull =>
      have hfirst : ∀ t < a, alloc.answer (s.allocated.length + t) ≠ 0 := hfill.nonnull
      have hnull : alloc.answer (s.allocated.length + a) = 0 := hnull
      have hfree := (h.opened hfill).free hlt cs
      have hcall : (∃ status s'', (rxBufferFreeAll true (done ++ c :: cs) s').map (fun s => (SetupStatus.lackOfResource, s)) =
          some (status, s'') ∧ AllOrNothing (done ++ c :: cs) status s'') ↔
          ∃ s'', rxBufferFreeAll true (done ++ c :: cs) s' = some s'' ∧
            AllOrNothing (done ++ c :: cs) .lackOfResource s'' := by
        cases rxBufferFreeAll true (done ++ c :: cs) s' <;> simp
      refine hcall.trans (hfree.trans ⟨fun hboth => ⟨fun hall => absurd hnull (hall a hlt), ?_⟩, fun hfits => ?_⟩)
      · -- the first failure is at one place only
        intro b hb hbefore hbnull
        have heq : b = a := by
          rcases Nat.lt_trichotomy b a with hba | heq | hab
          · exact absurd hbnull (hfirst b hba)
          · exact heq
          · exact absurd hnull (hbefore a hab)
        rwa [heq]
      · exact hfits.2 a hlt hfirst hnull
    | done s' hfill hlen =>
      have hnonnull : ∀ t < c.maxHwBdNum, alloc.answer (s.allocated.length + t) ≠ 0 := hfill.nonnull
      have hready := h.ring hlen hfill
      have hrest := ih (done ++ [c]) s' hready
      rw [List.length_append, List.length_singleton, (h.opened hfill).length, List.append_assoc] at hrest
      refine Iff.trans hrest ⟨fun hfits => ⟨fun _ => ⟨hlen, hfits⟩, ?_⟩, fun hfits => (hfits.1 hnonnull).2⟩
      exact fun a ha _ hnull => absurd hnull (hnonnull a ha)
    | behind hnonnull hlen =>
      apply iff_of_false
      · rintro ⟨status, s', heq, -⟩
        cases heq
      · exact fun hfits => hlen (hfits.1 hnonnull).1

/-- A handle without arrays, as `EP_Init` makes it. -/
def init (bdBase buffArray : Nat → Nat → Nat) : RxSetup :=
  { bdBase := bdBase, installed := fun _ => false, buffArray := buffArray, allocated := [], freed := [] }

/-- A setup with zero copy returns with everything or nothing exactly when it fits. -/
theorem rxBufferAllocAll_iff (alloc : BuffAlloc) (rings : List RxBdrConfig) (bdBase buffArray : Nat → Nat → Nat) :
    (∃ status s', rxBufferAllocAll alloc true rings (init bdBase buffArray) = some (status, s') ∧
      AllOrNothing rings status s') ↔ SetupFits alloc buffArray 0 0 rings := by
  apply allocRings_iff buffArray rings [] (init bdBase buffArray)
  constructor
  · rfl
  · exact fun t ht => absurd ht (Nat.not_lt_zero t)
  · rfl
  · intro ring c hc
    cases hc
  · intro r
    exact iff_of_false (by simp [init]) (Nat.not_lt_zero r)
  · rfl
  · exact fun _ _ => rfl

/-- There is no buffer for the first of two rings, and the cleanup reads the array of the second one. -/
theorem rxBufferAllocAll_second_ring :
    ¬ ∀ (alloc : BuffAlloc) (rings : List RxBdrConfig) (bdBase buffArray : Nat → Nat → Nat),
      ∃ status s', rxBufferAllocAll alloc true rings (init bdBase buffArray) = some (status, s') ∧
        AllOrNothing rings status s' := by
  intro h
  obtain ⟨status, s', heq, -⟩ := h ⟨fun _ => 0, fun _ _ hne => absurd rfl hne⟩
    [⟨8, false, by decide⟩, ⟨8, false, by decide⟩] (fun _ _ => 0) fun _ _ => 0
  cases heq

end Run

end RxSetup

end McuxDrivers.Netc
