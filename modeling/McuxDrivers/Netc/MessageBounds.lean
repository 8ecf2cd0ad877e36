import McuxDrivers.Netc.Messages
import Mathlib.Data.List.Range

/-!
# Which accesses of the message handlers stay in bounds

The first loop of the add and the delete handlers reads every address of the message and writes its place of the result
array, until a query ends it. The second loop only comes back to these places.
-/

namespace McuxDrivers.Netc

section Loops

variable (c : PsiContext) (f : TableFormat) (t : FilterTable) (bytes : Nat → UInt8)

/-- The commands that the queries for the addresses before `i` send. -/
def sentBefore : Nat → Nat
  | 0 => 0
  | i + 1 => (queryTable c f t (f.address (payload bytes) (f.size * i)) (sentBefore i)).2

/-- The answer for the address `i` of the message. -/
def answerAt (i : Nat) : Answer :=
  (queryTable c f t (f.address (payload bytes) (f.size * i)) (sentBefore c f t bytes i)).1

/-- The query for the address `i` ends the handler. -/
def Ends {β : Type} (keep : Answer → Except Reply β) (i : Nat) : Prop :=
  ∃ r, keep (answerAt c f t bytes i) = .error r

/-- One round of the first loop. -/
lemma queryLoop_succ {β : Type} (keep : Answer → Except Reply β) (k n : Nat) :
    queryLoop c f keep t bytes (List.range' k (n + 1)) (sentBefore c f t bytes k) =
      match keep (answerAt c f t bytes k) with
      | .error r => (.error r, sentBefore c f t bytes (k + 1), queryAccesses f k)
      | .ok b =>
        let rest := queryLoop c f keep t bytes (List.range' (k + 1) n) (sentBefore c f t bytes (k + 1))
        (rest.1.map ((k, b) :: ·), rest.2.1, queryAccesses f k ++ rest.2.2) := by
  rw [List.range'_succ]
  rfl

/-- The first loop accesses what the queries access, up to the first one that ends it. -/
lemma mem_queryLoop {β : Type} (keep : Answer → Except Reply β) (n : Nat) : ∀ k a,
    a ∈ (queryLoop c f keep t bytes (List.range' k n) (sentBefore c f t bytes k)).2.2 ↔
      ∃ i, k ≤ i ∧ i < k + n ∧ (∀ j, k ≤ j → j < i → ¬ Ends c f t bytes keep j) ∧ a ∈ queryAccesses f i := by
  induction n with
  | zero =>
    intro k a
    simp only [List.range'_zero, queryLoop, List.not_mem_nil, false_iff]
    rintro ⟨i, hk, hi, -⟩
    omega
  | succ n ih =>
    intro k a
    rw [queryLoop_succ c f t bytes]
    cases hkeep : keep (answerAt c f t bytes k) with
    | error r =>
      constructor
      · intro ha
        exact ⟨k, le_refl k, by omega, fun j hk hj => by omega, ha⟩
      · rintro ⟨i, hk, -, hends, ha⟩
        rcases Nat.eq_or_lt_of_le hk with rfl | hlt
        · exact ha
        · exact absurd ⟨r, hkeep⟩ (hends k (le_refl k) hlt)
    | ok b =>
      have hgoes : ¬ Ends c f t bytes keep k := by
        rintro ⟨r, hr⟩
        rw [hkeep] at hr
        cases hr
      simp only [List.mem_append, ih (k + 1) a]
      constructor
      · rintro (ha | ⟨i, hk, hi, hends, ha⟩)
        · exact ⟨k, le_refl k, by omega, fun j hk hj => by omega, ha⟩
        · refine ⟨i, by omega, by omega, fun j hkj hji => ?_, ha⟩
          rcases Nat.eq_or_lt_of_le hkj with rfl | hlt
          · exact hgoes
          · exact hends j hlt hji
      · rintro ⟨i, hk, hi, hends, ha⟩
        rcases Nat.eq_or_lt_of_le hk with rfl | hlt
        · exact .inl ha
        · exact .inr ⟨i, hlt, by omega, fun j hkj hji => hends j (by omega) hji, ha⟩

/-- A first loop that goes through has a result for each address, and no query ended it. -/
lemma queryLoop_ok {β : Type} (keep : Answer → Except Reply β) (n : Nat) : ∀ k results,
    (queryLoop c f keep t bytes (List.range' k n) (sentBefore c f t bytes k)).1 = .ok results →
      results.map Prod.fst = List.range' k n ∧ ∀ i, k ≤ i → i < k + n → ¬ Ends c f t bytes keep i := by
  induction n with
  | zero =>
    intro k results h
    simp only [List.range'_zero, queryLoop, Except.ok.injEq] at h
    subst h
    exact ⟨rfl, fun i hk hi => by omega⟩
  | succ n ih =>
    intro k results h
    rw [queryLoop_succ c f t bytes] at h
    cases hkeep : keep (answerAt c f t bytes k) with
    | error r =>
      rw [hkeep] at h
      cases h
    | ok b =>
      rw [hkeep] at h
      dsimp only at h
      cases hrest : (queryLoop c f keep t bytes (List.range' (k + 1) n) (sentBefore c f t bytes (k + 1))).1 with
      | error r =>
        rw [hrest] at h
        cases h
      | ok rest =>
        rw [hrest] at h
        cases h
        obtain ⟨hfst, hgo⟩ := ih (k + 1) rest hrest
        refine ⟨?_, fun i hk hi => ?_⟩
        · rw [List.range'_succ, List.map_cons, hfst]
        · rcases Nat.eq_or_lt_of_le hk with rfl | hlt
          · rintro ⟨r, hr⟩
            rw [hkeep] at hr
            cases hr
          · exact hgo i hlt (by omega)

end Loops

/-- The accesses of a handler from one point on satisfy a property. -/
def MsgRun.Adds (P : Access → Prop) (s s' : MsgRun) : Prop :=
  ∃ more, s'.accesses = s.accesses ++ more ∧ ∀ a ∈ more, P a

namespace MsgRun.Adds

variable {P : Access → Prop} {s s₁ s₂ : MsgRun}

lemma of_eq (h : s₁.accesses = s.accesses) : Adds P s s₁ :=
  ⟨[], by simp [h], by simp⟩

lemma one {as : List Access} (h : s₁.accesses = s.accesses ++ as) (has : ∀ a ∈ as, P a) : Adds P s s₁ :=
  ⟨as, h, has⟩

lemma trans (h₁ : Adds P s s₁) (h₂ : Adds P s₁ s₂) : Adds P s s₂ := by
  obtain ⟨as, heq, has⟩ := h₁
  obtain ⟨bs, heq', hbs⟩ := h₂
  refine ⟨as ++ bs, by rw [heq', heq, List.append_assoc], fun a ha => ?_⟩
  rcases List.mem_append.1 ha with ha | ha
  · exact has a ha
  · exact hbs a ha

/-- Accesses that satisfy the property as soon as those before do. -/
lemma forall_iff (hmore : Adds (fun _ => True) s s₁) (h : (∀ a ∈ s.accesses, P a) → Adds P s s₁) :
    (∀ a ∈ s₁.accesses, P a) ↔ ∀ a ∈ s.accesses, P a := by
  constructor
  · obtain ⟨as, heq, -⟩ := hmore
    intro hall a ha
    exact hall a (heq ▸ List.mem_append_left as ha)
  · intro hall
    obtain ⟨as, heq, has⟩ := h hall
    rw [heq, List.forall_mem_append]
    exact ⟨hall, has⟩

end MsgRun.Adds

section SecondLoops

variable {c : PsiContext} {f : TableFormat} {bytes : Nat → UInt8} {si : Nat} {P : Access → Prop}

lemma addLoop_adds (results : List (Nat × Option QueryResult))
    (h : ∀ i ∈ results.map Prod.fst, ∀ a ∈ bytesAt (0x14 + f.size * i % 2 ^ 8) f.size ++ [.result f.num i], P a) :
    ∀ s : MsgRun, s.Adds P (addLoop c f si bytes results s).2 := by
  induction results with
  | nil => exact fun s => .of_eq rfl
  | cons x results ih =>
    intro s
    simp only [List.map_cons, List.mem_cons, forall_eq_or_imp] at h
    rw [addLoop.eq_def]
    dsimp only
    split
    · exact .one rfl h.1
    · split
      · exact (MsgRun.Adds.one rfl h.1).trans (ih h.2 _)
      · exact .one rfl h.1

lemma deleteLoop_adds (place : Nat → Nat) (results : List (Nat × QueryResult))
    (h : ∀ i ∈ results.map Prod.fst, P (.result f.num i) ∧ ∀ a ∈ bytesAt (0x14 + place i) f.size, P a) :
    ∀ s : MsgRun, s.Adds P (deleteLoop c f place si bytes results s).2 := by
  induction results with
  | nil => exact fun s => .of_eq rfl
  | cons x results ih =>
    intro s
    simp only [List.map_cons, List.mem_cons, forall_eq_or_imp] at h
    obtain ⟨⟨hresult, hbytes⟩, h⟩ := h
    have hread : ∀ e : Entry, ∀ a ∈ Access.result f.num x.1 ::
        (if e.siBitMap = 0 then ([] : List Access) else bytesAt (0x14 + place x.1) f.size), P a := by
      intro e
      split
      · simpa using hresult
      · simpa using ⟨hresult, hbytes⟩
    rw [deleteLoop.eq_def]
    dsimp only
    split
    · exact (MsgRun.Adds.one rfl (hread _)).trans (ih h _)
    · exact .one rfl (hread _)

lemma flushLoop_adds (delete : Nat → Bool) (is : List Nat) :
    ∀ s : MsgRun, s.Adds P (flushLoop c si delete is s).2 := by
  induction is with
  | nil => exact fun s => .of_eq rfl
  | cons i is ih =>
    intro s
    rw [flushLoop]
    dsimp only
    split_ifs
    all_goals first | exact ih _ | exact .of_eq rfl

end SecondLoops

section Bounds

variable (c : PsiContext) (f : TableFormat) (t : FilterTable) (bytes : Nat → UInt8) (msgLen : Nat)

/-- The addresses that have their place in the message and in the result array. -/
def fitting : Nat :=
  min f.num ((msgLen - 0x14) / f.size)

/-- A message for `n` addresses has no more than have their place, or the query for one that does ends the handler. -/
def LoopFits {β : Type} (keep : Answer → Except Reply β) (n : Nat) : Prop :=
  n ≤ fitting f msgLen ∨ ∃ i < fitting f msgLen, Ends c f t bytes keep i

/-- When the accesses of a MAC filter message stay in bounds. -/
structure MacFits : Prop where
  add : (bytes 3).toNat = 1 → macCount bytes > numMacFilterEntry ∨
    LoopFits c macFormat t bytes msgLen keepAdd (macCount bytes)
  delete : (bytes 3).toNat = 2 → LoopFits c macFormat t bytes msgLen keepDelete (macCount bytes)
  set : (bytes 3).toNat = 3 → 64 ≤ msgLen

/-- When the accesses of a VLAN filter message stay in bounds. -/
structure VlanFits : Prop where
  add : (bytes 3).toNat = 0 → msgCount bytes = 0 ∨ (msgCount bytes).toNat > numVlanFilterEntry ∨
    LoopFits c vlanFormat t bytes msgLen keepAdd (msgCount bytes).toNat
  delete : (bytes 3).toNat = 1 → msgCount bytes = 0 ∨
    LoopFits c vlanFormat t bytes msgLen keepDelete (msgCount bytes).toNat

/-- When the accesses of a message stay in bounds. -/
structure MessageFits (f : Filters) : Prop where
  mac : (bytes 2).toNat = 0x20 → MacFits c f.mac bytes msgLen
  vlan : (bytes 2).toNat = 0x21 → VlanFits c f.vlan bytes msgLen

variable {c f t bytes msgLen}

lemma forall_mem_bytesAt (offset n : Nat) (hn : 0 < n) :
    (∀ a ∈ bytesAt offset n, a.InBounds msgLen) ↔ offset + n ≤ msgLen := by
  simp only [bytesAt, List.forall_mem_map, List.mem_range'_1, and_imp]
  constructor
  · intro h
    have hlast : offset + n - 1 < msgLen := h (offset + n - 1) (by omega) (by omega)
    omega
  · intro h i _ hi
    exact lt_of_lt_of_le hi h

lemma queryAccesses_inBounds_iff (hsize : 0 < f.size) (hlen : 0x14 ≤ msgLen) (i : Nat) :
    (∀ a ∈ queryAccesses f i, a.InBounds msgLen) ↔ i < fitting f msgLen := by
  rw [queryAccesses, List.forall_mem_append, forall_mem_bytesAt _ _ hsize, List.forall_mem_singleton, fitting,
    lt_min_iff, Nat.lt_iff_add_one_le (m := i) (n := (msgLen - 0x14) / f.size), Nat.le_div_iff_mul_le hsize, and_comm]
  apply and_congr_right
  intro _
  rw [Nat.add_mul, Nat.one_mul, Nat.mul_comm i]
  omega

/-- The first loop over the first `n` addresses. -/
lemma queryLoop_inBounds_iff {β : Type} (keep : Answer → Except Reply β) (hsize : 0 < f.size) (hlen : 0x14 ≤ msgLen)
    (n : Nat) : (∀ a ∈ (queryLoop c f keep t bytes (List.range n) 0).2.2, a.InBounds msgLen) ↔
      LoopFits c f t bytes msgLen keep n := by
  have hmem := mem_queryLoop c f t bytes keep n 0
  rw [← List.range_eq_range', Nat.zero_add] at hmem
  have hreached : (∀ a ∈ (queryLoop c f keep t bytes (List.range n) 0).2.2, a.InBounds msgLen) ↔
      ∀ i < n, (∀ j < i, ¬ Ends c f t bytes keep j) → i < fitting f msgLen := by
    constructor
    · intro h i hi hgo
      apply (queryAccesses_inBounds_iff hsize hlen i).1
      exact fun a ha => h a ((hmem a).2 ⟨i, Nat.zero_le i, hi, fun j _ => hgo j, ha⟩)
    · intro h a ha
      obtain ⟨i, -, hi, hgo, ha⟩ := (hmem a).1 ha
      exact (queryAccesses_inBounds_iff hsize hlen i).2 (h i hi fun j => hgo j (Nat.zero_le j)) a ha
  rw [hreached]
  constructor
  · intro h
    by_contra hfits
    simp only [LoopFits, not_or, not_le, not_exists, not_and] at hfits
    exact absurd (h (fitting f msgLen) hfits.1 hfits.2) (lt_irrefl _)
  · rintro (hle | ⟨j, hj, hends⟩) i hi hgo
    · exact lt_of_lt_of_le hi hle
    · by_contra hnot
      exact hgo j (by omega) hends

/-- The addresses of a first loop that went through in bounds have their place. -/
lemma queryLoop_fitting {β : Type} {keep : Answer → Except Reply β} (hsize : 0 < f.size) (hlen : 0x14 ≤ msgLen)
    {n : Nat} {results : List (Nat × β)}
    (h : (queryLoop c f keep t bytes (List.range n) 0).1 = .ok results)
    (hfits : ∀ a ∈ (queryLoop c f keep t bytes (List.range n) 0).2.2, a.InBounds msgLen) :
    ∀ i ∈ results.map Prod.fst, i < fitting f msgLen := by
  have hok := queryLoop_ok c f t bytes keep n 0 results
  rw [← List.range_eq_range', Nat.zero_add] at hok
  obtain ⟨hfst, hgo⟩ := hok h
  intro i hi
  rw [hfst, List.mem_range] at hi
  rcases (queryLoop_inBounds_iff keep hsize hlen n).1 hfits with hle | ⟨j, hj, hends⟩
  · exact lt_of_lt_of_le hi hle
  · by_contra hnot
    exact hgo j (Nat.zero_le j) (by omega) hends

/-- The second loop reads an address at its place or, where the place wraps, before it. -/
lemma secondRead_inBounds (hsize : 0 < f.size) (hlen : 0x14 ≤ msgLen) {i m : Nat} (hm : m ≤ f.size * i)
    (hi : i < fitting f msgLen) : ∀ a ∈ bytesAt (0x14 + m) f.size ++ [.result f.num i], a.InBounds msgLen := by
  have hquery := (queryAccesses_inBounds_iff hsize hlen i).2 hi
  rw [queryAccesses, List.forall_mem_append, forall_mem_bytesAt _ _ hsize] at hquery
  rw [List.forall_mem_append, forall_mem_bytesAt _ _ hsize]
  exact ⟨by omega, hquery.2⟩

lemma addToTable_inBounds_iff (hsize : 0 < f.size) (hlen : 0x14 ≤ msgLen) (si count : Nat) :
    (∀ a ∈ (addToTable c f si bytes t count).2.accesses, a.InBounds msgLen) ↔
      count > f.num ∨ LoopFits c f t bytes msgLen keepAdd count := by
  rw [← queryLoop_inBounds_iff keepAdd hsize hlen count]
  unfold addToTable
  split_ifs with hcount
  · simp [hcount]
  · rw [or_iff_right hcount]
    dsimp only
    split
    · rfl
    · rename_i results hresults
      split_ifs
      · rfl
      · apply MsgRun.Adds.forall_iff (addLoop_adds results (by simp) _)
        intro hfits
        apply addLoop_adds results
        intro i hi
        exact secondRead_inBounds hsize hlen (Nat.mod_le _ _) (queryLoop_fitting hsize hlen hresults hfits i hi)

lemma deleteFromTable_inBounds_iff (hsize : 0 < f.size) (hlen : 0x14 ≤ msgLen) (place : Nat → Nat)
    (hplace : ∀ i, place i ≤ f.size * i) (si count : Nat) :
    (∀ a ∈ (deleteFromTable c f place si bytes t count).2.accesses, a.InBounds msgLen) ↔
      LoopFits c f t bytes msgLen keepDelete count := by
  rw [← queryLoop_inBounds_iff keepDelete hsize hlen count]
  unfold deleteFromTable
  dsimp only
  split
  · rfl
  · rename_i results hresults
    apply MsgRun.Adds.forall_iff (deleteLoop_adds place results (by simp) _)
    intro hfits
    apply deleteLoop_adds place results
    intro i hi
    have hread := secondRead_inBounds hsize hlen (hplace i) (queryLoop_fitting hsize hlen hresults hfits i hi)
    rw [List.forall_mem_append, List.forall_mem_singleton] at hread
    exact hread.symm

end Bounds

section Messages

variable {c : PsiContext} {vsi : Nat} {bytes : Nat → UInt8} {msgLen : Nat}

/-- A flush reads nothing of the message. -/
lemma flushLoop_inBounds (si : Nat) (delete : Nat → Bool) (is : List Nat) (t : FilterTable) :
    ∀ a ∈ (flushLoop c si delete is { table := t, sent := 0, accesses := [] }).2.accesses, a.InBounds msgLen := by
  rw [MsgRun.Adds.forall_iff (flushLoop_adds delete is _) fun _ => flushLoop_adds delete is _]
  simp

lemma macFilterCmd_inBounds_iff (hlen : 0x20 ≤ msgLen) (hmul : 32 ∣ msgLen) (t : FilterTable) :
    (∀ a ∈ (macFilterCmd c vsi bytes t).2.accesses, a.InBounds msgLen) ↔ MacFits c t bytes msgLen := by
  have hadd : (∀ a ∈ (addToTable c macFormat vsi bytes t (macCount bytes)).2.accesses, a.InBounds msgLen) ↔
      macCount bytes > numMacFilterEntry ∨ LoopFits c macFormat t bytes msgLen keepAdd (macCount bytes) :=
    addToTable_inBounds_iff (by decide) (by omega) vsi _
  have hdelete : (∀ a ∈ (deleteFromTable c macFormat (fun i => 6 * i % 2 ^ 8) vsi bytes t (macCount bytes)).2.accesses,
      a.InBounds msgLen) ↔ LoopFits c macFormat t bytes msgLen keepDelete (macCount bytes) :=
    deleteFromTable_inBounds_iff (by decide) (by omega) _ (fun i => Nat.mod_le _ _) vsi _
  have hfits : MacFits c t bytes msgLen ↔ ((bytes 3).toNat = 1 → macCount bytes > numMacFilterEntry ∨
      LoopFits c macFormat t bytes msgLen keepAdd (macCount bytes)) ∧
      ((bytes 3).toNat = 2 → LoopFits c macFormat t bytes msgLen keepDelete (macCount bytes)) ∧
      ((bytes 3).toNat = 3 → 64 ≤ msgLen) :=
    ⟨fun h => ⟨h.add, h.delete, h.set⟩, fun h => ⟨h.1, h.2.1, h.2.2⟩⟩
  rw [hfits]
  unfold macFilterCmd
  generalize (bytes 3).toNat = k
  dsimp only
  split
  · simp [forall_mem_bytesAt]; omega
  · simpa using hadd
  · simpa using hdelete
  · simp [forall_mem_bytesAt]; omega
  · simpa using flushLoop_inBounds vsi _ _ t
  · split_ifs
    · simpa using flushLoop_inBounds vsi _ _ t
    · simp
  · rename_i _ hadd hdelete hset _ _
    exact iff_of_true (by simp) ⟨fun h => (hadd h).elim, fun h => (hdelete h).elim, fun h => (hset h).elim⟩

lemma vlanFilterCmd_inBounds_iff (hlen : 0x20 ≤ msgLen) (t : FilterTable) :
    (∀ a ∈ (vlanFilterCmd c vsi bytes t).2.accesses, a.InBounds msgLen) ↔ VlanFits c t bytes msgLen := by
  have hadd : (∀ a ∈ (addToTable c vlanFormat vsi bytes t (msgCount bytes).toNat).2.accesses, a.InBounds msgLen) ↔
      (msgCount bytes).toNat > numVlanFilterEntry ∨
        LoopFits c vlanFormat t bytes msgLen keepAdd (msgCount bytes).toNat :=
    addToTable_inBounds_iff (by decide) (by omega) vsi _
  have hdelete : (∀ a ∈ (deleteFromTable c vlanFormat (fun i => 4 * i) vsi bytes t (msgCount bytes).toNat).2.accesses,
      a.InBounds msgLen) ↔ LoopFits c vlanFormat t bytes msgLen keepDelete (msgCount bytes).toNat :=
    deleteFromTable_inBounds_iff (by decide) (by omega) _ (fun i => le_refl _) vsi _
  have hfits : VlanFits c t bytes msgLen ↔ ((bytes 3).toNat = 0 → msgCount bytes = 0 ∨
      (msgCount bytes).toNat > numVlanFilterEntry ∨
      LoopFits c vlanFormat t bytes msgLen keepAdd (msgCount bytes).toNat) ∧
      ((bytes 3).toNat = 1 → msgCount bytes = 0 ∨
      LoopFits c vlanFormat t bytes msgLen keepDelete (msgCount bytes).toNat) :=
    ⟨fun h => ⟨h.add, h.delete⟩, fun h => ⟨h.1, h.2⟩⟩
  rw [hfits]
  unfold vlanFilterCmd
  generalize (bytes 3).toNat = k
  dsimp only
  split
  · split_ifs with hzero
    · simp [hzero]
    · simpa [hzero] using hadd
  · split_ifs with hzero
    · simp [hzero]
    · simpa [hzero] using hdelete
  · simp [forall_mem_bytesAt]; omega
  · simpa using flushLoop_inBounds vsi _ _ t
  · split_ifs
    · simpa using flushLoop_inBounds vsi _ _ t
    · simp
  · rename_i hadd hdelete _ _ _
    exact iff_of_true (by simp) ⟨fun h => (hadd h).elim, fun h => (hdelete h).elim⟩

/-- A message that is accepted has at least 32 bytes. -/
lemma len_of_accepted (hlen : ¬ lenError bytes msgLen) : 0x20 ≤ msgLen ∧ 32 ∣ msgLen := by
  rw [lenError, not_not] at hlen
  exact ⟨by omega, _, hlen.trans (Nat.mul_comm _ _)⟩

/-- A message that is accepted is handled in bounds exactly when it fits. -/
theorem psiHandleRxMsg_inBounds_iff (c : PsiContext) (vsi : Nat) (bytes : Nat → UInt8) (msgLen : Nat) (f : Filters)
    (hlen : ¬ lenError bytes msgLen) (hcrc : ¬ csumError c bytes msgLen) :
    (∀ a ∈ (psiHandleRxMsg c vsi bytes msgLen f).2.2, a.InBounds msgLen) ↔ MessageFits c bytes msgLen f := by
  obtain ⟨hle, hmul⟩ := len_of_accepted hlen
  have hmac : (∀ a ∈ (macFilterCmd c vsi bytes f.mac).2.accesses, a.InBounds msgLen) ↔ MacFits c f.mac bytes msgLen :=
    macFilterCmd_inBounds_iff hle hmul f.mac
  have hvlan : (∀ a ∈ (vlanFilterCmd c vsi bytes f.vlan).2.accesses, a.InBounds msgLen) ↔
      VlanFits c f.vlan bytes msgLen := vlanFilterCmd_inBounds_iff hle f.vlan
  have hfits : MessageFits c bytes msgLen f ↔ ((bytes 2).toNat = 0x20 → MacFits c f.mac bytes msgLen) ∧
      ((bytes 2).toNat = 0x21 → VlanFits c f.vlan bytes msgLen) :=
    ⟨fun h => ⟨h.mac, h.vlan⟩, fun h => ⟨h.1, h.2⟩⟩
  have hheader : ∀ k < 0x20, (Access.msg k).InBounds msgLen := fun k hk => lt_of_lt_of_le hk hle
  rw [hfits]
  unfold psiHandleRxMsg
  rw [if_neg hlen, if_neg hcrc]
  generalize (bytes 2).toNat = k
  dsimp only
  split
  · simpa [hheader] using hmac
  · simpa [hheader] using hvlan
  · simp [hheader]
  · simp [hheader]
  · simp [hheader]
  · rename_i hmac hvlan _ _ _
    exact iff_of_true (by simp [hheader]) ⟨fun h => (hmac h).elim, fun h => (hvlan h).elim⟩

end Messages

section Inputs

/-- `HAL_CrcCompute` in the configuration of `EP_PsiHandleRxMsg`: 16 bits with the polynomial 0x1021 and the seed 0xffff,
most significant bit first, from the byte 2 on. -/
def crc16 (data : List UInt8) : Nat :=
  (data.drop 2).foldl (fun crc b => (List.range 8).foldl
    (fun crc _ => if crc < 2 ^ 15 then 2 * crc else (2 * crc % 2 ^ 16) ^^^ 0x1021) (crc ^^^ (b.toNat * 2 ^ 8))) 0xffff

/-- A PSI for which every command succeeds. -/
def psi : PsiContext :=
  { isPsi := true, cmdOk := fun _ => true, crc := crc16, answer := fun _ _ => 0 }

/-- The VSI 1 adds one address in 32 bytes. -/
def macAddMsg : Nat → UInt8 :=
  let bytes : List UInt8 := [0x10, 0xb7, 0x20, 1, 0, 0] ++ List.replicate 10 0 ++ [1, 0, 0, 0] ++ List.replicate 6 2
  fun k => bytes.getD k 0

theorem macAddMsg_inBounds :
    (psiHandleRxMsg psi 1 macAddMsg 32 Filters.init).2.2 ≠ [] ∧
      ∀ a ∈ (psiHandleRxMsg psi 1 macAddMsg 32 Filters.init).2.2, a.InBounds 32 :=
  ⟨by decide +kernel,
    (psiHandleRxMsg_inBounds_iff psi 1 macAddMsg 32 Filters.init (by decide +kernel) (by decide +kernel)).2
      { mac := fun _ =>
          { add := fun _ => .inr (.inl (by decide))
            delete := fun h => absurd h (by decide)
            set := fun h => absurd h (by decide) }
        vlan := fun h => absurd h (by decide) }⟩

/-- The VSI 1 deletes the same address five times in 64 bytes. -/
def macDeleteMsg : Nat → UInt8 :=
  let bytes : List UInt8 := [0xbe, 0xc1, 0x20, 2, 0, 1] ++ List.replicate 10 0 ++ [5, 0, 0, 0] ++ List.replicate 30 2
  fun k => bytes.getD k 0

/-- The address is registered for the VSI 1. -/
def macRegistered : Filters :=
  { Filters.init with
    mac := (Filters.init.mac.write 0 { addr := macAddress (payload macDeleteMsg) 0, siBitMap := 2#16 }).setCount 0 1 }

/-- The query for the fifth address writes behind the result array. -/
theorem macDeleteMsg_result_overrun :
    ¬ ∀ (c : PsiContext) (vsi : Nat) (bytes : Nat → UInt8) (msgLen : Nat) (f : Filters),
      ¬ lenError bytes msgLen → ¬ csumError c bytes msgLen →
        ∀ a ∈ (psiHandleRxMsg c vsi bytes msgLen f).2.2, a.InBounds msgLen := by
  intro h
  have hbound : 4 < numMacFilterEntry := h psi 1 macDeleteMsg 64 macRegistered (by decide +kernel) (by decide +kernel)
    (.result numMacFilterEntry 4) (by decide +kernel)
  exact absurd hbound (by decide)

end Inputs

end McuxDrivers.Netc
