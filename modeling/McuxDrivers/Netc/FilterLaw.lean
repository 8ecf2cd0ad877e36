import McuxDrivers.Netc.Filters

/-!
# The filter tables as sets of addresses

A table in which no address has two entries is a map from the addresses to the station interfaces that have asked for
them. A message of a VSI changes only what that VSI has asked for.
-/

namespace McuxDrivers.Netc
open McuxDrivers.Lib

namespace FilterTable

variable {t : FilterTable} {num : Nat}

/-- The entry applies to some station interface. -/
def Occupied (t : FilterTable) (i : Nat) : Prop :=
  (t.entry i).siBitMap ≠ 0

/-- No address has two entries. -/
def Unique (t : FilterTable) : Prop :=
  ∀ i k, t.Occupied i → t.Occupied k → (t.entry i).addr = (t.entry k).addr → i = k

/-- The addresses whose bitmap contains a station interface. -/
def addresses (t : FilterTable) (si : Nat) : Set Nat :=
  { a | ∃ i, (t.entry i).addr = a ∧ (t.entry i).siBitMap.getLsbD si = true }

/-- The entries that the driver does not count belong to the PSI at most. -/
def Counted (num : Nat) (t : FilterTable) : Prop :=
  ∀ i si, si ≠ 0 → (t.entry i).siBitMap.getLsbD si = true → i < num ∧ t.filterCount i ≠ 0

/-- What a message of `si` leaves as it was: the addresses of the other station interfaces, and the entries of the
PSI. -/
structure Isolated (t t' : FilterTable) (si : Nat) : Prop where
  others : ∀ k, k ≠ si → t'.addresses k = t.addresses k
  psi : ∀ i, (t.entry i).siBitMap.getLsbD 0 = true →
    (t'.entry i).addr = (t.entry i).addr ∧ (t'.entry i).siBitMap.getLsbD 0 = true

lemma Isolated.refl (t : FilterTable) (si : Nat) : Isolated t t si :=
  ⟨fun _ _ => rfl, fun _ h => ⟨rfl, h⟩⟩

lemma Isolated.trans {t₁ t₂ t₃ : FilterTable} {si : Nat} (h₁ : Isolated t₁ t₂ si) (h₂ : Isolated t₂ t₃ si) :
    Isolated t₁ t₃ si := by
  constructor
  · intro k hk
    rw [h₂.others k hk, h₁.others k hk]
  · intro i hi
    obtain ⟨haddr₁, hbit₁⟩ := h₁.psi i hi
    obtain ⟨haddr₂, hbit₂⟩ := h₂.psi i hbit₁
    exact ⟨haddr₂.trans haddr₁, hbit₂⟩

lemma siBitMap_ne_zero {siBitMap : BitVec 16} {si : Nat} (h : siBitMap.getLsbD si = true) : siBitMap ≠ 0 := by
  rintro rfl
  simp at h

lemma occupied_of_bit {i si : Nat} (h : (t.entry i).siBitMap.getLsbD si = true) : t.Occupied i :=
  siBitMap_ne_zero h

@[simp]
lemma entry_setCount (i count : Nat) : (t.setCount i count).entry = t.entry := rfl

@[simp]
lemma filterCount_write (i : Nat) (e : Entry) : (t.write i e).filterCount = t.filterCount := rfl

lemma filterCount_setCount_of_ne {i k : Nat} (h : k ≠ i) (count : Nat) :
    (t.setCount i count).filterCount k = t.filterCount k := by
  simp [setCount, h]

lemma filterCount_setCount_self (i count : Nat) : (t.setCount i count).filterCount i = count := by
  simp [setCount]

lemma entry_write_self (i : Nat) (e : Entry) : (t.write i e).entry i = e := by
  simp [write]

lemma entry_write_of_ne {i k : Nat} (h : k ≠ i) (e : Entry) : (t.write i e).entry k = t.entry k := by
  simp [write, h]

section Write

/-- An entry is the place of an address: it has the address if it is occupied, and no other occupied one has it. -/
structure Place (t : FilterTable) (a i : Nat) : Prop where
  addr_eq : t.Occupied i → (t.entry i).addr = a
  only : ∀ k, k ≠ i → t.Occupied k → (t.entry k).addr ≠ a

/-- The bitmap of an address at its place says whose addresses it is among. -/
lemma Place.mem_addresses {a i : Nat} (h : Place t a i) (si : Nat) :
    a ∈ t.addresses si ↔ (t.entry i).siBitMap.getLsbD si = true := by
  constructor
  · rintro ⟨k, hk, hbit⟩
    by_cases heq : k = i
    · rwa [heq] at hbit
    · exact absurd hk (h.only k heq (occupied_of_bit hbit))
  · intro hbit
    exact ⟨i, h.addr_eq (occupied_of_bit hbit), hbit⟩

variable {a i : Nat} {e : Entry}

lemma Place.write (h : Place t a i) (he : e.siBitMap ≠ 0 → e.addr = a) : Place (t.write i e) a i := by
  constructor
  · intro hocc
    rw [Occupied, entry_write_self] at hocc
    rw [entry_write_self]
    exact he hocc
  · intro k hk hocc
    rw [Occupied, entry_write_of_ne hk] at hocc
    rw [entry_write_of_ne hk]
    exact h.only k hk hocc

lemma Place.write_other {a' i' : Nat} (h : Place t a' i') (hi : i' ≠ i) (ha : e.siBitMap ≠ 0 → e.addr ≠ a') :
    Place (t.write i e) a' i' := by
  constructor
  · intro hocc
    rw [Occupied, entry_write_of_ne hi] at hocc
    rw [entry_write_of_ne hi]
    exact h.addr_eq hocc
  · intro k hk hocc
    by_cases hki : k = i
    · subst hki
      rw [Occupied, entry_write_self] at hocc
      rw [entry_write_self]
      exact ha hocc
    · rw [Occupied, entry_write_of_ne hki] at hocc
      rw [entry_write_of_ne hki]
      exact h.only k hk hocc

lemma Unique.write (hunique : Unique t)
    (he : e.siBitMap ≠ 0 → ∀ k, k ≠ i → t.Occupied k → (t.entry k).addr ≠ e.addr) : Unique (t.write i e) := by
  intro k l hk hl haddr
  by_cases hki : k = i
  · by_cases hli : l = i
    · rw [hki, hli]
    · rw [Occupied, hki, entry_write_self] at hk
      rw [Occupied, entry_write_of_ne hli] at hl
      rw [hki, entry_write_self, entry_write_of_ne hli] at haddr
      exact absurd haddr.symm (he hk l hli hl)
  · by_cases hli : l = i
    · rw [Occupied, entry_write_of_ne hki] at hk
      rw [Occupied, hli, entry_write_self] at hl
      rw [hli, entry_write_self, entry_write_of_ne hki] at haddr
      exact absurd haddr (he hl k hki hk)
    · rw [Occupied, entry_write_of_ne hki] at hk
      rw [Occupied, entry_write_of_ne hli] at hl
      rw [entry_write_of_ne hki, entry_write_of_ne hli] at haddr
      exact hunique k l hk hl haddr

lemma Place.unique_write (h : Place t a i) (hunique : Unique t) (he : e.siBitMap ≠ 0 → e.addr = a) :
    Unique (t.write i e) := by
  apply hunique.write
  intro hne k hk hocc
  rw [he hne]
  exact h.only k hk hocc

/-- A write at the place of an address changes only whose address it is. -/
lemma Place.mem_addresses_write (h : Place t a i) (he : e.siBitMap ≠ 0 → e.addr = a) (si b : Nat) :
    b ∈ (t.write i e).addresses si ↔ if b = a then e.siBitMap.getLsbD si = true else b ∈ t.addresses si := by
  by_cases hb : b = a
  · rw [if_pos hb, hb, (h.write he).mem_addresses, entry_write_self]
  · rw [if_neg hb]
    constructor
    · rintro ⟨k, hk, hbit⟩
      by_cases hki : k = i
      · rw [hki] at hk hbit
        rw [(h.write he).addr_eq (occupied_of_bit hbit)] at hk
        exact absurd hk.symm hb
      · rw [entry_write_of_ne hki] at hk hbit
        exact ⟨k, hk, hbit⟩
    · rintro ⟨k, hk, hbit⟩
      have hki : k ≠ i := by
        rintro rfl
        exact hb (hk.symm.trans (h.addr_eq (occupied_of_bit hbit)))
      refine ⟨k, ?_, ?_⟩
      · rwa [entry_write_of_ne hki]
      · rwa [entry_write_of_ne hki]

lemma Place.isolated_write (h : Place t a i) (he : e.siBitMap ≠ 0 → e.addr = a) {si : Nat} (hsi : si ≠ 0)
    (hbits : ∀ k, k ≠ si → e.siBitMap.getLsbD k = (t.entry i).siBitMap.getLsbD k) : Isolated t (t.write i e) si := by
  constructor
  · intro k hk
    ext b
    rw [h.mem_addresses_write he]
    split
    next hb => rw [hb, h.mem_addresses, hbits k hk]
    next => rfl
  · intro k hk
    by_cases hki : k = i
    · subst hki
      rw [entry_write_self, hbits 0 hsi.symm, h.addr_eq (occupied_of_bit hk)]
      have hbit : e.siBitMap.getLsbD 0 = true := by rw [hbits 0 hsi.symm, hk]
      exact ⟨he (siBitMap_ne_zero hbit), hk⟩
    · rw [entry_write_of_ne hki]
      exact ⟨rfl, hk⟩

end Write

section Query

variable {a : Nat} {r : QueryResult}

lemma queryEMTableEntry_some (h : t.queryEMTableEntry num a = some r) :
    r.index < num ∧ t.filterCount r.index ≠ 0 ∧ (t.entry r.index).addr = a ∧
      r.siBitMap = (t.entry r.index).siBitMap := by
  obtain ⟨i, hfind, rfl⟩ := Option.map_eq_some_iff.mp h
  have hmem := List.mem_of_find?_eq_some hfind
  have hprop := List.find?_some hfind
  rw [decide_eq_true_eq] at hprop
  exact ⟨List.mem_range.mp hmem, hprop.1, hprop.2, rfl⟩

lemma mem_freeIndices {i : Nat} : i ∈ t.freeIndices num ↔ i < num ∧ t.filterCount i = 0 := by
  simp [freeIndices]

/-- Counting an entry that is counted already. -/
lemma freeIndices_setCount_counted {i : Nat} (h : t.filterCount i ≠ 0) (e : Entry) :
    ((t.write i e).setCount i 1).freeIndices num = t.freeIndices num := by
  apply List.filter_congr
  intro k _
  by_cases hk : k = i
  · simp [hk, filterCount_setCount_self, h]
  · simp [filterCount_setCount_of_ne hk]

lemma freeIndices_setCount_free {i : Nat} {rest : List Nat} (h : t.freeIndices num = i :: rest) (e : Entry) :
    ((t.write i e).setCount i 1).freeIndices num = rest := by
  have hnodup : (t.freeIndices num).Nodup := List.nodup_range.filter _
  rw [h, List.nodup_cons] at hnodup
  have hsplit : ((t.write i e).setCount i 1).freeIndices num = (t.freeIndices num).filter fun k => k ≠ i := by
    unfold freeIndices
    rw [List.filter_filter]
    apply List.filter_congr
    intro k _
    by_cases hk : k = i
    · simp [hk, filterCount_setCount_self]
    · simp [filterCount_setCount_of_ne hk, hk]
  rw [hsplit, h, List.filter_cons_of_neg (by simp), List.filter_eq_self]
  intro k hk
  rw [decide_eq_true_eq]
  rintro rfl
  exact hnodup.1 hk

lemma Counted.write (h : Counted num t) {i : Nat} (hi : i < num) (e : Entry) :
    Counted num ((t.write i e).setCount i 1) := by
  intro k si hsi hbit
  by_cases hk : k = i
  · rw [hk, filterCount_setCount_self]
    exact ⟨hi, Nat.one_ne_zero⟩
  · rw [entry_setCount, entry_write_of_ne hk] at hbit
    rw [filterCount_setCount_of_ne hk, filterCount_write]
    exact h k si hsi hbit

end Query

section Add

variable {t₀ : FilterTable} {si : Nat}

/-- What is left of an add message. The results were read from the table `t₀`, before the first write. -/
structure AddPending (num si : Nat) (t₀ t : FilterTable) (rest : List Nat) : Prop where
  unique : Unique t
  counted : Counted num t
  matched : ∀ a ∈ rest, ∀ r, t₀.queryEMTableEntry num a = some r → Place t a r.index ∧ t.filterCount r.index ≠ 0 ∧
    ∀ k, k ≠ si → r.siBitMap.getLsbD k = (t.entry r.index).siBitMap.getLsbD k
  fresh : ∀ a ∈ rest, t₀.queryEMTableEntry num a = none → ∀ k, t.Occupied k → (t.entry k).addr ≠ a
  nodup : (rest.filter fun a => (t₀.queryEMTableEntry num a).isNone).Nodup
  free : ∀ i ∈ (t.freeIndices num).take (t₀.newNum num rest), ¬ t.Occupied i
  room : t₀.newNum num rest ≤ t.freeNum num

lemma bit_shift (hsi : si < 16) (k : Nat) : (1#16 <<< si).getLsbD k = decide (k = si) := by
  simp only [BitVec.getLsbD_shiftLeft, BitVec.getLsbD_one]
  by_cases hk : k = si
  · simp [hk, hsi]
  · by_cases hlt : k < si
    · simp [hlt, hk]
    · have : k - si ≠ 0 := by omega
      simp [hk, this]

lemma bit_or_shift (hsi : si < 16) (b : BitVec 16) (k : Nat) :
    (b ||| (1#16 <<< si)).getLsbD k = (b.getLsbD k || decide (k = si)) := by
  rw [BitVec.getLsbD_or, bit_shift hsi]

lemma index_ne {a a' : Nat} {r r' : QueryResult} (h : t₀.queryEMTableEntry num a = some r)
    (h' : t₀.queryEMTableEntry num a' = some r') (hne : a' ≠ a) : r'.index ≠ r.index := by
  obtain ⟨-, -, haddr, -⟩ := queryEMTableEntry_some h
  obtain ⟨-, -, haddr', -⟩ := queryEMTableEntry_some h'
  intro heq
  rw [heq, haddr] at haddr'
  exact hne haddr'.symm

lemma Place.setCount {a i k : Nat} (h : Place t a i) (count : Nat) : Place (t.setCount k count) a i :=
  ⟨h.addr_eq, h.only⟩

lemma Unique.setCount (h : Unique t) (i count : Nat) : Unique (t.setCount i count) := h

lemma AddPending.matched_step {a : Nat} {rest : List Nat} (h : AddPending num si t₀ t (a :: rest)) (hsi : si < 16)
    {r : QueryResult} (hr : t₀.queryEMTableEntry num a = some r) :
    AddPending num si t₀
      ((t.write r.index { addr := a, siBitMap := r.siBitMap ||| (1#16 <<< si) }).setCount r.index 1) rest := by
  obtain ⟨hplace, hcount, hbits⟩ := h.matched a (by simp) r hr
  obtain ⟨hindex, -, -, -⟩ := queryEMTableEntry_some hr
  set e : Entry := { addr := a, siBitMap := r.siBitMap ||| (1#16 <<< si) } with he
  have haddr : e.siBitMap ≠ 0 → e.addr = a := fun _ => rfl
  have hnew : t₀.newNum num (a :: rest) = t₀.newNum num rest := by
    rw [newNum, newNum, List.filter_cons_of_neg (by simp [hr])]
  constructor
  · exact (hplace.unique_write h.unique haddr).setCount _ _
  · exact h.counted.write hindex e
  · intro a' ha' r' hr'
    by_cases hne : a' = a
    · rw [hne, hr] at hr'
      cases hr'
      refine ⟨hne ▸ (hplace.write haddr).setCount 1, ?_, ?_⟩
      · rw [filterCount_setCount_self]
        exact Nat.one_ne_zero
      · intro k hk
        rw [entry_setCount, entry_write_self, he, bit_or_shift hsi, decide_eq_false hk, Bool.or_false]
    · have hindex' := index_ne hr hr' hne
      obtain ⟨hplace', hcount', hbits'⟩ := h.matched a' (List.mem_cons_of_mem a ha') r' hr'
      refine ⟨(hplace'.write_other hindex' fun _ => Ne.symm hne).setCount 1, ?_, ?_⟩
      · rw [filterCount_setCount_of_ne hindex']
        exact hcount'
      · rw [entry_setCount, entry_write_of_ne hindex']
        exact hbits'
  · intro a' ha' hnone k hocc
    have hne : a' ≠ a := by
      rintro rfl
      rw [hr] at hnone
      cases hnone
    rw [Occupied, entry_setCount] at hocc
    rw [entry_setCount]
    by_cases hk : k = r.index
    · rw [hk, entry_write_self]
      exact Ne.symm hne
    · rw [entry_write_of_ne hk] at hocc ⊢
      exact h.fresh a' (List.mem_cons_of_mem a ha') hnone k hocc
  · have hnodup := h.nodup
    rwa [List.filter_cons_of_neg (by simp [hr])] at hnodup
  · intro i hi
    rw [freeIndices_setCount_counted hcount, ← hnew] at hi
    have hne : i ≠ r.index := by
      rintro rfl
      exact hcount (mem_freeIndices.mp (List.mem_of_mem_take hi)).2
    rw [Occupied, entry_setCount, entry_write_of_ne hne]
    exact h.free i hi
  · rw [freeNum, freeIndices_setCount_counted hcount, ← hnew]
    exact h.room

/-- The write for an address that the table does not have. -/
lemma AddPending.new_step {a : Nat} {rest : List Nat} (h : AddPending num si t₀ t (a :: rest))
    (hnone : t₀.queryEMTableEntry num a = none) {index : Nat} {indices : List Nat}
    (hfree : t.freeIndices num = index :: indices) :
    Place t a index ∧ ¬ t.Occupied index ∧
      AddPending num si t₀ ((t.write index { addr := a, siBitMap := 1#16 <<< si }).setCount index 1) rest := by
  have hnew : t₀.newNum num (a :: rest) = t₀.newNum num rest + 1 := by
    rw [newNum, newNum, List.filter_cons_of_pos (by simp [hnone]), List.length_cons]
  have hmem : index ∈ t.freeIndices num := by
    rw [hfree]
    exact List.mem_cons_self
  obtain ⟨hindex, hcount⟩ := mem_freeIndices.mp hmem
  have hempty : ¬ t.Occupied index := by
    apply h.free
    rw [hfree, hnew, List.take_succ_cons]
    exact List.mem_cons_self
  have hplace : Place t a index := by
    constructor
    · intro hocc
      exact absurd hocc hempty
    · intro k _ hocc
      exact h.fresh a (by simp) hnone k hocc
  set e : Entry := { addr := a, siBitMap := 1#16 <<< si } with he
  have haddr : e.siBitMap ≠ 0 → e.addr = a := fun _ => rfl
  have hnodup := h.nodup
  rw [List.filter_cons_of_pos (by simp [hnone]), List.nodup_cons] at hnodup
  refine ⟨hplace, hempty, ?_⟩
  constructor
  · exact (hplace.unique_write h.unique haddr).setCount _ _
  · exact h.counted.write hindex e
  · intro a' ha' r' hr'
    obtain ⟨hplace', hcount', hbits'⟩ := h.matched a' (List.mem_cons_of_mem a ha') r' hr'
    have hne : a' ≠ a := by
      rintro rfl
      rw [hnone] at hr'
      cases hr'
    have hindex' : r'.index ≠ index := by
      rintro rfl
      exact hcount' hcount
    refine ⟨(hplace'.write_other hindex' fun _ => Ne.symm hne).setCount 1, ?_, ?_⟩
    · rw [filterCount_setCount_of_ne hindex']
      exact hcount'
    · rw [entry_setCount, entry_write_of_ne hindex']
      exact hbits'
  · intro a' ha' hnone' k hocc
    have hne : a' ≠ a := by
      rintro rfl
      exact hnodup.1 (List.mem_filter.mpr ⟨ha', by simp [hnone']⟩)
    rw [Occupied, entry_setCount] at hocc
    rw [entry_setCount]
    by_cases hk : k = index
    · rw [hk, entry_write_self]
      exact Ne.symm hne
    · rw [entry_write_of_ne hk] at hocc ⊢
      exact h.fresh a' (List.mem_cons_of_mem a ha') hnone' k hocc
  · exact hnodup.2
  · intro i hi
    rw [freeIndices_setCount_free hfree] at hi
    have hi' : i ∈ (t.freeIndices num).take (t₀.newNum num (a :: rest)) := by
      rw [hfree, hnew, List.take_succ_cons]
      exact List.mem_cons_of_mem index hi
    have hne : i ≠ index := by
      rintro rfl
      have hdup : (t.freeIndices num).Nodup := List.nodup_range.filter _
      rw [hfree, List.nodup_cons] at hdup
      exact hdup.1 (List.mem_of_mem_take hi)
    rw [Occupied, entry_setCount, entry_write_of_ne hne]
    exact h.free i hi'
  · have hroom := h.room
    rw [freeNum, hfree, hnew, List.length_cons] at hroom
    rw [freeNum, freeIndices_setCount_free hfree]
    omega

/-- What a message does that is answered with success, when the addresses of its sender become `result`. -/
structure Answered (num si : Nat) (t t' : FilterTable) (result : Set Nat) : Prop where
  unique : Unique t'
  counted : Counted num t'
  isolated : Isolated t t' si
  sender : t'.addresses si = result

/-- A write at the place of an address that gives it to `si`, and the writes behind it. -/
lemma Place.grant {a i : Nat} {rest : List Nat} (h : Place t a i) {e : Entry} (haddr : e.addr = a) (hsi : si ≠ 0)
    (hbits : ∀ k, e.siBitMap.getLsbD k = ((t.entry i).siBitMap.getLsbD k || decide (k = si))) {t' : FilterTable}
    (hrest : Answered num si ((t.write i e).setCount i 1) t'
      (((t.write i e).setCount i 1).addresses si ∪ { b | b ∈ rest })) :
    Answered num si t t' (t.addresses si ∪ { b | b ∈ a :: rest }) := by
  have hisolated : Isolated t ((t.write i e).setCount i 1) si := by
    have hwrite := h.isolated_write (fun _ => haddr) hsi fun k hk => by
      rw [hbits, decide_eq_false hk, Bool.or_false]
    exact ⟨hwrite.others, hwrite.psi⟩
  refine ⟨hrest.unique, hrest.counted, hisolated.trans hrest.isolated, ?_⟩
  rw [hrest.sender]
  ext b
  change b ∈ (t.write i e).addresses si ∨ b ∈ rest ↔ b ∈ t.addresses si ∨ b ∈ a :: rest
  rw [h.mem_addresses_write (fun _ => haddr), List.mem_cons]
  by_cases hb : b = a
  · simp [hb, hbits]
  · simp [hb]

theorem addEntries_answered (hpos : 0 < si) (hsi : si < 16) {rest : List Nat} (h : AddPending num si t₀ t rest) :
    ∃ t', addEntries num si (t₀.queries num rest) t = (t', .done) ∧
      Answered num si t t' (t.addresses si ∪ { a | a ∈ rest }) := by
  induction rest generalizing t with
  | nil =>
    refine ⟨t, rfl, h.unique, h.counted, .refl t si, ?_⟩
    simp
  | cons a rest ih =>
    rw [queries, List.map_cons]
    cases hquery : t₀.queryEMTableEntry num a with
    | some r =>
      obtain ⟨hplace, -, hbits⟩ := h.matched a (by simp) r hquery
      obtain ⟨t', hrun, hrest⟩ := ih (h.matched_step hsi hquery)
      refine ⟨t', hrun, hplace.grant rfl hpos.ne' ?_ hrest⟩
      intro k
      rw [bit_or_shift hsi]
      by_cases hk : k = si
      · simp [hk]
      · rw [hbits k hk]
    | none =>
      obtain ⟨index, indices, hfree⟩ : ∃ index indices, t.freeIndices num = index :: indices := by
        apply List.exists_cons_of_length_pos
        have hroom := h.room
        rw [newNum, List.filter_cons_of_pos (by simp [hquery]), List.length_cons, freeNum] at hroom
        omega
      obtain ⟨hplace, hempty, hstep⟩ := h.new_step hquery hfree
      have hzero : (t.entry index).siBitMap = 0 := not_not.mp hempty
      obtain ⟨t', hrun, hrest⟩ := ih hstep
      refine ⟨t', ?_, hplace.grant rfl hpos.ne' ?_ hrest⟩
      · rw [addEntries, freeIndex, hfree, List.head?_cons]
        exact hrun
      · intro k
        rw [hzero, bit_shift hsi]
        simp

/-- Every occupied entry with an address of a message is the one that the query finds. -/
def Known (num : Nat) (t : FilterTable) (addresses : List Nat) : Prop :=
  ∀ a ∈ addresses, ∀ i, t.Occupied i → (t.entry i).addr = a → (t.queryEMTableEntry num a).map QueryResult.index = some i

/-- An add message that is not refused names no new address twice, and finds all entries of its addresses and no entry
in the places that it takes for free. -/
def AddSound (num : Nat) (t : FilterTable) (addresses : List Nat) : Prop :=
  addresses.length ≤ num → t.newNum num addresses ≤ t.freeNum num →
    Known num t addresses ∧ (addresses.filter fun a => (t.queryEMTableEntry num a).isNone).Nodup ∧
      ∀ i ∈ (t.freeIndices num).take (t.newNum num addresses), ¬ t.Occupied i

lemma Known.place {addresses : List Nat} (h : Known num t addresses) {a : Nat} (ha : a ∈ addresses) {r : QueryResult}
    (hr : t.queryEMTableEntry num a = some r) : Place t a r.index := by
  obtain ⟨-, -, haddr, -⟩ := queryEMTableEntry_some hr
  constructor
  · exact fun _ => haddr
  · intro k hk hocc hka
    have hindex := h a ha k hocc hka
    rw [hr, Option.map_some, Option.some.injEq] at hindex
    exact hk hindex.symm

/-- A message is refused and changes nothing, or is answered with success. -/
def Handled (num si : Nat) (t t' : FilterTable) (code : MsgCode) (result : Set Nat) : Prop :=
  (code ≠ .done ∧ t' = t) ∨ (code = .done ∧ Answered num si t t' result)

theorem queryAdd_handled (hpos : 0 < si) (hsi : si < 16) (hunique : Unique t) (hcounted : Counted num t)
    {addresses : List Nat} (hsound : AddSound num t addresses) :
    Handled num si t (t.queryAdd num si addresses).1 (t.queryAdd num si addresses).2
      (t.addresses si ∪ { a | a ∈ addresses }) := by
  unfold queryAdd
  by_cases hlen : addresses.length > num
  · rw [if_pos hlen]
    exact .inl ⟨by simp, rfl⟩
  rw [if_neg hlen]
  by_cases hroom : t.newNum num addresses > t.freeNum num
  · rw [if_pos hroom]
    exact .inl ⟨by simp, rfl⟩
  rw [if_neg hroom]
  obtain ⟨hknown, hnodup, hfree⟩ := hsound (by omega) (by omega)
  have hpending : AddPending num si t t addresses := by
    refine ⟨hunique, hcounted, ?_, ?_, hnodup, hfree, by omega⟩
    · intro a ha r hr
      obtain ⟨-, hcount, -, hmap⟩ := queryEMTableEntry_some hr
      exact ⟨hknown.place ha hr, hcount, fun k _ => by rw [hmap]⟩
    · intro a ha hnone k hocc haddr
      have hindex := hknown a ha k hocc haddr
      rw [hnone] at hindex
      cases hindex
  obtain ⟨t', hrun, hanswer⟩ := addEntries_answered hpos hsi hpending
  rw [hrun]
  exact .inr ⟨rfl, hanswer⟩

end Add

section Delete

variable {t₀ : FilterTable} {si : Nat}

/-- A delete message asks for an entry that is not there before the result array is full, or has no more addresses than
the array has places and finds all entries of its addresses. -/
def DeleteSound (num : Nat) (t : FilterTable) (addresses : List Nat) : Prop :=
  (∃ a ∈ addresses.take num, t.queryEMTableEntry num a = none) ∨ (addresses.length ≤ num ∧ Known num t addresses)

lemma deleteQueries_notFound {i : Nat} {addresses : List Nat}
    (h : ∃ a ∈ addresses.take (num - i), t.queryEMTableEntry num a = none) :
    t.deleteQueries num i addresses = some (.error .addrNotFound) := by
  induction addresses generalizing i with
  | nil => simp at h
  | cons b addresses ih =>
    obtain ⟨a, ha, hnone⟩ := h
    have hlt : i < num := by
      by_contra hge
      rw [Nat.sub_eq_zero_of_le (by omega), List.take_zero] at ha
      cases ha
    rw [deleteQueries, if_pos hlt]
    cases hb : t.queryEMTableEntry num b with
    | none => rfl
    | some r =>
      have hsucc : num - i = num - (i + 1) + 1 := by omega
      rw [hsucc, List.take_succ_cons, List.mem_cons] at ha
      obtain rfl | ha := ha
      · rw [hb] at hnone
        cases hnone
      · simp only [ih ⟨a, ha, hnone⟩, Option.map_some]
        rfl

lemma deleteQueries_found {i : Nat} {addresses : List Nat} (hlen : i + addresses.length ≤ num)
    (h : ∀ a ∈ addresses, t.queryEMTableEntry num a ≠ none) :
    ∃ results, t.deleteQueries num i addresses = some (.ok results) ∧ results.map Prod.fst = addresses ∧
      ∀ x ∈ results, t.queryEMTableEntry num x.1 = some x.2 := by
  induction addresses generalizing i with
  | nil => exact ⟨[], rfl, rfl, List.forall_mem_nil _⟩
  | cons a addresses ih =>
    rw [List.length_cons] at hlen
    obtain ⟨results, hrun, hmap, hresults⟩ := ih (i := i + 1) (by omega) fun b hb => h b (List.mem_cons_of_mem a hb)
    obtain ⟨r, hr⟩ := Option.ne_none_iff_exists'.mp (h a (by simp))
    refine ⟨(a, r) :: results, ?_, ?_, List.forall_mem_cons.mpr ⟨hr, hresults⟩⟩
    · simp only [deleteQueries, if_pos (show i < num by omega), hr, hrun, Option.map_some]
      rfl
    · rw [List.map_cons, hmap]

/-- What is left of a delete message. -/
structure DeletePending (num si : Nat) (t₀ t : FilterTable) (rest : List (Nat × QueryResult)) : Prop where
  unique : Unique t
  counted : Counted num t
  matched : ∀ x ∈ rest, t₀.queryEMTableEntry num x.1 = some x.2 ∧ Place t x.1 x.2.index ∧
    ((deletedEntry si x.1 x.2).siBitMap ≠ 0 → t.filterCount x.2.index ≠ 0) ∧
    ∀ k, k ≠ si → x.2.siBitMap.getLsbD k = (t.entry x.2.index).siBitMap.getLsbD k

lemma bit_and_not_shift (hsi : si < 16) (b : BitVec 16) (k : Nat) :
    (b &&& ~~~(1#16 <<< si)).getLsbD k = (b.getLsbD k && decide (k ≠ si)) := by
  rw [BitVec.getLsbD_and, BitVec.getLsbD_not, bit_shift hsi]
  by_cases hk : k < 16
  · simp [hk]
  · simp [BitVec.getLsbD_of_ge b k (by omega)]

lemma entry_deleteEntry (x : Nat × QueryResult) :
    (deleteEntry si t x).entry = (t.write x.2.index (deletedEntry si x.1 x.2)).entry := by
  unfold deleteEntry
  dsimp only
  split <;> rfl

lemma filterCount_deleteEntry {k : Nat} {x : Nat × QueryResult}
    (h : k ≠ x.2.index ∨ (deletedEntry si x.1 x.2).siBitMap ≠ 0) :
    (deleteEntry si t x).filterCount k = t.filterCount k := by
  unfold deleteEntry
  dsimp only
  split
  next hzero =>
    have hk : k ≠ x.2.index := h.resolve_right fun hne => hne hzero
    rw [filterCount_setCount_of_ne hk, filterCount_write]
  next => rw [filterCount_write]

lemma deletedEntry_addr (si a : Nat) (r : QueryResult) :
    (deletedEntry si a r).siBitMap ≠ 0 → (deletedEntry si a r).addr = a :=
  fun h => if_neg h

/-- The table matters only through its entries here. -/
lemma Place.congr {t' : FilterTable} (h : t'.entry = t.entry) {a i : Nat} (hplace : Place t a i) : Place t' a i := by
  constructor
  · rw [Occupied, h]
    exact hplace.addr_eq
  · intro k hk
    rw [Occupied, h]
    exact hplace.only k hk

lemma DeletePending.step {a : Nat} {r : QueryResult} {rest : List (Nat × QueryResult)}
    (h : DeletePending num si t₀ t ((a, r) :: rest)) (hsi : si < 16) :
    DeletePending num si t₀ (deleteEntry si t (a, r)) rest := by
  obtain ⟨hquery, hplace, hcount, hbits⟩ := h.matched (a, r) (by simp)
  obtain ⟨hindex, -, -, -⟩ := queryEMTableEntry_some hquery
  have hentry : (deleteEntry si t (a, r)).entry = (t.write r.index (deletedEntry si a r)).entry := entry_deleteEntry (a, r)
  have haddr := deletedEntry_addr si a r
  constructor
  · have hunique := hplace.unique_write h.unique haddr
    intro i k
    rw [Occupied, Occupied, hentry]
    exact hunique i k
  · intro k l hl hbit
    rw [hentry] at hbit
    by_cases hk : k = r.index
    · rw [hk, entry_write_self] at hbit
      have hne : (deletedEntry si a r).siBitMap ≠ 0 := siBitMap_ne_zero hbit
      rw [hk, filterCount_deleteEntry (.inr hne)]
      exact ⟨hindex, hcount hne⟩
    · rw [entry_write_of_ne hk] at hbit
      rw [filterCount_deleteEntry (.inl hk)]
      exact h.counted k l hl hbit
  · rintro ⟨a', r'⟩ hx
    obtain ⟨hquery', hplace', hcount', hbits'⟩ := h.matched (a', r') (List.mem_cons_of_mem _ hx)
    dsimp only at *
    by_cases hne : a' = a
    · subst hne
      rw [hquery] at hquery'
      cases hquery'
      refine ⟨hquery, (hplace.write haddr).congr hentry, ?_, ?_⟩
      · intro hzero
        rw [filterCount_deleteEntry (.inr hzero)]
        exact hcount hzero
      · intro k hk
        rw [hentry, entry_write_self, deletedEntry, bit_and_not_shift hsi, decide_eq_true hk, Bool.and_true]
    · have hindex' := index_ne hquery hquery' hne
      have hother := hplace'.write_other (e := deletedEntry si a r) hindex' fun hzero => by
        rw [haddr hzero]
        exact Ne.symm hne
      refine ⟨hquery', hother.congr hentry, ?_, ?_⟩
      · rw [filterCount_deleteEntry (.inl hindex')]
        exact hcount'
      · rw [hentry, entry_write_of_ne hindex']
        exact hbits'

theorem deleteEntries_answered (hpos : 0 < si) (hsi : si < 16) {rest : List (Nat × QueryResult)}
    (h : DeletePending num si t₀ t rest) :
    Answered num si t (rest.foldl (deleteEntry si) t) (t.addresses si \ { a | a ∈ rest.map Prod.fst }) := by
  induction rest generalizing t with
  | nil =>
    refine ⟨h.unique, h.counted, .refl t si, ?_⟩
    simp
  | cons x rest ih =>
    obtain ⟨a, r⟩ := x
    obtain ⟨-, hplace, -, hbits⟩ := h.matched (a, r) (by simp)
    have hentry : (deleteEntry si t (a, r)).entry = (t.write r.index (deletedEntry si a r)).entry := entry_deleteEntry _
    have haddr := deletedEntry_addr si a r
    have hrest := ih (h.step hsi)
    have hisolated : Isolated t (deleteEntry si t (a, r)) si := by
      have hwrite := hplace.isolated_write haddr hpos.ne' fun k hk => by
        rw [deletedEntry, bit_and_not_shift hsi, decide_eq_true hk, Bool.and_true, hbits k hk]
      constructor
      · intro k hk
        rw [addresses, hentry]
        exact hwrite.others k hk
      · rw [hentry]
        exact hwrite.psi
    refine ⟨hrest.unique, hrest.counted, hisolated.trans hrest.isolated, ?_⟩
    rw [List.foldl_cons, hrest.sender]
    ext b
    have hmem : b ∈ (deleteEntry si t (a, r)).addresses si ↔ b ∈ (t.write r.index (deletedEntry si a r)).addresses si := by
      rw [addresses, hentry]
      rfl
    rw [Set.mem_sdiff, hmem, hplace.mem_addresses_write haddr, List.map_cons, Set.mem_sdiff]
    by_cases hb : b = a
    · simp [hb, deletedEntry, bit_and_not_shift hsi]
    · simp [hb]

theorem queryDelete_handled (hpos : 0 < si) (hsi : si < 16) (hunique : Unique t) (hcounted : Counted num t)
    {addresses : List Nat} (hsound : DeleteSound num t addresses) :
    ∃ t' code, t.queryDelete num si addresses = some (t', code) ∧
      Handled num si t t' code (t.addresses si \ { a | a ∈ addresses }) := by
  by_cases hfound : ∃ a ∈ addresses.take num, t.queryEMTableEntry num a = none
  · refine ⟨t, .addrNotFound, ?_, .inl ⟨by decide, rfl⟩⟩
    rw [queryDelete, deleteQueries_notFound (i := 0) hfound, Option.map_some]
  obtain ⟨hlen, hknown⟩ := hsound.resolve_left hfound
  push Not at hfound
  rw [List.take_of_length_le hlen] at hfound
  obtain ⟨results, hrun, hmap, hresults⟩ := deleteQueries_found (i := 0) (by omega) hfound
  refine ⟨results.foldl (deleteEntry si) t, .done, ?_, .inr ⟨rfl, ?_⟩⟩
  · rw [queryDelete, hrun, Option.map_some]
  · have hpending : DeletePending num si t t results := by
      refine ⟨hunique, hcounted, ?_⟩
      intro x hx
      have hmem : x.1 ∈ addresses := hmap ▸ List.mem_map_of_mem hx
      obtain ⟨-, hcount, -, hbits⟩ := queryEMTableEntry_some (hresults x hx)
      exact ⟨hresults x hx, hknown.place hmem (hresults x hx), fun _ => hcount, fun k _ => by rw [hbits]⟩
    rw [← hmap]
    exact deleteEntries_answered hpos hsi hpending

end Delete

section Flush

variable {si : Nat} (delete : Nat → Bool)

lemma and_shift_eq_zero (hsi : si < 16) (b : BitVec 16) : b &&& (1#16 <<< si) = 0 ↔ b.getLsbD si = false := by
  constructor
  · intro h
    have hbit := congrArg (fun x => BitVec.getLsbD x si) h
    simpa [bit_shift hsi] using hbit
  · intro h
    apply BitVec.eq_of_getLsbD_eq
    intro k _
    rw [BitVec.getLsbD_and, bit_shift hsi]
    by_cases hk : k = si
    · simp [hk, h]
    · simp [hk]

/-- A round of the flush writes the entry without the bit of the sender, or changes nothing. -/
lemma flushEntry_cases (hsi : si < 16) (t : FilterTable) (i : Nat) :
    (flushEntry si delete t i = t ∧
        ¬ (t.filterCount i ≠ 0 ∧ delete (t.entry i).addr = true ∧ (t.entry i).siBitMap.getLsbD si = true)) ∨
      ∃ e : Entry, (t.filterCount i ≠ 0 ∧ delete (t.entry i).addr = true ∧ (t.entry i).siBitMap.getLsbD si = true) ∧
        (∀ k, e.siBitMap.getLsbD k = ((t.entry i).siBitMap.getLsbD k && decide (k ≠ si))) ∧
        (e.siBitMap ≠ 0 → e.addr = (t.entry i).addr) ∧
        (flushEntry si delete t i).entry = (t.write i e).entry ∧
        ∀ k, k ≠ i ∨ e.siBitMap ≠ 0 → (flushEntry si delete t i).filterCount k = t.filterCount k := by
  unfold flushEntry
  dsimp only
  by_cases hcount : t.filterCount i = 0
  · rw [if_pos hcount]
    exact .inl ⟨rfl, fun h => h.1 hcount⟩
  by_cases hdelete : ¬ delete (t.entry i).addr = true
  · rw [if_neg hcount, if_pos hdelete]
    exact .inl ⟨rfl, fun h => hdelete h.2.1⟩
  rw [if_neg hcount, if_neg hdelete]
  by_cases hbit : (t.entry i).siBitMap &&& (1#16 <<< si) = 0
  · rw [if_pos hbit]
    rw [and_shift_eq_zero hsi] at hbit
    exact .inl ⟨rfl, fun h => Bool.false_ne_true (hbit.symm.trans h.2.2)⟩
  rw [if_neg hbit]
  rw [and_shift_eq_zero hsi, Bool.not_eq_false] at hbit
  right
  by_cases honly : (t.entry i).siBitMap = 1#16 <<< si
  · rw [if_pos honly]
    refine ⟨{ addr := 0, siBitMap := 0 }, ⟨hcount, not_not.mp hdelete, hbit⟩, ?_, ?_, rfl, ?_⟩
    · intro k
      rw [honly, bit_shift hsi]
      simp
    · exact fun h => absurd rfl h
    · intro k hk
      have hne : k ≠ i := hk.resolve_right fun h => h rfl
      rw [filterCount_setCount_of_ne hne, filterCount_write]
  · rw [if_neg honly]
    refine ⟨{ t.entry i with siBitMap := (t.entry i).siBitMap &&& ~~~(1#16 <<< si) },
      ⟨hcount, not_not.mp hdelete, hbit⟩, fun k => bit_and_not_shift hsi _ k, fun _ => rfl, ?_, ?_⟩
    · split <;> rfl
    · intro k hk
      split
      next hzero =>
        have hne : k ≠ i := hk.resolve_right fun h => h hzero
        rw [filterCount_setCount_of_ne hne, filterCount_write]
      next => rw [filterCount_write]

lemma flushEntry_spec (hpos : 0 < si) (hsi : si < 16) (hunique : Unique t) (hcounted : Counted num t) (i : Nat) :
    Answered num si t (flushEntry si delete t i)
        (t.addresses si \ { a | delete a = true ∧ (t.entry i).addr = a ∧ (t.entry i).siBitMap.getLsbD si = true }) ∧
      ∀ k, k ≠ i → (flushEntry si delete t i).entry k = t.entry k := by
  obtain ⟨heq, hskip⟩ | ⟨e, ⟨hcount, hdelete, hbit⟩, hbits, haddr, hentry, hcounts⟩ :=
    flushEntry_cases delete hsi t i
  · rw [heq]
    refine ⟨⟨hunique, hcounted, .refl t si, ?_⟩, fun _ _ => rfl⟩
    symm
    rw [sdiff_eq_left, Set.disjoint_left]
    rintro a - ⟨hdelete, rfl, hbit⟩
    exact hskip ⟨(hcounted i si hpos.ne' hbit).2, hdelete, hbit⟩
  · have hplace : Place t (t.entry i).addr i := by
      constructor
      · exact fun _ => rfl
      · intro k hk hocc heq
        exact hk (hunique k i hocc (occupied_of_bit hbit) heq)
    refine ⟨⟨?_, ?_, ?_, ?_⟩, ?_⟩
    · have hwrite := hplace.unique_write hunique haddr
      intro k l
      rw [Occupied, Occupied, hentry]
      exact hwrite k l
    · intro k l hl hkl
      rw [hentry] at hkl
      by_cases hk : k = i
      · rw [hk, entry_write_self] at hkl
        rw [hk, hcounts i (.inr (siBitMap_ne_zero hkl))]
        rw [hbits, Bool.and_eq_true] at hkl
        exact hcounted i l hl hkl.1
      · rw [entry_write_of_ne hk] at hkl
        rw [hcounts k (.inl hk)]
        exact hcounted k l hl hkl
    · have hwrite := hplace.isolated_write haddr hpos.ne' fun k hk => by
        rw [hbits, decide_eq_true hk, Bool.and_true]
      constructor
      · intro k hk
        rw [addresses, hentry]
        exact hwrite.others k hk
      · rw [hentry]
        exact hwrite.psi
    · ext b
      have hmem : b ∈ (flushEntry si delete t i).addresses si ↔ b ∈ (t.write i e).addresses si := by
        rw [addresses, hentry]
        rfl
      rw [hmem, hplace.mem_addresses_write haddr, Set.mem_sdiff]
      by_cases hb : b = (t.entry i).addr
      · simp [hb, hbits, hdelete, hbit]
      · simp [hb, Ne.symm hb]
    · intro k hk
      rw [hentry, entry_write_of_ne hk]

lemma flushEntries_answered (hpos : 0 < si) (hsi : si < 16) {indices : List Nat} (hnodup : indices.Nodup)
    (hunique : Unique t) (hcounted : Counted num t) :
    Answered num si t (indices.foldl (flushEntry si delete) t)
      (t.addresses si \
        { a | delete a = true ∧ ∃ i ∈ indices, (t.entry i).addr = a ∧ (t.entry i).siBitMap.getLsbD si = true }) := by
  induction indices generalizing t with
  | nil =>
    refine ⟨hunique, hcounted, .refl t si, ?_⟩
    simp
  | cons i indices ih =>
    rw [List.nodup_cons] at hnodup
    obtain ⟨hfirst, hsame⟩ := flushEntry_spec delete hpos hsi hunique hcounted i
    have hrest := ih hnodup.2 hfirst.unique hfirst.counted
    refine ⟨hrest.unique, hrest.counted, hfirst.isolated.trans hrest.isolated, ?_⟩
    rw [List.foldl_cons, hrest.sender, hfirst.sender]
    ext b
    have hindices : (∃ k ∈ indices, ((flushEntry si delete t i).entry k).addr = b ∧
          ((flushEntry si delete t i).entry k).siBitMap.getLsbD si = true) ↔
        ∃ k ∈ indices, (t.entry k).addr = b ∧ (t.entry k).siBitMap.getLsbD si = true := by
      apply exists_congr
      intro k
      apply and_congr_right
      intro hk
      rw [hsame k fun heq => hnodup.1 (heq ▸ hk)]
    simp only [Set.mem_sdiff, Set.mem_ofPred_eq, hindices, List.exists_mem_cons_iff]
    rw [and_assoc, and_or_left, not_or]

theorem flush_answered (hpos : 0 < si) (hsi : si < 16) (hunique : Unique t) (hcounted : Counted num t) :
    Answered num si t (t.flush num si delete) (t.addresses si \ { a | delete a = true }) := by
  have h := flushEntries_answered delete hpos hsi (List.nodup_range (n := num)) hunique hcounted
  refine ⟨h.unique, h.counted, h.isolated, ?_⟩
  change ((List.range num).foldl (flushEntry si delete) t).addresses si = _
  rw [h.sender]
  ext b
  simp only [Set.mem_sdiff, Set.mem_ofPred_eq, not_and]
  apply and_congr_right
  rintro ⟨i, haddr, hbit⟩
  constructor
  · intro hno hdelete
    exact hno hdelete ⟨i, List.mem_range.mpr (hcounted i si hpos.ne' hbit).1, haddr, hbit⟩
  · intro hno hdelete
    exact absurd hdelete hno

end Flush

section Psi

variable {idx address : Nat}

/-- The PSI gives an address to itself that no other entry has. -/
def PsiAddSound (t : FilterTable) (idx address : Nat) : Prop :=
  ∀ i, i ≠ idx % 2 ^ 16 → t.Occupied i → (t.entry i).addr ≠ address

lemma Counted.psi_write (h : Counted num t) {e : Entry} (he : ∀ si, si ≠ 0 → e.siBitMap.getLsbD si = false) (i : Nat) :
    Counted num (t.write i e) := by
  intro k si hsi hbit
  by_cases hk : k = i
  · rw [hk, entry_write_self, he si hsi] at hbit
    cases hbit
  · rw [entry_write_of_ne hk] at hbit
    exact h k si hsi hbit

lemma addEMTableEntry_sound (hunique : Unique t) (hcounted : Counted num t) (hsound : PsiAddSound t idx address) :
    Unique (addEMTableEntry t idx address) ∧ Counted num (addEMTableEntry t idx address) := by
  constructor
  · exact hunique.write fun _ k hk hocc => hsound k hk hocc
  · apply hcounted.psi_write
    intro si hsi
    rw [bit_shift (by decide), decide_eq_false hsi]

lemma delEMTableEntry_sound (hunique : Unique t) (hcounted : Counted num t) :
    Unique (delEMTableEntry t idx) ∧ Counted num (delEMTableEntry t idx) := by
  constructor
  · exact hunique.write fun h => absurd rfl h
  · apply hcounted.psi_write
    intro si _
    simp

end Psi

/-- The law of a message: no address gets a second entry, what the message leaves as it was, and, if it is answered with
success, that the addresses of its sender are `result`. -/
structure Law (t t' : FilterTable) (si : Nat) (code : MsgCode) (result : Set Nat) : Prop where
  unique : Unique t'
  isolated : Isolated t t' si
  sender : code = .done → t'.addresses si = result

lemma Handled.law {si : Nat} {t' : FilterTable} {code : MsgCode} {result : Set Nat} (hunique : Unique t)
    (h : Handled num si t t' code result) : Law t t' si code result := by
  obtain ⟨hcode, rfl⟩ | ⟨-, hanswer⟩ := h
  · exact ⟨hunique, .refl _ si, fun hdone => absurd hdone hcode⟩
  · exact ⟨hanswer.unique, hanswer.isolated, fun _ => hanswer.sender⟩

lemma Handled.counted {si : Nat} {t' : FilterTable} {code : MsgCode} {result : Set Nat} (hcounted : Counted num t)
    (h : Handled num si t t' code result) : Counted num t' := by
  obtain ⟨-, rfl⟩ | ⟨-, hanswer⟩ := h
  · exact hcounted
  · exact hanswer.counted

end FilterTable

namespace Filters

open FilterTable

variable {f : Filters}

/-- The addresses of the sender after a message, and the law of its table. The other table does not change. -/
def Lawful (f f' : Filters) (vsi : Vsi) (code : MsgCode) : FilterMsg → Prop
  | .macAdd count macAddr =>
    Law f.mac f'.mac vsi code (f.mac.addresses vsi ∪ { a | a ∈ macAddresses count macAddr }) ∧ f'.vlan = f.vlan
  | .macDelete count macAddr =>
    Law f.mac f'.mac vsi code (f.mac.addresses vsi \ { a | a ∈ macAddresses count macAddr }) ∧ f'.vlan = f.vlan
  | .macFlush type =>
    Law f.mac f'.mac vsi code (f.mac.addresses vsi \ { a | macFlushed type a = true }) ∧ f'.vlan = f.vlan
  | .vlanAdd count vlanId =>
    Law f.vlan f'.vlan vsi code (f.vlan.addresses vsi ∪ { a | a ∈ vlanIds count vlanId }) ∧ f'.mac = f.mac
  | .vlanDelete count vlanId =>
    Law f.vlan f'.vlan vsi code (f.vlan.addresses vsi \ { a | a ∈ vlanIds count vlanId }) ∧ f'.mac = f.mac
  | .vlanFlush => Law f.vlan f'.vlan vsi code (f.vlan.addresses vsi \ Set.univ) ∧ f'.mac = f.mac

/-- The messages that the handlers treat as they should. -/
def MsgSound (f : Filters) : FilterMsg → Prop
  | .macAdd count macAddr => AddSound numMacFilterEntry f.mac (macAddresses count macAddr)
  | .macDelete count macAddr => DeleteSound numMacFilterEntry f.mac (macAddresses count macAddr)
  | .vlanAdd count vlanId => count ≠ 0 → AddSound numVlanFilterEntry f.vlan (vlanIds count vlanId)
  | .vlanDelete count vlanId => count ≠ 0 → DeleteSound numVlanFilterEntry f.vlan (vlanIds count vlanId)
  | _ => True

/-- The events that the tables stand. -/
def EventSound (f : Filters) : FilterEvent → Prop
  | .msg _ m => f.MsgSound m
  | .addMac idx macAddr => PsiAddSound f.mac idx (macAddress macAddr 0)
  | .addVlan idx vlanId tpid => PsiAddSound f.vlan idx ((vlanId % 2 ^ 16) ||| (tpid * 2 ^ 16))
  | _ => True

/-- Both tables are sets of addresses, and what the VSIs have in them is counted. -/
structure Sound (f : Filters) : Prop where
  mac_unique : Unique f.mac
  mac_counted : Counted numMacFilterEntry f.mac
  vlan_unique : Unique f.vlan
  vlan_counted : Counted numVlanFilterEntry f.vlan

lemma init_sound : Sound init := by
  have hunique (i k : Nat) (h : (0 : BitVec 16) ≠ 0) : i = k := absurd rfl h
  refine ⟨fun i k h _ _ => hunique i k h, ?_, fun i k h _ _ => hunique i k h, ?_⟩
  · intro i si _ hbit
    simp [init] at hbit
  · intro i si _ hbit
    simp [init] at hbit

/-- A sound message is handled, as the law has it. -/
theorem handle_lawful (h : Sound f) (vsi : Vsi) {m : FilterMsg} (hsound : f.MsgSound m) :
    ∃ f' code, f.handle vsi m = some (f', code) ∧ Sound f' ∧ Lawful f f' vsi code m := by
  obtain ⟨si, hpos, hsi⟩ := vsi
  cases m with
  | macAdd count macAddr =>
    have hadd := queryAdd_handled hpos hsi h.mac_unique h.mac_counted hsound
    have hlaw := hadd.law h.mac_unique
    exact ⟨_, _, rfl, ⟨hlaw.unique, hadd.counted h.mac_counted, h.vlan_unique, h.vlan_counted⟩, hlaw, rfl⟩
  | macDelete count macAddr =>
    obtain ⟨t', code, hrun, hdelete⟩ := queryDelete_handled hpos hsi h.mac_unique h.mac_counted hsound
    have hlaw := hdelete.law h.mac_unique
    refine ⟨{ f with mac := t' }, code, ?_, ⟨hlaw.unique, hdelete.counted h.mac_counted, h.vlan_unique, h.vlan_counted⟩,
      hlaw, rfl⟩
    simp only [handle, rxL2MFQueryDeleteEMTableEntry, hrun, Option.map_some]
  | macFlush type =>
    have hflush := flush_answered (macFlushed type) hpos hsi h.mac_unique h.mac_counted
    exact ⟨_, _, rfl, ⟨hflush.unique, hflush.counted, h.vlan_unique, h.vlan_counted⟩,
      ⟨hflush.unique, hflush.isolated, fun _ => hflush.sender⟩, rfl⟩
  | vlanAdd count vlanId =>
    have hadd : Handled numVlanFilterEntry si f.vlan (rxL2VFQueryAddEMTableEntry f.vlan si count vlanId).1
        (rxL2VFQueryAddEMTableEntry f.vlan si count vlanId).2
        (f.vlan.addresses si ∪ { a | a ∈ vlanIds count vlanId }) := by
      unfold rxL2VFQueryAddEMTableEntry
      by_cases hcount : count = 0
      · rw [if_pos hcount]
        exact .inl ⟨by simp, rfl⟩
      · rw [if_neg hcount]
        exact queryAdd_handled hpos hsi h.vlan_unique h.vlan_counted (hsound hcount)
    have hlaw := hadd.law h.vlan_unique
    exact ⟨_, _, rfl, ⟨h.mac_unique, h.mac_counted, hlaw.unique, hadd.counted h.vlan_counted⟩, hlaw, rfl⟩
  | vlanDelete count vlanId =>
    obtain ⟨t', code, hrun, hdelete⟩ : ∃ t' code, rxL2VFQueryDeleteEMTableEntry f.vlan si count vlanId = some (t', code) ∧
        Handled numVlanFilterEntry si f.vlan t' code (f.vlan.addresses si \ { a | a ∈ vlanIds count vlanId }) := by
      unfold rxL2VFQueryDeleteEMTableEntry
      by_cases hcount : count = 0
      · exact ⟨f.vlan, .invalidVlan, if_pos hcount, .inl ⟨by decide, rfl⟩⟩
      · rw [if_neg hcount]
        exact queryDelete_handled hpos hsi h.vlan_unique h.vlan_counted (hsound hcount)
    have hlaw := hdelete.law h.vlan_unique
    refine ⟨{ f with vlan := t' }, code, ?_, ⟨h.mac_unique, h.mac_counted, hlaw.unique, hdelete.counted h.vlan_counted⟩,
      hlaw, rfl⟩
    simp only [handle, hrun, Option.map_some]
  | vlanFlush =>
    have hflush := flush_answered (fun _ => true) hpos hsi h.vlan_unique h.vlan_counted
    refine ⟨_, _, rfl, ⟨h.mac_unique, h.mac_counted, hflush.unique, hflush.counted⟩,
      ⟨hflush.unique, hflush.isolated, fun _ => ?_⟩, rfl⟩
    rw [← show { a : Nat | true = true } = Set.univ from Set.eq_univ_of_forall fun _ => rfl]
    exact hflush.sender

/-- Each event of a run is sound in the tables that it finds. -/
def StepSound (f : Option Filters) (e : FilterEvent) : Prop :=
  ∀ f' ∈ f, EventSound f' e

lemma step_sound (f : Option Filters) (e : FilterEvent) (h : ∃ f', f = some f' ∧ Sound f') (hsound : StepSound f e) :
    ∃ f', step f e = some f' ∧ Sound f' := by
  obtain ⟨f, rfl, h⟩ := h
  have hevent := hsound f rfl
  cases e with
  | msg vsi m =>
    obtain ⟨f', code, hrun, h', -⟩ := handle_lawful h vsi hevent
    refine ⟨f', ?_, h'⟩
    simp only [step, Option.bind_some, hrun, Option.map_some]
  | addMac idx macAddr =>
    obtain ⟨hunique, hcounted⟩ := addEMTableEntry_sound h.mac_unique h.mac_counted hevent
    exact ⟨_, rfl, hunique, hcounted, h.vlan_unique, h.vlan_counted⟩
  | delMac idx =>
    obtain ⟨hunique, hcounted⟩ := delEMTableEntry_sound h.mac_unique h.mac_counted
    exact ⟨_, rfl, hunique, hcounted, h.vlan_unique, h.vlan_counted⟩
  | addVlan idx vlanId tpid =>
    obtain ⟨hunique, hcounted⟩ := addEMTableEntry_sound h.vlan_unique h.vlan_counted hevent
    exact ⟨_, rfl, h.mac_unique, h.mac_counted, hunique, hcounted⟩
  | delVlan idx =>
    obtain ⟨hunique, hcounted⟩ := delEMTableEntry_sound h.vlan_unique h.vlan_counted
    exact ⟨_, rfl, h.mac_unique, h.mac_counted, hunique, hcounted⟩

end Filters

/-- In every run from empty tables whose events are sound, no address has two entries, and every sound message is handled
as the law has it. -/
theorem filters_lawful (events : List FilterEvent)
    (hrun : EachStep Filters.step Filters.StepSound (some Filters.init) events) :
    ∃ f, events.foldl Filters.step (some Filters.init) = some f ∧ f.mac.Unique ∧ f.vlan.Unique ∧
      ∀ vsi m, f.MsgSound m → ∃ f' code, f.handle vsi m = some (f', code) ∧ f.Lawful f' vsi code m := by
  obtain ⟨f, hf, h⟩ := EachStep.invariant Filters.step_sound events hrun ⟨Filters.init, rfl, Filters.init_sound⟩
  refine ⟨f, hf, h.mac_unique, h.vlan_unique, ?_⟩
  intro vsi m hsound
  obtain ⟨f', code, hhandle, -, hlawful⟩ := Filters.handle_lawful h vsi hsound
  exact ⟨f', code, hhandle, hlawful⟩

/-- The first VSI. -/
def vsi1 : Vsi := ⟨1, by decide, by decide⟩

/-- The PSI fills the last entry, and the first VSI adds another address. -/
theorem filters_lawful_two :
    ∃ f, [FilterEvent.addMac 3 fun _ => 4, .msg vsi1 (.macAdd 1 fun _ => 2)].foldl Filters.step (some Filters.init) =
        some f ∧ f.mac.Unique ∧ f.vlan.Unique ∧
      ∀ vsi m, f.MsgSound m → ∃ f' code, f.handle vsi m = some (f', code) ∧ f.Lawful f' vsi code m := by
  apply filters_lawful
  refine ⟨?_, ?_, trivial⟩
  · rintro _ ⟨⟩ i _ hocc
    exact absurd rfl hocc
  · rintro _ ⟨⟩ _ _
    refine ⟨?_, by decide, ?_⟩
    · intro a ha i hocc haddr
      rw [show a = macAddress (fun _ => 2) 0 by simpa [macAddresses] using ha] at haddr
      by_cases hi : i = 3
      · subst hi
        exact absurd haddr (by decide)
      · simp [FilterTable.Occupied, addEMTableEntry, FilterTable.write, Filters.init, hi] at hocc
    · simp only [FilterTable.Occupied]
      decide

/-- The PSI's own entry is overwritten by the next address that a VSI adds, an address that comes twice in a message gets
two entries, and a delete message with five addresses writes outside of the result array. -/
theorem filters_not_lawful :
    (∃ f f' code, [FilterEvent.addMac 0 fun _ => 4].foldl Filters.step (some Filters.init) = some f ∧
      f.handle vsi1 (.macAdd 1 fun _ => 2) = some (f', code) ∧
      (f.mac.entry 0).siBitMap.getLsbD 0 = true ∧ (f'.mac.entry 0).siBitMap.getLsbD 0 = false) ∧
    (∃ f, [FilterEvent.msg vsi1 (.macAdd 2 fun _ => 2)].foldl Filters.step (some Filters.init) = some f ∧
      (f.mac.entry 0).siBitMap ≠ 0 ∧ f.mac.entry 0 = f.mac.entry 1) ∧
    [FilterEvent.msg vsi1 (.macAdd 1 fun _ => 2), .msg vsi1 (.macDelete 5 fun _ => 2)].foldl Filters.step
      (some Filters.init) = none := by
  refine ⟨⟨_, _, _, rfl, rfl, ?_, ?_⟩, ⟨_, rfl, ?_, ?_⟩, ?_⟩
  all_goals decide

end McuxDrivers.Netc
