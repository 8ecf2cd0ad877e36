import McuxDrivers.Netc.HashFilters

/-!
# When the hash filters follow the registered addresses

Each bit of a filter goes with a counter of 8 bits, which comes back to 0 at 256 addresses. Adding an address sets its bit
whatever the counter says, so a filter can only go wrong where an address is deleted.
-/

namespace McuxDrivers.Netc
open McuxDrivers.Lib

section Filter

variable {α : Type} {hash : α → Nat} {f : HashFilter} {registered : List α}

/-- The number of registered addresses with a hash index. -/
def bucket (hash : α → Nat) (registered : List α) (k : Nat) : Nat :=
  registered.countP fun a => hash a = k

/-- A bit of the filter is set if and only if a registered address has its index. -/
def Tracks (hash : α → Nat) (f : HashFilter) (registered : List α) : Prop :=
  ∀ k < 64, f.bit k = true ↔ ∃ a ∈ registered, hash a = k

/-- The counters are the numbers of the registered addresses in 8 bits. -/
structure Counted (hash : α → Nat) (f : HashFilter) (registered : List α) : Prop where
  bit : ∀ k < 64, f.bit k = true ↔ 0 < bucket hash registered k
  count : ∀ k < 64, f.hashCount k = BitVec.ofNat 8 (bucket hash registered k)

lemma Counted.tracks (h : Counted hash f registered) : Tracks hash f registered := by
  intro k hk
  rw [h.bit k hk, bucket, List.countP_pos_iff]
  simp

lemma getLsbD_single {h : Nat} (hh : h < 32) (k : Nat) : (1#32 <<< h).getLsbD k = decide (k = h) := by
  rw [BitVec.getLsbD_shiftLeft, BitVec.getLsbD_one]
  by_cases hk : k = h
  · simp [hk, hh]
  · simp [hk]
    omega

lemma bit_addHash {h : Nat} (hh : h < 64) {k : Nat} (hk : k < 64) : (f.addHash h).bit k = (f.bit k || decide (k = h)) := by
  unfold HashFilter.addHash HashFilter.bit
  by_cases hlow : h < 32
  · rw [if_pos hlow]
    split_ifs with hk'
    · rw [BitVec.getLsbD_or, getLsbD_single hlow]
    · simp [show k ≠ h by omega]
  · rw [if_neg hlow]
    split_ifs with hk'
    · simp [show k ≠ h by omega]
    · rw [BitVec.getLsbD_or, getLsbD_single (by omega)]
      congr 2
      exact propext (by omega)

lemma bit_delHash {h : Nat} (hh : h < 64) {k : Nat} (hk : k < 64) : (f.delHash h).bit k = (f.bit k && decide (k ≠ h)) := by
  unfold HashFilter.delHash HashFilter.bit
  by_cases hlow : h < 32
  · rw [if_pos hlow]
    split_ifs with hk'
    · rw [BitVec.getLsbD_and, BitVec.getLsbD_not, getLsbD_single hlow]
      simp [hk']
    · simp [show k ≠ h by omega]
  · rw [if_neg hlow]
    split_ifs with hk'
    · simp [show k ≠ h by omega]
    · rw [BitVec.getLsbD_and, BitVec.getLsbD_not, getLsbD_single (by omega)]
      have hiff : k - 32 = h - 32 ↔ k = h := by omega
      simp [hiff, show k - 32 < 32 by omega]

lemma hashCount_addHash (h : Nat) : (f.addHash h).hashCount = f.hashCount := by
  unfold HashFilter.addHash
  split_ifs <;> rfl

lemma hashCount_delHash (h : Nat) : (f.delHash h).hashCount = f.hashCount := by
  unfold HashFilter.delHash
  split_ifs <;> rfl

lemma bucket_cons (a : α) (k : Nat) :
    bucket hash (a :: registered) k = bucket hash registered k + if k = hash a then 1 else 0 := by
  rw [bucket, List.countP_cons]
  simp [bucket, eq_comm]

lemma bucket_erase [DecidableEq α] (hash : α → Nat) {a : α} (ha : a ∈ registered) (k : Nat) :
    bucket hash (registered.erase a) k + (if k = hash a then 1 else 0) = bucket hash registered k := by
  have hperm : registered.Perm (a :: registered.erase a) := List.perm_cons_erase ha
  rw [← bucket_cons, bucket, bucket, hperm.countP_eq]

/-- An address that is added keeps the filter in step. -/
lemma Counted.add (h : Counted hash f registered) (hhash : ∀ a, hash a < 64) (a : α) :
    Counted hash (f.addHashEntry (hash a)) (a :: registered) := by
  constructor
  · intro k hk
    change (f.addHash (hash a)).bit k = true ↔ _
    rw [bit_addHash (hhash a) hk, bucket_cons]
    simp only [Bool.or_eq_true, decide_eq_true_eq, h.bit k hk]
    split_ifs with heq
    · simp [heq]
    · simp [heq]
  · intro k hk
    have hkeep : (f.addHash (hash a)).hashCount = f.hashCount := hashCount_addHash _
    change Function.update (f.addHash (hash a)).hashCount (hash a) ((f.addHash (hash a)).hashCount (hash a) + 1) k = _
    rw [hkeep, bucket_cons]
    by_cases heq : k = hash a
    · rw [heq, Function.update_self, if_pos rfl, h.count _ (hhash a), BitVec.ofNat_add]
      rfl
    · rw [Function.update_of_ne heq, if_neg heq, Nat.add_zero, h.count k hk]

/-- The counter of an address to delete is not 0, and comes to 0 with the last address only. -/
def DeleteSound (hash : α → Nat) (registered : List α) (a : α) : Prop :=
  bucket hash registered (hash a) < 2 ^ 8 ∨ 2 ≤ bucket hash registered (hash a) % 2 ^ 8

variable [DecidableEq α]

/-- The counters after one of an address that is registered has been counted down. -/
lemma Counted.count_erase (h : Counted hash f registered) (hhash : ∀ a, hash a < 64) {a : α} (ha : a ∈ registered)
    {k : Nat} (hk : k < 64) : Function.update f.hashCount (hash a) (f.hashCount (hash a) - 1) k =
      BitVec.ofNat 8 (bucket hash (registered.erase a) k) := by
  have hbucket := bucket_erase hash ha k
  by_cases heq : k = hash a
  · rw [if_pos heq] at hbucket
    rw [heq, Function.update_self, h.count _ (hhash a), ← heq, ← hbucket, BitVec.ofNat_add]
    exact BitVec.add_sub_cancel _ _
  · rw [if_neg heq, Nat.add_zero] at hbucket
    rw [Function.update_of_ne heq, h.count k hk, hbucket]

lemma ofNat_eq_zero_iff (n : Nat) : BitVec.ofNat 8 n = 0 ↔ n % 2 ^ 8 = 0 := by
  rw [← BitVec.toNat_inj]
  simp

/-- The cases of a delete by the number of addresses with the index. -/
lemma Counted.delHashEntry_eq (h : Counted hash f registered) (hhash : ∀ a, hash a < 64) {a : α} (ha : a ∈ registered) :
    f.delHashEntry (hash a) =
      if bucket hash registered (hash a) % 2 ^ 8 = 0 then (f, false)
      else
        let f' := { f with hashCount := Function.update f.hashCount (hash a) (f.hashCount (hash a) - 1) }
        (if bucket hash registered (hash a) % 2 ^ 8 = 1 then f'.delHash (hash a) else f', true) := by
  have hbucket := bucket_erase hash ha (hash a)
  have hcount := h.count_erase hhash ha (hhash a)
  rw [if_pos rfl] at hbucket
  have hfirst : f.hashCount (hash a) = 0 ↔ bucket hash registered (hash a) % 2 ^ 8 = 0 := by
    rw [h.count _ (hhash a), ofNat_eq_zero_iff]
  have hlast : Function.update f.hashCount (hash a) (f.hashCount (hash a) - 1) (hash a) = 0 ↔
      bucket hash (registered.erase a) (hash a) % 2 ^ 8 = 0 := by
    rw [hcount, ofNat_eq_zero_iff]
  unfold HashFilter.delHashEntry
  dsimp only
  by_cases hzero : bucket hash registered (hash a) % 2 ^ 8 = 0
  · rw [if_pos (hfirst.2 hzero), if_pos hzero]
  · rw [if_neg (mt hfirst.1 hzero), if_neg hzero]
    by_cases hone : bucket hash registered (hash a) % 2 ^ 8 = 1
    · rw [if_pos (hlast.2 (by omega)), if_pos hone]
    · rw [if_neg (mt hlast.1 (by omega)), if_neg hone]

/-- A delete with a sound counter keeps the filter in step. -/
lemma Counted.delete (h : Counted hash f registered) (hhash : ∀ a, hash a < 64) {a : α} (ha : a ∈ registered)
    (hsound : DeleteSound hash registered a) :
    (f.delHashEntry (hash a)).2 = true ∧ Counted hash (f.delHashEntry (hash a)).1 (registered.erase a) := by
  have hpos : 0 < bucket hash registered (hash a) := List.countP_pos_iff.2 ⟨a, ha, by simp⟩
  have hzero : ¬ bucket hash registered (hash a) % 2 ^ 8 = 0 := by
    unfold DeleteSound at hsound
    omega
  rw [h.delHashEntry_eq hhash ha, if_neg hzero]
  refine ⟨rfl, ?_, ?_⟩
  · intro k hk
    have hbucket := bucket_erase hash ha k
    have hbit := h.bit k hk
    by_cases hone : bucket hash registered (hash a) % 2 ^ 8 = 1
    · simp only [if_pos hone]
      rw [bit_delHash (hhash a) hk, Bool.and_eq_true, decide_eq_true_eq]
      change f.bit k = true ∧ _ ↔ _
      rw [hbit]
      unfold DeleteSound at hsound
      by_cases heq : k = hash a
      · rw [if_pos heq] at hbucket
        subst heq
        omega
      · rw [if_neg heq] at hbucket
        omega
    · simp only [if_neg hone]
      change f.bit k = true ↔ _
      rw [hbit]
      by_cases heq : k = hash a
      · rw [if_pos heq] at hbucket
        subst heq
        omega
      · rw [if_neg heq] at hbucket
        omega
  · intro k hk
    have hcount := h.count_erase hhash ha hk
    split_ifs
    · rw [hashCount_delHash]
      exact hcount
    · exact hcount

/-- A delete whose counter is not sound fails, or clears the bit of addresses that are still registered. -/
lemma Counted.delete_fails (h : Counted hash f registered) (hhash : ∀ a, hash a < 64) {a : α} (ha : a ∈ registered)
    (hsound : ¬ DeleteSound hash registered a) (hdelete : (f.delHashEntry (hash a)).2 = true) :
    ¬ Tracks hash (f.delHashEntry (hash a)).1 (registered.erase a) := by
  have hbucket := bucket_erase hash ha (hash a)
  rw [if_pos rfl] at hbucket
  unfold DeleteSound at hsound
  rw [h.delHashEntry_eq hhash ha] at hdelete ⊢
  by_cases hzero : bucket hash registered (hash a) % 2 ^ 8 = 0
  · rw [if_pos hzero] at hdelete
    cases hdelete
  · rw [if_neg hzero]
    simp only [if_pos (show bucket hash registered (hash a) % 2 ^ 8 = 1 by omega)]
    intro htracks
    have hleft : ∃ b ∈ registered.erase a, hash b = hash a := by
      have hpos : 0 < bucket hash (registered.erase a) (hash a) := by omega
      simpa using List.countP_pos_iff.1 hpos
    have hset := (htracks (hash a) (hhash a)).2 hleft
    rw [bit_delHash (hhash a) (hhash a)] at hset
    simp at hset

end Filter

section Hashes

lemma xor_lt {h p : BitVec 8} (hh : h.toNat < 64) (hp : p.toNat < 64) : (h ^^^ p).toNat < 64 := by
  rw [BitVec.toNat_xor]
  exact Nat.xor_lt_two_pow (n := 6) hh hp

lemma setWidth_low_lt {w : Nat} (x : BitVec w) : ((x &&& 0x3f#w).setWidth 8).toNat < 64 := by
  rw [BitVec.toNat_setWidth, BitVec.toNat_and, BitVec.toNat_ofNat]
  have hle : x.toNat &&& 0x3f % 2 ^ w ≤ 0x3f % 2 ^ w := Nat.and_le_right
  have hmod : 0x3f % 2 ^ w ≤ 0x3f := Nat.mod_le _ _
  omega

lemma foldMac_lt (n : Nat) : ∀ (mac : BitVec 64) (hashIndex : BitVec 8), hashIndex.toNat < 64 →
    (foldMac n mac hashIndex).toNat < 64 := by
  induction n with
  | zero => exact fun _ _ h => h
  | succ n ih => exact fun mac _ h => ih _ _ (xor_lt h (setWidth_low_lt mac))

lemma macHash_lt (macAddr : MacAddr) : macHash macAddr < 64 :=
  foldMac_lt _ _ _ (by decide)

lemma vlanHash_lt (vlanId : VlanId) : vlanHash vlanId < 64 :=
  xor_lt (setWidth_low_lt _) (setWidth_low_lt _)

end Hashes

namespace HashFilters

variable (e : HashFilters) (type : PacketType) (macAddr : MacAddr)

lemma mac_add : (e.rxL2MFAddHashEntry type macAddr).mac =
    Function.update e.mac type ((e.mac type).addHashEntry (macHash macAddr)) := by
  ext type' : 1
  cases type <;> cases type' <;> rfl

lemma vlan_add : (e.rxL2MFAddHashEntry type macAddr).vlan = e.vlan := by
  cases type <;> rfl

lemma result_del : (e.rxL2MFDelHashEntry type macAddr).2 = ((e.mac type).delHashEntry (macHash macAddr)).2 := by
  cases type <;> rfl

lemma mac_del : (e.rxL2MFDelHashEntry type macAddr).1.mac =
    Function.update e.mac type ((e.mac type).delHashEntry (macHash macAddr)).1 := by
  ext type' : 1
  cases type <;> cases type' <;> rfl

lemma vlan_del : (e.rxL2MFDelHashEntry type macAddr).1.vlan = e.vlan := by
  cases type <;> rfl

end HashFilters

namespace HashHistory

/-- Every filter is in step with the addresses that are registered, and every delete has succeeded. -/
structure Faithful (s : HashHistory) : Prop where
  mac : ∀ type, Tracks macHash (s.filters.mac type) (s.mac type)
  vlan : Tracks vlanHash s.filters.vlan s.vlan
  deletes : s.deletes = true

/-- Only registered addresses are deleted. -/
def Registered (s : HashHistory) : HashCall → Prop
  | .delMac type macAddr => macAddr ∈ s.mac type
  | .delVlan vlanId => vlanId ∈ s.vlan
  | _ => True

/-- The counter of an address to delete can be counted down. -/
def Sound (s : HashHistory) : HashCall → Prop
  | .delMac type macAddr => DeleteSound macHash (s.mac type) macAddr
  | .delVlan vlanId => DeleteSound vlanHash s.vlan vlanId
  | _ => True

instance (s : HashHistory) (c : HashCall) : Decidable (s.Registered c) := by
  cases c <;> unfold Registered <;> infer_instance

/-- The counters of all filters are in step. -/
structure Counts (s : HashHistory) : Prop where
  mac : ∀ type, Counted macHash (s.filters.mac type) (s.mac type)
  vlan : Counted vlanHash s.filters.vlan s.vlan
  deletes : s.deletes = true

lemma Counts.faithful {s : HashHistory} (h : Counts s) : Faithful s :=
  ⟨fun type => (h.mac type).tracks, h.vlan.tracks, h.deletes⟩

lemma counts_init : Counts init := by
  have hempty : ∀ {α : Type} (hash : α → Nat), Counted hash { hfr0 := 0, hfr1 := 0, hashCount := fun _ => 0 } [] := by
    intro α hash
    constructor
    · intro k _
      simp [HashFilter.bit, bucket]
    · exact fun _ _ => rfl
  constructor
  · intro type
    cases type <;> exact hempty _
  · exact hempty _
  · rfl

lemma counts_step (s : HashHistory) (c : HashCall) (h : Counts s) (hreg : s.Registered c) (hsound : s.Sound c) :
    Counts (s.step c) := by
  cases c with
  | addMac type macAddr =>
    constructor
    · intro type'
      change Counted macHash ((s.filters.rxL2MFAddHashEntry type macAddr).mac type') (Function.update s.mac type _ type')
      rw [HashFilters.mac_add]
      by_cases htype : type' = type
      · subst htype
        rw [Function.update_self, Function.update_self]
        exact (h.mac type').add macHash_lt macAddr
      · rw [Function.update_of_ne htype, Function.update_of_ne htype]
        exact h.mac type'
    · change Counted vlanHash (s.filters.rxL2MFAddHashEntry type macAddr).vlan s.vlan
      rw [HashFilters.vlan_add]
      exact h.vlan
    · exact h.deletes
  | delMac type macAddr =>
    obtain ⟨hresult, hcounted⟩ := (h.mac type).delete macHash_lt hreg hsound
    rw [← HashFilters.result_del] at hresult
    simp only [step, hresult, if_true]
    constructor
    · intro type'
      change Counted macHash ((s.filters.rxL2MFDelHashEntry type macAddr).1.mac type') (Function.update s.mac type _ type')
      rw [HashFilters.mac_del]
      by_cases htype : type' = type
      · subst htype
        rw [Function.update_self, Function.update_self]
        exact hcounted
      · rw [Function.update_of_ne htype, Function.update_of_ne htype]
        exact h.mac type'
    · change Counted vlanHash (s.filters.rxL2MFDelHashEntry type macAddr).1.vlan s.vlan
      rw [HashFilters.vlan_del]
      exact h.vlan
    · exact h.deletes
  | addVlan vlanId =>
    constructor
    · exact h.mac
    · exact h.vlan.add vlanHash_lt vlanId
    · exact h.deletes
  | delVlan vlanId =>
    obtain ⟨hresult, hcounted⟩ := h.vlan.delete vlanHash_lt hreg hsound
    have hresult' : (s.filters.rxL2VFDelHashEntry vlanId).2 = true := hresult
    simp only [step, hresult', if_true]
    constructor
    · exact h.mac
    · exact hcounted
    · exact h.deletes

lemma not_faithful_step (s : HashHistory) (c : HashCall) (h : Counts s) (hreg : s.Registered c) (hsound : ¬ s.Sound c) :
    ¬ Faithful (s.step c) := by
  intro hfaithful
  cases c with
  | addMac type macAddr => exact hsound trivial
  | addVlan vlanId => exact hsound trivial
  | delMac type macAddr =>
    have hfails := (h.mac type).delete_fails macHash_lt hreg hsound
    rw [← HashFilters.result_del] at hfails
    unfold step at hfaithful
    dsimp only at hfaithful
    split_ifs at hfaithful with hresult
    · apply hfails hresult
      have htracks := hfaithful.mac type
      change Tracks macHash ((s.filters.rxL2MFDelHashEntry type macAddr).1.mac type) (Function.update s.mac type _ type) at htracks
      rwa [HashFilters.mac_del, Function.update_self, Function.update_self] at htracks
    · have hdeletes := hfaithful.deletes
      cases hdeletes
  | delVlan vlanId =>
    have hfails := h.vlan.delete_fails vlanHash_lt hreg hsound
    unfold step at hfaithful
    dsimp only at hfaithful
    split_ifs at hfaithful with hresult
    · exact hfails hresult hfaithful.vlan
    · have hdeletes := hfaithful.deletes
      cases hdeletes

/-- In a run that only deletes registered addresses, the filters are faithful after every call exactly when every counter
can be counted down where an address is deleted. -/
theorem hashFilters_faithful_iff (calls : List HashCall) (hreg : EachStep step Registered init calls) :
    (∀ front, front <+: calls → Faithful (front.foldl step init)) ↔ EachStep step Sound init calls :=
  forall_front_iff (fun _ => Counts.faithful) counts_step not_faithful_step calls counts_init hreg

/-- Two colliding identifiers are added, and one of them is deleted. -/
theorem hashFilters_faithful_two : Faithful ([HashCall.addVlan 0x041, .addVlan 0, .delVlan 0x041].foldl step init) :=
  (hashFilters_faithful_iff [.addVlan 0x041, .addVlan 0, .delVlan 0x041]
    ⟨trivial, trivial, by decide, trivial⟩).2 ⟨trivial, trivial, .inl (by decide), trivial⟩ _ (List.prefix_refl _)

/-- The delete after 256 registrations of one identifier fails. -/
theorem hashFilters_wrap :
    ¬ ∀ calls, EachStep step Registered init calls →
      ∀ front, front <+: calls → Faithful (front.foldl step init) := by
  intro h
  have hfaithful := h (List.replicate 256 (.addVlan 5) ++ [.delVlan 5]) (by decide +kernel) _ (List.prefix_refl _)
  have hfails : ((List.replicate 256 (HashCall.addVlan 5) ++ [HashCall.delVlan 5]).foldl step init).deletes = false := by
    decide +kernel
  rw [hfaithful.deletes] at hfails
  cases hfails

end HashHistory

end McuxDrivers.Netc
