import McuxDrivers.Lib.Regions
import McuxDrivers.Prince.Checker

/-!
# Encrypted areas are rewritten as a whole

What the checker decides for a region with one run of enabled subregions, and when that keeps an encrypted
area from being rewritten in part: the windows that the checker filters with leave out ranges that cross a
border, and only the first region in which it finds something is checked at all.
-/

namespace McuxDrivers.Prince

/-- An enabled subregion. -/
def Enabled (base : Registers) (region : Region) (i : Nat) : Prop :=
  i < 32 ∧ (base.srEnable region).getLsbD i = true

/-- The bytes of a subregion. -/
def subregion (base : Registers) (region : Region) (i : Nat) : Lib.Region where
  address := (base.baseAddr region).toNat + 8192 * i
  bytes := 8192

/-- The mask is one run of set bits. -/
structure IsRun (srEnable : Word) (first last : Nat) : Prop where
  lt : first < last
  le : last ≤ 32
  bits : ∀ i, i < 32 → (srEnable.getLsbD i = true ↔ first ≤ i ∧ i < last)

def Contiguous (srEnable : Word) : Prop :=
  srEnable = 0 ∨ ∃ first last, IsRun srEnable first last

/-- All enabled subregions are in the range. -/
def CoversAll (range : Lib.Region) (base : Registers) (region : Region) : Prop :=
  ∀ i, Enabled base region i → (subregion base region i).Within range

def DisjointFromAll (range : Lib.Region) (base : Registers) (region : Region) : Prop :=
  ∀ i, Enabled base region i → range.Disjoint (subregion base region i)

/-- A new IV has been generated and loaded. -/
def Renewed (d d' : Device) (region : Region) : Prop :=
  ∃ code iv, Event.generated region code ∈ d'.events.drop d.events.length ∧
    Event.loaded region code iv ∈ d'.events.drop d.events.length ∧ d'.prince.iv region = iv

/-- The promise of the checker for a range, when the operation went on and whether it needs new IVs. -/
structure Whole (range : Lib.Region) (d d' : Device) (goesOn renews : Prop) : Prop where
  whole : goesOn → ∀ region, CoversAll range d.prince region ∨ DisjointFromAll range d.prince region
  renewed : goesOn → renews → ∀ region, d.prince.srEnable region ≠ 0 → CoversAll range d.prince region →
    Renewed d d' region
  allowed : (∀ region, DisjointFromAll range d.prince region) → goesOn

/-- The range starts before the end of an enabled subregion, and ends after the start of one. -/
def Meets (range : Lib.Region) (base : Registers) (region : Region) : Prop :=
  (∃ i, Enabled base region i ∧ range.address < (subregion base region i).address + 8192) ∧
    ∃ i, Enabled base region i ∧ (subregion base region i).address < range.address + range.bytes

/-- The range lies in the 256 KB of the region, and does not reach their end. -/
def InWindow (range : Lib.Region) (base : Registers) (region : Region) : Prop :=
  (base.baseAddr region).toNat ≤ range.address ∧
    range.address + range.bytes < (base.baseAddr region).toNat + 32 * 8192

/-- The first region that the range meets from within its window. -/
structure First (range : Lib.Region) (base : Registers) (region : Region) : Prop where
  meets : Meets range base region
  inWindow : InWindow range base region
  first : ∀ region', region'.index < region.index → Meets range base region' → ¬ InWindow range base region'

variable {base : Registers} {range : Lib.Region} {region : Region}

section Ranges

variable {first last : Nat}

lemma IsRun.ne_zero {srEnable : Word} (h : IsRun srEnable first last) : srEnable ≠ 0 := by
  intro hzero
  have hlt := h.lt
  have hle := h.le
  have hbit := (h.bits first (by omega)).mpr ⟨le_refl _, h.lt⟩
  rw [hzero] at hbit
  simp at hbit

lemma IsRun.enabled_iff (h : IsRun (base.srEnable region) first last) {i : Nat} :
    Enabled base region i ↔ first ≤ i ∧ i < last := by
  have hle := h.le
  constructor
  · rintro ⟨hi, hbit⟩
    exact (h.bits i hi).mp hbit
  · intro hi
    exact ⟨by omega, (h.bits i (by omega)).mpr hi⟩

/-- The encrypted area of a region goes from its first enabled subregion to its last one. -/
lemma IsRun.coversAll_iff (h : IsRun (base.srEnable region) first last) :
    CoversAll range base region ↔ range.address ≤ (base.baseAddr region).toNat + 8192 * first ∧
      (base.baseAddr region).toNat + 8192 * last ≤ range.address + range.bytes := by
  have hlt := h.lt
  have hwithin (i : Nat) : (subregion base region i).Within range ↔
      range.address ≤ (base.baseAddr region).toNat + 8192 * i ∧
        (base.baseAddr region).toNat + 8192 * i + 8192 ≤ range.address + range.bytes :=
    Lib.Region.within_iff (show 0 < 8192 by decide)
  constructor
  · intro hcovers
    have hfirst := (hwithin first).mp (hcovers first (h.enabled_iff.mpr ⟨le_refl _, hlt⟩))
    have hlast := (hwithin (last - 1)).mp (hcovers (last - 1) (h.enabled_iff.mpr ⟨by omega, by omega⟩))
    omega
  · intro hcovers i hi
    have hrun := h.enabled_iff.mp hi
    rw [hwithin]
    omega

lemma IsRun.meets_iff (h : IsRun (base.srEnable region) first last) :
    Meets range base region ↔ range.address < (base.baseAddr region).toNat + 8192 * last ∧
      (base.baseAddr region).toNat + 8192 * first < range.address + range.bytes := by
  have hlt := h.lt
  constructor
  · rintro ⟨⟨i, hi, hbefore⟩, j, hj, hafter⟩
    have hi' := h.enabled_iff.mp hi
    have hj' := h.enabled_iff.mp hj
    dsimp only [subregion] at hbefore hafter
    omega
  · rintro ⟨hbefore, hafter⟩
    refine ⟨⟨last - 1, h.enabled_iff.mpr ⟨by omega, by omega⟩, ?_⟩,
      first, h.enabled_iff.mpr ⟨le_refl _, hlt⟩, hafter⟩
    dsimp only [subregion]
    omega

lemma not_enabled_of_zero (h : base.srEnable region = 0) (i : Nat) : ¬ Enabled base region i := by
  rintro ⟨-, hbit⟩
  rw [h] at hbit
  simp at hbit

lemma not_meets_of_zero (h : base.srEnable region = 0) : ¬ Meets range base region := by
  rintro ⟨⟨i, hi, -⟩, -⟩
  exact not_enabled_of_zero h i hi

/-- A range with bytes is disjoint from the subregions that it does not meet. -/
lemma disjointFromAll_iff (h : Contiguous (base.srEnable region)) (hpos : 0 < range.bytes) :
    DisjointFromAll range base region ↔ ¬ Meets range base region := by
  rcases h with hzero | ⟨first, last, hrun⟩
  · refine ⟨fun _ => not_meets_of_zero hzero, fun _ i hi => absurd hi (not_enabled_of_zero hzero i)⟩
  · have hlt := hrun.lt
    have hdisjoint (i : Nat) : range.Disjoint (subregion base region i) ↔
        range.address + range.bytes ≤ (base.baseAddr region).toNat + 8192 * i ∨
          (base.baseAddr region).toNat + 8192 * i + 8192 ≤ range.address := by
      rw [Lib.Region.disjoint_iff]
      dsimp only [subregion]
      omega
    rw [hrun.meets_iff]
    constructor
    · -- the range lies between two enabled subregions only when it is empty
      intro hall hmeets
      obtain ⟨j, hj⟩ : ∃ j, j = max first ((range.address - (base.baseAddr region).toNat) / 8192) := ⟨_, rfl⟩
      have hmem : first ≤ j ∧ j < last := by omega
      have hnot := (hdisjoint j).mp (hall j (hrun.enabled_iff.mpr hmem))
      omega
    · intro hnot i hi
      have hi' := hrun.enabled_iff.mp hi
      rw [hdisjoint]
      omega

lemma disjointFromAll_of_empty (h : range.bytes = 0) : DisjointFromAll range base region :=
  fun _ _ => Lib.Region.disjoint_iff.mpr (Or.inl h)

lemma meets_of_covers (h : Contiguous (base.srEnable region)) (hne : base.srEnable region ≠ 0)
    (hcovers : CoversAll range base region) : Meets range base region ∧ 0 < range.bytes := by
  rcases h with hzero | ⟨first, last, hrun⟩
  · exact absurd hzero hne
  · have hlt := hrun.lt
    rw [hrun.coversAll_iff] at hcovers
    rw [hrun.meets_iff]
    omega

end Ranges

section Search

variable {srEnable : Word} {first last : Nat}

/-- The variables of the search before bit `i` of a run. -/
def scanned (first last i : Nat) : Scan where
  firstSetBitFound := decide (first < i)
  contiguousEndFound := decide (last < i)
  contiguousStartIndex := if first < i then first else 0
  contiguousEndIndex := if last < i then last else 32
  isPrinceRegionContiguous := true

lemma scanBit_run (h : IsRun srEnable first last) {i : Nat} (hi : i < 32) :
    scanBit srEnable i (scanned first last i) = .inl (scanned first last (i + 1)) := by
  have hlt := h.lt
  have hbit := h.bits i hi
  unfold scanBit
  by_cases hset : srEnable.getLsbD i = true
  · obtain ⟨hfirst, hlast⟩ := hbit.mp hset
    have hend : ¬ last < i := by omega
    have hend' : ¬ last < i + 1 := by omega
    have hnext : first < i + 1 := by omega
    rw [if_pos hset]
    by_cases hfound : first < i
    · simp [scanned, hfound, hend, hend', hnext]
    · have heq : first = i := by omega
      simp [scanned, heq, show ¬ last < i from hend, show ¬ last < i + 1 from hend']
  · have hout : ¬ (first ≤ i ∧ i < last) := fun hin => hset (hbit.mpr hin)
    rw [if_neg hset]
    by_cases hfound : first < i
    · have hnext : first < i + 1 := by omega
      have hnext' : last < i + 1 := by omega
      by_cases hend : last < i
      · simp [scanned, hfound, hend, hnext, hnext']
      · have heq : last = i := by omega
        simp [scanned, hfound, hnext, heq]
    · have hnext : ¬ first < i + 1 := by omega
      have hend : ¬ last < i := by omega
      have hend' : ¬ last < i + 1 := by omega
      simp [scanned, hfound, hend, hnext, hend']

lemma scanBits_run (h : IsRun srEnable first last) {rounds i : Nat} (hi : i + rounds ≤ 32) :
    scanBits srEnable rounds i (scanned first last i) = scanned first last (i + rounds) := by
  induction rounds generalizing i with
  | zero => rfl
  | succ rounds ih =>
    rw [scanBits, scanBit_run h (by omega)]
    dsimp only
    rw [ih (by omega)]
    congr 1
    omega

/-- The search finds the ends of a run, also of one that reaches bit 31. -/
lemma scanBits_eq (h : IsRun srEnable first last) :
    (scanBits srEnable 32 0 (Scan.start true)).contiguousStartIndex = first ∧
      (scanBits srEnable 32 0 (Scan.start true)).contiguousEndIndex = last ∧
      (scanBits srEnable 32 0 (Scan.start true)).isPrinceRegionContiguous = true := by
  have hlt := h.lt
  have hle := h.le
  have hstart : Scan.start true = scanned first last 0 := by
    simp [Scan.start, scanned]
  rw [hstart, scanBits_run h (le_refl 32)]
  refine ⟨if_pos (by omega), ?_, rfl⟩
  show (if last < 0 + 32 then last else 32) = last
  split <;> omega

end Search

section Check

variable (services : Services) {flag : Flag} {address length : Word} {regions : List Region} {d : Device}

/-- What the driver promises of a call: no sum of addresses wraps, and the masks are runs. -/
structure Fits (address length : Word) (base : Registers) : Prop where
  range : address.toNat + length.toNat < 2 ^ 32
  baseAddr : ∀ region, (base.baseAddr region).toNat ≤ 0x80000
  srEnable : ∀ region, Contiguous (base.srEnable region)

/-- The bytes of a call. -/
def callRange (address length : Word) : Lib.Region :=
  ⟨address.toNat, length.toNat⟩

lemma Fits.inWindow_iff (h : Fits address length base) :
    address ≥ base.baseAddr region ∧ address + length < base.baseAddr region + subregionSize * 32 ↔
      InWindow (callRange address length) base region := by
  have hrange := h.range
  have hbase := h.baseAddr region
  rw [ge_iff_le, BitVec.le_def, BitVec.lt_def, BitVec.toNat_add, BitVec.toNat_add, Nat.mod_eq_of_lt hrange,
    show (subregionSize * 32).toNat = 32 * 8192 from rfl, Nat.mod_eq_of_lt (by omega)]
  exact Iff.rfl

lemma toNat_area {tempBase : Word} (hbase : tempBase.toNat ≤ 0x80000) {i : Nat} (hi : i ≤ 32) :
    (tempBase + BitVec.ofNat 32 i * subregionSize).toNat = tempBase.toNat + 8192 * i := by
  rw [BitVec.toNat_add, BitVec.toNat_mul, BitVec.toNat_ofNat, show subregionSize.toNat = 8192 from rfl]
  omega

/-- What is decided for a region with a run, on a range within its window. -/
lemma Fits.checkRegions_run (h : Fits address length d.prince) {first last : Nat}
    (hrun : IsRun (d.prince.srEnable region) first last) (hwindow : InWindow (callRange address length) d.prince region) :
    checkRegions services flag address length (region :: regions) true d =
      if address.toNat ≤ (d.prince.baseAddr region).toNat + 8192 * first ∧
          (d.prince.baseAddr region).toNat + 8192 * last ≤ address.toNat + length.toNat then
        match flag with
        | .eraseCheck => renewIV services region d
        | .writeCheck => (d, true)
      else if address.toNat + length.toNat ≤ (d.prince.baseAddr region).toNat + 8192 * first ∨
          (d.prince.baseAddr region).toNat + 8192 * last ≤ address.toNat then
        checkRegions services flag address length regions true d
      else (d, false) := by
  obtain ⟨hstart, hend, hcontiguous⟩ := scanBits_eq hrun
  have hinside := h.inWindow_iff.mpr hwindow
  have hlt := hrun.lt
  have hle := hrun.le
  have hbase := h.baseAddr region
  have hsum : (address + length).toNat = address.toNat + length.toNat := by
    rw [BitVec.toNat_add, Nat.mod_eq_of_lt h.range]
  rw [checkRegions.eq_def]
  dsimp only
  rw [if_pos ⟨hinside.1, hinside.2, hrun.ne_zero⟩, hstart, hend, hcontiguous]
  have hfirst := toNat_area hbase (show first ≤ 32 by omega)
  have hlast := toNat_area hbase hle
  cases flag <;> simp only [true_and, ge_iff_le, BitVec.le_def, hsum, hfirst, hlast]

/-- A region that the range does not meet from within its window is passed over. -/
lemma Fits.checkRegions_unseen (h : Fits address length d.prince)
    (hunseen : Meets (callRange address length) d.prince region → ¬ InWindow (callRange address length) d.prince region) :
    checkRegions services flag address length (region :: regions) true d =
      checkRegions services flag address length regions true d := by
  by_cases hwindow : InWindow (callRange address length) d.prince region
  · rcases h.srEnable region with hzero | ⟨first, last, hrun⟩
    · rw [checkRegions.eq_def]
      dsimp only
      rw [if_neg]
      rintro ⟨-, -, hne⟩
      exact hne hzero
    · have hnot : ¬ Meets (callRange address length) d.prince region := fun hmeets => hunseen hmeets hwindow
      have hlt := hrun.lt
      rw [hrun.meets_iff] at hnot
      dsimp only [callRange] at hnot
      rw [h.checkRegions_run services hrun hwindow, if_neg (by omega), if_pos (by omega)]
  · rw [checkRegions.eq_def]
    dsimp only
    rw [if_neg]
    rintro ⟨hlow, hhigh, -⟩
    exact hwindow (h.inWindow_iff.mp ⟨hlow, hhigh⟩)

lemma Fits.checkRegions_covered (h : Fits address length d.prince)
    (hmeets : Meets (callRange address length) d.prince region)
    (hwindow : InWindow (callRange address length) d.prince region)
    (hcovers : CoversAll (callRange address length) d.prince region) :
    checkRegions services flag address length (region :: regions) true d =
      match flag with
      | .eraseCheck => renewIV services region d
      | .writeCheck => (d, true) := by
  rcases h.srEnable region with hzero | ⟨first, last, hrun⟩
  · exact absurd hmeets (not_meets_of_zero hzero)
  · have hends := hrun.coversAll_iff.mp hcovers
    dsimp only [callRange] at hends
    rw [h.checkRegions_run services hrun hwindow, if_pos hends]

lemma Fits.checkRegions_partial (h : Fits address length d.prince)
    (hmeets : Meets (callRange address length) d.prince region)
    (hwindow : InWindow (callRange address length) d.prince region)
    (hcovers : ¬ CoversAll (callRange address length) d.prince region) :
    checkRegions services flag address length (region :: regions) true d = (d, false) := by
  rcases h.srEnable region with hzero | ⟨first, last, hrun⟩
  · exact absurd hmeets (not_meets_of_zero hzero)
  · have hlt := hrun.lt
    rw [hrun.coversAll_iff] at hcovers
    rw [hrun.meets_iff] at hmeets
    dsimp only [callRange] at hmeets hcovers
    rw [h.checkRegions_run services hrun hwindow, if_neg hcovers, if_neg (by omega)]

/-- The loop comes to the first region in which it finds something. -/
lemma Fits.checkRegions_first (flag : Flag) (h : Fits address length d.prince)
    (hfirst : First (callRange address length) d.prince region) :
    ∃ regions, checkRegions services flag address length [.region0, .region1, .region2] true d =
      checkRegions services flag address length (region :: regions) true d := by
  cases region with
  | region0 => exact ⟨_, rfl⟩
  | region1 =>
    refine ⟨[.region2], ?_⟩
    exact h.checkRegions_unseen services (hfirst.first .region0 (by decide))
  | region2 =>
    refine ⟨[], ?_⟩
    rw [h.checkRegions_unseen services (hfirst.first .region0 (by decide)),
      h.checkRegions_unseen services (hfirst.first .region1 (by decide))]

lemma first_or_unseen (range : Lib.Region) (base : Registers) :
    (∃ region, First range base region) ∨ ∀ region, Meets range base region → ¬ InWindow range base region := by
  by_cases h₀ : Meets range base .region0 ∧ InWindow range base .region0
  · exact Or.inl ⟨.region0, h₀.1, h₀.2, fun region hlt => absurd hlt (Nat.not_lt_zero _)⟩
  · have hunseen₀ : Meets range base .region0 → ¬ InWindow range base .region0 := not_and.mp h₀
    by_cases h₁ : Meets range base .region1 ∧ InWindow range base .region1
    · refine Or.inl ⟨.region1, h₁.1, h₁.2, fun region hlt => ?_⟩
      cases region with
      | region0 => exact hunseen₀
      | region1 => exact absurd hlt (by decide)
      | region2 => exact absurd hlt (by decide)
    · have hunseen₁ : Meets range base .region1 → ¬ InWindow range base .region1 := not_and.mp h₁
      by_cases h₂ : Meets range base .region2 ∧ InWindow range base .region2
      · refine Or.inl ⟨.region2, h₂.1, h₂.2, fun region hlt => ?_⟩
        cases region with
        | region0 => exact hunseen₀
        | region1 => exact hunseen₁
        | region2 => exact absurd hlt (by decide)
      · right
        intro region
        cases region with
        | region0 => exact hunseen₀
        | region1 => exact hunseen₁
        | region2 => exact not_and.mp h₂

lemma First.unique {region' : Region} (h : First range base region) (h' : First range base region') : region = region' := by
  rcases Nat.lt_trichotomy region.index region'.index with hlt | heq | hlt
  · exact absurd h.inWindow (h'.first region hlt h.meets)
  · cases region <;> cases region' <;> first | rfl | exact absurd heq (by decide)
  · exact absurd h'.inWindow (h.first region' hlt h'.meets)

lemma storeIV_events (region : Region) (d : Device) (code : IvCode) : (storeIV services region code d).1.events = d.events := by
  unfold storeIV
  split
  · rfl
  · split <;> rfl

lemma genNewIV_events {d' : Device} {code : IvCode} (h : genNewIV services region true d = (d', some code)) :
    d'.events = d.events ++ [.generated region code] := by
  unfold genNewIV at h
  split at h
  · simp at h
  · split at h
    · simp at h
    next code' hcode =>
      have hstored := storeIV_events services region ((d.called 2).record (.generated region code')) code'
      dsimp only at h
      rw [if_pos rfl] at h
      obtain ⟨hd, hsome⟩ := Prod.mk.inj h
      split at hsome
      · rw [← hd, hstored, ← Option.some.inj hsome]
        rfl
      · cases hsome

lemma loadIV_events {d' : Device} {code : IvCode} (h : loadIV services region code d = (d', .success)) :
    ∃ iv, d'.events = d.events ++ [.loaded region code iv] ∧ d'.prince.iv region = iv := by
  unfold loadIV at h
  split at h
  · simp at h
  · split at h
    · split at h
      · simp at h
      next iv hiv =>
        obtain ⟨hd, -⟩ := Prod.mk.inj h
        refine ⟨iv, ?_, ?_⟩
        · rw [← hd]
          rfl
        · rw [← hd]
          exact Function.update_self region iv d.prince.iv
    · simp at h

lemma renewIV_events (h : (renewIV services region d).2 = true) :
    ∃ code iv, (renewIV services region d).1.events = d.events ++ [.generated region code, .loaded region code iv] ∧
      (renewIV services region d).1.prince.iv region = iv := by
  unfold renewIV at h ⊢
  rcases hgen : genNewIV services region true d with ⟨d₁, _ | code⟩
  · rw [hgen] at h
    cases h
  · rw [hgen] at h
    dsimp only at h ⊢
    have hsuccess : loadIV services region code d₁ = ((loadIV services region code d₁).1, .success) :=
      Prod.ext rfl (of_decide_eq_true h)
    obtain ⟨iv, hevents, hiv⟩ := loadIV_events services hsuccess
    refine ⟨code, iv, ?_, hiv⟩
    rw [hevents, genNewIV_events services hgen, List.append_assoc]
    rfl

/-- Only the region that has been checked has a new IV. -/
lemma renewed_iff (h : (renewIV services region d).2 = true) (region' : Region) :
    Renewed d (renewIV services region d).1 region' ↔ region' = region := by
  obtain ⟨code, iv, hevents, hiv⟩ := renewIV_events services h
  have hnew : (renewIV services region d).1.events.drop d.events.length =
      [.generated region code, .loaded region code iv] := by
    rw [hevents, List.drop_left]
  rw [Renewed, hnew]
  constructor
  · rintro ⟨code', iv', hgenerated, -, -⟩
    simp only [List.mem_cons, Event.generated.injEq, List.not_mem_nil, or_false, reduceCtorEq] at hgenerated
    exact hgenerated.1
  · rintro rfl
    exact ⟨code, iv, List.mem_cons_self, List.mem_cons_of_mem _ List.mem_cons_self, hiv⟩

lemma not_renewed (d : Device) (region : Region) : ¬ Renewed d d region := by
  rintro ⟨code, iv, hgenerated, -⟩
  rw [List.drop_length] at hgenerated
  cases hgenerated

end Check

section Promise

variable (services : Services) {flag : Flag} {address length : Word} {config : FlashConfig} {d : Device}

/-- When the promise is kept: an empty range does not lie in an encrypted area, and either the first region in
which the checker finds something stops the operation, or the range covers every region that it meets, and
an erase meets at most the one whose IV is renewed. -/
def NothingMissed (flag : Flag) (config : FlashConfig) (range : Lib.Region) (d : Device) : Prop :=
  if range.bytes = 0 then
    range.address < config.ffrBlockBase.toNat → ∀ region, Meets range d.prince region → ¬ InWindow range d.prince region
  else
    (∃ region, First range d.prince region ∧
      (¬ CoversAll range d.prince region ∨ flag = .eraseCheck ∧ (renewIV services region d).2 = false)) ∨
    ∀ region, Meets range d.prince region →
      CoversAll range d.prince region ∧ (flag = .eraseCheck → First range d.prince region)

lemma Programmed.baseAddr_le {series : Series} {base : Registers} (h : Programmed series base) (region : Region) :
    (base.baseAddr region).toNat ≤ 0x80000 := by
  induction h with
  | reset base hbase =>
    rw [hbase]
    exact Nat.zero_le _
  | setBase base region' regionBaseAddr _ ih =>
    have hmax : series.maxBaseAddress.toNat ≤ 0x80000 := by
      cases series <;> decide
    unfold setRegionBaseAddress
    by_cases hrefused : regionBaseAddr > series.maxBaseAddress
    · rw [if_pos hrefused]
      exact ih
    · rw [if_neg hrefused]
      have hle : regionBaseAddr.toNat ≤ series.maxBaseAddress.toNat := BitVec.not_lt.mp hrefused
      by_cases hregion : region = region'
      · rw [hregion]
        show (Function.update base.baseAddr region' regionBaseAddr region').toNat ≤ _
        rw [Function.update_self]
        omega
      · show (Function.update base.baseAddr region' regionBaseAddr region).toNat ≤ _
        rw [Function.update_of_ne hregion]
        exact ih
  | setEnable base region' srEnable _ ih => exact ih
  | setIV base region' iv _ ih => exact ih

/-- An empty range is disjoint from everything, so it has to be allowed. -/
lemma whole_iff_of_empty {range : Lib.Region} {d d' : Device} {goesOn renews : Prop}
    (hcontiguous : ∀ region, Contiguous (d.prince.srEnable region)) (hempty : range.bytes = 0) :
    Whole range d d' goesOn renews ↔ goesOn := by
  constructor
  · intro h
    exact h.allowed (fun _ => disjointFromAll_of_empty hempty)
  · intro hgoesOn
    refine ⟨fun _ _ => Or.inr (disjointFromAll_of_empty hempty), fun _ _ region hne hcovers => ?_, fun _ => hgoesOn⟩
    have hpos := (meets_of_covers (hcontiguous region) hne hcovers).2
    omega

/-- A range with bytes that is stopped meets something. -/
lemma whole_of_stopped {range : Lib.Region} {d d' : Device} {goesOn renews : Prop}
    (hcontiguous : Contiguous (d.prince.srEnable region)) (hpos : 0 < range.bytes)
    (hmeets : Meets range d.prince region) (hstopped : ¬ goesOn) : Whole range d d' goesOn renews where
  whole := fun hgoesOn => absurd hgoesOn hstopped
  renewed := fun hgoesOn => absurd hgoesOn hstopped
  allowed := fun hall => absurd hmeets ((disjointFromAll_iff hcontiguous hpos).mp (hall region))

/-- A range that goes on has to cover what it meets. -/
lemma whole_iff_of_goesOn {range : Lib.Region} {d d' : Device} {goesOn renews : Prop}
    (hcontiguous : ∀ region, Contiguous (d.prince.srEnable region)) (hpos : 0 < range.bytes) (hgoesOn : goesOn) :
    Whole range d d' goesOn renews ↔ ∀ region, Meets range d.prince region →
      CoversAll range d.prince region ∧ (renews → Renewed d d' region) := by
  constructor
  · intro h region hmeets
    have hcovers : CoversAll range d.prince region := by
      rcases h.whole hgoesOn region with hcovers | hdisjoint
      · exact hcovers
      · exact absurd hmeets ((disjointFromAll_iff (hcontiguous region) hpos).mp hdisjoint)
    refine ⟨hcovers, fun hrenews => h.renewed hgoesOn hrenews region ?_ hcovers⟩
    intro hzero
    exact not_meets_of_zero hzero hmeets
  · intro h
    refine ⟨fun _ region => ?_, fun _ hrenews region hne hcovers => ?_, fun _ => hgoesOn⟩
    · by_cases hmeets : Meets range d.prince region
      · exact Or.inl (h region hmeets).1
      · exact Or.inr ((disjointFromAll_iff (hcontiguous region) hpos).mpr hmeets)
    · exact (h region (meets_of_covers (hcontiguous region) hne hcovers).1).2 hrenews

lemma checkerAlgorithm_inside (hinside : address.toNat < config.ffrBlockBase.toNat) :
    checkerAlgorithm services address length flag config d =
      checkRegions services flag address length [.region0, .region1, .region2] true d := by
  rw [checkerAlgorithm, if_neg]
  intro houtside
  exact absurd (BitVec.le_def.mp houtside) (Nat.not_le.mpr hinside)

lemma Fits.checkRegions_of_unseen (h : Fits address length d.prince)
    (hunseen : ∀ region, Meets (callRange address length) d.prince region →
      ¬ InWindow (callRange address length) d.prince region) :
    checkRegions services flag address length [.region0, .region1, .region2] true d = (d, true) := by
  rw [h.checkRegions_unseen services (hunseen .region0), h.checkRegions_unseen services (hunseen .region1),
    h.checkRegions_unseen services (hunseen .region2)]
  rfl

lemma checkerAlgorithm_of_empty (h : Fits address length d.prince) (hempty : (callRange address length).bytes = 0) :
    (checkerAlgorithm services address length flag config d).2 = true ↔
      (address.toNat < config.ffrBlockBase.toNat → ∀ region, Meets (callRange address length) d.prince region →
        ¬ InWindow (callRange address length) d.prince region) := by
  by_cases hinside : address.toNat < config.ffrBlockBase.toNat
  · rw [checkerAlgorithm_inside services hinside]
    rcases first_or_unseen (callRange address length) d.prince with ⟨region, hfirst⟩ | hunseen
    · have hcovers : ¬ CoversAll (callRange address length) d.prince region := by
        intro hcovers
        have hne : d.prince.srEnable region ≠ 0 := fun hzero => not_meets_of_zero hzero hfirst.meets
        have hpos := (meets_of_covers (h.srEnable region) hne hcovers).2
        omega
      obtain ⟨regions, hregions⟩ := h.checkRegions_first services flag hfirst
      rw [hregions, h.checkRegions_partial services hfirst.meets hfirst.inWindow hcovers]
      constructor
      · intro hf
        cases hf
      · intro hall
        exact absurd hfirst.inWindow (hall hinside region hfirst.meets)
    · rw [h.checkRegions_of_unseen services hunseen]
      exact ⟨fun _ _ => hunseen, fun _ => rfl⟩
  · rw [checkerAlgorithm, if_pos (BitVec.le_def.mpr (Nat.not_lt.mp hinside))]
    exact ⟨fun _ hf => absurd hf hinside, fun _ => rfl⟩

/-- The first region is covered: a program goes on, an erase when the IV has been renewed. -/
lemma Fits.whole_iff_of_covered (h : Fits address length d.prince) (hpos : 0 < (callRange address length).bytes)
    (hfirst : First (callRange address length) d.prince region)
    (hcovers : CoversAll (callRange address length) d.prince region) {x : Device × Bool}
    (hx : x = match flag with
      | .eraseCheck => renewIV services region d
      | .writeCheck => (d, true)) :
    Whole (callRange address length) d x.1 (x.2 = true) (flag = .eraseCheck) ↔
      (∃ region, First (callRange address length) d.prince region ∧
        (¬ CoversAll (callRange address length) d.prince region ∨
          flag = .eraseCheck ∧ (renewIV services region d).2 = false)) ∨
      ∀ region, Meets (callRange address length) d.prince region →
        CoversAll (callRange address length) d.prince region ∧
          (flag = .eraseCheck → First (callRange address length) d.prince region) := by
  have hcovered {region' : Region} (h' : First (callRange address length) d.prince region') :
      CoversAll (callRange address length) d.prince region' := by
    rw [← hfirst.unique h']
    exact hcovers
  cases flag with
  | writeCheck =>
    dsimp only at hx
    have hgoesOn : x.2 = true := by rw [hx]
    rw [whole_iff_of_goesOn h.srEnable hpos hgoesOn]
    constructor
    · intro hall
      exact Or.inr fun region' hmeets => ⟨(hall region' hmeets).1, nofun⟩
    · rintro (⟨region', hfirst', hnot | ⟨hf, -⟩⟩ | hall)
      · exact absurd (hcovered hfirst') hnot
      · cases hf
      · exact fun region' hmeets => ⟨(hall region' hmeets).1, nofun⟩
  | eraseCheck =>
    dsimp only at hx
    cases hrenewed : x.2 with
    | false =>
      have hrefused : (renewIV services region d).2 = false := by rw [← hx, hrenewed]
      refine ⟨fun _ => Or.inl ⟨region, hfirst, Or.inr ⟨rfl, hrefused⟩⟩, fun _ => ?_⟩
      exact whole_of_stopped (h.srEnable region) hpos hfirst.meets Bool.false_ne_true
    | true =>
      rw [hx] at hrenewed
      rw [whole_iff_of_goesOn h.srEnable hpos rfl, hx]
      have honly (region' : Region) : Renewed d (renewIV services region d).1 region' ↔
          First (callRange address length) d.prince region' := by
        rw [renewed_iff services hrenewed]
        constructor
        · rintro rfl
          exact hfirst
        · exact fun hfirst' => hfirst'.unique hfirst
      constructor
      · intro hall
        exact Or.inr fun region' hmeets =>
          ⟨(hall region' hmeets).1, fun _ => (honly region').mp ((hall region' hmeets).2 rfl)⟩
      · rintro (⟨region', hfirst', hnot | ⟨-, hrefused⟩⟩ | hall)
        · exact absurd (hcovered hfirst') hnot
        · rw [← hfirst.unique hfirst', hrenewed] at hrefused
          cases hrefused
        · exact fun region' hmeets =>
            ⟨(hall region' hmeets).1, fun _ => (honly region').mpr ((hall region' hmeets).2 rfl)⟩

lemma checkerAlgorithm_whole_iff (h : Fits address length d.prince)
    (hrange : address.toNat + length.toNat ≤ config.ffrBlockBase.toNat) :
    Whole (callRange address length) d (checkerAlgorithm services address length flag config d).1
        ((checkerAlgorithm services address length flag config d).2 = true) (flag = .eraseCheck) ↔
      NothingMissed services flag config (callRange address length) d := by
  unfold NothingMissed
  by_cases hempty : (callRange address length).bytes = 0
  · rw [if_pos hempty, whole_iff_of_empty h.srEnable hempty]
    exact checkerAlgorithm_of_empty services h hempty
  · have hpos : 0 < (callRange address length).bytes := Nat.pos_of_ne_zero hempty
    have hinside : address.toNat < config.ffrBlockBase.toNat := by
      have hpos' : 0 < length.toNat := hpos
      omega
    rw [if_neg hempty, checkerAlgorithm_inside services hinside]
    rcases first_or_unseen (callRange address length) d.prince with ⟨region, hfirst⟩ | hunseen
    · obtain ⟨regions, hregions⟩ := h.checkRegions_first services flag hfirst
      rw [hregions]
      by_cases hcovers : CoversAll (callRange address length) d.prince region
      · exact h.whole_iff_of_covered services hpos hfirst hcovers
          (h.checkRegions_covered services hfirst.meets hfirst.inWindow hcovers)
      · rw [h.checkRegions_partial services hfirst.meets hfirst.inWindow hcovers]
        refine ⟨fun _ => Or.inl ⟨region, hfirst, Or.inl hcovers⟩, fun _ => ?_⟩
        exact whole_of_stopped (h.srEnable region) hpos hfirst.meets Bool.false_ne_true
    · rw [h.checkRegions_of_unseen services hunseen, whole_iff_of_goesOn h.srEnable hpos rfl]
      constructor
      · intro hall
        right
        intro region hmeets
        obtain ⟨hcovers, hrenewed⟩ := hall region hmeets
        exact ⟨hcovers, fun herase => absurd (hrenewed herase) (not_renewed d region)⟩
      · rintro (⟨region, hfirst, -⟩ | hall)
        · exact absurd hfirst.inWindow (hunseen region hfirst.meets)
        · intro region hmeets
          refine ⟨(hall region hmeets).1, fun herase => ?_⟩
          exact absurd ((hall region hmeets).2 herase).inWindow (hunseen region hmeets)

/-- When the erase and the program function rewrite encrypted areas only as a whole, and with new IVs. -/
theorem rewrites_whole_iff (series : Series) (start lengthInBytes key : Word) (src : Nat) (d : Device)
    (hprogrammed : Programmed series d.prince) (hmasks : ∀ region, Contiguous (d.prince.srEnable region))
    (hrange : start.toNat + lengthInBytes.toNat ≤ config.ffrBlockBase.toNat) :
    (Whole (callRange start lengthInBytes) d (flashEraseWithChecker services (some config) start lengthInBytes key d).1
        ((flashEraseWithChecker services (some config) start lengthInBytes key d).2 =
          .inr (.erase start lengthInBytes key)) True ↔
      NothingMissed services .eraseCheck config (callRange start lengthInBytes) d) ∧
    (Whole (callRange start lengthInBytes) d (flashProgramWithChecker services (some config) start src lengthInBytes d).1
        ((flashProgramWithChecker services (some config) start src lengthInBytes d).2 =
          .inr (.program start src lengthInBytes)) False ↔
      NothingMissed services .writeCheck config (callRange start lengthInBytes) d) := by
  have hfits : Fits start lengthInBytes d.prince := {
    range := by
      have hlt := config.ffrBlockBase.isLt
      omega
    baseAddr := hprogrammed.baseAddr_le
    srEnable := hmasks }
  constructor
  · rw [← checkerAlgorithm_whole_iff services hfits hrange, flashEraseWithChecker]
    dsimp only
    cases (checkerAlgorithm services start lengthInBytes .eraseCheck config d).2 <;> simp
  · rw [← checkerAlgorithm_whole_iff services hfits hrange, flashProgramWithChecker]
    dsimp only
    cases (checkerAlgorithm services start lengthInBytes .writeCheck config d).2 <;> simp

/-- Region 1 at 0x40000 with its last two subregions enabled. -/
def lastTwoEnabled : Registers :=
  (setRegionBaseAddress .lpc55S6x .region1 0x40000 {
    baseAddr := fun _ => 0
    srEnable := fun region => if region = .region1 then 0xC0000000 else 0
    iv := fun _ => 0 }).1

lemma programmed_lastTwoEnabled : Programmed .lpc55S6x lastTwoEnabled :=
  .setBase _ .region1 0x40000 (.reset _ (fun _ => rfl))

lemma contiguous_lastTwoEnabled (region : Region) : Contiguous (lastTwoEnabled.srEnable region) := by
  cases region with
  | region0 => exact Or.inl rfl
  | region1 => exact Or.inr ⟨30, 32, by decide, by decide, by decide⟩
  | region2 => exact Or.inl rfl

def noServices : Services where
  isGetKeyAllowed := fun _ => false
  setIntrinsicKey := fun _ _ => none
  getKey := fun _ _ => none
  getCustomerInfieldData := fun _ => none
  infieldPageWrite := fun _ _ => false

/-- The first half of the encrypted area: the operations are stopped. -/
theorem rewrites_whole_firstHalf :
    NothingMissed noServices .eraseCheck ⟨0x9DE00⟩ (callRange 0x7C000 0x2000) ⟨lastTwoEnabled, 0, []⟩ ↔
      Whole (callRange 0x7C000 0x2000) ⟨lastTwoEnabled, 0, []⟩
        (flashEraseWithChecker noServices (some ⟨0x9DE00⟩) 0x7C000 0x2000 0 ⟨lastTwoEnabled, 0, []⟩).1
        ((flashEraseWithChecker noServices (some ⟨0x9DE00⟩) 0x7C000 0x2000 0 ⟨lastTwoEnabled, 0, []⟩).2 =
          .inr (.erase 0x7C000 0x2000 0)) True :=
  (rewrites_whole_iff noServices .lpc55S6x 0x7C000 0x2000 0 0 ⟨lastTwoEnabled, 0, []⟩ programmed_lastTwoEnabled
    contiguous_lastTwoEnabled (by decide)).1.symm

/-- The second half of the encrypted area, which ends with the window, is programmed alone. -/
theorem not_rewrites_whole : ¬ ∀ (services : Services) (series : Series) (config : FlashConfig)
    (start lengthInBytes : Word) (src : Nat) (d : Device), Programmed series d.prince →
    (∀ region, Contiguous (d.prince.srEnable region)) → 8192 ∣ start.toNat → 8192 ∣ lengthInBytes.toNat →
    start.toNat + lengthInBytes.toNat ≤ config.ffrBlockBase.toNat →
    Whole (callRange start lengthInBytes) d (flashProgramWithChecker services (some config) start src lengthInBytes d).1
      ((flashProgramWithChecker services (some config) start src lengthInBytes d).2 =
        .inr (.program start src lengthInBytes)) False := by
  intro hall
  have hwhole := hall noServices .lpc55S6x ⟨0x9DE00⟩ 0x7E000 0x2000 0 ⟨lastTwoEnabled, 0, []⟩ programmed_lastTwoEnabled
    contiguous_lastTwoEnabled (by decide) (by decide) (by decide)
  rcases hwhole.whole (by decide) .region1 with hcovers | hdisjoint
  · have hfirst : 0x7C000 ∈ callRange 0x7E000 0x2000 := hcovers 30 ⟨by decide, by decide⟩ 0x7C000 ⟨by decide, by decide⟩
    exact absurd hfirst.1 (by decide)
  · exact hdisjoint 31 ⟨by decide, by decide⟩ 0x7E000 ⟨by decide, by decide⟩ ⟨by decide, by decide⟩

end Promise

end McuxDrivers.Prince
