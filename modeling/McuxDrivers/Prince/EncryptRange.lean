import McuxDrivers.Lib.LineWalk
import McuxDrivers.Prince.WholeAreas
import Mathlib.Data.Set.Lattice

/-!
# Encryption of an address range

`PRINCE_SetEncryptForAddressRange` for the series without ELS. A shift by 32 or more has no result. The page that
holds `princeSr` and `princeBaseAddr` is behind `CmpaServices`; a base address is a nibble of `princeBaseAddr`, its
bits from 18 on.
-/

namespace McuxDrivers.Prince.EncryptRange
open McuxDrivers.Lib

/-- What the driver uses of `cmpa_cfg_info_t`. -/
structure CmpaPage where
  princeBaseAddr : Word
  princeSr : Prince.Region → Word

/-- `FFR_GetCustomerData` and `FFR_CustFactoryPageWrite`; the number of the call comes first. -/
structure CmpaServices where
  getCustomerData : Nat → Option CmpaPage
  custFactoryPageWrite : Nat → CmpaPage → Status

structure Call where
  region : Prince.Region
  startAddress : Word
  length : Word
  regenerateIv : Bool

/-- The device after a call, the status, and the page that has been written. -/
structure Outcome where
  device : Device
  status : Status
  written : Option CmpaPage

/-- `FSL_PRINCE_DRIVER_MAX_FLASH_ADDR`. -/
def maxFlashAddr (flashSize : Word) : Nat :=
  (flashSize - 8 * 2 * 1024).toNat

/-- The check of the address range. -/
def outside (series : Series) (flashSize : Word) (startAddress endAddress : Nat) : Bool :=
  let max := maxFlashAddr flashSize
  match series with
  | .lpc55S6x =>
    startAddress > max || (startAddress < 0x40000 && endAddress > 0x40000) ||
      (startAddress < 0x80000 && endAddress > 0x80000) || (startAddress < max && endAddress > max)
  | _ => startAddress > max || (startAddress < max && endAddress > max)

/-- The subregion in its area, and the base address of the area. -/
def areaOf (subregion : Nat) : Nat × Word :=
  if subregion < 32 then (subregion, 0)
  else if subregion < 64 then (subregion - 32, 0x40000)
  else (subregion - 64, 0x80000)

/-- A round of the loop over `alignedStartAddress`, `subregion` and `srEnableRegister`. -/
def fillBody (endAddress : Nat) (s : Nat × Nat × Word) : (Nat × Nat × Word) ⊕ Option Word :=
  if s.1 < endAddress then
    if s.2.1 + 1 < 32 then
      .inl ((s.1 + 8192) % 2 ^ 32, s.2.1 + 1, s.2.2 ||| 1#32 <<< (s.2.1 + 1))
    else .inr none
  else .inr (some s.2.2)

/-- The mask of the subregions of a range that is not empty. -/
def fillMask (alignedStartAddress subregion endAddress fuel : Nat) : Option (Option Word) :=
  if subregion < 32 then
    loop (fillBody endAddress) fuel ((alignedStartAddress + 8192) % 2 ^ 32, subregion, 1#32 <<< subregion)
  else some none

/-- `FLASH_CMPA_PRINCE_BASE_ADDR_ADDR0_PRG_MASK << (region * 4)`. -/
def nibbleMask (region : Prince.Region) : Word :=
  0xF#32 <<< (region.index * 4)

/-- The page with the values of a region. -/
def CmpaPage.store (page : CmpaPage) (region : Prince.Region) (srEnable base : Word) : CmpaPage :=
  { princeSr := Function.update page.princeSr region srEnable
    princeBaseAddr := (page.princeBaseAddr &&& ~~~ nibbleMask region) |||
      ((base >>> 18) &&& 0xF) <<< (region.index * 4) }

section Driver

variable (series : Series) (flashSize : Word) (services : Services) (cmpa : CmpaServices)

/-- The base address, the mask, and then both to the page. -/
def storeMask (region : Prince.Region) (srEnable base : Word) (d : Device) : Outcome :=
  let (prince, status) := setRegionBaseAddress series region base d.prince
  let d := { d with prince := prince }
  if status ≠ .success then ⟨d, status, none⟩
  else
    let (prince, status) := setRegionSREnable region srEnable d.prince
    let d := { d with prince := prince }
    if status ≠ .success then ⟨d, status, none⟩
    else
      match cmpa.getCustomerData d.calls with
      | none => ⟨d.called 1, status, none⟩
      | some page =>
        let page := page.store region srEnable base
        ⟨d.called 2, cmpa.custFactoryPageWrite (d.calls + 1) page, some page⟩

/-- `PRINCE_SetEncryptForAddressRange`. -/
def setEncryptForAddressRange (c : Call) (d : Device) (fuel : Nat) : Option (Option Outcome) :=
  let endAddress := (c.startAddress.toNat + c.length.toNat) % 2 ^ 32
  if outside series flashSize c.startAddress.toNat endAddress then some (some ⟨d, .fail, none⟩)
  else
    let (d, renewed) := if c.regenerateIv then renewIV services c.region d else (d, true)
    if renewed = false then some (some ⟨d, .fail, none⟩)
    else
      let alignedStartAddress := c.startAddress.toNat &&& 2 ^ 32 - 8192
      let (subregion, base) := areaOf (alignedStartAddress / 8192)
      if c.length ≠ 0 then
        (fillMask alignedStartAddress subregion endAddress fuel).map
          (Option.map fun mask => storeMask series cmpa c.region (mask ||| d.prince.srEnable c.region) base d)
      else some (some (storeMask series cmpa c.region 0 base d))

end Driver

/-- The addresses in the enabled subregions of a region. -/
def Covered (base : Registers) (region : Prince.Region) : Set Nat :=
  {x | ∃ i, Enabled base region i ∧ x ∈ subregion base region i}

/-- The subregions of 8 KB that a range of `n` bytes touches. -/
def touched (a n : Nat) : Set Nat :=
  {x | ∃ y, a ≤ y ∧ y < a + n ∧ x / 8192 = y / 8192}

/-- The base address of a region in the page. -/
def CmpaPage.baseAddr (page : CmpaPage) (region : Prince.Region) : Word :=
  ((page.princeBaseAddr >>> (region.index * 4)) &&& 0xF) <<< 18

section Promise

variable (series : Series) (flashSize : Word) (services : Services) (cmpa : CmpaServices)

/-- The services do not fail. -/
structure Succeed : Prop where
  renew : ∀ region d, (renewIV services region d).2 = true
  get : ∀ n, (cmpa.getCustomerData n).isSome = true
  write : ∀ n page, cmpa.custFactoryPageWrite n page = .success

/-- The devices that successful calls lead to. -/
inductive History (d₀ : Device) : Device → Prop
  | start : History d₀ d₀
  | call {d d' : Device} {c : Call} {page : Option CmpaPage} (h : History d₀ d)
      (hreturns : Returns (setEncryptForAddressRange series flashSize services cmpa c d) (some ⟨d', .success, page⟩)) :
      History d₀ d'

/-- What a successful call leaves in the registers and in the page. -/
structure Encrypted (c : Call) (d : Device) (o : Outcome) : Prop where
  covered : Covered o.device.prince c.region =
    Covered d.prince c.region ∪ touched c.startAddress.toNat c.length.toNat
  stored : ∃ page, o.written = some page ∧ page.princeSr c.region = o.device.prince.srEnable c.region ∧
    page.baseAddr c.region = o.device.prince.baseAddr c.region

/-- The range lies in the flash that can be encrypted. -/
def InFlash (c : Call) : Prop :=
  c.startAddress.toNat + c.length.toNat ≤ maxFlashAddr flashSize

/-- A call has a result: it encrypts the range, and rejects one that leaves the flash, with nothing changed. -/
def Right (c : Call) (d : Device) : Prop :=
  ∃ o, Returns (setEncryptForAddressRange series flashSize services cmpa c d) (some o) ∧
    (o.status = .success → Encrypted c d o) ∧
    (¬ InFlash flashSize c → o.status ≠ .success ∧ o.device.prince = d.prince ∧ o.device.events = d.events)

/-- The subregion of the start in its area, and the base address of the area. -/
abbrev Call.area (c : Call) : Nat × Word :=
  areaOf (c.startAddress.toNat / 8192)

/-- `end_address`. -/
abbrev Call.endAddress (c : Call) : Nat :=
  (c.startAddress.toNat + c.length.toNat) % 2 ^ 32

/-- The subregion of the start is in its area, and a range that does not wrap ends there. -/
def FitsArea (c : Call) : Prop :=
  c.area.1 < 32 ∧
    (c.startAddress.toNat + c.length.toNat < 2 ^ 32 →
      c.startAddress.toNat + c.length.toNat ≤ c.area.2.toNat + 0x40000)

/-- The series has no region at the base address of the area. -/
def Refused (c : Call) : Prop :=
  c.area.2 > series.maxBaseAddress

/-- When a call is right. -/
def Good (c : Call) (d : Device) : Prop :=
  outside series flashSize c.startAddress.toNat c.endAddress = true ∨
    FitsArea c ∧
      (Refused series c ∧ (InFlash flashSize c ∨ c.regenerateIv = false) ∨
        ¬ Refused series c ∧ InFlash flashSize c ∧
          (d.prince.srEnable c.region = 0 ∨ d.prince.baseAddr c.region = c.area.2))

end Promise

section Mask

/-- The bits from `first` to `first + k`. -/
def maskBits (first : Nat) : Nat → Word
  | 0 => 1#32 <<< first
  | k + 1 => maskBits first k ||| 1#32 <<< (first + k + 1)

lemma getLsbD_one_shift (k : Nat) {i : Nat} (hi : i < 32) : (1#32 <<< k).getLsbD i = decide (i = k) := by
  rw [BitVec.getLsbD_shiftLeft, BitVec.getLsbD_one]
  by_cases hik : i < k
  · simp [hi, hik, hik.ne]
  · simp [hi, hik, show i = k ↔ i - k = 0 by omega]

lemma getLsbD_maskBits (first k : Nat) {i : Nat} (hi : i < 32) :
    (maskBits first k).getLsbD i = decide (first ≤ i ∧ i ≤ first + k) := by
  induction k with
  | zero =>
    rw [maskBits, getLsbD_one_shift _ hi]
    exact decide_eq_decide.mpr (by omega)
  | succ k ih =>
    rw [maskBits, BitVec.getLsbD_or, ih, getLsbD_one_shift _ hi, ← Bool.decide_or]
    exact decide_eq_decide.mpr (by omega)

variable {q first endAddress k : Nat} {r : Option Word}

lemma fillBody_next {i : Nat} {mask : Word} (hbelow : 8192 * q < endAddress) (hbit : i + 1 < 32) (hq : q < 128) :
    fillBody endAddress (8192 * q, i, mask) = .inl (8192 * (q + 1), i + 1, mask ||| 1#32 <<< (i + 1)) := by
  have hfit : 8192 * q + 8192 < 2 ^ 32 := by omega
  rw [fillBody, if_pos hbelow, if_pos hbit, Nat.mod_eq_of_lt hfit, Nat.mul_succ]

/-- `k` rounds of the loop. -/
lemma fill_rounds (hbelow : ∀ j < k, 8192 * (q + j + 1) < endAddress) (hbits : first + k < 32) (hq : q + k < 127)
    (h : Returns (fun fuel => loop (fillBody endAddress) fuel (8192 * (q + k + 1), first + k, maskBits first k)) r) :
    Returns (fun fuel => loop (fillBody endAddress) fuel (8192 * (q + 1), first, 1#32 <<< first)) r := by
  induction k with
  | zero => exact h
  | succ k ih =>
    apply ih (fun j hj => hbelow j (Nat.lt_succ_of_lt hj)) (by omega) (by omega)
    exact loop_next (fillBody_next (hbelow k (Nat.lt_succ_self k)) (by omega) (by omega)) h

lemma fillMask_eq (hfirst : first < 32) (hq : q < 128) (fuel : Nat) :
    fillMask (8192 * q) first endAddress fuel =
      loop (fillBody endAddress) fuel (8192 * (q + 1), first, 1#32 <<< first) := by
  have hfit : 8192 * q + 8192 < 2 ^ 32 := by omega
  rw [fillMask, if_pos hfirst, Nat.mod_eq_of_lt hfit, Nat.mul_succ]

/-- The mask is complete at the first subregion behind the range. -/
lemma fillMask_returns (hbelow : ∀ j < k, 8192 * (q + j + 1) < endAddress) (hbits : first + k < 32) (hq : q + k < 127)
    (hend : endAddress ≤ 8192 * (q + k + 1)) :
    Returns (fillMask (8192 * q) first endAddress) (some (maskBits first k)) := by
  have hloop : Returns (fun fuel => loop (fillBody endAddress) fuel (8192 * (q + 1), first, 1#32 <<< first))
      (some (maskBits first k)) := by
    apply fill_rounds hbelow hbits hq
    apply loop_leave
    rw [fillBody, if_neg (Nat.not_lt_of_le hend)]
  simpa only [← fillMask_eq (show first < 32 by omega) (show q < 128 by omega)] using hloop

/-- A range that goes on behind the last bit of the mask. -/
lemma fillMask_shifts (hfirst : first < 32) (hq : q < 96) (hend : 8192 * (q + (32 - first)) < endAddress) :
    Returns (fillMask (8192 * q) first endAddress) none := by
  have hloop : Returns (fun fuel => loop (fillBody endAddress) fuel (8192 * (q + 1), first, 1#32 <<< first)) none := by
    apply fill_rounds (k := 31 - first) (fun j hj => by omega) (by omega) (by omega)
    apply loop_leave
    rw [fillBody, if_pos (by dsimp only; omega), if_neg (by dsimp only; omega)]
  simpa only [← fillMask_eq hfirst (show q < 128 by omega)] using hloop

lemma fillMask_first (hfirst : 32 ≤ first) (fuel : Nat) : fillMask (8192 * q) first endAddress fuel = some none :=
  if_neg (Nat.not_lt_of_le hfirst)

end Mask

section Areas

lemma areaOf_eq (q : Nat) : ∃ t < 3, (areaOf q).2.toNat = 0x40000 * t ∧ q = 32 * t + (areaOf q).1 := by
  unfold areaOf
  split
  · exact ⟨0, by decide, rfl, by dsimp only; omega⟩
  · split
    · exact ⟨1, by decide, rfl, by dsimp only; omega⟩
    · exact ⟨2, by decide, rfl, by dsimp only; omega⟩

variable {base : Registers} {region : Region}

/-- An address is covered by the bit of its block of 8 KB. -/
lemma mem_covered_iff {t x : Nat} (hbase : (base.baseAddr region).toNat = 0x40000 * t) :
    x ∈ Covered base region ↔
      32 * t ≤ x / 8192 ∧ x / 8192 < 32 * t + 32 ∧ (base.srEnable region).getLsbD (x / 8192 - 32 * t) = true := by
  have hmem (i : Nat) : x ∈ subregion base region i ↔ x / 8192 = 32 * t + i := by
    rw [Lib.Region.mem_iff]
    dsimp only [subregion]
    rw [hbase]
    omega
  constructor
  · rintro ⟨i, ⟨hi, hbit⟩, hx⟩
    rw [hmem] at hx
    refine ⟨by omega, by omega, ?_⟩
    rw [show x / 8192 - 32 * t = i by omega]
    exact hbit
  · rintro ⟨hle, hlt, hbit⟩
    exact ⟨x / 8192 - 32 * t, ⟨by omega, hbit⟩, (hmem _).mpr (by omega)⟩

lemma mem_touched_iff {a n x : Nat} (hn : 0 < n) :
    x ∈ touched a n ↔ a / 8192 ≤ x / 8192 ∧ x / 8192 ≤ (a + n - 1) / 8192 := by
  constructor
  · rintro ⟨y, hay, hyn, hxy⟩
    rw [hxy]
    exact ⟨Nat.div_le_div_right hay, Nat.div_le_div_right (by omega)⟩
  · rintro ⟨hle, hlt⟩
    by_cases hin : a ≤ x ∧ x < a + n
    · exact ⟨x, hin.1, hin.2, rfl⟩
    · by_cases hbefore : x < a
      · exact ⟨a, le_rfl, by omega, by omega⟩
      · exact ⟨a + n - 1, by omega, by omega, by omega⟩

lemma covered_empty (h : base.srEnable region = 0) : Covered base region = ∅ := by
  apply Set.eq_empty_of_forall_notMem
  rintro x ⟨i, henabled, -⟩
  exact not_enabled_of_zero h i henabled

lemma exists_bit {mask : Word} (h : mask ≠ 0) : ∃ i < 32, mask.getLsbD i = true := by
  by_contra hnone
  apply h
  apply BitVec.eq_of_getLsbD_eq
  intro i hi
  rw [show BitVec.getLsbD (0 : Word) i = false from BitVec.getLsbD_zero, ← Bool.not_eq_true]
  exact fun hbit => hnone ⟨i, hi, hbit⟩

/-- The new mask on the new base covers what it should when no bit moves. -/
lemma covered_fill_iff {base' : Registers} {t t' first k a n : Nat} (hbase : (base.baseAddr region).toNat = 0x40000 * t)
    (hbase' : (base'.baseAddr region).toNat = 0x40000 * t') (hfirst : a / 8192 = 32 * t' + first) (hn : 0 < n)
    (hlast : (a + n - 1) / 8192 = a / 8192 + k) (hk : first + k < 32)
    (hmask : base'.srEnable region = maskBits first k ||| base.srEnable region) :
    Covered base' region = Covered base region ∪ touched a n ↔ base.srEnable region = 0 ∨ t = t' := by
  have hbit (x : Nat) (hx : x / 8192 < 32 * t' + 32) : (base'.srEnable region).getLsbD (x / 8192 - 32 * t') = true ↔
      first ≤ x / 8192 - 32 * t' ∧ x / 8192 - 32 * t' ≤ first + k ∨
        (base.srEnable region).getLsbD (x / 8192 - 32 * t') = true := by
    rw [hmask, BitVec.getLsbD_or, getLsbD_maskBits _ _ (by omega), Bool.or_eq_true, decide_eq_true_iff]
  have htouched (x : Nat) : x ∈ touched a n ↔ 32 * t' + first ≤ x / 8192 ∧ x / 8192 ≤ 32 * t' + first + k := by
    rw [mem_touched_iff hn, hlast, hfirst]
  constructor
  · intro h
    by_contra hmoved
    rw [not_or] at hmoved
    obtain ⟨i, hi, hset⟩ := exists_bit hmoved.1
    have hdiv : 8192 * (32 * t + i) / 8192 = 32 * t + i := Nat.mul_div_cancel_left _ (by decide)
    have hin : 8192 * (32 * t + i) ∈ Covered base' region := by
      rw [h]
      apply Or.inl
      rw [mem_covered_iff hbase, hdiv, Nat.add_sub_cancel_left]
      exact ⟨by omega, by omega, hset⟩
    rw [mem_covered_iff hbase', hdiv] at hin
    obtain ⟨hle, hlt, -⟩ := hin
    exact hmoved.2 (by omega)
  · intro h
    ext x
    rw [Set.mem_union, htouched, mem_covered_iff hbase']
    rcases h with hzero | rfl
    · rw [covered_empty hzero]
      rw [hzero] at hbit
      constructor
      · rintro ⟨hle, hlt, hset⟩
        rcases (hbit x hlt).mp hset with hin | hin
        · exact Or.inr (by omega)
        · simp at hin
      · rintro (hin | hin)
        · exact absurd hin (Set.notMem_empty x)
        · exact ⟨by omega, by omega, (hbit x (by omega)).mpr (Or.inl (by omega))⟩
    · rw [mem_covered_iff hbase]
      constructor
      · rintro ⟨hle, hlt, hset⟩
        rcases (hbit x hlt).mp hset with hin | hin
        · exact Or.inr (by omega)
        · exact Or.inl ⟨hle, hlt, hin⟩
      · rintro (⟨hle, hlt, hset⟩ | hin)
        · exact ⟨hle, hlt, (hbit x hlt).mpr (Or.inr hset)⟩
        · exact ⟨by omega, by omega, (hbit x (by omega)).mpr (Or.inl (by omega))⟩

/-- The page gives the base address of an area back. -/
lemma baseAddr_store (page : CmpaPage) (mask : Word) (q : Nat) :
    (page.store region mask (areaOf q).2).baseAddr region = (areaOf q).2 := by
  have hcleared : (~~~ nibbleMask region) >>> (region.index * 4) &&& 0xF = 0 := by
    cases region <;> decide
  have harea : (areaOf q).2 = 0 ∨ (areaOf q).2 = 0x40000 ∨ (areaOf q).2 = 0x80000 := by
    unfold areaOf
    split
    · exact Or.inl rfl
    · split
      · exact Or.inr (Or.inl rfl)
      · exact Or.inr (Or.inr rfl)
  have hback : ((((areaOf q).2 >>> 18) &&& 0xF) <<< (region.index * 4)) >>> (region.index * 4) &&& (0xF : Word) =
      ((areaOf q).2 >>> 18) &&& 0xF := by
    rcases harea with h | h | h <;> rw [h] <;> cases region <;> decide
  have hshift : (((areaOf q).2 >>> 18) &&& 0xF) <<< 18 = (areaOf q).2 := by
    rcases harea with h | h | h <;> rw [h] <;> decide
  rw [CmpaPage.baseAddr, CmpaPage.store]
  dsimp only
  rw [BitVec.ushiftRight_or_distrib, BitVec.and_or_distrib_right, BitVec.ushiftRight_and_distrib, BitVec.and_assoc,
    hcleared, hback, show (page.princeBaseAddr >>> (region.index * 4)) &&& (0 : Word) = 0 from BitVec.and_zero,
    show (0 : Word) ||| ((areaOf q).2 >>> 18 &&& (0xF : Word)) = (areaOf q).2 >>> 18 &&& (0xF : Word) from BitVec.zero_or,
    hshift]

end Areas

section Calls

variable {series : Series} {flashSize : Word} {services : Services} {cmpa : CmpaServices}

lemma storeIV_prince (region : Region) (code : IvCode) (d : Device) :
    (storeIV services region code d).1.prince = d.prince := by
  unfold storeIV
  split
  · rfl
  · split <;> rfl

lemma genNewIV_prince (services : Services) (region : Region) (d : Device) : (genNewIV services region true d).1.prince = d.prince := by
  unfold genNewIV
  split
  · rfl
  · split
    · rfl
    next code hcode => exact storeIV_prince region code ((d.called 2).record (.generated region code))

lemma loadIV_prince (region : Region) (code : IvCode) (d : Device) :
    (loadIV services region code d).1.prince.baseAddr = d.prince.baseAddr ∧
      (loadIV services region code d).1.prince.srEnable = d.prince.srEnable := by
  unfold loadIV
  split
  · exact ⟨rfl, rfl⟩
  · split
    · split <;> exact ⟨rfl, rfl⟩
    · exact ⟨rfl, rfl⟩

/-- A new IV leaves the base address and the mask of every region. -/
lemma renewIV_prince (region : Region) (d : Device) :
    (renewIV services region d).1.prince.baseAddr = d.prince.baseAddr ∧
      (renewIV services region d).1.prince.srEnable = d.prince.srEnable := by
  have hgen := genNewIV_prince services region d
  unfold renewIV
  rcases hnew : genNewIV services region true d with ⟨d₁, _ | code⟩
  · rw [hnew] at hgen
    dsimp only at hgen ⊢
    rw [hgen]
    exact ⟨rfl, rfl⟩
  · rw [hnew] at hgen
    dsimp only at hgen ⊢
    rw [← hgen]
    exact loadIV_prince region code d₁

/-- The device when the mask is stored. -/
def renewed (services : Services) (c : Call) (d : Device) : Device :=
  if c.regenerateIv then (renewIV services c.region d).1 else d

lemma renewed_prince (c : Call) (d : Device) :
    (renewed services c d).prince.baseAddr = d.prince.baseAddr ∧
      (renewed services c d).prince.srEnable = d.prince.srEnable := by
  unfold renewed
  split
  · exact renewIV_prince c.region d
  · exact ⟨rfl, rfl⟩

/-- The device after both registers and the page have been written. -/
def stored (region : Region) (mask base : Word) (d : Device) : Device where
  prince :=
    { d.prince with
      baseAddr := Function.update d.prince.baseAddr region base
      srEnable := Function.update d.prince.srEnable region mask }
  calls := d.calls + 2
  events := d.events

@[simp]
lemma stored_baseAddr (region : Region) (mask base : Word) (d : Device) :
    (stored region mask base d).prince.baseAddr region = base :=
  Function.update_self _ _ _

@[simp]
lemma stored_srEnable (region : Region) (mask base : Word) (d : Device) :
    (stored region mask base d).prince.srEnable region = mask :=
  Function.update_self _ _ _

lemma storeMask_refused {region : Region} {mask base : Word} (h : base > series.maxBaseAddress) (d : Device) :
    storeMask series cmpa region mask base d = ⟨d, .invalidArgument, none⟩ := by
  rw [storeMask, setRegionBaseAddress, if_pos h]
  rfl

lemma storeMask_accepted (hs : Succeed services cmpa) {region : Region} {base : Word}
    (h : ¬ base > series.maxBaseAddress) (mask : Word) (d : Device) :
    ∃ page : CmpaPage, storeMask series cmpa region mask base d =
      ⟨stored region mask base d, .success, some (page.store region mask base)⟩ := by
  obtain ⟨page, hpage⟩ := Option.isSome_iff_exists.mp (hs.get d.calls)
  refine ⟨page, ?_⟩
  rw [storeMask, setRegionBaseAddress, if_neg h]
  dsimp only [setRegionSREnable]
  rw [if_neg (not_not_intro rfl), if_neg (not_not_intro rfl), hpage]
  dsimp only
  rw [hs.write]
  rfl

/-- A base address that is a multiple of 256 KB in every region. -/
def Aligned (base : Registers) : Prop :=
  ∀ region, 0x40000 ∣ (base.baseAddr region).toNat

lemma Aligned.update {base : Registers} (h : Aligned base) (region : Region) (q : Nat) :
    ∀ region', 0x40000 ∣ (Function.update base.baseAddr region (areaOf q).2 region').toNat := by
  intro region'
  by_cases heq : region' = region
  · subst heq
    obtain ⟨t, -, hbase, -⟩ := areaOf_eq q
    rw [Function.update_self, hbase]
    exact Nat.dvd_mul_right _ _
  · rw [Function.update_of_ne heq]
    exact h region'

lemma storeMask_aligned {region : Region} {mask : Word} {q : Nat} {d : Device} (h : Aligned d.prince) :
    Aligned (storeMask series cmpa region mask (areaOf q).2 d).device.prince := by
  unfold storeMask setRegionBaseAddress
  by_cases hbase : (areaOf q).2 > series.maxBaseAddress
  · rw [if_pos hbase]
    exact h
  · rw [if_neg hbase]
    dsimp only [setRegionSREnable]
    rw [if_neg (not_not_intro rfl), if_neg (not_not_intro rfl)]
    split <;> exact h.update region q

lemma aligned_eq (c : Call) : c.startAddress.toNat &&& 2 ^ 32 - 8192 = 8192 * (c.startAddress.toNat / 8192) := by
  have h := and_mask_eq (w := 32) (k := 13) (by decide) c.startAddress.isLt
  rw [Nat.mul_comm]
  exact h

/-- A call in the flash, when its IV has been renewed. -/
lemma call_eq {c : Call} {d : Device}
    (hin : outside series flashSize c.startAddress.toNat c.endAddress = false)
    (hrenew : c.regenerateIv = true → (renewIV services c.region d).2 = true) (hlength : c.length ≠ 0) (fuel : Nat) :
    setEncryptForAddressRange series flashSize services cmpa c d fuel =
      (fillMask (8192 * (c.startAddress.toNat / 8192)) c.area.1 c.endAddress fuel).map
        (Option.map fun mask =>
          storeMask series cmpa c.region (mask ||| d.prince.srEnable c.region) c.area.2 (renewed services c d)) := by
  have hdiv : 8192 * (c.startAddress.toNat / 8192) / 8192 = c.startAddress.toNat / 8192 :=
    Nat.mul_div_cancel_left _ (by decide)
  have hpair : (if c.regenerateIv then renewIV services c.region d else (d, true)) = (renewed services c d, true) := by
    unfold renewed
    by_cases hregenerate : c.regenerateIv = true
    · rw [if_pos hregenerate, if_pos hregenerate, ← hrenew hregenerate]
    · rw [if_neg hregenerate, if_neg hregenerate]
  rw [setEncryptForAddressRange]
  dsimp only
  rw [hin, if_neg Bool.false_ne_true, hpair]
  dsimp only
  rw [if_neg (by decide), if_pos hlength, aligned_eq, hdiv, (renewed_prince c d).2]

/-- A call keeps the alignment of the base addresses. -/
lemma call_aligned {c : Call} {d : Device} {fuel : Nat} {o : Outcome} (h : Aligned d.prince)
    (hcall : setEncryptForAddressRange series flashSize services cmpa c d fuel = some (some o)) :
    Aligned o.device.prince := by
  have hrenewed : Aligned (if c.regenerateIv then renewIV services c.region d else (d, true)).1.prince := by
    split
    · intro region
      rw [(renewIV_prince c.region d).1]
      exact h region
    · exact h
  unfold setEncryptForAddressRange at hcall
  dsimp only at hcall
  split at hcall
  · cases hcall
    exact h
  · generalize (if c.regenerateIv then renewIV services c.region d else (d, true)) = pair at hcall hrenewed
    obtain ⟨d₁, ok⟩ := pair
    dsimp only at hcall hrenewed
    split at hcall
    · cases hcall
      exact hrenewed
    · split at hcall
      · rw [Option.map_eq_some_iff] at hcall
        obtain ⟨mask, -, hmask⟩ := hcall
        rw [Option.map_eq_some_iff] at hmask
        obtain ⟨bits, -, hstore⟩ := hmask
        rw [← hstore]
        exact storeMask_aligned hrenewed
      · cases hcall
        exact storeMask_aligned hrenewed

lemma History.aligned {d₀ d : Device} (h : History series flashSize services cmpa d₀ d) (h₀ : Aligned d₀.prince) :
    Aligned d.prince := by
  induction h with
  | start => exact h₀
  | call _ hreturns ih =>
    obtain ⟨bound, hbound⟩ := hreturns
    exact call_aligned ih (hbound bound le_rfl)

/-- The end of the mask, when the range stays in its area. -/
lemma fits_returns {c : Call} (hlength : c.length ≠ 0) (h : FitsArea c) :
    ∃ k, c.area.1 + k < 32 ∧
      (c.startAddress.toNat + c.length.toNat < 2 ^ 32 →
        (c.startAddress.toNat + c.length.toNat - 1) / 8192 = c.startAddress.toNat / 8192 + k) ∧
      Returns (fillMask (8192 * (c.startAddress.toNat / 8192)) c.area.1 c.endAddress) (some (maskBits c.area.1 k)) := by
  obtain ⟨hfirst, hend⟩ := h
  obtain ⟨t, ht, hbase, hq⟩ := areaOf_eq (c.startAddress.toNat / 8192)
  have hpos : 0 < c.length.toNat := Nat.pos_of_ne_zero fun h => hlength (BitVec.eq_of_toNat_eq h)
  rw [hbase] at hend
  have hstart := c.startAddress.isLt
  have hlt := c.length.isLt
  dsimp only [Call.area] at hfirst hend ⊢
  generalize (areaOf (c.startAddress.toNat / 8192)).1 = first at hfirst hq ⊢
  by_cases hwrap : c.startAddress.toNat + c.length.toNat < 2 ^ 32
  · have hle := hend hwrap
    rw [Call.endAddress, Nat.mod_eq_of_lt hwrap]
    refine ⟨(c.startAddress.toNat + c.length.toNat - 1) / 8192 - c.startAddress.toNat / 8192, by omega,
      fun _ => by omega, ?_⟩
    exact fillMask_returns (fun j hj => by omega) (by omega) (by omega) (by omega)
  · -- the end has wrapped: the loop is left at once
    refine ⟨0, by omega, fun hlt => absurd hlt hwrap, ?_⟩
    rw [Call.endAddress, Nat.mod_eq_sub_mod (by omega), Nat.mod_eq_of_lt (by omega)]
    exact fillMask_returns (fun j hj => absurd hj (Nat.not_lt_zero j)) (by omega) (by omega) (by omega)

lemma spills_returns {c : Call} (h : ¬ FitsArea c) :
    Returns (fillMask (8192 * (c.startAddress.toNat / 8192)) c.area.1 c.endAddress) none := by
  obtain ⟨t, ht, hbase, hq⟩ := areaOf_eq (c.startAddress.toNat / 8192)
  by_cases hfirst : c.area.1 < 32
  · have hend : c.startAddress.toNat + c.length.toNat < 2 ^ 32 ∧
        c.area.2.toNat + 0x40000 < c.startAddress.toNat + c.length.toNat := by
      by_contra hnot
      exact h ⟨hfirst, fun hwrap => Nat.le_of_not_lt fun hlt => hnot ⟨hwrap, hlt⟩⟩
    obtain ⟨hwrap, hlt⟩ := hend
    rw [Call.endAddress, Nat.mod_eq_of_lt hwrap]
    rw [Call.area, hbase] at hlt
    dsimp only [Call.area] at hfirst ⊢
    exact fillMask_shifts hfirst (by omega) (by omega)
  · exact ⟨0, fun fuel _ => fillMask_first (Nat.le_of_not_lt hfirst) fuel⟩

variable {c : Call} {d : Device}

lemma call_returns (hs : Succeed services cmpa) (hin : outside series flashSize c.startAddress.toNat c.endAddress = false)
    (hlength : c.length ≠ 0) {mask : Option Word}
    (h : Returns (fillMask (8192 * (c.startAddress.toNat / 8192)) c.area.1 c.endAddress) mask) :
    Returns (setEncryptForAddressRange series flashSize services cmpa c d)
      (mask.map fun mask =>
        storeMask series cmpa c.region (mask ||| d.prince.srEnable c.region) c.area.2 (renewed services c d)) := by
  have heq : setEncryptForAddressRange series flashSize services cmpa c d = fun fuel => _ :=
    funext (call_eq hin (fun _ => hs.renew c.region d) hlength)
  rw [heq]
  exact h.map _

lemma right_of_outside (hout : outside series flashSize c.startAddress.toNat c.endAddress = true) :
    Right series flashSize services cmpa c d := by
  refine ⟨⟨d, .fail, none⟩, ⟨0, fun fuel _ => ?_⟩, ?_, fun _ => ⟨show Status.fail ≠ .success by decide, rfl, rfl⟩⟩
  · rw [setEncryptForAddressRange]
    dsimp only
    rw [if_pos hout]
  · intro hsuccess
    cases hsuccess

lemma right_iff_of_returns {o : Outcome}
    (h : Returns (setEncryptForAddressRange series flashSize services cmpa c d) (some o)) :
    Right series flashSize services cmpa c d ↔
      (o.status = .success → Encrypted c d o) ∧
        (¬ InFlash flashSize c → o.status ≠ .success ∧ o.device.prince = d.prince ∧ o.device.events = d.events) := by
  constructor
  · rintro ⟨o', hreturns, hright⟩
    rw [Option.some.inj (h.unique hreturns)]
    exact hright
  · intro hright
    exact ⟨o, h, hright⟩

/-- An IV that is renewed leaves its events. -/
lemma renewed_events (hs : Succeed services cmpa) : (renewed services c d).events = d.events ↔ c.regenerateIv = false := by
  unfold renewed
  by_cases hregenerate : c.regenerateIv = true
  · obtain ⟨code, iv, hevents, -⟩ := renewIV_events services (hs.renew c.region d)
    rw [if_pos hregenerate, hevents, hregenerate]
    simp
  · rw [if_neg hregenerate]
    exact iff_of_true rfl (Bool.eq_false_of_not_eq_true hregenerate)

lemma right_iff_of_refused (hs : Succeed services cmpa)
    (hin : outside series flashSize c.startAddress.toNat c.endAddress = false) (hlength : c.length ≠ 0) (hfits : FitsArea c)
    (hrefused : Refused series c) :
    Right series flashSize services cmpa c d ↔ InFlash flashSize c ∨ c.regenerateIv = false := by
  obtain ⟨k, -, -, hmask⟩ := fits_returns hlength hfits
  have hcall := call_returns (d := d) hs hin hlength hmask
  rw [Option.map_some, storeMask_refused hrefused] at hcall
  rw [right_iff_of_returns hcall]
  constructor
  · rintro ⟨-, hrejected⟩
    by_cases hflash : InFlash flashSize c
    · exact Or.inl hflash
    · exact Or.inr ((renewed_events hs).mp (hrejected hflash).2.2)
  · intro hcond
    refine ⟨fun hsuccess => absurd hsuccess (show Status.invalidArgument ≠ .success by decide), fun hflash => ?_⟩
    have hkept := hcond.resolve_left hflash
    refine ⟨show Status.invalidArgument ≠ .success by decide, ?_, (renewed_events hs).mpr hkept⟩
    rw [renewed, hkept, if_neg Bool.false_ne_true]

lemma accepted_returns (hs : Succeed services cmpa)
    (hin : outside series flashSize c.startAddress.toNat c.endAddress = false) (hlength : c.length ≠ 0)
    (haccepted : ¬ Refused series c) {bits : Word}
    (hmask : Returns (fillMask (8192 * (c.startAddress.toNat / 8192)) c.area.1 c.endAddress) (some bits)) :
    ∃ page : CmpaPage, Returns (setEncryptForAddressRange series flashSize services cmpa c d)
      (some ⟨stored c.region (bits ||| d.prince.srEnable c.region) c.area.2 (renewed services c d), .success,
        some (page.store c.region (bits ||| d.prince.srEnable c.region) c.area.2)⟩) := by
  obtain ⟨page, hstore⟩ := storeMask_accepted hs haccepted (bits ||| d.prince.srEnable c.region) (renewed services c d)
  have hcall := call_returns (d := d) hs hin hlength hmask
  rw [Option.map_some, hstore] at hcall
  exact ⟨page, hcall⟩

lemma right_iff_of_accepted (hs : Succeed services cmpa) (h : Aligned d.prince)
    (hin : outside series flashSize c.startAddress.toNat c.endAddress = false) (hlength : c.length ≠ 0) (hfits : FitsArea c)
    (haccepted : ¬ Refused series c) :
    Right series flashSize services cmpa c d ↔
      InFlash flashSize c ∧ (d.prince.srEnable c.region = 0 ∨ d.prince.baseAddr c.region = c.area.2) := by
  obtain ⟨k, hk, hlast, hmask⟩ := fits_returns hlength hfits
  obtain ⟨page, hcall⟩ := accepted_returns (d := d) hs hin hlength haccepted hmask
  rw [right_iff_of_returns hcall]
  have hcovered (hflash : InFlash flashSize c) :
      Covered (stored c.region (maskBits c.area.1 k ||| d.prince.srEnable c.region) c.area.2 (renewed services c d)).prince
          c.region = Covered d.prince c.region ∪ touched c.startAddress.toNat c.length.toNat ↔
        d.prince.srEnable c.region = 0 ∨ d.prince.baseAddr c.region = c.area.2 := by
    obtain ⟨t, ht⟩ := h c.region
    obtain ⟨t', -, ht', hfirst⟩ := areaOf_eq (c.startAddress.toNat / 8192)
    have hmax : maxFlashAddr flashSize < 2 ^ 32 := BitVec.isLt _
    rw [covered_fill_iff ht (by rw [stored_baseAddr, ht']) hfirst
      (Nat.pos_of_ne_zero fun hzero => hlength (BitVec.eq_of_toNat_eq hzero)) (hlast (lt_of_le_of_lt hflash hmax)) hk
      (stored_srEnable _ _ _ _)]
    apply or_congr_right
    rw [← BitVec.toNat_inj, ht, ht', Nat.mul_right_inj (by decide)]
  constructor
  · rintro ⟨hencrypted, hrejected⟩
    have hflash : InFlash flashSize c := by
      by_contra hnot
      exact (hrejected hnot).1 rfl
    exact ⟨hflash, (hcovered hflash).mp (hencrypted rfl).covered⟩
  · rintro ⟨hflash, hcond⟩
    refine ⟨fun _ => ⟨(hcovered hflash).mpr hcond, _, rfl, ?_, ?_⟩, fun hnot => absurd hflash hnot⟩
    · rw [stored_srEnable]
      exact Function.update_self _ _ _
    · rw [stored_baseAddr]
      exact baseAddr_store page _ _

/-- What a call does when every base address is a multiple of 256 KB. -/
lemma right_iff_good (hs : Succeed services cmpa) (h : Aligned d.prince) (hlength : c.length ≠ 0) :
    Right series flashSize services cmpa c d ↔ Good series flashSize c d := by
  unfold Good
  by_cases hout : outside series flashSize c.startAddress.toNat c.endAddress = true
  · exact iff_of_true (right_of_outside hout) (Or.inl hout)
  · rw [or_iff_right hout]
    have hin := Bool.eq_false_of_not_eq_true hout
    by_cases hfits : FitsArea c
    · rw [and_iff_right hfits]
      by_cases hrefused : Refused series c
      · rw [right_iff_of_refused hs hin hlength hfits hrefused]
        simp only [hrefused, true_and, not_true_eq_false, false_and, or_false]
      · rw [right_iff_of_accepted hs h hin hlength hfits hrefused]
        simp only [hrefused, false_and, not_false_eq_true, true_and, false_or]
    · apply iff_of_false
      · rintro ⟨o, hreturns, -⟩
        have hshift := call_returns (d := d) hs hin hlength (spills_returns hfits)
        cases hshift.unique hreturns
      · exact fun hgood => hfits hgood.1

end Calls

/-- What the driver does with a range after every history, and when it is what it promises. -/
theorem encrypted_iff (series : Series) (flashSize : Word) (services : Services) (cmpa : CmpaServices) (d₀ d : Device)
    (c : Call) (hs : Succeed services cmpa) (h₀ : Aligned d₀.prince)
    (h : History series flashSize services cmpa d₀ d) (hlength : c.length ≠ 0) :
    Right series flashSize services cmpa c d ↔ Good series flashSize c d :=
  right_iff_good hs (h.aligned h₀) hlength

section Example

/-- Services that do not fail; an IV code has the index of its key in its second byte. -/
def workingServices : Services where
  isGetKeyAllowed := fun _ => true
  setIntrinsicKey := fun _ index => some fun _ => BitVec.ofNat 8 index
  getKey := fun _ _ => some 0
  getCustomerInfieldData := fun _ => some ⟨0, fun _ _ => 0⟩
  infieldPageWrite := fun _ _ => true

def emptyCmpa : CmpaServices where
  getCustomerData := fun _ => some ⟨0, fun _ => 0⟩
  custFactoryPageWrite := fun _ _ => .success

lemma working_succeed : Succeed workingServices emptyCmpa where
  renew := by
    intro region d
    cases region <;> rfl
  get := fun _ => rfl
  write := fun _ _ => rfl

def resetDevice : Device :=
  ⟨⟨fun _ => 0, fun _ => 0, fun _ => 0⟩, 0, []⟩

lemma reset_aligned : Aligned resetDevice.prince :=
  fun _ => Nat.dvd_zero _

/-- The start of the first area, and the start of the second one. -/
def firstArea : Call := ⟨.region0, 0, 0x2000, false⟩
def secondArea : Call := ⟨.region0, 0x40000, 0x2000, false⟩

theorem encrypted_firstArea :
    Right .lpc55S6x 0xA0000 workingServices emptyCmpa firstArea resetDevice :=
  (encrypted_iff .lpc55S6x 0xA0000 workingServices emptyCmpa resetDevice resetDevice firstArea working_succeed
    reset_aligned .start (by decide)).mpr
    (Or.inr ⟨⟨by decide, fun _ => by decide⟩, Or.inr ⟨by unfold Refused; decide, by unfold InFlash; decide, Or.inl rfl⟩⟩)

/-- The bit of the first area moves to the second one with the base address. -/
theorem not_encrypted_secondArea :
    ¬ ∀ (series : Series) (flashSize : Word) (services : Services) (cmpa : CmpaServices) (d₀ d : Device) (c : Call),
      Succeed services cmpa → Aligned d₀.prince → History series flashSize services cmpa d₀ d → c.length ≠ 0 →
      Right series flashSize services cmpa c d := by
  intro hall
  have hfits : FitsArea firstArea := ⟨by decide, fun _ => by decide⟩
  obtain ⟨k, hk, -, hmask⟩ := fits_returns (by decide) hfits
  have hin : outside .lpc55S6x 0xA0000 firstArea.startAddress.toNat firstArea.endAddress = false := by decide
  obtain ⟨page, hcall⟩ := accepted_returns (d := resetDevice) working_succeed hin (by decide)
    (by unfold Refused; decide) hmask
  have hhistory := History.start.call hcall
  have hright := hall _ _ _ _ _ _ secondArea working_succeed reset_aligned hhistory (by decide)
  rw [right_iff_good working_succeed (hhistory.aligned reset_aligned) (by decide)] at hright
  rcases hright with hout | ⟨-, ⟨hrefused, -⟩ | ⟨-, -, hzero | hbase⟩⟩
  · exact absurd hout (by decide)
  · exact absurd hrefused (by unfold Refused; decide)
  · have hbit := congrArg (BitVec.getLsbD · 0) ((stored_srEnable _ _ _ _).symm.trans hzero)
    rw [BitVec.getLsbD_or, getLsbD_maskBits _ _ (by decide), decide_eq_true ⟨by decide, Nat.zero_le _⟩] at hbit
    cases hbit
  · rw [show secondArea.region = firstArea.region from rfl, stored_baseAddr] at hbase
    exact absurd hbase (by decide)

end Example

end McuxDrivers.Prince.EncryptRange
