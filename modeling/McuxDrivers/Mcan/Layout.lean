import McuxDrivers.Mcan.MessageRam

/-!
# The sections of the MCAN message RAM

Each section starts at or after the end of the one before, so the sections are disjoint; for the sections after the standard
filters, the end of these is taken as if they started at 0.
-/

namespace McuxDrivers.Mcan
open McuxDrivers.Lib

section Regions

def FrameFilterConfig.stdRegion (c : FrameFilterConfig) : Region :=
  ⟨c.address, c.listSize * 4⟩

def FrameFilterConfig.extRegion (c : FrameFilterConfig) : Region :=
  ⟨c.address, c.listSize * 8⟩

def RxFifoConfig.region (c : RxFifoConfig) : Region :=
  ⟨c.address, c.elementSize * eSize c.datafieldSize * 4⟩

def RxBufferConfig.region (c : RxBufferConfig) : Region :=
  ⟨c.address, 64 * eSize c.datafieldSize * 4⟩

def TxFifoConfig.region (c : TxFifoConfig) : Region :=
  ⟨c.address, c.elementSize * 8⟩

def TxBufferConfig.region (c : TxBufferConfig) : Region :=
  ⟨c.address, (c.dedicatedSize + c.fqSize) * eSize c.datafieldSize * 4⟩

end Regions

namespace MemoryConfig

def stdRegions (c : MemoryConfig) : List Region :=
  c.stdFilterCfg.toList.map FrameFilterConfig.stdRegion

/-- The sections after the standard filters, in the order in which they are placed. -/
def laterRegions (c : MemoryConfig) : List Region :=
  c.extFilterCfg.toList.map FrameFilterConfig.extRegion ++ (c.rxFifo0Cfg.toList.map RxFifoConfig.region ++
    (c.rxFifo1Cfg.toList.map RxFifoConfig.region ++ (c.rxBufferCfg.toList.map RxBufferConfig.region ++
      (c.txFifoCfg.toList.map TxFifoConfig.region ++ c.txBufferCfg.toList.map TxBufferConfig.region))))

def regions (c : MemoryConfig) : List Region :=
  c.stdRegions ++ c.laterRegions

/-- The sections that are present are disjoint. -/
def Separate (c : MemoryConfig) : Prop :=
  c.regions.Pairwise Region.Disjoint

/-- The standard filters share no byte with another section. -/
def StdFilterClear (c : MemoryConfig) : Prop :=
  ∀ r ∈ c.stdRegions, ∀ r' ∈ c.laterRegions, r.Disjoint r'

/-- No section reaches the end of the 32-bit addresses. -/
def Fits (c : MemoryConfig) : Prop :=
  ∀ r ∈ c.regions, r.address + r.bytes < 2 ^ 32

end MemoryConfig

/-- Every element lies in its section with all its bytes. -/
def ElementsInside (r : Region) (elementAddress : Nat → Nat) (count words : Nat) : Prop :=
  ∀ idx < count, ∀ k < words * 4, elementAddress idx + k ∈ r

/-- The addresses that are read back from the registers lie in their sections, for sections within the 16-bit offset. -/
structure RamRegs.Addresses (r : RamRegs) (c : MemoryConfig) : Prop where
  rxFifo0 : ∀ f, c.rxFifo0Cfg = some f → f.address < 2 ^ 16 →
    ElementsInside f.region r.getRxFifo0ElementAddress f.elementSize (eSize f.datafieldSize)
  rxFifo1 : ∀ f, c.rxFifo1Cfg = some f → f.address < 2 ^ 16 →
    ElementsInside f.region r.getRxFifo1ElementAddress f.elementSize (eSize f.datafieldSize)
  rxBuffer : ∀ b, c.rxBufferCfg = some b → b.address < 2 ^ 16 →
    ElementsInside b.region r.getRxBufferElementAddress 64 (eSize b.datafieldSize)
  txBuffer : ∀ b, c.txBufferCfg = some b → b.address < 2 ^ 16 →
    ElementsInside b.region r.getTxBufferElementAddress (b.dedicatedSize + b.fqSize) (eSize b.datafieldSize)

namespace Placing

variable {α : Type} {p : Placing} {cfg : Option α} {admits : α → Bool} {next : α → Nat} {set : RamRegs → α → RamRegs}

lemma ok_of_place (hok : (p.place cfg admits next set).ok = true) :
    p.ok = true ∧ ∀ c, cfg = some c → admits c = true := by
  cases cfg with
  | none => exact ⟨hok, nofun⟩
  | some c =>
    rw [place] at hok
    split_ifs at hok with hp hadmits
    · exact ⟨hp, fun c' hc' => Option.some.inj hc' ▸ hadmits⟩
    · exact absurd hok hp

lemma place_some {c : α} (hp : p.ok = true) (hadmits : admits c = true) :
    p.place (some c) admits next set = ⟨set p.regs c, next c % 2 ^ 32, true⟩ := by
  rw [place, if_pos hp, if_pos hadmits]

/-- The section starts at or after the end of the one before. -/
lemma chained_place (region : α → Region) {rest : List Region}
    (hok : (p.place cfg admits next set).ok = true) (hstart : ∀ c, admits c = true → p.temp ≤ (region c).address)
    (hnext : ∀ c, cfg = some c → next c % 2 ^ 32 = (region c).address + (region c).bytes)
    (hrest : Region.Chained (p.place cfg admits next set).temp rest) :
    Region.Chained p.temp (cfg.toList.map region ++ rest) := by
  obtain ⟨hp, hadmits⟩ := ok_of_place hok
  cases cfg with
  | none => exact hrest
  | some c =>
    have hc := hadmits c rfl
    rw [place_some hp hc, hnext c rfl] at hrest
    exact ⟨hstart c hc, hrest⟩

lemma place_frame {β : Type} (field : RamRegs → β) (hset : ∀ r c, field (set r c) = field r) :
    field (p.place cfg admits next set).regs = field p.regs := by
  cases cfg with
  | none => rfl
  | some c =>
    rw [place]
    split_ifs
    · exact hset p.regs c
    · rfl
    · rfl

end Placing

section Addresses

lemma eSize_le (d : Fin 8) : eSize d ≤ 18 := by
  revert d
  decide

lemma startAddress_reset {address : Nat} (hlt : address < 2 ^ 16) (halign : address % 4 = 0) :
    RamRegs.startAddress 0 address <<< 2 = address := by
  rw [RamRegs.startAddress, Nat.zero_or, Nat.shiftRight_eq_div_pow, Nat.shiftLeft_eq, Nat.mod_eq_of_lt (by omega)]
  omega

/-- An address that is computed from the start and the size of the elements. -/
lemma elementsInside {address count : Nat} (d : Fin 8) (hlt : address < 2 ^ 16) (halign : address % 4 = 0) (hcount : count ≤ 64) :
    ElementsInside ⟨address, count * eSize d * 4⟩
      (fun idx => (RamRegs.startAddress 0 address <<< 2 + idx * eSize (0 ||| d.val) * 4) % 2 ^ 32) count (eSize d) := by
  intro idx hidx k hk
  have hsize := eSize_le d
  have hlast : (idx + 1) * eSize d ≤ count * eSize d := Nat.mul_le_mul_right _ hidx
  have htotal : count * eSize d ≤ 64 * 18 := Nat.mul_le_mul hcount hsize
  rw [Nat.succ_mul] at hlast
  dsimp only
  rw [startAddress_reset hlt halign, Nat.zero_or, Nat.mod_eq_of_lt (by omega), Region.mem_iff]
  dsimp only
  omega

end Addresses

/-- The registers and the end after each section of a configuration that was accepted. -/
structure Placed (c : MemoryConfig) (p0 p1 p2 p3 p4 p5 p6 p7 : Placing) : Prop where
  base : p0 = if c.baseAddr % 4096 = 0 then ⟨{ RamRegs.reset with mrba := c.baseAddr }, 0, true⟩ else ⟨RamRegs.reset, 0, false⟩
  std : p1 = p0.placeStdFilter c.stdFilterCfg
  ext : p2 = p1.placeExtFilter c.extFilterCfg
  rxFifo0 : p3 = p2.placeRxFifo0 c.rxFifo0Cfg
  rxFifo1 : p4 = p3.placeRxFifo1 c.rxFifo1Cfg
  rxBuffer : p5 = p4.placeRxBuffer c.rxBufferCfg
  txFifo : p6 = p5.placeTxEventFifo c.txFifoCfg
  txBuffer : p7 = p6.placeTxBuffer c.txBufferCfg
  ok : p7.ok = true
  regs : (setMessageRamConfig RamRegs.reset c).1 = p7.regs

lemma exists_placed {c : MemoryConfig} (hsuccess : (setMessageRamConfig RamRegs.reset c).2 = true) :
    ∃ p0 p1 p2 p3 p4 p5 p6 p7, Placed c p0 p1 p2 p3 p4 p5 p6 p7 :=
  ⟨_, _, _, _, _, _, _, _, rfl, rfl, rfl, rfl, rfl, rfl, rfl, rfl, hsuccess, rfl⟩

namespace Placed

variable {c : MemoryConfig} {p0 p1 p2 p3 p4 p5 p6 p7 : Placing}

lemma oks (h : Placed c p0 p1 p2 p3 p4 p5 p6 p7) :
    p0.ok = true ∧ p1.ok = true ∧ p2.ok = true ∧ p3.ok = true ∧ p4.ok = true ∧ p5.ok = true ∧ p6.ok = true := by
  have h6 : p6.ok = true := (Placing.ok_of_place (h.txBuffer ▸ h.ok)).1
  have h5 : p5.ok = true := (Placing.ok_of_place (h.txFifo ▸ h6)).1
  have h4 : p4.ok = true := (Placing.ok_of_place (h.rxBuffer ▸ h5)).1
  have h3 : p3.ok = true := (Placing.ok_of_place (h.rxFifo1 ▸ h4)).1
  have h2 : p2.ok = true := (Placing.ok_of_place (h.rxFifo0 ▸ h3)).1
  have h1 : p1.ok = true := (Placing.ok_of_place (h.ext ▸ h2)).1
  have h0 : p0.ok = true := (Placing.ok_of_place (h.std ▸ h1)).1
  exact ⟨h0, h1, h2, h3, h4, h5, h6⟩

lemma admits_start {temp address : Nat} (h : (decide (temp ≤ address) && decide (address % 4 = 0)) = true) :
    temp ≤ address ∧ address % 4 = 0 := by
  simpa using h

lemma mem_regions (h : c.Fits) {r : Region} (hr : r ∈ c.laterRegions) : r.address + r.bytes < 2 ^ 32 :=
  h r (List.mem_append_right _ hr)

/-- The sections after the standard filters are one behind the other. -/
lemma chained (h : Placed c p0 p1 p2 p3 p4 p5 p6 p7) (hfits : c.Fits) : Region.Chained p1.temp c.laterRegions := by
  have htx : Region.Chained p6.temp (c.txBufferCfg.toList.map TxBufferConfig.region) := by
    obtain ⟨-, hadmits⟩ := Placing.ok_of_place (h.txBuffer ▸ h.ok)
    cases hcfg : c.txBufferCfg with
    | none => trivial
    | some b =>
      have hb := hadmits b hcfg
      simp only [Bool.not_or, Bool.and_eq_true, Bool.not_eq_true', decide_eq_false_iff_not, Nat.not_lt] at hb
      exact ⟨hb.1, trivial⟩
  obtain ⟨-, -, h2, h3, h4, h5, h6⟩ := h.oks
  have hnext {r : Region} (hr : r ∈ c.laterRegions) : (r.address + r.bytes) % 2 ^ 32 = r.address + r.bytes :=
    Nat.mod_eq_of_lt (mem_regions hfits hr)
  rw [h.txFifo] at htx h6
  have htxFifo := Placing.chained_place TxFifoConfig.region h6 (fun _ ha => (admits_start ha).1)
    (fun b hb => hnext (r := b.region) (by simp [MemoryConfig.laterRegions, hb])) htx
  rw [h.rxBuffer] at htxFifo h5
  have hrxBuffer := Placing.chained_place RxBufferConfig.region h5 (fun _ ha => (admits_start ha).1)
    (fun b hb => hnext (r := b.region) (by simp [MemoryConfig.laterRegions, hb])) htxFifo
  rw [h.rxFifo1] at hrxBuffer h4
  have hrxFifo1 := Placing.chained_place RxFifoConfig.region h4 (fun _ ha => (admits_start ha).1)
    (fun b hb => hnext (r := b.region) (by simp [MemoryConfig.laterRegions, hb])) hrxBuffer
  rw [h.rxFifo0] at hrxFifo1 h3
  have hrxFifo0 := Placing.chained_place RxFifoConfig.region h3 (fun _ ha => (admits_start ha).1)
    (fun b hb => hnext (r := b.region) (by simp [MemoryConfig.laterRegions, hb])) hrxFifo1
  rw [h.ext] at hrxFifo0 h2
  refine Placing.chained_place FrameFilterConfig.extRegion h2 ?_
    (fun b hb => hnext (r := b.extRegion) (by simp [MemoryConfig.laterRegions, hb])) hrxFifo0
  intro b hb
  simp only [Bool.and_eq_true, decide_eq_true_eq] at hb
  exact hb.1.2

lemma base_regs (h : Placed c p0 p1 p2 p3 p4 p5 p6 p7) : p0.regs = { RamRegs.reset with mrba := c.baseAddr } := by
  obtain ⟨h0, -⟩ := h.oks
  have hbase := h.base
  split_ifs at hbase
  · rw [hbase]
  · rw [hbase] at h0
    cases h0

section Frames

variable {β : Type} (field : RamRegs → β)

/-- The filters leave a field of the buffers at its reset value. -/
lemma filters_frame (h : Placed c p0 p1 p2 p3 p4 p5 p6 p7) (hfilter : ∀ r c, field (RamRegs.setFilterConfig r c) = field r)
    (hbase : field { RamRegs.reset with mrba := c.baseAddr } = field RamRegs.reset) : field p2.regs = field RamRegs.reset := by
  rw [h.ext, Placing.placeExtFilter, Placing.place_frame field hfilter, h.std, Placing.placeStdFilter,
    Placing.place_frame field hfilter, h.base_regs, hbase]

lemma rxFifo0_frame (h : Placed c p0 p1 p2 p3 p4 p5 p6 p7) (hset : ∀ r c, field (RamRegs.setRxFifo0Config r c) = field r) :
    field p3.regs = field p2.regs := by
  rw [h.rxFifo0, Placing.placeRxFifo0, Placing.place_frame field hset]

lemma rxFifo1_frame (h : Placed c p0 p1 p2 p3 p4 p5 p6 p7) (hset : ∀ r c, field (RamRegs.setRxFifo1Config r c) = field r) :
    field p4.regs = field p3.regs := by
  rw [h.rxFifo1, Placing.placeRxFifo1, Placing.place_frame field hset]

lemma rxBuffer_frame (h : Placed c p0 p1 p2 p3 p4 p5 p6 p7) (hset : ∀ r c, field (RamRegs.setRxBufferConfig r c) = field r) :
    field p5.regs = field p4.regs := by
  rw [h.rxBuffer, Placing.placeRxBuffer, Placing.place_frame field hset]

lemma txFifo_frame (h : Placed c p0 p1 p2 p3 p4 p5 p6 p7) (hset : ∀ r c, field (RamRegs.setTxEventFifoConfig r c) = field r) :
    field p6.regs = field p5.regs := by
  rw [h.txFifo, Placing.placeTxEventFifo, Placing.place_frame field hset]

lemma txBuffer_frame (h : Placed c p0 p1 p2 p3 p4 p5 p6 p7) (hset : ∀ r c, field (RamRegs.setTxBufferConfig r c) = field r) :
    field p7.regs = field p6.regs := by
  rw [h.txBuffer, Placing.placeTxBuffer, Placing.place_frame field hset]

lemma setFilterConfig_frame (hstd : ∀ r rrfs anfs flssa lss, field { r with
      rrfs := rrfs, anfs := anfs, flssa := flssa, lss := lss } = field r)
    (hext : ∀ r rrfe anfe flesa lse, field { r with rrfe := rrfe, anfe := anfe, flesa := flesa, lse := lse } = field r)
    (r : RamRegs) (f : FrameFilterConfig) : field (RamRegs.setFilterConfig r f) = field r := by
  unfold RamRegs.setFilterConfig
  split
  · exact hstd _ _ _ _ _
  · exact hext _ _ _ _ _

end Frames

lemma place_regs {α : Type} {p p' : Placing} {cfg : Option α} {admits : α → Bool} {next : α → Nat}
    {set : RamRegs → α → RamRegs} {a : α} (hp' : p' = p.place cfg admits next set) (hok : p'.ok = true) (hcfg : cfg = some a) :
    admits a = true ∧ p'.regs = set p.regs a := by
  subst hcfg
  rw [hp'] at hok
  obtain ⟨hp, hadmits⟩ := Placing.ok_of_place hok
  rw [hp', Placing.place_some hp (hadmits a rfl)]
  exact ⟨hadmits a rfl, rfl⟩

/-- The fields of Rx FIFO 0 after all the sections. -/
lemma rxFifo0_fields (h : Placed c p0 p1 p2 p3 p4 p5 p6 p7) {f : RxFifoConfig} (hf : c.rxFifo0Cfg = some f) :
    f.address % 4 = 0 ∧ (p7.regs.f0sa, p7.regs.f0ds) = (RamRegs.startAddress 0 f.address, 0 ||| f.datafieldSize.val) := by
  obtain ⟨-, -, -, h3, -⟩ := h.oks
  obtain ⟨hadmits, hset⟩ := place_regs h.rxFifo0 h3 hf
  let field : RamRegs → Nat × Nat := fun r => (r.f0sa, r.f0ds)
  have hbefore : field p2.regs = field RamRegs.reset :=
    h.filters_frame field (setFilterConfig_frame field (fun _ _ _ _ _ => rfl) fun _ _ _ _ _ => rfl) rfl
  obtain ⟨hsa, hds⟩ := Prod.mk.inj hbefore
  refine ⟨(admits_start hadmits).2, ?_⟩
  calc
    field p7.regs = field p6.regs := h.txBuffer_frame field fun _ _ => rfl
    _ = field p5.regs := h.txFifo_frame field fun _ _ => rfl
    _ = field p4.regs := h.rxBuffer_frame field fun _ _ => rfl
    _ = field p3.regs := h.rxFifo1_frame field fun _ _ => rfl
    _ = (RamRegs.startAddress p2.regs.f0sa f.address, p2.regs.f0ds ||| f.datafieldSize.val) := by rw [hset]; rfl
    _ = (RamRegs.startAddress 0 f.address, 0 ||| f.datafieldSize.val) := by rw [hsa, hds]; rfl

lemma rxFifo1_fields (h : Placed c p0 p1 p2 p3 p4 p5 p6 p7) {f : RxFifoConfig} (hf : c.rxFifo1Cfg = some f) :
    f.address % 4 = 0 ∧ (p7.regs.f1sa, p7.regs.f1ds) = (RamRegs.startAddress 0 f.address, 0 ||| f.datafieldSize.val) := by
  obtain ⟨-, -, -, -, h4, -⟩ := h.oks
  obtain ⟨hadmits, hset⟩ := place_regs h.rxFifo1 h4 hf
  let field : RamRegs → Nat × Nat := fun r => (r.f1sa, r.f1ds)
  have hbefore : field p3.regs = field RamRegs.reset :=
    (h.rxFifo0_frame field fun _ _ => rfl).trans
      (h.filters_frame field (setFilterConfig_frame field (fun _ _ _ _ _ => rfl) fun _ _ _ _ _ => rfl) rfl)
  obtain ⟨hsa, hds⟩ := Prod.mk.inj hbefore
  refine ⟨(admits_start hadmits).2, ?_⟩
  calc
    field p7.regs = field p6.regs := h.txBuffer_frame field fun _ _ => rfl
    _ = field p5.regs := h.txFifo_frame field fun _ _ => rfl
    _ = field p4.regs := h.rxBuffer_frame field fun _ _ => rfl
    _ = (RamRegs.startAddress p3.regs.f1sa f.address, p3.regs.f1ds ||| f.datafieldSize.val) := by rw [hset]; rfl
    _ = (RamRegs.startAddress 0 f.address, 0 ||| f.datafieldSize.val) := by rw [hsa, hds]; rfl

lemma rxBuffer_fields (h : Placed c p0 p1 p2 p3 p4 p5 p6 p7) {b : RxBufferConfig} (hb : c.rxBufferCfg = some b) :
    b.address % 4 = 0 ∧ (p7.regs.rbsa, p7.regs.rbds) = (RamRegs.startAddress 0 b.address, 0 ||| b.datafieldSize.val) := by
  obtain ⟨-, -, -, -, -, h5, -⟩ := h.oks
  obtain ⟨hadmits, hset⟩ := place_regs h.rxBuffer h5 hb
  let field : RamRegs → Nat × Nat := fun r => (r.rbsa, r.rbds)
  have hbefore : field p4.regs = field RamRegs.reset := calc
    field p4.regs = field p3.regs := h.rxFifo1_frame field fun _ _ => rfl
    _ = field p2.regs := h.rxFifo0_frame field fun _ _ => rfl
    _ = field RamRegs.reset :=
      h.filters_frame field (setFilterConfig_frame field (fun _ _ _ _ _ => rfl) fun _ _ _ _ _ => rfl) rfl
  obtain ⟨hsa, hds⟩ := Prod.mk.inj hbefore
  refine ⟨(admits_start hadmits).2, ?_⟩
  calc
    field p7.regs = field p6.regs := h.txBuffer_frame field fun _ _ => rfl
    _ = field p5.regs := h.txFifo_frame field fun _ _ => rfl
    _ = (RamRegs.startAddress p4.regs.rbsa b.address, p4.regs.rbds ||| b.datafieldSize.val) := by rw [hset]; rfl
    _ = (RamRegs.startAddress 0 b.address, 0 ||| b.datafieldSize.val) := by rw [hsa, hds]; rfl

lemma txBuffer_fields (h : Placed c p0 p1 p2 p3 p4 p5 p6 p7) {b : TxBufferConfig} (hb : c.txBufferCfg = some b) :
    b.address % 4 = 0 ∧ (p7.regs.tbsa, p7.regs.tbds) = (RamRegs.startAddress 0 b.address, 0 ||| b.datafieldSize.val) := by
  obtain ⟨hadmits, hset⟩ := place_regs h.txBuffer h.ok hb
  let field : RamRegs → Nat × Nat := fun r => (r.tbsa, r.tbds)
  have hbefore : field p6.regs = field RamRegs.reset := calc
    field p6.regs = field p5.regs := h.txFifo_frame field fun _ _ => rfl
    _ = field p4.regs := h.rxBuffer_frame field fun _ _ => rfl
    _ = field p3.regs := h.rxFifo1_frame field fun _ _ => rfl
    _ = field p2.regs := h.rxFifo0_frame field fun _ _ => rfl
    _ = field RamRegs.reset :=
      h.filters_frame field (setFilterConfig_frame field (fun _ _ _ _ _ => rfl) fun _ _ _ _ _ => rfl) rfl
  obtain ⟨hsa, hds⟩ := Prod.mk.inj hbefore
  refine ⟨?_, ?_⟩
  · simp only [Bool.not_or, Bool.and_eq_true, Bool.not_eq_true', bne_eq_false_iff_eq] at hadmits
    exact hadmits.2
  · calc
      field p7.regs = (RamRegs.startAddress p6.regs.tbsa b.address, p6.regs.tbds ||| b.datafieldSize.val) := by rw [hset]; rfl
      _ = (RamRegs.startAddress 0 b.address, 0 ||| b.datafieldSize.val) := by rw [hsa, hds]; rfl

lemma addresses (h : Placed c p0 p1 p2 p3 p4 p5 p6 p7) : p7.regs.Addresses c where
  rxFifo0 := by
    intro f hf hlt idx hidx k hk
    obtain ⟨halign, hfields⟩ := h.rxFifo0_fields hf
    obtain ⟨hsa, hds⟩ := Prod.mk.inj hfields
    rw [RamRegs.getRxFifo0ElementAddress, hsa, hds]
    exact elementsInside f.datafieldSize hlt halign f.elementSize_le idx hidx k hk
  rxFifo1 := by
    intro f hf hlt idx hidx k hk
    obtain ⟨halign, hfields⟩ := h.rxFifo1_fields hf
    obtain ⟨hsa, hds⟩ := Prod.mk.inj hfields
    rw [RamRegs.getRxFifo1ElementAddress, hsa, hds]
    exact elementsInside f.datafieldSize hlt halign f.elementSize_le idx hidx k hk
  rxBuffer := by
    intro b hb hlt idx hidx k hk
    obtain ⟨halign, hfields⟩ := h.rxBuffer_fields hb
    obtain ⟨hsa, hds⟩ := Prod.mk.inj hfields
    rw [RamRegs.getRxBufferElementAddress, hsa, hds]
    exact elementsInside b.datafieldSize hlt halign (Nat.le_refl 64) idx hidx k hk
  txBuffer := by
    intro b hb hlt idx hidx k hk
    obtain ⟨halign, hfields⟩ := h.txBuffer_fields hb
    obtain ⟨hsa, hds⟩ := Prod.mk.inj hfields
    rw [RamRegs.getTxBufferElementAddress, hsa, hds]
    exact elementsInside b.datafieldSize hlt halign (Nat.le_trans b.size_le (by decide)) idx hidx k hk

end Placed

lemma MemoryConfig.stdRegions_pairwise (c : MemoryConfig) : c.stdRegions.Pairwise Region.Disjoint := by
  unfold stdRegions
  cases c.stdFilterCfg with
  | none => exact List.Pairwise.nil
  | some f => exact List.pairwise_singleton _ _

/-- The sections of an accepted configuration are disjoint, and hold their elements, exactly when the standard filters share no
byte with another section. -/
theorem sections_separate (c : MemoryConfig) (hfits : c.Fits) (hsuccess : (setMessageRamConfig RamRegs.reset c).2 = true) :
    c.Separate ∧ (setMessageRamConfig RamRegs.reset c).1.Addresses c ↔ c.StdFilterClear := by
  obtain ⟨p0, p1, p2, p3, p4, p5, p6, p7, h⟩ := exists_placed hsuccess
  rw [MemoryConfig.Separate, MemoryConfig.regions, List.pairwise_append]
  constructor
  · rintro ⟨⟨-, -, hclear⟩, -⟩
    exact hclear
  · intro hclear
    refine ⟨⟨c.stdRegions_pairwise, (h.chained hfits).pairwise, hclear⟩, ?_⟩
    rw [h.regs]
    exact h.addresses

section Examples

lemma nmFrame_zero : 0 < 4 := by decide

lemma address_zero : 0 < 2 ^ 32 := by decide

lemma address_eight : 8 < 2 ^ 32 := by decide

lemma listSize_one : 1 ≤ 128 := by decide

lemma listSize_two : 2 ≤ 128 := by decide

lemma elementSize_four : 4 ≤ 64 := by decide

/-- Standard filters from 0 and a receive FIFO behind them. -/
def twoSections : MemoryConfig where
  baseAddr := 0x20000000
  stdFilterCfg := some ⟨0, 2, .standard, false, ⟨0, nmFrame_zero⟩, address_zero, listSize_two⟩
  extFilterCfg := none
  rxFifo0Cfg := some ⟨8, 4, 0, false, Fin.last 7, address_eight, elementSize_four⟩
  rxFifo1Cfg := none
  rxBufferCfg := none
  txFifoCfg := none
  txBufferCfg := none

theorem sections_separate_two : twoSections.Separate := by
  have hfits : twoSections.Fits := by
    intro r hr
    simp only [twoSections, MemoryConfig.regions, MemoryConfig.stdRegions, MemoryConfig.laterRegions, Option.toList,
      List.map, List.append_nil, List.nil_append, List.cons_append, List.mem_cons, List.not_mem_nil, or_false] at hr
    rcases hr with rfl | rfl <;> decide
  refine ((sections_separate twoSections hfits (by decide)).mpr ?_).1
  intro r hr r' hr'
  simp only [twoSections, MemoryConfig.stdRegions, MemoryConfig.laterRegions, Option.toList, List.map, List.append_nil,
    List.nil_append, List.mem_cons, List.not_mem_nil, or_false] at hr hr'
  subst hr hr'
  exact Region.disjoint_of_le (by decide)

/-- Two standard filters from 8 and an extended filter from 8. -/
def sameStart : MemoryConfig where
  baseAddr := 0x20000000
  stdFilterCfg := some ⟨8, 2, .standard, false, ⟨0, nmFrame_zero⟩, address_eight, listSize_two⟩
  extFilterCfg := some ⟨8, 1, .extend, false, ⟨0, nmFrame_zero⟩, address_eight, listSize_one⟩
  rxFifo0Cfg := none
  rxFifo1Cfg := none
  rxBufferCfg := none
  txFifoCfg := none
  txBufferCfg := none

/-- The two filter lists share their bytes, and the configuration is accepted. -/
theorem sections_not_separate :
    ¬∀ c : MemoryConfig, (setMessageRamConfig RamRegs.reset c).2 = true →
      c.Separate ∧ (setMessageRamConfig RamRegs.reset c).1.Addresses c := by
  intro h
  have hpairwise := (h sameStart (by decide)).1
  have hdisjoint := (List.pairwise_cons.mp hpairwise).1 ⟨8, 8⟩ List.mem_cons_self
  exact hdisjoint 8 ⟨by decide, by decide⟩ ⟨by decide, by decide⟩

end Examples

end McuxDrivers.Mcan
