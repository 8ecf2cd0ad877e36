import McuxDrivers.Edma4.Builders
import McuxDrivers.Edma4.Driver

/-!
# The ring of `EDMA_SubmitLoopTransfer`

For a count that its check handles, the function fills the first slots of the cleared pool, each linked to
the next and the last to the first.
-/

namespace McuxDrivers.Edma4

/-- `ESG` set and `DREQ` clear. -/
def Chained (csr : HalfWord) : Prop :=
  csr.getLsbD 4 = true ∧ csr.getLsbD 3 = false

/-- The configuration of slot `i` in a ring. -/
def ringConfig (soc : Soc) (handle : Handle) (transfer : Nat → TransferConfig) (count i : Nat) : TransferConfig :=
  { transfer i with linkTCD := handle.poolAddress + BitVec.ofNat 32 ((i + 1) % count * soc.tcdBytes) }

variable {soc : Soc} {handle : Handle}

section Words

lemma getLsbD_one_bit {mask : HalfWord} {k : Nat} (hmask : mask = BitVec.twoPow 16 k) {i : Nat} (hi : i < 16) :
    mask.getLsbD i = decide (i = k) := by
  rw [hmask, BitVec.getLsbD_twoPow]
  by_cases hk : i = k
  · rw [← hk]
    simp [hi]
  · simp [hk, Ne.symm hk]

lemma or_of_getLsbD {csr mask : HalfWord} {k : Nat} (hmask : mask = BitVec.twoPow 16 k) (h : csr.getLsbD k = true) :
    csr ||| mask = csr := by
  apply BitVec.eq_of_getLsbD_eq
  intro i hi
  rw [BitVec.getLsbD_or, getLsbD_one_bit hmask hi]
  by_cases hk : i = k
  · rw [hk, h, Bool.true_or]
  · rw [decide_eq_false hk, Bool.or_false]

lemma getLsbD_of_and {x mask : HalfWord} {k : Nat} (hmask : mask = BitVec.twoPow 16 k) (h : x &&& mask ≠ 0) :
    x.getLsbD k = true := by
  by_contra hnot
  apply h
  apply BitVec.eq_of_getLsbD_eq
  intro i hi
  rw [BitVec.getLsbD_and, getLsbD_one_bit hmask hi]
  by_cases hk : i = k
  · rw [hk, Bool.eq_false_of_not_eq_true hnot, Bool.false_and]
    simp
  · rw [decide_eq_false hk, Bool.and_false]
    simp

lemma configMinorLink_csr (t : TransferConfig) (tcd : Tcd) : (configMinorLink t tcd).csr = tcd.csr := by
  unfold configMinorLink
  split <;> rfl

/-- A link of the channel leaves the lower bits of `CSR` alone. -/
lemma configMajorLink_csr (t : TransferConfig) (tcd : Tcd) {i : Nat} (hi : i < 5) :
    (configMajorLink t tcd).csr.getLsbD i = tcd.csr.getLsbD i := by
  have hlow : ∀ j : Fin 5, kCsrMajorElink.getLsbD j.val = false ∧ kCsrMajorLinkCh.getLsbD j.val = false := by decide
  obtain ⟨helink, hlinkCh⟩ : kCsrMajorElink.getLsbD i = false ∧ kCsrMajorLinkCh.getLsbD i = false := hlow ⟨i, hi⟩
  unfold configMajorLink
  split
  · rw [BitVec.getLsbD_or, BitVec.getLsbD_and, BitVec.getLsbD_and, BitVec.getLsbD_or, BitVec.getLsbD_not, helink, hlinkCh]
    simp [show i < 16 by omega]
  · rfl

lemma clearLinks_csr (t : TransferConfig) (tcd : Tcd) {i : Nat} (hi : i < 5) :
    (clearLinks t tcd).csr.getLsbD i = tcd.csr.getLsbD i := by
  have hlow : ∀ j : Fin 5, kCsrMajorElink.getLsbD j.val = false := by decide
  have helink : kCsrMajorElink.getLsbD i = false := hlow ⟨i, hi⟩
  unfold clearLinks
  split
  · rw [BitVec.getLsbD_and, BitVec.getLsbD_not, helink]
    simp [show i < 16 by omega]
  · rfl

/-- The lower bits of `CSR`: the link, and the interrupts. -/
lemma configChannelSoftwareTCD_csr {t : TransferConfig} (hlink : t.linkTCD ≠ 0) {i : Nat} (hi : i < 5) (hpos : 0 < i) :
    (configChannelSoftwareTCD soc t).csr.getLsbD i = (decide (i = 4) || t.enabledInterruptMask.getLsbD i) := by
  have hlow : ∀ j : Fin 5, kErrorInterruptEnable.getLsbD j.val = decide (j.val = 0) ∧
      (chained kCsrDreq).getLsbD j.val = decide (j.val = 4) := by decide
  obtain ⟨herror, hchained⟩ : kErrorInterruptEnable.getLsbD i = decide (i = 0) ∧
      (chained kCsrDreq).getLsbD i = decide (i = 4) := hlow ⟨i, hi⟩
  have hcsr : (configInterrupts t (configLink soc t (configFields soc t))).csr =
      chained kCsrDreq ||| (t.enabledInterruptMask &&& ~~~kErrorInterruptEnable) := by
    rw [configInterrupts, configLink, if_pos hlink]
    rfl
  show (clearLinks t (configMajorLink t (configMinorLink t
    (configInterrupts t (configLink soc t (configFields soc t)))))).csr.getLsbD i = _
  rw [clearLinks_csr t _ hi, configMajorLink_csr t _ hi, configMinorLink_csr, hcsr, BitVec.getLsbD_or, BitVec.getLsbD_and,
    BitVec.getLsbD_not, herror, hchained]
  simp [show i < 16 by omega, show ¬ i = 0 by omega]

lemma configChannelSoftwareTCD_dlastSga {t : TransferConfig} (hlink : t.linkTCD ≠ 0) :
    (configChannelSoftwareTCD soc t).dlastSga = soc.convertToDmaAddress t.linkTCD := by
  have hminor (tcd : Tcd) : (configMinorLink t tcd).dlastSga = tcd.dlastSga := by
    unfold configMinorLink
    split <;> rfl
  have hmajor (tcd : Tcd) : (configMajorLink t tcd).dlastSga = tcd.dlastSga := by
    unfold configMajorLink
    split <;> rfl
  have hclear (tcd : Tcd) : (clearLinks t tcd).dlastSga = tcd.dlastSga := by
    unfold clearLinks
    split <;> rfl
  show (clearLinks t (configMajorLink t (configMinorLink t
    (configInterrupts t (configLink soc t (configFields soc t)))))).dlastSga = _
  rw [hclear, hmajor, hminor, configInterrupts, configLink, if_pos hlink]

end Words

section Slots

section Written

variable {α : Type} {f g v v' : Nat → α}

/-- A slot that is written, and then the ones behind it. -/
lemma written_cons {i rounds : Nat} (hv : ∀ j, j ≠ i → v' j = v j)
    (h : ∀ j, f j = if i + 1 ≤ j ∧ j < i + 1 + rounds then v' j else Function.update g i (v i) j) (j : Nat) :
    f j = if i ≤ j ∧ j < i + (rounds + 1) then v j else g j := by
  rw [h j]
  by_cases hj : j = i
  · rw [hj, if_neg (by omega), if_pos (by omega), Function.update_self]
  · rw [Function.update_of_ne hj, hv j hj]
    by_cases hrange : i + 1 ≤ j ∧ j < i + 1 + rounds
    · rw [if_pos hrange, if_pos (by omega)]
    · rw [if_neg hrange, if_neg (by omega)]

/-- The last slot is written, too. -/
lemma written_last {count : Nat} (hpos : 0 < count) (h : ∀ j, f j = if 0 ≤ j ∧ j < count - 1 then v' j else g j)
    (hv : ∀ j, j < count - 1 → v' j = v j) (j : Nat) :
    Function.update f (count - 1) (v (count - 1)) j = if j < count then v j else g j := by
  by_cases hj : j = count - 1
  · rw [hj, Function.update_self, if_pos (by omega)]
  · rw [Function.update_of_ne hj, h j]
    by_cases hin : j < count - 1
    · rw [if_pos ⟨Nat.zero_le j, hin⟩, if_pos (by omega), hv j hin]
    · rw [if_neg (by omega), if_neg (by omega)]

end Written

/-- What the loop has done, when it comes to its end. -/
lemma linkSlots_some (rounds i : Nat) (r r' : Ring) {last : Nat}
    (h : linkSlots soc handle rounds i r = (r', some last)) :
    last = i + rounds ∧
      (∀ j, r'.tcdPool j =
        if i ≤ j ∧ j < i + rounds then
          configChannelSoftwareTCD soc
            { r.transfer j with linkTCD := handle.poolAddress + BitVec.ofNat 32 ((j + 1) * soc.tcdBytes) }
        else r.tcdPool j) ∧
      ∀ j, r'.transfer j =
        if i ≤ j ∧ j < i + rounds then
          { r.transfer j with linkTCD := handle.poolAddress + BitVec.ofNat 32 ((j + 1) * soc.tcdBytes) }
        else r.transfer j := by
  induction rounds generalizing i r with
  | zero =>
    obtain ⟨rfl, hlast⟩ := Prod.mk.inj h
    obtain rfl := Option.some.inj hlast
    refine ⟨rfl, fun j => ?_, fun j => ?_⟩
    · rw [if_neg (by omega)]
    · rw [if_neg (by omega)]
  | succ rounds ih =>
    rw [linkSlots] at h
    split at h
    · cases h
    · obtain ⟨hlast, hpool, htransfer⟩ := ih (i + 1) _ h
      have hother (j : Nat) (hj : j ≠ i) : (linkSlot soc handle i (i + 1) r).transfer j = r.transfer j :=
        Function.update_of_ne hj _ _
      refine ⟨by omega, written_cons (fun j hj => ?_) hpool, written_cons (fun j hj => ?_) htransfer⟩
      · rw [hother j hj]
      · rw [hother j hj]

lemma linkSlot_congr (soc : Soc) (handle : Handle) {i bound : Nat} (next : Nat) {r r₂ : Ring} (hi : i < bound) (hpool : r.tcdPool = r₂.tcdPool)
    (htransfer : ∀ j, j < bound → r.transfer j = r₂.transfer j) :
    (linkSlot soc handle i next r).tcdPool = (linkSlot soc handle i next r₂).tcdPool ∧
      ∀ j, j < bound → (linkSlot soc handle i next r).transfer j = (linkSlot soc handle i next r₂).transfer j := by
  refine ⟨?_, fun j hj => ?_⟩
  · simp only [linkSlot, hpool, htransfer i hi]
  · simp only [linkSlot, htransfer i hi]
    by_cases hij : j = i
    · rw [hij, Function.update_self, Function.update_self]
    · rw [Function.update_of_ne hij, Function.update_of_ne hij, htransfer j hj]

/-- The loop reads only the entries that it comes to. -/
lemma linkSlots_congr (soc : Soc) (handle : Handle) (rounds i bound : Nat) (r r₂ : Ring) (hbound : i + rounds ≤ bound)
    (hpool : r.tcdPool = r₂.tcdPool) (htransfer : ∀ j, j < bound → r.transfer j = r₂.transfer j) :
    (linkSlots soc handle rounds i r).1.tcdPool = (linkSlots soc handle rounds i r₂).1.tcdPool ∧
      (linkSlots soc handle rounds i r).2 = (linkSlots soc handle rounds i r₂).2 ∧
      ∀ j, j < bound → (linkSlots soc handle rounds i r).1.transfer j = (linkSlots soc handle rounds i r₂).1.transfer j := by
  induction rounds generalizing i r r₂ with
  | zero => exact ⟨hpool, rfl, htransfer⟩
  | succ rounds ih =>
    obtain ⟨hpool', htransfer'⟩ := linkSlot_congr soc handle (i + 1) (show i < bound by omega) hpool htransfer
    simp only [linkSlots, hpool']
    split
    · exact ⟨hpool', rfl, htransfer'⟩
    · exact ih (i + 1) _ _ (by omega) hpool' htransfer'

end Slots

section Ring

variable {transfer : Nat → TransferConfig} {s s' : Sys} {transfer' : Nat → TransferConfig} {transferLoopCount : Word}

/-- The pool is memory that does not wrap around, of a size that the signed index holds. -/
structure PoolFits (soc : Soc) (handle : Handle) : Prop where
  size : handle.tcdSize.toNat < 128
  notNull : handle.poolAddress ≠ 0
  fits : handle.poolAddress.toNat + handle.tcdSize.toNat * soc.tcdBytes ≤ 2 ^ 32

/-- The counts that come through the check although the pool does not hold them. -/
def ComesThrough (handle : Handle) (transferLoopCount : Word) : Prop :=
  (transferLoopCount = 0 ∨ handle.tcdSize.toNat < transferLoopCount.toNat) ∧
    (transferLoopCount.setWidth 8).toInt ≤ handle.tcdSize.toInt

/-- A closed ring of the first slots. -/
structure ClosedRing (soc : Soc) (s s' : Sys) (transfer transfer' : Nat → TransferConfig) (count : Nat) : Prop where
  pos : 0 < count
  le : count ≤ s.handle.tcdSize.toNat
  linked : ∀ i, i < count → (s'.handle.tcdPool i).dlastSga = slotAddress soc s.handle ((i + 1) % count) ∧
    Chained (s'.handle.tcdPool i).csr
  built : ∀ i, i < count → s'.handle.tcdPool i = configChannelSoftwareTCD soc (ringConfig soc s.handle transfer count i)
  cleared : ∀ i, count ≤ i → i < s.handle.tcdSize.toNat → s'.handle.tcdPool i = Tcd.zero
  beyond : ∀ i, s.handle.tcdSize.toNat ≤ i → s'.handle.tcdPool i = s.handle.tcdPool i
  entries : ∀ i, count ≤ i → transfer' i = transfer i
  installed : s'.channel.tcd = s'.handle.tcdPool 0

lemma submitLoopTransfer_rejects (transfer : Nat → TransferConfig) (hnot : ¬ ComesThrough s.handle transferLoopCount)
    (hcount : transferLoopCount = 0 ∨ s.handle.tcdSize.toNat < transferLoopCount.toNat) :
    submitLoopTransfer soc transfer transferLoopCount s = (s, transfer, .invalidArgument) := by
  have hlt : s.handle.tcdSize.slt (transferLoopCount.setWidth 8) = true := by
    rw [BitVec.slt_eq_decide]
    apply decide_eq_true
    by_contra hle
    exact hnot ⟨hcount, by omega⟩
  rw [submitLoopTransfer, if_pos hlt]

lemma linkTCD_ne_zero (h : PoolFits soc s.handle) {i : Nat} (hi : i < s.handle.tcdSize.toNat) :
    s.handle.poolAddress + BitVec.ofNat 32 (i * soc.tcdBytes) ≠ 0 := by
  have hfits := h.fits
  have hpos : 0 < s.handle.poolAddress.toNat := by
    apply Nat.pos_of_ne_zero
    intro hzero
    exact h.notNull (BitVec.eq_of_toNat_eq hzero)
  have hlt : s.handle.poolAddress.toNat + i * soc.tcdBytes < 2 ^ 32 := by
    rcases Nat.eq_zero_or_pos soc.tcdBytes with hzero | hbytes
    · rw [hzero, Nat.mul_zero, Nat.add_zero]
      exact s.handle.poolAddress.isLt
    · have hmul := Nat.mul_lt_mul_of_pos_right hi hbytes
      omega
  have hoffset : i * soc.tcdBytes < 2 ^ 32 := by omega
  intro hzero
  have htoNat := congrArg BitVec.toNat hzero
  rw [BitVec.toNat_add, BitVec.toNat_ofNat, Nat.mod_eq_of_lt hoffset, Nat.mod_eq_of_lt hlt] at htoNat
  have hnull : (0 : Word).toNat = 0 := rfl
  omega

/-- The pool and the entries after the loop and the last slot. -/
lemma linkSlots_ring {count : Nat} (hpos : 0 < count) {r : Ring} {last : Nat} (transfer : Nat → TransferConfig)
    (h : linkSlots soc handle (count - 1) 0 ⟨clearPool handle, transfer⟩ = (r, some last)) :
    (∀ i, (linkSlot soc handle last 0 r).tcdPool i =
      if i < count then configChannelSoftwareTCD soc (ringConfig soc handle transfer count i) else clearPool handle i) ∧
    ∀ i, (linkSlot soc handle last 0 r).transfer i =
      if i < count then ringConfig soc handle transfer count i else transfer i := by
  obtain ⟨rfl, hpool, htransfer⟩ := linkSlots_some (count - 1) 0 _ r h
  rw [Nat.zero_add] at *
  have hconfig (i : Nat) (hi : i < count - 1) : ringConfig soc handle transfer count i =
      { transfer i with linkTCD := handle.poolAddress + BitVec.ofNat 32 ((i + 1) * soc.tcdBytes) } := by
    rw [ringConfig, Nat.mod_eq_of_lt (by omega)]
  have hlast : { r.transfer (count - 1) with linkTCD := handle.poolAddress + BitVec.ofNat 32 (0 * soc.tcdBytes) } =
      ringConfig soc handle transfer count (count - 1) := by
    rw [htransfer, if_neg (by omega), ringConfig, Nat.sub_add_cancel hpos, Nat.mod_self]
  constructor
  · intro i
    show Function.update r.tcdPool (count - 1) _ i = _
    rw [hlast]
    exact written_last (v := fun j => configChannelSoftwareTCD soc (ringConfig soc handle transfer count j)) hpos hpool
      (fun j hj => congrArg (configChannelSoftwareTCD soc) (hconfig j hj).symm) i
  · intro i
    show Function.update r.transfer (count - 1) _ i = _
    rw [hlast]
    exact written_last (v := ringConfig soc handle transfer count) hpos htransfer (fun j hj => (hconfig j hj).symm) i

lemma writeCsr_or {c : Channel} {mask : HalfWord} {k : Nat} (hmask : mask = BitVec.twoPow 16 k) (hdone : c.done = false)
    (hbit : c.tcd.csr.getLsbD k = true) : writeCsr (c.tcd.csr ||| mask) c = c := by
  have hcsr : (if c.done then (c.tcd.csr &&& ~~~kCsrEsg) ||| (c.tcd.csr &&& kCsrEsg) else c.tcd.csr) = c.tcd.csr := by
    rw [hdone]
    rfl
  rw [or_of_getLsbD hmask hbit, writeCsr, hcsr]

/-- The interrupts of the first entry are in its slot already. -/
lemma enableChannelInterrupts_tcd {c : Channel} {mask : HalfWord} (hdone : c.done = false)
    (hbits : ∀ i, i = 1 ∨ i = 2 → mask.getLsbD i = true → c.tcd.csr.getLsbD i = true) :
    (enableChannelInterrupts mask c).tcd = c.tcd := by
  have hone : kCsrIntMajor = BitVec.twoPow 16 1 := by decide
  have htwo : kCsrIntHalf = BitVec.twoPow 16 2 := by decide
  obtain ⟨c₁, hc₁⟩ : ∃ c₁, c₁ = if mask &&& kErrorInterruptEnable ≠ 0 then { c with errorInterrupt := true } else c := ⟨_, rfl⟩
  have htcd : c₁.tcd = c.tcd ∧ c₁.done = false := by
    rw [hc₁]
    split
    · exact ⟨rfl, hdone⟩
    · exact ⟨rfl, hdone⟩
  have hmajor : (if mask &&& kCsrIntMajor ≠ 0 then writeCsr (c₁.tcd.csr ||| kCsrIntMajor) c₁ else c₁) = c₁ := by
    split
    next hset =>
      have hbit := hbits 1 (Or.inl rfl) (getLsbD_of_and hone hset)
      exact writeCsr_or hone htcd.2 (by rw [htcd.1]; exact hbit)
    · rfl
  have hhalf : (if mask &&& kCsrIntHalf ≠ 0 then writeCsr (c₁.tcd.csr ||| kCsrIntHalf) c₁ else c₁) = c₁ := by
    split
    next hset =>
      have hbit := hbits 2 (Or.inr rfl) (getLsbD_of_and htwo hset)
      exact writeCsr_or htwo htcd.2 (by rw [htcd.1]; exact hbit)
    · rfl
  rw [enableChannelInterrupts, ← hc₁, hmajor, hhalf]
  exact htcd.1

lemma submitLoopTransfer_success {count : Nat} (hpool : PoolFits soc s.handle)
    (hmask : ∀ i, i < count → (transfer i).enabledInterruptMask.getLsbD 3 = false) (hpos : 0 < count)
    (hle : count ≤ s.handle.tcdSize.toNat) (hcount : transferLoopCount.toNat = count)
    (h : submitLoopTransfer soc transfer transferLoopCount s = (s', transfer', .success)) :
    ClosedRing soc s s' transfer transfer' count := by
  have hrounds : (transferLoopCount - 1).toNat = count - 1 := by bv_omega
  rw [submitLoopTransfer, hrounds] at h
  split at h
  · simp at h
  · split at h
    · simp at h
    · split at h
      · simp at h
      next r last hlinked =>
        obtain ⟨hsys, htransfer⟩ := Prod.mk.inj h
        obtain ⟨hentries, -⟩ := Prod.mk.inj htransfer
        obtain ⟨hslots, hconfigs⟩ := linkSlots_ring hpos transfer hlinked
        have hslot (i : Nat) : s'.handle.tcdPool i =
            if i < count then configChannelSoftwareTCD soc (ringConfig soc s.handle transfer count i)
            else clearPool s.handle i := by
          rw [← hsys, ← hslots i]
        have hbuilt (i : Nat) (hi : i < count) :
            s'.handle.tcdPool i = configChannelSoftwareTCD soc (ringConfig soc s.handle transfer count i) := by
          rw [hslot i, if_pos hi]
        have hlink (i : Nat) : (ringConfig soc s.handle transfer count i).linkTCD ≠ 0 :=
          linkTCD_ne_zero hpool (lt_of_lt_of_le (Nat.mod_lt _ hpos) hle)
        exact {
          pos := hpos
          le := hle
          linked := by
            intro i hi
            rw [hbuilt i hi]
            refine ⟨configChannelSoftwareTCD_dlastSga (hlink i), ?_, ?_⟩
            · rw [configChannelSoftwareTCD_csr (hlink i) (by decide) (by decide)]
              rfl
            · rw [configChannelSoftwareTCD_csr (hlink i) (by decide) (by decide)]
              exact hmask i hi
          built := hbuilt
          cleared := by
            intro i hi hin
            rw [hslot i, if_neg (Nat.not_lt.mpr hi), clearPool, if_pos hin]
          beyond := by
            intro i hi
            rw [hslot i, if_neg (by omega), clearPool, if_neg (Nat.not_lt.mpr hi)]
          entries := by
            intro i hi
            rw [← hentries, hconfigs i, if_neg (Nat.not_lt.mpr hi)]
          installed := by
            have hfirst : (linkSlot soc s.handle last 0 r).tcdPool 0 = s'.handle.tcdPool 0 := by
              rw [← hsys]
            rw [← hsys]
            apply enableChannelInterrupts_tcd rfl
            intro i hi hset
            show ((linkSlot soc s.handle last 0 r).tcdPool 0).csr.getLsbD i = true
            rw [hconfigs 0, if_pos hpos, BitVec.getLsbD_and] at hset
            rw [hfirst, hbuilt 0 hpos, configChannelSoftwareTCD_csr (hlink 0) (by omega) (by omega)]
            simp only [Bool.and_eq_true] at hset
            rw [hset.1, Bool.or_true] }

lemma submitLoopTransfer_congr {transfer₂ : Nat → TransferConfig} (hpos : 0 < transferLoopCount.toNat)
    (hsame : ∀ i, i < transferLoopCount.toNat → transfer i = transfer₂ i) :
    (submitLoopTransfer soc transfer transferLoopCount s).1 = (submitLoopTransfer soc transfer₂ transferLoopCount s).1 ∧
      (submitLoopTransfer soc transfer transferLoopCount s).2.2 =
        (submitLoopTransfer soc transfer₂ transferLoopCount s).2.2 := by
  have hrounds : 0 + (transferLoopCount - 1).toNat ≤ transferLoopCount.toNat - 1 := by bv_omega
  obtain ⟨hpool, hlast, hentries⟩ := linkSlots_congr soc s.handle (transferLoopCount - 1).toNat 0 transferLoopCount.toNat
     ⟨clearPool s.handle, transfer⟩ ⟨clearPool s.handle, transfer₂⟩ (by omega) rfl hsame
  unfold submitLoopTransfer
  split
  · exact ⟨rfl, rfl⟩
  · split
    · exact ⟨rfl, rfl⟩
    · generalize hlinked : linkSlots soc s.handle (transferLoopCount - 1).toNat 0 ⟨clearPool s.handle, transfer⟩ = linked at *
      generalize linkSlots soc s.handle (transferLoopCount - 1).toNat 0 ⟨clearPool s.handle, transfer₂⟩ = linked₂ at *
      obtain ⟨r, slot⟩ := linked
      obtain ⟨r₂, slot₂⟩ := linked₂
      obtain rfl : slot = slot₂ := hlast
      have hslot : r.tcdPool = r₂.tcdPool := hpool
      cases slot with
      | none =>
        dsimp only
        rw [hslot]
        exact ⟨rfl, rfl⟩
      | some last =>
        have hin : last < transferLoopCount.toNat := by
          have := (linkSlots_some _ _ _ _ hlinked).1
          omega
        obtain ⟨hslots, hconfigs⟩ := linkSlot_congr soc s.handle 0 hin hslot hentries
        dsimp only
        rw [hslots, hconfigs 0 hpos]
        exact ⟨rfl, rfl⟩

/-- The ring for a count that the check handles. -/
theorem submitLoopTransfer_closedRing (soc : Soc) (s : Sys) (transfer : Nat → TransferConfig) (transferLoopCount : Word)
    (hpool : PoolFits soc s.handle) (hnot : ¬ ComesThrough s.handle transferLoopCount)
    (hmask : ∀ i, i < transferLoopCount.toNat → (transfer i).enabledInterruptMask.getLsbD 3 = false) :
    ((submitLoopTransfer soc transfer transferLoopCount s).2.2 = .success →
      ClosedRing soc s (submitLoopTransfer soc transfer transferLoopCount s).1 transfer
        (submitLoopTransfer soc transfer transferLoopCount s).2.1 transferLoopCount.toNat) ∧
    (transferLoopCount.toNat = 0 ∨ s.handle.tcdSize.toNat < transferLoopCount.toNat →
      submitLoopTransfer soc transfer transferLoopCount s = (s, transfer, .invalidArgument)) ∧
    ∀ transfer₂, (∀ i, i < transferLoopCount.toNat → transfer i = transfer₂ i) →
      (submitLoopTransfer soc transfer transferLoopCount s).1 = (submitLoopTransfer soc transfer₂ transferLoopCount s).1 ∧
        (submitLoopTransfer soc transfer transferLoopCount s).2.2 =
          (submitLoopTransfer soc transfer₂ transferLoopCount s).2.2 := by
  by_cases hcount : transferLoopCount = 0 ∨ s.handle.tcdSize.toNat < transferLoopCount.toNat
  · have hrejects (t : Nat → TransferConfig) : submitLoopTransfer soc t transferLoopCount s = (s, t, .invalidArgument) :=
      submitLoopTransfer_rejects t hnot hcount
    rw [hrejects]
    refine ⟨nofun, fun _ => rfl, fun transfer₂ _ => ?_⟩
    rw [hrejects]
    exact ⟨rfl, rfl⟩
  · have hpos : 0 < transferLoopCount.toNat := by bv_omega
    refine ⟨fun h => ?_, fun h => ?_, fun transfer₂ hsame => submitLoopTransfer_congr hpos hsame⟩
    · exact submitLoopTransfer_success hpool hmask hpos (by omega) rfl (by rw [← h])
    · exfalso
      omega

end Ring

/-- A queue of two slots that no transfer uses. -/
def idleSys : Sys where
  handle := {
    hasTcdPool := true
    tcdPool := fun _ => { tcdReset with nbytes := 8 }
    poolAddress := 0x20000000
    tail := 0
    tcdUsed := 0
    tcdSize := 2 }
  channel := { tcd := tcdReset, active := false, done := false, errorInterrupt := false }

theorem submitLoopTransfer_one :
    ((submitLoopTransfer exampleSoc (fun _ => TransferConfig.zero) 1 idleSys).2.2 = .success →
      ClosedRing exampleSoc idleSys (submitLoopTransfer exampleSoc (fun _ => TransferConfig.zero) 1 idleSys).1
        (fun _ => TransferConfig.zero) (submitLoopTransfer exampleSoc (fun _ => TransferConfig.zero) 1 idleSys).2.1 1) ∧
    (submitLoopTransfer exampleSoc (fun _ => TransferConfig.zero) 1 idleSys).2.2 = .success := by
  have hpool : PoolFits exampleSoc idleSys.handle := ⟨by decide, by decide, by decide⟩
  have hnot : ¬ ComesThrough idleSys.handle 1 := fun h => absurd h.1 (by decide)
  exact ⟨(submitLoopTransfer_closedRing exampleSoc idleSys (fun _ => TransferConfig.zero) 1 hpool hnot
    fun _ _ => by decide).1, by decide⟩

/-- A ring of one slot: the second slot is cleared. -/
theorem not_only_ring_slots : ¬ ∀ (soc : Soc) (s : Sys) (transfer : Nat → TransferConfig) (transferLoopCount : Word),
    PoolFits soc s.handle → (submitLoopTransfer soc transfer transferLoopCount s).2.2 = .success →
    ∀ i, transferLoopCount.toNat ≤ i →
      (submitLoopTransfer soc transfer transferLoopCount s).1.handle.tcdPool i = s.handle.tcdPool i := by
  intro h
  have hslot := h exampleSoc idleSys (fun _ => TransferConfig.zero) 1 ⟨by decide, by decide, by decide⟩ (by decide) 1
    (by decide)
  exact absurd hslot (by decide)

end McuxDrivers.Edma4
