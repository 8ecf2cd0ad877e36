import McuxDrivers.Edma4.Tcd

/-!
# Two ways to a descriptor

`EDMA_PrepareTransferTCD` against `EDMA_PrepareTransferConfig` and `EDMA_TcdSetTransferConfigExt`: the first
takes the size of the destination from the source, does not keep the count out of the link bit, and
converts the addresses once.
-/

namespace McuxDrivers.Edma4

/-- The widths that the chip can transfer. -/
def Supported (soc : Soc) (width : Word) : Prop :=
  width = 1 ∨ width = 2 ∨ width = 4 ∨ width = 32 ∨ width = 8 ∧ soc.support8Bytes = true ∨
    width = 16 ∧ soc.support16Bytes = true ∨ width = 64 ∧ soc.support64Bytes = true ∨
    width = 128 ∧ soc.support128Bytes = true

variable {soc : Soc}

lemma transferWidthMapping_inj {width width' : Word} (h : Supported soc width) (h' : Supported soc width')
    (heq : transferWidthMapping soc width = transferWidthMapping soc width') : width = width' := by
  have hcode (w : Word) (hw : Supported soc w) : w = 1 <<< (transferWidthMapping soc w).code.toNat := by
    rcases hw with rfl | rfl | rfl | rfl | ⟨rfl, hs⟩ | ⟨rfl, hs⟩ | ⟨rfl, hs⟩ | ⟨rfl, hs⟩
    · rfl
    · rfl
    · rfl
    · rfl
    · simp [transferWidthMapping, hs, TransferSize.code]
    · simp [transferWidthMapping, hs, TransferSize.code]
    · simp [transferWidthMapping, hs, TransferSize.code]
    · simp [transferWidthMapping, hs, TransferSize.code]
  rw [hcode width h, hcode width' h', heq]

lemma attrSizes_inj {src dest dest' : TransferSize} : attrSizes src dest = attrSizes src dest' ↔ dest = dest' := by
  refine ⟨fun h => ?_, fun h => by rw [h]⟩
  revert h
  cases src <;> cases dest <;> cases dest' <;> decide

/-- The modulos leave the sizes alone. -/
lemma attrSizes_noModulo (src dest : TransferSize) :
    (attrSizes src dest &&& ~~~(kAttrSmod ||| kAttrDmod)) ||| ((0 : BitVec 5).setWidth 16 <<< 3 &&& kAttrDmod) |||
      ((0 : BitVec 5).setWidth 16 <<< 11 &&& kAttrSmod) = attrSizes src dest := by
  cases src <;> cases dest <;> decide

lemma getLsbD_not_elink {i : Nat} (hi : i < 16) : (~~~kIterElink).getLsbD i = decide (i ≠ 15) := by
  have hall : ∀ j : Fin 16, (~~~kIterElink).getLsbD j.val = decide (j.val ≠ 15) := by decide
  exact hall ⟨i, hi⟩

/-- A count keeps its value when the link bit is cleared only if it leaves that bit free. -/
lemma eq_and_not_elink {count : HalfWord} : count = count &&& ~~~kIterElink ↔ count.getLsbD 15 = false := by
  constructor
  · intro h
    rw [h, BitVec.getLsbD_and, getLsbD_not_elink (by decide)]
    exact Bool.and_false _
  · intro h
    apply BitVec.eq_of_getLsbD_eq
    intro i hi
    rw [BitVec.getLsbD_and, getLsbD_not_elink hi]
    by_cases hlast : i = 15
    · rw [hlast, h, Bool.false_and]
    · rw [decide_eq_true hlast, Bool.and_true]

/-- The descriptor of the second way. -/
lemma tcdSetTransferConfig_prepared (soc : Soc) (srcAddr srcWidth : Word) (srcOffset : HalfWord)
    (destAddr destWidth : Word) (destOffset : HalfWord) (bytesEachRequest transferBytes nextTcd : Word) :
    tcdSetTransferConfig soc (prepareTransferConfig soc srcAddr srcWidth srcOffset destAddr destWidth destOffset
        bytesEachRequest transferBytes) nextTcd =
      { saddr := soc.convertToDmaAddress (soc.convertToDmaAddress srcAddr)
        soff := srcOffset
        attr := attrSizes (transferWidthMapping soc srcWidth) (transferWidthMapping soc destWidth)
        nbytes := nbytesMloffNo bytesEachRequest
        slast := 0
        daddr := soc.convertToDmaAddress (soc.convertToDmaAddress destAddr)
        doff := destOffset
        citer := (transferBytes / bytesEachRequest).setWidth 16 &&& ~~~kIterElink
        dlastSga := if nextTcd ≠ 0 then soc.convertToDmaAddress nextTcd else 0
        csr := if nextTcd ≠ 0 then chained kCsrDreq ||| kCsrIntMajor else kCsrDreq ||| kCsrIntMajor
        biter := (transferBytes / bytesEachRequest).setWidth 16 &&& ~~~kIterElink } := by
  have hconfig : configChannelSoftwareTCD soc (prepareTransferConfig soc srcAddr srcWidth srcOffset destAddr destWidth
      destOffset bytesEachRequest transferBytes) =
    { saddr := soc.convertToDmaAddress (soc.convertToDmaAddress srcAddr)
      soff := srcOffset
      attr := attrSizes (transferWidthMapping soc srcWidth) (transferWidthMapping soc destWidth)
      nbytes := nbytesMloffNo bytesEachRequest
      slast := 0
      daddr := soc.convertToDmaAddress (soc.convertToDmaAddress destAddr)
      doff := destOffset
      citer := (transferBytes / bytesEachRequest).setWidth 16 &&& ~~~kIterElink
      dlastSga := 0
      csr := kCsrDreq ||| kCsrIntMajor
      biter := (transferBytes / bytesEachRequest).setWidth 16 &&& ~~~kIterElink } := by
    have hcsr : ((kCsrDreq &&& ~~~kCsrEsg) ||| (kCsrIntMajor &&& ~~~kErrorInterruptEnable)) &&& ~~~kCsrMajorElink =
        kCsrDreq ||| kCsrIntMajor := by decide
    rw [← attrSizes_noModulo (transferWidthMapping soc srcWidth), ← hcsr]
    simp [configChannelSoftwareTCD, configModulo, clearLinks, configMajorLink, configMinorLink, configInterrupts,
      configLink, configFields, prepareTransferConfig, TransferConfig.zero]
  unfold tcdSetTransferConfig
  rw [hconfig]
  by_cases hnext : nextTcd ≠ 0
  · simp only [if_pos hnext]
    rfl
  · simp only [if_neg hnext]

lemma prepareTransferTCD_eq (soc : Soc) (srcAddr srcWidth : Word) (srcOffset : HalfWord)
    (destAddr destWidth : Word) (destOffset : HalfWord) (bytesEachRequest transferBytes nextTcd : Word) :
    prepareTransferTCD soc srcAddr srcWidth srcOffset destAddr destWidth destOffset bytesEachRequest transferBytes nextTcd =
      { saddr := soc.convertToDmaAddress srcAddr
        soff := srcOffset
        attr := attrSizes (transferWidthMapping soc srcWidth) (transferWidthMapping soc srcWidth)
        nbytes := nbytesMloffNo bytesEachRequest
        slast := 0
        daddr := soc.convertToDmaAddress destAddr
        doff := destOffset
        citer := (transferBytes / bytesEachRequest).setWidth 16
        dlastSga := if nextTcd ≠ 0 then soc.convertToDmaAddress nextTcd else 0
        csr := if nextTcd ≠ 0 then chained kCsrDreq ||| kCsrIntMajor else kCsrDreq ||| kCsrIntMajor
        biter := (transferBytes / bytesEachRequest).setWidth 16 } := by
  unfold prepareTransferTCD
  by_cases hnext : nextTcd ≠ 0
  · simp only [if_pos hnext]
    rfl
  · simp only [if_neg hnext]
    rfl

/-- When both ways give the same descriptor. -/
theorem prepareTransferTCD_eq_iff (soc : Soc) (srcAddr srcWidth : Word) (srcOffset : HalfWord)
    (destAddr destWidth : Word) (destOffset : HalfWord) (bytesEachRequest transferBytes nextTcd : Word)
    (hsrc : Supported soc srcWidth) (hdest : Supported soc destWidth) :
    prepareTransferTCD soc srcAddr srcWidth srcOffset destAddr destWidth destOffset bytesEachRequest transferBytes nextTcd =
        tcdSetTransferConfig soc (prepareTransferConfig soc srcAddr srcWidth srcOffset destAddr destWidth destOffset
          bytesEachRequest transferBytes) nextTcd ↔
      srcWidth = destWidth ∧ (transferBytes / bytesEachRequest).getLsbD 15 = false ∧
        soc.convertToDmaAddress (soc.convertToDmaAddress srcAddr) = soc.convertToDmaAddress srcAddr ∧
        soc.convertToDmaAddress (soc.convertToDmaAddress destAddr) = soc.convertToDmaAddress destAddr := by
  have hcount : ((transferBytes / bytesEachRequest).setWidth 16).getLsbD 15 =
      (transferBytes / bytesEachRequest).getLsbD 15 := by
    rw [BitVec.getLsbD_setWidth]
    rfl
  have hwidth : transferWidthMapping soc srcWidth = transferWidthMapping soc destWidth ↔ srcWidth = destWidth :=
    ⟨transferWidthMapping_inj hsrc hdest, fun h => by rw [h]⟩
  rw [prepareTransferTCD_eq, tcdSetTransferConfig_prepared, Tcd.mk.injEq, attrSizes_inj, hwidth, eq_and_not_elink, hcount]
  constructor
  · rintro ⟨hsaddr, -, hsize, -, -, hdaddr, -, hciter, -⟩
    exact ⟨hsize, hciter, hsaddr.symm, hdaddr.symm⟩
  · rintro ⟨hsize, hciter, hsaddr, hdaddr⟩
    exact ⟨hsaddr.symm, rfl, hsize, rfl, rfl, hdaddr.symm, rfl, hciter, rfl, rfl, hciter⟩

/-- A chip with 8-byte transfers and no address offset. -/
def exampleSoc : Soc where
  support8Bytes := true
  support16Bytes := false
  support64Bytes := false
  support128Bytes := false
  hasErrata51327 := false
  tcdBytes := 32
  convertToDmaAddress := id

theorem prepareTransferTCD_eq_words :
    prepareTransferTCD exampleSoc 0x20000000 4 4 0x20001000 4 4 16 256 0 =
      tcdSetTransferConfig exampleSoc (prepareTransferConfig exampleSoc 0x20000000 4 4 0x20001000 4 4 16 256) 0 :=
  (prepareTransferTCD_eq_iff exampleSoc 0x20000000 4 4 0x20001000 4 4 16 256 0 (Or.inr (Or.inr (Or.inl rfl)))
    (Or.inr (Or.inr (Or.inl rfl)))).mpr ⟨rfl, by decide, rfl, rfl⟩

/-- Bytes from a register to words: the destination gets the size of the source. -/
theorem prepareTransferTCD_ne : ¬ ∀ (soc : Soc) (srcAddr srcWidth : Word) (srcOffset : HalfWord)
    (destAddr destWidth : Word) (destOffset : HalfWord) (bytesEachRequest transferBytes nextTcd : Word),
    Supported soc srcWidth → Supported soc destWidth → bytesEachRequest ≠ 0 → transferBytes % bytesEachRequest = 0 →
    srcAddr % srcWidth = 0 → destAddr % destWidth = 0 →
    prepareTransferTCD soc srcAddr srcWidth srcOffset destAddr destWidth destOffset bytesEachRequest transferBytes nextTcd =
      tcdSetTransferConfig soc (prepareTransferConfig soc srcAddr srcWidth srcOffset destAddr destWidth destOffset
        bytesEachRequest transferBytes) nextTcd := by
  intro h
  have heq := h exampleSoc 0x20000000 1 0 0x20001000 4 4 4 64 0 (Or.inl rfl) (Or.inr (Or.inr (Or.inl rfl)))
    (by decide) (by decide) (by decide) (by decide)
  exact absurd (congrArg Tcd.attr heq) (by decide)

end McuxDrivers.Edma4
