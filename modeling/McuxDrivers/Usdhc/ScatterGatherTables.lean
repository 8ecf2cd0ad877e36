import McuxDrivers.Usdhc.AdmaTables
import McuxDrivers.Usdhc.ScatterGather

/-!
# The table of scattered buffers is the concatenation of their tables

The end flag of each table but the last is taken back where the builder has set it, so the engine runs through all of them.
-/

namespace McuxDrivers.Usdhc

open Lib

namespace DmaMode

/-- The entry for a run of bytes. -/
def entry : DmaMode → Word → Span 32 → Word × Word
  | adma1 => adma1Entry
  | adma2 => adma2Entry

/-- The alignment of the addresses. -/
def align : DmaMode → Nat
  | adma1 => 4096
  | adma2 => 4

/-- The number of entries in a table. -/
def maxEntries : DmaMode → Nat → Nat
  | adma1, admaTableWords => admaTableWords * 4 % 2 ^ 32 / 4 / 2
  | adma2, admaTableWords => adma2MaxEntries admaTableWords

variable (mode : DmaMode)

lemma maxLength_pos : 0 < mode.maxLength := by
  cases mode <;> decide

lemma maxEntries_le (admaTableWords : Nat) : 2 * mode.maxEntries admaTableWords ≤ admaTableWords := by
  cases mode
  · simp only [maxEntries]
    omega
  · simp only [maxEntries, adma2MaxEntries]
    omega

lemma maxEntries_eq {admaTableWords : Nat} (h : admaTableWords < 2 ^ 30) :
    mode.maxEntries admaTableWords = admaTableWords / 2 := by
  cases mode
  · simp only [maxEntries]
    omega
  · simp only [maxEntries, adma2MaxEntries]
    omega

/-- What one entry can transfer. -/
structure Fits (p : Span 32) : Prop where
  pos : 1 ≤ p.length
  le : p.length ≤ mode.maxLength
  aligned : p.address.toNat % mode.align = 0

lemma address_add {a : Word} (h : a.toNat % mode.align = 0) (j : Nat) :
    (a + BitVec.ofNat 32 (j * mode.maxLength)).toNat % mode.align = 0 := by
  rw [BitVec.toNat_add, BitVec.toNat_ofNat]
  cases mode
  · simp only [align, maxLength, adma1DescriptorMaxLengthPerEntry] at h ⊢
    omega
  · simp only [align, maxLength, adma2DescriptorMaxLengthPerEntry] at h ⊢
    omega

variable {mode} {data : Word} {dataBytes : Nat}

lemma exists_fitting (haligned : data.toNat % mode.align = 0) (hpos : 0 < dataBytes) :
    ∃ front last, Span.cut mode.maxLength (entriesFor mode.maxLength dataBytes) ⟨data, dataBytes⟩ = front ++ [last] ∧
      (front ++ [last]).flatMap Span.bytes = (Span.mk data dataBytes).bytes ∧ ∀ p ∈ front ++ [last], mode.Fits p := by
  obtain ⟨front, last, hcut, hbytes, hlength⟩ := exists_pieces mode.maxLength_pos hpos data
  refine ⟨front, last, hcut, hbytes, ?_⟩
  intro p hp
  have hlast : (entriesFor mode.maxLength dataBytes - 1) * mode.maxLength < dataBytes :=
    pred_entriesFor_mul_lt mode.maxLength_pos hpos
  rw [← hcut] at hp
  obtain ⟨j, hj⟩ := Span.address_of_mem_cut hlast hp
  rw [hcut] at hp
  exact ⟨(hlength p hp).1, (hlength p hp).2, by rw [hj]; exact mode.address_add haligned j⟩

end DmaMode

section Builder

variable {mode : DmaMode} {admaDesLen : Nat} (pre : List Word) {rest : List Word} {sg : Segment}
  {front : List (Span 32)} {last : Span 32}

lemma setSegmentDescriptor_eq (bootDummy : Word) (haligned : sg.dataAddr.toNat % mode.align = 0)
    (hsize : sg.dataSize % 4 = 0) (hlen : admaDesLen ≤ rest.length)
    (hcut : Span.cut mode.maxLength (entriesFor mode.maxLength sg.dataSize) ⟨sg.dataAddr, sg.dataSize⟩ =
      front ++ [last]) :
    setSegmentDescriptor mode bootDummy pre.length admaDesLen sg (pre ++ rest) =
      if front.length + 1 > mode.maxEntries admaDesLen then some (.outOfRange, pre ++ rest)
      else some (.success, pre ++ entryWords (front.map (mode.entry 0) ++ [mode.entry descriptorEndFlag last]) ++
        rest.drop (2 * (front.length + 1))) := by
  rw [← wordAligned_of_dvd hsize] at hcut
  cases mode with
  | adma1 =>
    have hrun := setAdma1Descriptor_single pre haligned hlen hcut
    have hiff : 2 * (front.length + 1) > admaDesLen * 4 % 2 ^ 32 / 4 ↔
        front.length + 1 > DmaMode.adma1.maxEntries admaDesLen := by
      rw [DmaMode.maxEntries]
      omega
    simp only [hiff] at hrun
    exact hrun
  | adma2 => exact setAdma2Descriptor_single pre bootDummy haligned hlen hcut

/-- A segment that the mode cannot address fails. -/
lemma setSegmentDescriptor_unaligned (bootDummy : Word) (haligned : sg.dataAddr.toNat % mode.align ≠ 0)
    (admaDesBuffer : Nat) (mem : List Word) :
    setSegmentDescriptor mode bootDummy admaDesBuffer admaDesLen sg mem = some (.dmaDataAddrNotAlign, mem) := by
  cases mode with
  | adma1 =>
    rw [setSegmentDescriptor, setAdma1Descriptor]
    exact if_pos haligned
  | adma2 =>
    rw [setSegmentDescriptor, setAdma2Descriptor]
    exact if_pos haligned

lemma or_and_not {w flags : Word} (h : w &&& flags = 0) : (w ||| flags) &&& ~~~flags = w := by
  ext i hi
  have hbit : (w &&& flags)[i] = false := by
    simp [h]
  rw [BitVec.getElem_and, Bool.and_eq_false_iff] at hbit
  cases hbit with
  | inl hbit => simp [hbit]
  | inr hbit => simp [hbit]

lemma clearWordBefore_append (rest : List Word) {i back : Nat} (hi : pre.length + back = i) {w flags : Word}
    (h : w &&& flags = 0) :
    clearWordBefore (pre ++ (w ||| flags) :: rest) i back flags = some (pre ++ w :: rest) := by
  have hplace : i - back = pre.length := by
    omega
  rw [clearWordBefore, if_pos (by omega), hplace]
  simp [writeWord, or_and_not h]

/-- The flag is taken back where the builder has set it. -/
lemma clearWordBefore_entry (rest : List Word) (hlast : mode.Fits last) {i : Nat} (hi : pre.length + 2 = i) :
    clearWordBefore (pre ++ entryWords [mode.entry descriptorEndFlag last] ++ rest) i mode.endBack descriptorEndFlag =
      some (pre ++ entryWords [mode.entry 0 last] ++ rest) := by
  cases mode with
  | adma1 =>
    have hplace : (pre ++ [(adma1Entry 0 last).1]).length + 1 = i := by
      simp
      omega
    have hclear := clearWordBefore_append _ rest hplace (adma1Entry_snd_and_end 0 hlast.aligned)
    simpa [DmaMode.entry, DmaMode.endBack, adma1Entry] using hclear
  | adma2 =>
    have hclear := clearWordBefore_append pre (last.address :: rest) hi (adma2Entry_and_end 0 last)
    simpa [DmaMode.entry, DmaMode.endBack, adma2Entry] using hclear

end Builder

section Engine

variable {mode : DmaMode} {front : List (Span 32)} {last : Span 32}

lemma DmaMode.Fits.length_lt {p : Span 32} (h : mode.Fits p) : p.length < 2 ^ 16 := by
  have hmax : mode.maxLength < 2 ^ 16 := by
    cases mode <;> decide
  exact lt_of_le_of_lt h.le hmax

lemma flag_and_end {flag : Word} (hflag : flag = 0 ∨ flag = descriptorEndFlag) :
    ¬ flag &&& descriptorEndFlag = 0 ↔ flag = descriptorEndFlag := by
  rcases hflag with rfl | rfl <;> decide

lemma adma1Run_entry {flag : Word} (hflag : flag = 0 ∨ flag = descriptorEndFlag) {p : Span 32}
    (h : DmaMode.adma1.Fits p) (length : Nat) (table : List Word) :
    adma1Run length (entryWords [adma1Entry flag p] ++ table) =
      if flag = descriptorEndFlag then some [p] else (adma1Run p.length table).map (p :: ·) := by
  have hdecode := adma1Transfer?_entry h.length_lt h.aligned hflag
  have hne : p.length ≠ 0 := by
    have hpos := h.pos
    omega
  rw [adma1Transfer?] at hdecode
  split at hdecode
  · rename_i htype
    have hpiece := Option.some.inj hdecode
    have hlength : ((adma1Entry flag p).1 >>> 12 &&& 0xFFFF).toNat = p.length := congrArg Span.length hpiece
    have hother : descriptorTypeTransfer ≠ adma1DescriptorTypeSetLength := by
      decide
    rw [hlength] at hpiece
    simp only [entryWords_cons, entryWords_nil, List.cons_append, List.nil_append, adma1Run, htype.1, htype.2, hother,
      adma1Entry_fst_and_end, hlength, hpiece, adma1Entry_snd_and_end flag h.aligned, flag_and_end hflag, if_true,
      if_false, ne_eq, not_true, hne, not_false_eq_true, and_self]
  · cases hdecode

lemma adma2Run_entry {flag : Word} (hflag : flag = 0 ∨ flag = descriptorEndFlag) {p : Span 32}
    (h : DmaMode.adma2.Fits p) (table : List Word) :
    adma2Run (entryWords [adma2Entry flag p] ++ table) =
      if flag = descriptorEndFlag then some [p] else (adma2Run table).map (p :: ·) := by
  have hdecode := adma2Transfer?_entry h.length_lt hflag
  have hne : p.length ≠ 0 := by
    have hpos := h.pos
    omega
  rw [adma2Transfer?] at hdecode
  split at hdecode
  · rename_i htype
    have hpiece := Option.some.inj hdecode
    have hlength : ((adma2Entry flag p).1 >>> 16).toNat = p.length := congrArg Span.length hpiece
    rw [hlength] at hpiece
    simp only [entryWords_cons, entryWords_nil, List.cons_append, List.nil_append, adma2Run, htype, hlength, hpiece,
      adma2Entry_and_end flag, flag_and_end hflag, if_true, ne_eq, hne, not_false_eq_true, and_self]
  · cases hdecode

lemma adma1Run_entries (h : ∀ p ∈ front ++ [last], DmaMode.adma1.Fits p) (length : Nat) (table : List Word) :
    adma1Run length (entryWords (front.map (adma1Entry 0) ++ [adma1Entry descriptorEndFlag last]) ++ table) =
      some (front ++ [last]) := by
  induction front generalizing length with
  | nil =>
    have hentry := adma1Run_entry (Or.inr rfl) (h last (by simp)) length table
    rwa [if_pos rfl] at hentry
  | cons p front ih =>
    have hentry := adma1Run_entry (Or.inl rfl) (h p (by simp)) length
      (entryWords (front.map (adma1Entry 0) ++ [adma1Entry descriptorEndFlag last]) ++ table)
    rwa [if_neg (by decide), ih (fun q hq => h q (List.mem_cons_of_mem p hq))] at hentry

lemma adma2Run_entries (h : ∀ p ∈ front ++ [last], DmaMode.adma2.Fits p) (table : List Word) :
    adma2Run (entryWords (front.map (adma2Entry 0) ++ [adma2Entry descriptorEndFlag last]) ++ table) =
      some (front ++ [last]) := by
  induction front with
  | nil =>
    have hentry := adma2Run_entry (Or.inr rfl) (h last (by simp)) table
    rwa [if_pos rfl] at hentry
  | cons p front ih =>
    have hentry := adma2Run_entry (Or.inl rfl) (h p (by simp))
      (entryWords (front.map (adma2Entry 0) ++ [adma2Entry descriptorEndFlag last]) ++ table)
    rwa [if_neg (by decide), ih (fun q hq => h q (List.mem_cons_of_mem p hq))] at hentry

/-- The engine runs through the entries up to the one with the end flag. -/
theorem run_entries (h : ∀ p ∈ front ++ [last], mode.Fits p) (table : List Word) :
    mode.run (entryWords (front.map (mode.entry 0) ++ [mode.entry descriptorEndFlag last]) ++ table) =
      some (front ++ [last]) := by
  cases mode with
  | adma1 => exact adma1Run_entries h 0 table
  | adma2 => exact adma2Run_entries h table

lemma endsLast_entries (h : ∀ p ∈ front ++ [last], mode.Fits p) :
    EndsLast (mode.flagWords (front.map (mode.entry 0) ++ [mode.entry descriptorEndFlag last])) := by
  cases mode with
  | adma1 => exact endsLast_adma1 fun p hp => (h p hp).aligned
  | adma2 => exact endsLast_adma2

end Engine

section Segments

variable {mode : DmaMode} {bootDummy : Word}

/-- The words that the entries of the segments take. -/
def wordsFor (mode : DmaMode) (segments : List Segment) : Nat :=
  (segments.map fun sg => 2 * entriesFor mode.maxLength sg.dataSize).sum

/-- The segments that the function is called for. -/
def Whole (sg : Segment) : Prop :=
  0 < sg.dataSize ∧ sg.dataSize % 4 = 0

/-- What the loop over the segments comes to when the table starts with `pre`: the entries of all segments with the end
flag on the last one, or a failure that has a reason. -/
inductive TableOutcome (mode : DmaMode) (admaDesLen total : Nat) (segments : List Segment) (pre rest : List Word) :
    Option (Status × Nat × List Word) → Prop where
  | filled (front : List (Span 32)) (last : Span 32) (hroom : 2 * (front.length + 1) ≤ admaDesLen)
      (hfits : ∀ p ∈ front ++ [last], mode.Fits p) (hbytes : (front ++ [last]).flatMap Span.bytes = segmentBytes segments) :
      TableOutcome mode admaDesLen total segments pre rest
        (some (.success, (total + (segments.map Segment.dataSize).sum) % 2 ^ 32,
          pre ++ entryWords (front.map (mode.entry 0) ++ [mode.entry descriptorEndFlag last]) ++
            rest.drop (2 * (front.length + 1))))
  | failed (total' : Nat) (mem : List Word)
      (hreason : 2 ^ 30 ≤ admaDesLen ∨ admaDesLen < wordsFor mode segments ∨
        ∃ sg ∈ segments, sg.dataAddr.toNat % mode.align ≠ 0) :
      TableOutcome mode admaDesLen total segments pre rest (some (.prepareAdmaDescriptorFailed, total', mem))

/-- The entries of the segments behind the first one continue its table. -/
lemma TableOutcome.cons {sg : Segment} {dataList : List Segment} {admaDesLen total : Nat} {pre rest : List Word}
    {front : List (Span 32)} {last : Span 32} {result : Option (Status × Nat × List Word)}
    (hroom : 2 * (front.length + 1) ≤ admaDesLen)
    (hcount : entriesFor mode.maxLength sg.dataSize = front.length + 1)
    (hfits : ∀ p ∈ front ++ [last], mode.Fits p)
    (hbytes : (front ++ [last]).flatMap Span.bytes = (Span.mk sg.dataAddr sg.dataSize).bytes)
    (h : TableOutcome mode (admaDesLen - (front.length + 1) * 2) ((total + sg.dataSize) % 2 ^ 32) dataList
      (pre ++ entryWords ((front ++ [last]).map (mode.entry 0))) (rest.drop (2 * (front.length + 1))) result) :
    TableOutcome mode admaDesLen total (sg :: dataList) pre rest result := by
  cases h with
  | filled front' last' hroom' hfits' hbytes' =>
    have htotal : ((total + sg.dataSize) % 2 ^ 32 + (dataList.map Segment.dataSize).sum) % 2 ^ 32 =
        (total + ((sg :: dataList).map Segment.dataSize).sum) % 2 ^ 32 := by
      rw [Nat.mod_add_mod, List.map_cons, List.sum_cons, Nat.add_assoc]
    have hdrop : (rest.drop (2 * (front.length + 1))).drop (2 * (front'.length + 1)) =
        rest.drop (2 * ((front ++ [last] ++ front').length + 1)) := by
      rw [List.drop_drop]
      congr 1
      simp
      omega
    have hwords : pre ++ entryWords ((front ++ [last]).map (mode.entry 0)) ++
        entryWords (front'.map (mode.entry 0) ++ [mode.entry descriptorEndFlag last']) =
          pre ++ entryWords ((front ++ [last] ++ front').map (mode.entry 0) ++ [mode.entry descriptorEndFlag last']) := by
      simp
    rw [htotal, hdrop, hwords]
    apply TableOutcome.filled
    · simp
      omega
    · intro p hp
      rw [List.append_assoc _ front', List.mem_append] at hp
      cases hp with
      | inl hp => exact hfits p hp
      | inr hp => exact hfits' p hp
    · rw [List.append_assoc _ front', List.flatMap_append, hbytes, hbytes']
      rfl
  | failed total' mem hreason =>
    apply TableOutcome.failed
    rcases hreason with hreason | hreason | ⟨sg', hsg', hreason⟩
    · left
      omega
    · right
      left
      rw [wordsFor, List.map_cons, List.sum_cons, hcount]
      rw [wordsFor] at hreason
      omega
    · exact Or.inr (Or.inr ⟨sg', List.mem_cons_of_mem sg hsg', hreason⟩)

theorem setSegments_outcome {segments : List Segment} (hne : segments ≠ []) (hwhole : ∀ sg ∈ segments, Whole sg)
    {admaDesLen : Nat} {pre rest : List Word} (hlen : admaDesLen ≤ rest.length) (total : Nat) :
    TableOutcome mode admaDesLen total segments pre rest
      (setSegments mode bootDummy pre.length admaDesLen total segments (pre ++ rest)) := by
  induction segments generalizing admaDesLen pre rest total with
  | nil => exact absurd rfl hne
  | cons sg dataList ih =>
    obtain ⟨hpos, hsize⟩ := hwhole sg (by simp)
    rw [setSegments]
    by_cases haligned : sg.dataAddr.toNat % mode.align = 0
    · obtain ⟨front, last, hcut, hbytes, hfits⟩ := DmaMode.exists_fitting haligned hpos
      have hcount : entriesFor mode.maxLength sg.dataSize = front.length + 1 := by
        have hlength := congrArg List.length hcut
        simpa using hlength
      rw [setSegmentDescriptor_eq pre bootDummy haligned hsize hlen hcut]
      by_cases hroom : front.length + 1 > mode.maxEntries admaDesLen
      · rw [if_pos hroom]
        apply TableOutcome.failed
        by_cases hlarge : 2 ^ 30 ≤ admaDesLen
        · exact Or.inl hlarge
        · rw [mode.maxEntries_eq (by omega)] at hroom
          right
          left
          rw [wordsFor, List.map_cons, List.sum_cons, hcount]
          omega
      · have hle := mode.maxEntries_le admaDesLen
        rw [if_neg hroom]
        simp only [Option.bind_eq_bind, Option.bind_some, ne_eq, not_true_eq_false, if_false]
        by_cases hlast : dataList = []
        · rw [if_pos hlast]
          subst hlast
          have htotal : (total + sg.dataSize) % 2 ^ 32 = (total + ([sg].map Segment.dataSize).sum) % 2 ^ 32 := by
            simp
          rw [htotal]
          apply TableOutcome.filled front last (by omega) hfits
          rw [hbytes, segmentBytes, List.flatMap_singleton]
        · have hplace : (pre ++ entryWords (front.map (mode.entry 0))).length + 2 =
              pre.length + entriesFor mode.maxLength sg.dataSize * 2 := by
            simp [hcount]
            omega
          have hclear := clearWordBefore_entry _ (rest.drop (2 * (front.length + 1))) (hfits last (by simp)) hplace
          have hpre : (pre ++ entryWords ((front ++ [last]).map (mode.entry 0))).length =
              pre.length + entriesFor mode.maxLength sg.dataSize * 2 := by
            simp [hcount]
            omega
          have hmem : pre ++ entryWords (front.map (mode.entry 0)) ++ entryWords [mode.entry 0 last] =
              pre ++ entryWords ((front ++ [last]).map (mode.entry 0)) := by
            simp
          rw [hmem, List.append_assoc pre, ← entryWords_append] at hclear
          rw [if_neg hlast, hclear, wsub32_of_le (by omega), ← hpre, hcount, Option.bind_some]
          apply TableOutcome.cons (by omega) hcount hfits hbytes
          apply ih hlast (fun sg' hsg' => hwhole sg' (List.mem_cons_of_mem sg hsg'))
          rw [List.length_drop]
          omega
    · rw [setSegmentDescriptor_unaligned bootDummy haligned]
      exact .failed total _ (Or.inr (Or.inr ⟨sg, by simp, haligned⟩))

lemma setScatterGather_outcome (mode : DmaMode) (bootDummy : Word) {sgData : Segment} {dataList : List Segment}
    (hwhole : ∀ sg ∈ sgData :: dataList, Whole sg) (table : List Word) :
    TableOutcome mode table.length 0 (sgData :: dataList) [] table
      (setScatterGatherAdmaTableConfig mode bootDummy sgData dataList table) :=
  setSegments_outcome (List.cons_ne_nil sgData dataList) hwhole (Nat.le_refl table.length) 0

/-- The table that a successful call leaves is the concatenation of the segments; the counter is 32 bits wide. -/
theorem scatterGather_concatenates (mode : DmaMode) (bootDummy : Word) {sgData : Segment} {dataList : List Segment}
    (hwhole : ∀ sg ∈ sgData :: dataList, Whole sg) (table : List Word) :
    Concatenates mode bootDummy (((sgData :: dataList).map Segment.dataSize).sum % 2 ^ 32) sgData dataList table := by
  have houtcome := setScatterGather_outcome mode bootDummy hwhole table
  rw [Concatenates]
  generalize setScatterGatherAdmaTableConfig mode bootDummy sgData dataList table = result at houtcome ⊢
  cases houtcome with
  | filled front last hroom hfits hbytes =>
    refine ⟨_, _, _, rfl, ?_⟩
    intro _
    refine ⟨by rw [Nat.zero_add], ⟨front ++ [last], ?_, hbytes⟩,
      front.map (mode.entry 0) ++ [mode.entry descriptorEndFlag last], ?_, ?_, endsLast_entries hfits⟩
    · exact run_entries hfits _
    · simp
      omega
    · simp [memcpy, Nat.mul_succ]
  | failed total mem _ =>
    refine ⟨_, _, _, rfl, ?_⟩
    rintro ⟨⟩

theorem scatterGather_two_pages : Concatenates .adma1 0x20000000 8196 ⟨0x80000000, 4096⟩ [⟨0x80008000, 4100⟩]
    (List.replicate 4 0) :=
  scatterGather_concatenates .adma1 0x20000000
    (by simp only [List.forall_mem_cons, Whole, List.not_mem_nil, false_implies, implies_true, and_true]; decide) _

/-- The same 2 GiB twice: the counter comes to 0. -/
theorem scatterGather_wrap : ¬ Concatenates .adma2 0x20000000 (2 ^ 32) ⟨0x80000000, 2 ^ 31⟩ [⟨0x80000000, 2 ^ 31⟩]
    (List.replicate 131084 0) := by
  have hwhole : ∀ sg ∈ [Segment.mk 0x80000000 (2 ^ 31), ⟨0x80000000, 2 ^ 31⟩], Whole sg := by
    simp only [List.forall_mem_cons, Whole, List.not_mem_nil, false_implies, implies_true, and_true]
    decide
  have houtcome := setScatterGather_outcome .adma2 0x20000000 hwhole (List.replicate 131084 0)
  rintro ⟨status, total, table', hrun, hsuccess⟩
  rw [hrun, List.length_replicate] at houtcome
  generalize hresult : some (status, total, table') = result at houtcome
  cases houtcome with
  | filled front last _ _ _ =>
    cases hresult
    have htotal := (hsuccess rfl).1
    simp at htotal
  | failed _ _ hreason =>
    rcases hreason with hreason | hreason | ⟨sg, hsg, hreason⟩
    · omega
    · exact absurd hreason (by decide)
    · simp only [List.mem_cons, List.not_mem_nil, or_false, or_self] at hsg
      subst hsg
      exact absurd hreason (by decide)

end Segments

end McuxDrivers.Usdhc
