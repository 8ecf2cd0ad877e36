import McuxDrivers.Lib.Spans
import McuxDrivers.Usdhc.Adma

/-!
# What the loops over the descriptors write

The two words of each descriptor, and the tables that the builders leave in single mode.
-/

namespace McuxDrivers.Usdhc

open Lib

section Memory

variable {pre : List Word} (rest : List Word)

lemma writeWord_append {i : Nat} (hi : pre.length = i) (old value : Word) :
    writeWord (pre ++ old :: rest) i value = some (pre ++ value :: rest) := by
  subst hi
  simp [writeWord]

lemma orWord_append {i : Nat} (hi : pre.length = i) (old flags : Word) :
    orWord (pre ++ old :: rest) i flags = some (pre ++ (old ||| flags) :: rest) := by
  subst hi
  simp [orWord, writeWord]

lemma writeWord_append_second {i : Nat} (hi : pre.length + 1 = i) (first old value : Word) :
    writeWord (pre ++ first :: old :: rest) i value = some (pre ++ first :: value :: rest) := by
  subst hi
  simp [writeWord]

lemma orWord_append_second {i : Nat} (hi : pre.length + 1 = i) (first old flags : Word) :
    orWord (pre ++ first :: old :: rest) i flags = some (pre ++ first :: (old ||| flags) :: rest) := by
  subst hi
  simp [orWord, writeWord]

lemma orWordBefore_append (pre : List Word) {i back : Nat} (hi : pre.length + back = i) (old flags : Word) :
    orWordBefore (pre ++ old :: rest) i back flags = some (pre ++ (old ||| flags) :: rest) := by
  rw [orWordBefore, if_pos (by omega)]
  exact orWord_append rest (by omega) old flags

end Memory

section Count

variable {maxLength dataBytes : Nat}

lemma wordAligned_eq (h : dataBytes + 3 < 2 ^ 32) : wordAligned dataBytes = (dataBytes + 3) / 4 * 4 := by
  rw [wordAligned]
  split
  · rw [Nat.mod_eq_of_lt (by omega)]
    omega
  · omega

lemma wordAligned_of_dvd (h : dataBytes % 4 = 0) : wordAligned dataBytes = dataBytes := by
  simp [wordAligned, h]

lemma entriesFor_le_iff (hmax : 0 < maxLength) {k : Nat} :
    entriesFor maxLength dataBytes ≤ k ↔ dataBytes ≤ k * maxLength := by
  have hdiv := Nat.div_add_mod dataBytes maxLength
  have hlt := Nat.mod_lt dataBytes hmax
  rw [entriesFor]
  split
  · rename_i hzero
    rw [hzero, Nat.add_zero] at hdiv
    rw [← Nat.mul_le_mul_right_iff hmax, Nat.mul_comm (dataBytes / maxLength), hdiv]
  · rename_i hne
    rw [Nat.succ_le_iff, Nat.div_lt_iff_lt_mul hmax]
    constructor
    · intro h
      exact h.le
    · intro h
      apply lt_of_le_of_ne h
      rintro rfl
      exact hne (Nat.mul_mod_left k maxLength)

lemma le_entriesFor_mul (hmax : 0 < maxLength) : dataBytes ≤ entriesFor maxLength dataBytes * maxLength :=
  (entriesFor_le_iff hmax).mp (Nat.le_refl _)

lemma lt_entriesFor_iff (hmax : 0 < maxLength) {k : Nat} :
    k < entriesFor maxLength dataBytes ↔ k * maxLength < dataBytes := by
  rw [← Nat.not_le, entriesFor_le_iff hmax, Nat.not_le]

lemma entriesFor_pos (hmax : 0 < maxLength) (hpos : 0 < dataBytes) : 0 < entriesFor maxLength dataBytes := by
  rw [lt_entriesFor_iff hmax, Nat.zero_mul]
  exact hpos

lemma pred_entriesFor_mul_lt (hmax : 0 < maxLength) (hpos : 0 < dataBytes) :
    (entriesFor maxLength dataBytes - 1) * maxLength < dataBytes := by
  rw [← lt_entriesFor_iff hmax]
  have hentries := entriesFor_pos hmax hpos
  omega

end Count

/-- The words of a list of entries, which have two each. -/
def entryWords (entries : List (Word × Word)) : List Word :=
  entries.flatMap fun e => [e.1, e.2]

@[simp] lemma entryWords_nil : entryWords [] = [] :=
  rfl

@[simp] lemma entryWords_cons (e : Word × Word) (entries : List (Word × Word)) :
    entryWords (e :: entries) = e.1 :: e.2 :: entryWords entries :=
  rfl

@[simp] lemma entryWords_append (entries entries' : List (Word × Word)) :
    entryWords (entries ++ entries') = entryWords entries ++ entryWords entries' :=
  List.flatMap_append

@[simp] lemma length_entryWords (entries : List (Word × Word)) : (entryWords entries).length = 2 * entries.length := by
  simp [entryWords, List.length_flatMap, Nat.mul_comm]

/-- The pair of ADMA1 descriptors for a run of bytes, with `flag` on the second. -/
def adma1Entry (flag : Word) (s : Span 32) : Word × Word :=
  (BitVec.ofNat 32 s.length <<< 12 ||| adma1DescriptorTypeSetLength,
    s.address ||| (descriptorTypeTransfer ||| descriptorInterruptFlag) ||| flag)

/-- The ADMA2 descriptor for a run of bytes, with `flag`. -/
def adma2Entry (flag : Word) (s : Span 32) : Word × Word :=
  (BitVec.ofNat 32 s.length <<< 16 ||| (descriptorTypeTransfer ||| descriptorInterruptFlag) ||| flag, s.address)

lemma orWordBefore_adma1Entry (pre : List Word) {i : Nat} (hi : pre.length + 2 = i) (s : Span 32) (flag : Word)
    (rest : List Word) :
    orWordBefore (pre ++ entryWords [adma1Entry 0 s] ++ rest) i 1 flag =
      some (pre ++ entryWords [adma1Entry flag s] ++ rest) := by
  have hpre : (pre ++ [BitVec.ofNat 32 s.length <<< 12 ||| adma1DescriptorTypeSetLength]).length + 1 = i := by
    simp
    omega
  have hor := orWordBefore_append rest _ hpre
    (s.address ||| (descriptorTypeTransfer ||| descriptorInterruptFlag)) flag
  simpa [adma1Entry] using hor

lemma orWordBefore_adma2Entry (pre : List Word) {i : Nat} (hi : pre.length + 2 = i) (s : Span 32) (flag : Word)
    (rest : List Word) :
    orWordBefore (pre ++ entryWords [adma2Entry 0 s] ++ rest) i 2 flag =
      some (pre ++ entryWords [adma2Entry flag s] ++ rest) := by
  have hor := orWordBefore_append (s.address :: rest) pre hi
    (BitVec.ofNat 32 s.length <<< 16 ||| (descriptorTypeTransfer ||| descriptorInterruptFlag)) flag
  simpa [adma2Entry] using hor

lemma exists_two_words {table : List Word} (h : 2 ≤ table.length) : ∃ w v rest, table = w :: v :: rest := by
  cases table with
  | nil => cases h
  | cons w table =>
    cases table with
    | nil => exact absurd h (by simp)
    | cons v rest => exact ⟨w, v, rest, rfl⟩

lemma setAdma1Entries_succ {admaTable left i : Nat} {pre : List Word} (hpre : pre.length = admaTable + i) (w v : Word)
    (rest : List Word) (data : Word) (dataBytes : Nat) :
    setAdma1Entries admaTable (left + 1) i data dataBytes (pre ++ w :: v :: rest) =
      setAdma1Entries admaTable left (i + 2)
        (data + BitVec.ofNat 32 (min dataBytes adma1DescriptorMaxLengthPerEntry))
        (dataBytes - min dataBytes adma1DescriptorMaxLengthPerEntry)
        (pre ++ entryWords [adma1Entry 0 (Span.front ⟨data, dataBytes⟩ adma1DescriptorMaxLengthPerEntry)] ++ rest) := by
  have hlen : (if dataBytes > adma1DescriptorMaxLengthPerEntry then adma1DescriptorMaxLengthPerEntry else dataBytes)
      = min dataBytes adma1DescriptorMaxLengthPerEntry := by
    split <;> omega
  simp only [setAdma1Entries, hlen, writeWord_append _ hpre, orWord_append _ hpre,
    writeWord_append_second _ (congrArg (· + 1) hpre), orWord_append_second _ (congrArg (· + 1) hpre),
    Option.bind_eq_bind, Option.bind_some]
  simp [adma1Entry, Span.front]

/-- The loop of ADMA1 cuts the run into pieces. -/
theorem setAdma1Entries_eq {admaTable k i : Nat} {pre rest : List Word} (hpre : pre.length = admaTable + i)
    (hrest : 2 * k ≤ rest.length) (data : Word) (dataBytes : Nat) :
    setAdma1Entries admaTable k i data dataBytes (pre ++ rest) =
      some (pre ++ entryWords ((Span.cut adma1DescriptorMaxLengthPerEntry k ⟨data, dataBytes⟩).map (adma1Entry 0)) ++
        rest.drop (2 * k)) := by
  induction k generalizing i pre rest data dataBytes with
  | zero => simp [setAdma1Entries, Span.cut]
  | succ k ih =>
    obtain ⟨w, v, rest, rfl⟩ := exists_two_words (by omega : 2 ≤ rest.length)
    simp only [List.length_cons] at hrest
    rw [setAdma1Entries_succ hpre, ih (by simp [hpre]; omega) (by omega), Span.cut, List.map_cons]
    simp [Span.skip, Nat.mul_succ]

lemma setAdma2Entries_succ {bootDummy : Word} {admaTable left i : Nat} {pre : List Word}
    (hpre : pre.length = admaTable + 2 * i) (w v : Word) (rest : List Word) (data : Word) {dataBytes : Nat}
    (hpos : 0 < dataBytes) :
    setAdma2Entries bootDummy admaTable (left + 1) i data dataBytes (pre ++ w :: v :: rest) =
      setAdma2Entries bootDummy admaTable left (i + 1)
        (data + BitVec.ofNat 32 (min dataBytes adma2DescriptorMaxLengthPerEntry))
        (dataBytes - min dataBytes adma2DescriptorMaxLengthPerEntry)
        (pre ++ entryWords [adma2Entry 0 (Span.front ⟨data, dataBytes⟩ adma2DescriptorMaxLengthPerEntry)] ++ rest) := by
  have hlen : (if dataBytes > adma2DescriptorMaxLengthPerEntry then adma2DescriptorMaxLengthPerEntry else dataBytes)
      = min dataBytes adma2DescriptorMaxLengthPerEntry := by
    split <;> omega
  simp only [setAdma2Entries, hlen, if_neg hpos.ne', if_pos hpos.ne', writeWord_append _ hpre, orWord_append _ hpre,
    writeWord_append_second _ (congrArg (· + 1) hpre), Option.bind_eq_bind, Option.bind_some]
  simp [adma2Entry, Span.front]

/-- The loop of ADMA2 cuts the run into pieces, as long as bytes are left. -/
theorem setAdma2Entries_eq (bootDummy : Word) {admaTable k i : Nat} (left : Nat) {pre rest : List Word}
    (hpre : pre.length = admaTable + 2 * i) (hrest : 2 * k ≤ rest.length) (data : Word) {dataBytes : Nat}
    (hbytes : ∀ j < k, j * adma2DescriptorMaxLengthPerEntry < dataBytes) :
    setAdma2Entries bootDummy admaTable (k + left) i data dataBytes (pre ++ rest) =
      setAdma2Entries bootDummy admaTable left (i + k)
        (data + BitVec.ofNat 32 (min dataBytes (k * adma2DescriptorMaxLengthPerEntry)))
        (dataBytes - k * adma2DescriptorMaxLengthPerEntry)
        (pre ++ entryWords ((Span.cut adma2DescriptorMaxLengthPerEntry k ⟨data, dataBytes⟩).map (adma2Entry 0)) ++
          rest.drop (2 * k)) := by
  induction k generalizing i pre rest data dataBytes with
  | zero => simp [Span.cut]
  | succ k ih =>
    have hpos := hbytes 0 (by omega)
    have hlast := hbytes k (by omega)
    have hnext : ∀ j < k, j * adma2DescriptorMaxLengthPerEntry <
        dataBytes - min dataBytes adma2DescriptorMaxLengthPerEntry := by
      intro j hj
      have := hbytes (j + 1) (by omega)
      rw [Nat.succ_mul] at this
      omega
    have hdata : min dataBytes ((k + 1) * adma2DescriptorMaxLengthPerEntry) =
        min dataBytes adma2DescriptorMaxLengthPerEntry + min
          (dataBytes - min dataBytes adma2DescriptorMaxLengthPerEntry) (k * adma2DescriptorMaxLengthPerEntry) := by
      rw [Nat.succ_mul]
      omega
    have hleft : dataBytes - min dataBytes adma2DescriptorMaxLengthPerEntry - k * adma2DescriptorMaxLengthPerEntry =
        dataBytes - (k + 1) * adma2DescriptorMaxLengthPerEntry := by
      rw [Nat.succ_mul]
      omega
    obtain ⟨w, v, rest, rfl⟩ := exists_two_words (by omega : 2 ≤ rest.length)
    simp only [List.length_cons] at hrest
    rw [Nat.succ_add, setAdma2Entries_succ hpre _ _ _ _ (by omega), ih (by simp [hpre]; omega) (by omega) _ hnext,
      hleft, hdata, BitVec.ofNat_add, ← BitVec.add_assoc, Span.cut, List.map_cons]
    simp [Span.skip, Nat.mul_succ, Nat.add_assoc, Nat.add_comm 1]

section Single

variable {admaTableWords : Nat} (pre : List Word) {rest : List Word} {data : Word} {dataBytes : Nat} {front : List (Span 32)}
  {last : Span 32}

/-- In single mode the last pair of descriptors of ADMA1 has the end flag. -/
theorem setAdma1Descriptor_single (haligned : data.toNat % 4096 = 0) (hwords : admaTableWords ≤ rest.length)
    (hcut : Span.cut adma1DescriptorMaxLengthPerEntry
      (entriesFor adma1DescriptorMaxLengthPerEntry (wordAligned dataBytes)) ⟨data, wordAligned dataBytes⟩ =
        front ++ [last]) :
    setAdma1Descriptor pre.length admaTableWords data dataBytes .single (pre ++ rest) =
      if 2 * (front.length + 1) > admaTableWords * 4 % 2 ^ 32 / 4 then some (.outOfRange, pre ++ rest)
      else some (.success, pre ++ entryWords (front.map (adma1Entry 0) ++ [adma1Entry descriptorEndFlag last]) ++
        rest.drop (2 * (front.length + 1))) := by
  have hcount : entriesFor adma1DescriptorMaxLengthPerEntry (wordAligned dataBytes) = front.length + 1 := by
    have hlength := congrArg List.length hcut
    simpa using hlength
  rw [setAdma1Descriptor, if_neg (by simpa using haligned), if_neg (by decide)]
  rw [hcount] at hcut
  simp only [hcount, Nat.mul_div_cancel_left _ Nat.two_pos]
  split
  · rfl
  · have hpre : (pre ++ entryWords (front.map (adma1Entry 0))).length + 2 = pre.length + 2 * (front.length + 1) := by
      simp
      omega
    have hend := orWordBefore_adma1Entry _ hpre last descriptorEndFlag (rest.drop (2 * (front.length + 1)))
    simp only [List.append_assoc] at hend
    rw [setAdma1Entries_eq rfl (by omega), hcut, List.map_append, List.map_singleton, entryWords_append]
    simp only [Option.bind_eq_bind, Option.bind_some, List.append_assoc, entryWords_append, hend]

/-- In single mode the last descriptor of ADMA2 has the end flag. -/
theorem setAdma2Descriptor_single (bootDummy : Word) (haligned : data.toNat % 4 = 0)
    (hwords : admaTableWords ≤ rest.length)
    (hcut : Span.cut adma2DescriptorMaxLengthPerEntry
      (entriesFor adma2DescriptorMaxLengthPerEntry (wordAligned dataBytes)) ⟨data, wordAligned dataBytes⟩ =
        front ++ [last]) :
    setAdma2Descriptor bootDummy pre.length admaTableWords data dataBytes .single (pre ++ rest) =
      if front.length + 1 > adma2MaxEntries admaTableWords then some (.outOfRange, pre ++ rest)
      else some (.success, pre ++ entryWords (front.map (adma2Entry 0) ++ [adma2Entry descriptorEndFlag last]) ++
        rest.drop (2 * (front.length + 1))) := by
  have hcount : entriesFor adma2DescriptorMaxLengthPerEntry (wordAligned dataBytes) = front.length + 1 := by
    have hlength := congrArg List.length hcut
    simpa using hlength
  have hbytes : ∀ j < front.length + 1, j * adma2DescriptorMaxLengthPerEntry < wordAligned dataBytes := by
    intro j hj
    rwa [← hcount, lt_entriesFor_iff (by decide)] at hj
  rw [setAdma2Descriptor, if_neg (by simpa using haligned)]
  rw [hcount] at hcut
  simp only [hcount, reduceCtorEq, if_false, Option.bind_eq_bind, Option.bind_some, Nat.add_zero]
  split
  · rfl
  · rename_i hroom
    have hpre : (pre ++ entryWords (front.map (adma2Entry 0))).length + 2 = pre.length + 2 * (front.length + 1) := by
      simp
      omega
    have hend := orWordBefore_adma2Entry _ hpre last descriptorEndFlag (rest.drop (2 * (front.length + 1)))
    simp only [List.append_assoc] at hend
    have hrest : 2 * (front.length + 1) ≤ rest.length := by
      rw [adma2MaxEntries] at hroom
      omega
    have hstart : pre.length = pre.length + 2 * 0 := rfl
    have hloop := setAdma2Entries_eq bootDummy 0 hstart hrest data hbytes
    rw [Nat.add_zero, hcut, List.map_append, List.map_singleton, entryWords_append, setAdma2Entries.eq_1] at hloop
    rw [hloop]
    simp only [Option.bind_some, List.append_assoc, entryWords_append, Nat.zero_add, hend]

end Single

end McuxDrivers.Usdhc
