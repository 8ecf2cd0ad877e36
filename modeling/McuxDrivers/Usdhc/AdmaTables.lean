import McuxDrivers.Lib.Bytes
import McuxDrivers.Usdhc.AdmaTransfers

/-!
# Descriptor tables that describe a buffer

The entries that a builder writes name the bytes of the buffer, in order, each once. In multiple mode this fails from the
second data descriptor on: the flags of the dummy descriptor go to that one.
-/

namespace McuxDrivers.Usdhc

open Lib

/-- The number of ADMA2 descriptors before the first one without the valid flag. -/
def leadingValid : List Word → Nat
  | attributes :: _ :: table => if attributes &&& descriptorValidFlag = 0 then 0 else leadingValid table + 1
  | _ => 0

/-- What `USDHC_SetADMA1Descriptor` is to do in single mode with a table that fills the memory. -/
def Adma1Exact (table : List Word) (data : Word) (dataBytes : Nat) : Prop :=
  ∃ status table', setAdma1Descriptor 0 table.length data dataBytes .single table = some (status, table') ∧
    (status = .outOfRange → table' = table) ∧
    (status = .success → ∃ entries, (entryWords entries).length ≤ table.length ∧
      table' = memcpy table 0 (entryWords entries) ∧
      Describes adma1Transfer? adma1DescriptorMaxLengthPerEntry entries ⟨data, wordAligned dataBytes⟩ ∧
      EndsLast (entryWords entries))

/-- What `USDHC_SetADMA2Descriptor` is to do with a table that fills the memory. -/
def Adma2Exact (bootDummy : Word) (table : List Word) (data : Word) (dataBytes : Nat) (flags : AdmaFlag) : Prop :=
  ∃ status table', setAdma2Descriptor bootDummy 0 table.length data dataBytes flags table = some (status, table') ∧
    (status = .outOfRange → table' = table) ∧
    (status = .success →
      match flags with
      | .single => ∃ entries, (entryWords entries).length ≤ table.length ∧
        table' = memcpy table 0 (entryWords entries) ∧
        Describes adma2Transfer? adma2DescriptorMaxLengthPerEntry entries ⟨data, wordAligned dataBytes⟩ ∧
        EndsLast (entries.map Prod.fst)
      | .multiple => ∃ entries dummy,
        2 * leadingValid table + (entryWords (entries ++ [dummy])).length ≤ table.length ∧
        table' = memcpy table (2 * leadingValid table) (entryWords (entries ++ [dummy])) ∧
        Describes adma2Transfer? adma2DescriptorMaxLengthPerEntry entries ⟨data, wordAligned dataBytes⟩ ∧
        adma2Transfer? dummy.1 dummy.2 = some ⟨bootDummy, 4⟩ ∧
        ∀ e ∈ entries ++ [dummy], e.1 &&& descriptorEndFlag = 0)

section Search

lemma findStartEntry_eq {admaTable left i : Nat} {mem : List Word} (h : admaTable + 2 * (i + left) ≤ mem.length) :
    findStartEntry admaTable mem left i = some (i + min (leadingValid (mem.drop (admaTable + 2 * i))) left) := by
  induction left generalizing i with
  | zero => simp [findStartEntry]
  | succ left ih =>
    have hlength : 2 ≤ (mem.drop (admaTable + 2 * i)).length := by
      rw [List.length_drop]
      omega
    obtain ⟨w, v, rest, hrest⟩ := exists_two_words hlength
    have hw : mem[admaTable + 2 * i]? = some w := by
      have hhead : (mem.drop (admaTable + 2 * i))[0]? = mem[admaTable + 2 * i + 0]? := List.getElem?_drop
      rwa [hrest, eq_comm, Nat.add_zero] at hhead
    have hnext : mem.drop (admaTable + 2 * (i + 1)) = rest := by
      have htail := List.drop_drop (l := mem) (i := 2) (j := admaTable + 2 * i)
      rwa [hrest, eq_comm] at htail
    simp only [findStartEntry, hw, Option.bind_eq_bind, Option.bind_some, hrest, leadingValid]
    split
    · simp
    · rw [ih (by omega), hnext]
      congr 1
      omega

/-- The descriptor behind the data in multiple mode. -/
def adma2Dummy (bootDummy flag : Word) : Word × Word :=
  (BitVec.ofNat 32 4 <<< 16 ||| 0 ||| flag, bootDummy)

lemma adma2Transfer?_dummy (bootDummy : Word) :
    adma2Transfer? (adma2Dummy bootDummy descriptorTypeTransfer).1 bootDummy = some ⟨bootDummy, 4⟩ := by
  have hflags : (adma2Dummy bootDummy descriptorTypeTransfer).1 &&& descriptorTypeMask = descriptorTypeTransfer := by
    simp only [adma2Dummy]
    decide
  have hlength : ((adma2Dummy bootDummy descriptorTypeTransfer).1 >>> 16).toNat = 4 := by
    simp only [adma2Dummy]
    decide
  rw [adma2Transfer?, if_pos hflags, hlength]

lemma adma2Transfer?_dummy_zero (bootDummy address : Word) :
    adma2Transfer? (adma2Dummy bootDummy 0).1 address = none := by
  have hflags : (adma2Dummy bootDummy 0).1 &&& descriptorTypeMask = 0 := by
    simp only [adma2Dummy]
    decide
  rw [adma2Transfer?, hflags]
  exact if_neg (by decide)

lemma setAdma2Entries_dummy (bootDummy : Word) {admaTable i : Nat} {pre : List Word}
    (hpre : pre.length = admaTable + 2 * i) (w v : Word) (rest : List Word) (data : Word) :
    setAdma2Entries bootDummy admaTable 1 i data 0 (pre ++ w :: v :: rest) =
      some (pre ++ entryWords [adma2Dummy bootDummy 0] ++ rest) := by
  have hlen : ¬ 0 > adma2DescriptorMaxLengthPerEntry := by decide
  simp only [setAdma2Entries, if_neg hlen, if_true, writeWord_append _ hpre, orWord_append _ hpre,
    writeWord_append_second _ (congrArg (· + 1) hpre), Option.bind_eq_bind, Option.bind_some]
  simp [adma2Dummy]

variable {data : Word} {dataBytes : Nat} (table : List Word)

/-- The descriptors that the loop of ADMA2 writes in multiple mode. -/
lemma setAdma2Entries_multiple (bootDummy : Word) {start k : Nat} (data : Word)
    (hcap : 2 * (start + k + 1) ≤ table.length)
    (hk : entriesFor adma2DescriptorMaxLengthPerEntry dataBytes = k) :
    setAdma2Entries bootDummy 0 (k + 1) start data dataBytes table =
      some (memcpy table (2 * start)
        (entryWords ((Span.cut adma2DescriptorMaxLengthPerEntry k ⟨data, dataBytes⟩).map (adma2Entry 0) ++
          [adma2Dummy bootDummy 0]))) := by
  have hpre : (table.take (2 * start)).length = 0 + 2 * start := by
    rw [List.length_take]
    omega
  have hbytes : ∀ j < k, j * adma2DescriptorMaxLengthPerEntry < dataBytes := by
    intro j hj
    rwa [← hk, lt_entriesFor_iff (by decide)] at hj
  have hleft : dataBytes - k * adma2DescriptorMaxLengthPerEntry = 0 := by
    have hle : dataBytes ≤ k * adma2DescriptorMaxLengthPerEntry := by
      rw [← entriesFor_le_iff (by decide), hk]
    omega
  have hrest : 2 * k ≤ (table.drop (2 * start)).length := by
    rw [List.length_drop]
    omega
  have hlength : 2 ≤ ((table.drop (2 * start)).drop (2 * k)).length := by
    rw [List.length_drop, List.length_drop]
    omega
  obtain ⟨w, v, rest, hwv⟩ := exists_two_words hlength
  have htail : table.drop (2 * start + (2 * k + 2)) = rest := by
    rw [← List.drop_drop, ← List.drop_drop, hwv]
    rfl
  have hloop := setAdma2Entries_eq bootDummy 1 hpre hrest data hbytes
  rw [List.take_append_drop, hleft, hwv, setAdma2Entries_dummy _ (by simp [hpre]; omega)] at hloop
  rw [hloop]
  simp [memcpy, htail]

lemma orWord_dummy {bootDummy : Word} {pre : List Word} {start k : Nat} (hpre : pre.length = 2 * start) (s : Span 32)
    (hk : 0 < k) (tail : List Word) :
    orWord (pre ++ entryWords ((Span.cut adma2DescriptorMaxLengthPerEntry k s).map (adma2Entry 0) ++
        [adma2Dummy bootDummy 0]) ++ tail) (2 * (start + 1)) descriptorTypeTransfer =
      some (pre ++ entryWords ((Span.cut adma2DescriptorMaxLengthPerEntry k s).map (adma2Entry 0) ++
        [adma2Dummy bootDummy (if k = 1 then descriptorTypeTransfer else 0)]) ++ tail) := by
  match k, hk with
  | 1, _ =>
    have hfirst : (pre ++ entryWords [adma2Entry 0 (s.front adma2DescriptorMaxLengthPerEntry)]).length =
        2 * (start + 1) := by
      simp [hpre]
      omega
    have hor := orWord_append (bootDummy :: tail) hfirst (adma2Dummy bootDummy 0).1 descriptorTypeTransfer
    simpa [Span.cut, adma2Dummy] using hor
  | k + 2, _ =>
    obtain ⟨first, second, pieces, hcut⟩ : ∃ first second pieces,
        Span.cut adma2DescriptorMaxLengthPerEntry (k + 2) s = first :: second :: pieces :=
      ⟨_, _, _, rfl⟩
    have hfirst : (pre ++ entryWords [adma2Entry 0 first]).length = 2 * (start + 1) := by
      simp [hpre]
      omega
    have hflags : (adma2Entry 0 second).1 ||| descriptorTypeTransfer = (adma2Entry 0 second).1 := by
      simp only [adma2Entry, BitVec.or_assoc]
      congr 1
    have hor := orWord_append
      (second.address :: (entryWords (pieces.map (adma2Entry 0) ++ [adma2Dummy bootDummy 0]) ++ tail))
      hfirst (adma2Entry 0 second).1 descriptorTypeTransfer
    rw [hflags] at hor
    simpa [hcut, adma2Entry] using hor

/-- In multiple mode the flags of the dummy descriptor go to the second descriptor of the call. -/
theorem setAdma2Descriptor_multiple (bootDummy : Word) (haligned : data.toNat % 4 = 0)
    (hpos : 0 < wordAligned dataBytes) {k : Nat}
    (hk : entriesFor adma2DescriptorMaxLengthPerEntry (wordAligned dataBytes) = k) :
    setAdma2Descriptor bootDummy 0 table.length data dataBytes .multiple table =
      if k + 1 + leadingValid table > adma2MaxEntries table.length then some (.outOfRange, table)
      else some (.success, memcpy table (2 * leadingValid table)
        (entryWords ((Span.cut adma2DescriptorMaxLengthPerEntry k ⟨data, wordAligned dataBytes⟩).map (adma2Entry 0) ++
          [adma2Dummy bootDummy (if k = 1 then descriptorTypeTransfer else 0)]))) := by
  have hsearch : findStartEntry 0 table (adma2MaxEntries table.length) 0 =
      some (min (leadingValid table) (adma2MaxEntries table.length)) := by
    rw [findStartEntry_eq (by rw [adma2MaxEntries]; omega)]
    simp
  rw [setAdma2Descriptor, if_neg (by simpa using haligned)]
  simp only [hk, if_true, hsearch, Option.bind_eq_bind, Option.bind_some]
  by_cases hroom : k + 1 + leadingValid table > adma2MaxEntries table.length
  · rw [if_pos hroom, if_pos (by omega)]
  · have hcap : 2 * (leadingValid table + k + 1) ≤ table.length := by
      rw [adma2MaxEntries] at hroom
      omega
    have hpre : (table.take (2 * leadingValid table)).length = 2 * leadingValid table := by
      rw [List.length_take]
      omega
    have hpositive : 0 < k := by
      rw [← hk]
      exact entriesFor_pos (by decide) hpos
    rw [if_neg hroom, if_neg (by omega), Nat.min_eq_left (by omega), setAdma2Entries_multiple _ _ _ hcap hk]
    simp only [Option.bind_some, memcpy, Nat.zero_add, orWord_dummy hpre _ hpositive]
    simp

end Search

section Exact

variable {data : Word} {dataBytes : Nat}

/-- The pieces of a buffer, as many as the builders count. -/
lemma exists_pieces {maxLength n : Nat} (hmax : 0 < maxLength) (hpos : 0 < n) (data : Word) :
    ∃ front last, Span.cut maxLength (entriesFor maxLength n) ⟨data, n⟩ = front ++ [last] ∧
      (front ++ [last]).flatMap Span.bytes = (Span.mk data n).bytes ∧
      ∀ p ∈ front ++ [last], 1 ≤ p.length ∧ p.length ≤ maxLength := by
  have hne : Span.cut maxLength (entriesFor maxLength n) ⟨data, n⟩ ≠ [] := by
    rw [← List.length_pos_iff, Span.length_cut]
    exact entriesFor_pos hmax hpos
  have hcut := (List.dropLast_append_getLast hne).symm
  refine ⟨_, _, hcut, ?_, ?_⟩
  · rw [← hcut]
    exact Span.flatMap_bytes_cut (le_entriesFor_mul hmax)
  · intro p hp
    rw [← hcut] at hp
    have hlast : (entriesFor maxLength n - 1) * maxLength < n := pred_entriesFor_mul_lt hmax hpos
    exact Span.length_of_mem_cut hlast hmax hp

lemma page_of_mem_cut (haligned : data.toNat % 4096 = 0) {n : Nat} (hpos : 0 < n) {p : Span 32}
    (hp : p ∈ Span.cut adma1DescriptorMaxLengthPerEntry (entriesFor adma1DescriptorMaxLengthPerEntry n) ⟨data, n⟩) :
    p.address.toNat % 4096 = 0 := by
  have hlast : (entriesFor adma1DescriptorMaxLengthPerEntry n - 1) * adma1DescriptorMaxLengthPerEntry < n :=
    pred_entriesFor_mul_lt (by decide) hpos
  obtain ⟨j, hj⟩ := Span.address_of_mem_cut hlast hp
  rw [hj]
  exact page_add haligned j

lemma wordAligned_pos (hpos : 0 < dataBytes) (hround : dataBytes + 3 < 2 ^ 32) : 0 < wordAligned dataBytes := by
  rw [wordAligned_eq hround]
  omega

/-- The table of ADMA1 describes the buffer. -/
theorem adma1_exact (table : List Word) (haligned : data.toNat % 4096 = 0) (hpos : 0 < dataBytes)
    (hround : dataBytes + 3 < 2 ^ 32) : Adma1Exact table data dataBytes := by
  have hmax : adma1DescriptorMaxLengthPerEntry < 2 ^ 16 := by decide
  have hn := wordAligned_pos hpos hround
  obtain ⟨front, last, hcut, hbytes, hlength⟩ := exists_pieces
    (by decide : 0 < adma1DescriptorMaxLengthPerEntry) hn data
  have hpage : ∀ p ∈ front ++ [last], p.address.toNat % 4096 = 0 := by
    intro p hp
    rw [← hcut] at hp
    exact page_of_mem_cut haligned hn hp
  have hrun := setAdma1Descriptor_single [] haligned (Nat.le_refl table.length) hcut
  split at hrun
  · exact ⟨_, _, hrun, fun _ => rfl, by rintro ⟨⟩⟩
  · refine ⟨_, _, hrun, by rintro ⟨⟩, ?_⟩
    intro _
    refine ⟨front.map (adma1Entry 0) ++ [adma1Entry descriptorEndFlag last], by simp; omega, by simp [memcpy, Nat.mul_succ],
      ?_, endsLast_adma1 hpage⟩
    apply describes_closed _ hbytes hlength
    intro p hp flag hflag
    exact adma1Transfer?_entry (lt_of_le_of_lt (hlength p hp).2 hmax) (hpage p hp) hflag

lemma adma2_exact_single (bootDummy : Word) (table : List Word) (haligned : data.toNat % 4 = 0) (hpos : 0 < dataBytes)
    (hround : dataBytes + 3 < 2 ^ 32) : Adma2Exact bootDummy table data dataBytes .single := by
  have hmax : adma2DescriptorMaxLengthPerEntry < 2 ^ 16 := by decide
  obtain ⟨front, last, hcut, hbytes, hlength⟩ := exists_pieces
    (by decide : 0 < adma2DescriptorMaxLengthPerEntry) (wordAligned_pos hpos hround) data
  have hrun := setAdma2Descriptor_single [] bootDummy haligned (Nat.le_refl table.length) hcut
  split at hrun
  · exact ⟨_, _, hrun, fun _ => rfl, by rintro ⟨⟩⟩
  · rename_i hroom
    rw [adma2MaxEntries] at hroom
    refine ⟨_, _, hrun, by rintro ⟨⟩, ?_⟩
    intro _
    refine ⟨front.map (adma2Entry 0) ++ [adma2Entry descriptorEndFlag last], by simp; omega, by simp [memcpy, Nat.mul_succ],
      ?_, endsLast_adma2⟩
    apply describes_closed _ hbytes hlength
    intro p hp flag hflag
    exact adma2Transfer?_entry (lt_of_le_of_lt (hlength p hp).2 hmax) hflag

/-- In multiple mode the table is right when one descriptor is enough for the data, or when nothing is written. -/
lemma adma2_exact_multiple_of (table : List Word) (bootDummy : Word) (haligned : data.toNat % 4 = 0) (hpos : 0 < dataBytes)
    (hround : dataBytes + 3 < 2 ^ 32)
    (h : wordAligned dataBytes ≤ adma2DescriptorMaxLengthPerEntry ∨ adma2MaxEntries table.length <
      entriesFor adma2DescriptorMaxLengthPerEntry (wordAligned dataBytes) + 1 + leadingValid table) :
    Adma2Exact bootDummy table data dataBytes .multiple := by
  have hmax : adma2DescriptorMaxLengthPerEntry < 2 ^ 16 := by decide
  have hn := wordAligned_pos hpos hround
  have hrun := setAdma2Descriptor_multiple table bootDummy haligned hn rfl
  split at hrun
  · exact ⟨_, _, hrun, fun _ => rfl, by rintro ⟨⟩⟩
  · rename_i hroom
    have hone : entriesFor adma2DescriptorMaxLengthPerEntry (wordAligned dataBytes) = 1 := by
      have hle : entriesFor adma2DescriptorMaxLengthPerEntry (wordAligned dataBytes) ≤ 1 := by
        rw [entriesFor_le_iff (by decide), Nat.one_mul]
        omega
      have hge := entriesFor_pos (by decide : 0 < adma2DescriptorMaxLengthPerEntry) hn
      omega
    obtain ⟨front, last, hcut, hbytes, hlength⟩ := exists_pieces
      (by decide : 0 < adma2DescriptorMaxLengthPerEntry) hn data
    rw [← hcut, hone] at hbytes hlength
    rw [adma2MaxEntries] at hroom
    refine ⟨_, _, hrun, by rintro ⟨⟩, ?_⟩
    intro _
    rw [hone] at hroom ⊢
    refine ⟨_, _, by simp; omega, rfl, ?_, adma2Transfer?_dummy bootDummy, ?_⟩
    · apply describes_map _ hbytes hlength
      intro p hp
      exact adma2Transfer?_entry (lt_of_le_of_lt (hlength p hp).2 hmax) (Or.inl rfl)
    · intro e he
      simp only [List.mem_append, List.mem_map, List.mem_singleton] at he
      rcases he with ⟨p, _, rfl⟩ | rfl
      · rw [adma2Entry_and_end]
        rfl
      · simp only [adma2Dummy, if_true]
        decide

lemma getElem?_memcpy (table : List Word) {i j : Nat} {words : List Word} (hi : i ≤ table.length) (hj : j < words.length) :
    (memcpy table i words)[i + j]? = words[j]? := by
  have hlength : (table.take i).length = i := by
    rw [List.length_take]
    omega
  rw [memcpy, List.append_assoc, List.getElem?_append_right (by omega), hlength, Nat.add_sub_cancel_left,
    List.getElem?_append_left hj]

lemma getElem?_entryWords (entries : List (Word × Word)) (k : Nat) :
    (entryWords entries)[2 * k]? = (entries[k]?).map Prod.fst := by
  induction entries generalizing k with
  | nil => simp
  | cons e entries ih =>
    cases k with
    | zero => rfl
    | succ k =>
      rw [Nat.mul_succ, entryWords_cons]
      simpa using ih k

/-- A list of entries describes no buffer that it has not the room for. -/
lemma Describes.le {transfer? : Word → Word → Option (Span 32)} {maxLength : Nat} {entries : List (Word × Word)}
    {buffer : Span 32} (h : Describes transfer? maxLength entries buffer) :
    buffer.length ≤ entries.length * maxLength := by
  obtain ⟨pieces, hpieces, hbytes, hlength⟩ := h
  have hcount : entries.length = pieces.length := by
    have hlengths := congrArg List.length hpieces
    simpa using hlengths
  have hle := Span.length_flatMap_bytes_le fun p hp => (hlength p hp).2
  rwa [hbytes, Span.length_bytes, ← hcount] at hle

lemma Describes.valid {transfer? : Word → Word → Option (Span 32)} {maxLength : Nat} {entries : List (Word × Word)}
    {buffer : Span 32} (h : Describes transfer? maxLength entries buffer) {e : Word × Word} (he : e ∈ entries) :
    transfer? e.1 e.2 ≠ none := by
  obtain ⟨pieces, hpieces, _, _⟩ := h
  have hmem : transfer? e.1 e.2 ∈ pieces.map some := by
    rw [← hpieces]
    exact List.mem_map_of_mem he
  obtain ⟨p, _, hp⟩ := List.mem_map.mp hmem
  rw [← hp]
  exact Option.some_ne_none p

/-- The exact condition for multiple mode. -/
lemma adma2_exact_multiple_iff (table : List Word) (bootDummy : Word) (haligned : data.toNat % 4 = 0) (hpos : 0 < dataBytes)
    (hround : dataBytes + 3 < 2 ^ 32) :
    Adma2Exact bootDummy table data dataBytes .multiple ↔
      wordAligned dataBytes ≤ adma2DescriptorMaxLengthPerEntry ∨ adma2MaxEntries table.length <
        entriesFor adma2DescriptorMaxLengthPerEntry (wordAligned dataBytes) + 1 + leadingValid table := by
  constructor
  · rintro ⟨status, table', hrun, _, hsuccess⟩
    by_contra hnot
    rw [not_or, Nat.not_le, Nat.not_lt] at hnot
    obtain ⟨hlarge, hroom⟩ := hnot
    rw [setAdma2Descriptor_multiple table bootDummy haligned (wordAligned_pos hpos hround) rfl,
      if_neg (by omega)] at hrun
    have hone : entriesFor adma2DescriptorMaxLengthPerEntry (wordAligned dataBytes) ≠ 1 := by
      intro hone
      have hle := (entriesFor_le_iff (by decide : 0 < adma2DescriptorMaxLengthPerEntry)).mp hone.le
      omega
    rw [if_neg hone] at hrun
    cases hrun
    obtain ⟨entries, dummy, hfit, htable, hdescribes, hdummy, _⟩ := hsuccess rfl
    have hk : entriesFor adma2DescriptorMaxLengthPerEntry (wordAligned dataBytes) ≤ entries.length := by
      rw [entriesFor_le_iff (by decide)]
      exact hdescribes.le
    rw [adma2MaxEntries] at hroom
    have hword := congrArg (fun words => words[2 * leadingValid table +
      2 * entriesFor adma2DescriptorMaxLengthPerEntry (wordAligned dataBytes)]?) htable
    obtain ⟨e, he⟩ : ∃ e, (entries ++ [dummy])[entriesFor adma2DescriptorMaxLengthPerEntry (wordAligned dataBytes)]? =
        some e := by
      apply Option.ne_none_iff_exists'.mp
      rw [Ne, List.getElem?_eq_none_iff, List.length_append, List.length_singleton]
      omega
    have hlength : 2 * entriesFor adma2DescriptorMaxLengthPerEntry (wordAligned dataBytes) <
        (entryWords (entries ++ [dummy])).length := by
      simp
      omega
    simp only [getElem?_memcpy _ (by omega : 2 * leadingValid table ≤ table.length) hlength] at hword
    rw [getElem?_memcpy _ (by omega) (by simp), getElem?_entryWords, getElem?_entryWords, he,
      List.getElem?_append_right (by simp)] at hword
    have hfirst : (adma2Dummy bootDummy 0).1 = e.1 := by
      simpa using hword
    -- the word behind the data descriptors is not valid, but some descriptor of the specification has it
    have hinvalid : adma2Transfer? e.1 e.2 = none := by
      rw [← hfirst]
      exact adma2Transfer?_dummy_zero bootDummy e.2
    rcases List.mem_append.mp (List.mem_of_getElem? he) with hmem | hmem
    · exact hdescribes.valid hmem hinvalid
    · rw [List.mem_singleton] at hmem
      rw [← hmem, hinvalid] at hdummy
      cases hdummy
  · exact adma2_exact_multiple_of table bootDummy haligned hpos hround

/-- The tables are right in single mode; in multiple mode they are when the data takes one descriptor, or when there is
no room in the table. -/
theorem adma_exact_iff (bootDummy : Word) (table : List Word) (flags : AdmaFlag) (haligned : data.toNat % 4 = 0)
    (hpos : 0 < dataBytes) (hround : dataBytes + 3 < 2 ^ 32) :
    (data.toNat % 4096 = 0 → Adma1Exact table data dataBytes) ∧
      (Adma2Exact bootDummy table data dataBytes flags ↔
        flags = .single ∨ wordAligned dataBytes ≤ adma2DescriptorMaxLengthPerEntry ∨
          adma2MaxEntries table.length <
            entriesFor adma2DescriptorMaxLengthPerEntry (wordAligned dataBytes) + 1 + leadingValid table) := by
  constructor
  · intro hpage
    exact adma1_exact table hpage hpos hround
  · cases flags with
    | single => simp [adma2_exact_single bootDummy table haligned hpos hround]
    | multiple => simp [adma2_exact_multiple_iff table bootDummy haligned hpos hround]

theorem adma_exact_pages : Adma1Exact [0, 0, 0, 0] 0x80000000 65536 ∧ ¬ Adma2Exact 0x20000000 (List.replicate 8 0)
    0x80000000 65536 .multiple := by
  constructor
  · exact (adma_exact_iff 0x20000000 [0, 0, 0, 0] .single (by decide) (by decide) (by decide)).1 (by decide)
  · rw [(adma_exact_iff 0x20000000 (List.replicate 8 0) .multiple (by decide) (by decide) (by decide)).2]
    decide

theorem adma2_second_descriptor : ¬ Adma2Exact 0x20000000 (List.replicate 8 0) 0x80000000 65536 .multiple := by
  rw [adma2_exact_multiple_iff _ _ (by decide) (by decide) (by decide)]
  decide

end Exact


end McuxDrivers.Usdhc
