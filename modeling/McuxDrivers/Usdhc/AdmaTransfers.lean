import McuxDrivers.Usdhc.AdmaEntries

/-!
# The bytes that descriptors transfer

A list of entries describes a buffer when its entries transfer the bytes of the buffer, in order.
-/

namespace McuxDrivers.Usdhc

open Lib

/-- The flags that tell what a descriptor is. -/
def descriptorTypeMask : Word := descriptorActivity2Flag ||| descriptorActivity1Flag ||| descriptorValidFlag

/-- The bytes that a pair of ADMA1 descriptors transfers. -/
def adma1Transfer? (setLength transfer : Word) : Option (Span 32) :=
  if setLength &&& descriptorTypeMask = adma1DescriptorTypeSetLength ∧
      transfer &&& descriptorTypeMask = descriptorTypeTransfer then
    some ⟨transfer &&& ~~~(0xFFF : Word), (setLength >>> 12 &&& 0xFFFF).toNat⟩
  else none

/-- The bytes that an ADMA2 descriptor transfers. -/
def adma2Transfer? (attributes address : Word) : Option (Span 32) :=
  if attributes &&& descriptorTypeMask = descriptorTypeTransfer then some ⟨address, (attributes >>> 16).toNat⟩ else none

/-- The entries are valid, transfer the bytes of the buffer in order, and none has more than `maxLength` bytes. -/
def Describes (transfer? : Word → Word → Option (Span 32)) (maxLength : Nat) (entries : List (Word × Word))
    (buffer : Span 32) : Prop :=
  ∃ pieces : List (Span 32), entries.map (fun e => transfer? e.1 e.2) = pieces.map some ∧
    pieces.flatMap Span.bytes = buffer.bytes ∧ ∀ p ∈ pieces, 1 ≤ p.length ∧ p.length ≤ maxLength

/-- The last of the words has the end flag, and no other. -/
def EndsLast (words : List Word) : Prop :=
  ∃ front last, words = front ++ [last] ∧ (∀ w ∈ front, w &&& descriptorEndFlag = 0) ∧ last &&& descriptorEndFlag ≠ 0

lemma shiftLeft_and_of_lt (w : Word) {n : Nat} {m : Word} (hm : m.toNat < 2 ^ n) : w <<< n &&& m = 0 := by
  ext i hi
  by_cases hin : i < n
  · simp [hin]
  · have hbit : m[i] = false := by
      rw [← BitVec.getLsbD_eq_getElem, ← BitVec.testBit_toNat]
      apply Nat.testBit_lt_two_pow
      exact lt_of_lt_of_le hm (Nat.pow_le_pow_right Nat.two_pos (by omega))
    simp [hbit]

lemma toNat_shiftLeft_ushiftRight {n len : Nat} (hlen : len * 2 ^ n < 2 ^ 32) :
    (BitVec.ofNat 32 len <<< n >>> n).toNat = len := by
  have hle : len ≤ len * 2 ^ n := Nat.le_mul_of_pos_right len (Nat.two_pow_pos n)
  have hlt : len < 2 ^ 32 := lt_of_le_of_lt hle hlen
  rw [BitVec.toNat_ushiftRight, BitVec.toNat_shiftLeft, BitVec.toNat_ofNat, Nat.mod_eq_of_lt hlt,
    Nat.shiftLeft_eq, Nat.mod_eq_of_lt hlen, Nat.shiftRight_eq_div_pow, Nat.mul_div_cancel _ (Nat.two_pow_pos n)]

lemma page_ushiftRight_shiftLeft {a : Word} (h : a.toNat % 4096 = 0) : a >>> 12 <<< 12 = a := by
  apply BitVec.eq_of_toNat_eq
  have hlt := a.isLt
  rw [BitVec.toNat_shiftLeft, BitVec.toNat_ushiftRight, Nat.shiftRight_eq_div_pow, Nat.shiftLeft_eq]
  omega

lemma page_and_not {a : Word} (h : a.toNat % 4096 = 0) : a &&& ~~~(0xFFF : Word) = a := by
  have hmask : ~~~(0xFFF : Word) = BitVec.allOnes 32 <<< 12 := by decide
  rw [hmask, ← BitVec.shiftLeft_ushiftRight]
  exact page_ushiftRight_shiftLeft h

lemma adma2Transfer?_entry {s : Span 32} (hlen : s.length < 2 ^ 16) {flag : Word}
    (hflag : flag = 0 ∨ flag = descriptorEndFlag) :
    adma2Transfer? (adma2Entry flag s).1 (adma2Entry flag s).2 = some s := by
  have hzero : BitVec.ofNat 32 s.length <<< 16 &&& descriptorTypeMask = 0 := shiftLeft_and_of_lt _ (by decide)
  have hlength : (BitVec.ofNat 32 s.length <<< 16 >>> 16).toNat = s.length := toNat_shiftLeft_ushiftRight (by omega)
  rw [adma2Transfer?, adma2Entry, BitVec.and_or_distrib_right, BitVec.and_or_distrib_right, hzero,
    BitVec.ushiftRight_or_distrib, BitVec.ushiftRight_or_distrib]
  rcases hflag with rfl | rfl <;> simp [descriptorTypeTransfer, descriptorTypeMask, descriptorEndFlag,
    descriptorInterruptFlag, descriptorActivity1Flag, descriptorActivity2Flag, descriptorValidFlag, hlength]

lemma adma1Transfer?_entry {s : Span 32} (hlen : s.length < 2 ^ 16) (haddr : s.address.toNat % 4096 = 0)
    {flag : Word} (hflag : flag = 0 ∨ flag = descriptorEndFlag) :
    adma1Transfer? (adma1Entry flag s).1 (adma1Entry flag s).2 = some s := by
  have hzero : BitVec.ofNat 32 s.length <<< 12 &&& descriptorTypeMask = 0 := shiftLeft_and_of_lt _ (by decide)
  have hlength : (BitVec.ofNat 32 s.length <<< 12 >>> 12).toNat = s.length := toNat_shiftLeft_ushiftRight (by omega)
  have haddress : s.address &&& descriptorTypeMask = 0 := by
    rw [← page_ushiftRight_shiftLeft haddr]
    exact shiftLeft_and_of_lt _ (by decide)
  have hpage : s.address &&& ~~~0xFFF = s.address := by
    exact page_and_not haddr
  have hfield : s.length &&& 65535 = s.length := by
    rw [Nat.and_two_pow_sub_one_eq_mod s.length 16, Nat.mod_eq_of_lt hlen]
  rw [adma1Transfer?, adma1Entry]
  simp only [BitVec.and_or_distrib_right, hzero, haddress, hpage, BitVec.ushiftRight_or_distrib]
  rcases hflag with rfl | rfl <;> simp [descriptorTypeTransfer, descriptorTypeMask, descriptorEndFlag,
    descriptorInterruptFlag, descriptorActivity1Flag, descriptorActivity2Flag, descriptorValidFlag, hlength, hfield,
    adma1DescriptorTypeSetLength]

/-- An address a number of pages behind the start of a page is the start of a page. -/
lemma page_add {a : Word} (h : a.toNat % 4096 = 0) (j : Nat) :
    (a + BitVec.ofNat 32 (j * adma1DescriptorMaxLengthPerEntry)).toNat % 4096 = 0 := by
  rw [BitVec.toNat_add, BitVec.toNat_ofNat, adma1DescriptorMaxLengthPerEntry]
  omega

section Entries

variable {transfer? : Word → Word → Option (Span 32)} {entry : Word → Span 32 → Word × Word} {maxLength : Nat}
  {pieces front : List (Span 32)} {last buffer : Span 32}

lemma describes_map (hdecode : ∀ p ∈ pieces, transfer? (entry 0 p).1 (entry 0 p).2 = some p)
    (hbytes : pieces.flatMap Span.bytes = buffer.bytes) (hlength : ∀ p ∈ pieces, 1 ≤ p.length ∧ p.length ≤ maxLength) :
    Describes transfer? maxLength (pieces.map (entry 0)) buffer := by
  refine ⟨pieces, ?_, hbytes, hlength⟩
  rw [List.map_map]
  apply List.map_congr_left
  intro p hp
  exact hdecode p hp

lemma describes_closed (hdecode : ∀ p ∈ front ++ [last], ∀ flag, flag = 0 ∨ flag = descriptorEndFlag →
      transfer? (entry flag p).1 (entry flag p).2 = some p)
    (hbytes : (front ++ [last]).flatMap Span.bytes = buffer.bytes)
    (hlength : ∀ p ∈ front ++ [last], 1 ≤ p.length ∧ p.length ≤ maxLength) :
    Describes transfer? maxLength (front.map (entry 0) ++ [entry descriptorEndFlag last]) buffer := by
  refine ⟨front ++ [last], ?_, hbytes, hlength⟩
  rw [List.map_append, List.map_append, List.map_map]
  congr 1
  · apply List.map_congr_left
    intro p hp
    exact hdecode p (List.mem_append_left _ hp) 0 (Or.inl rfl)
  · simp [hdecode last (by simp) descriptorEndFlag (Or.inr rfl)]

end Entries

section Ends

lemma adma2Entry_and_end (flag : Word) (s : Span 32) :
    (adma2Entry flag s).1 &&& descriptorEndFlag = flag &&& descriptorEndFlag := by
  have hzero : BitVec.ofNat 32 s.length <<< 16 &&& descriptorEndFlag = 0 := shiftLeft_and_of_lt _ (by decide)
  have hflags : (descriptorTypeTransfer ||| descriptorInterruptFlag) &&& descriptorEndFlag = 0 := by decide
  rw [adma2Entry, BitVec.and_or_distrib_right, BitVec.and_or_distrib_right, hzero, hflags]
  simp

lemma adma1Entry_fst_and_end (flag : Word) (s : Span 32) : (adma1Entry flag s).1 &&& descriptorEndFlag = 0 := by
  have hzero : BitVec.ofNat 32 s.length <<< 12 &&& descriptorEndFlag = 0 := shiftLeft_and_of_lt _ (by decide)
  have hflags : adma1DescriptorTypeSetLength &&& descriptorEndFlag = 0 := by decide
  rw [adma1Entry, BitVec.and_or_distrib_right, hzero, hflags]
  simp

lemma adma1Entry_snd_and_end (flag : Word) {s : Span 32} (haddr : s.address.toNat % 4096 = 0) :
    (adma1Entry flag s).2 &&& descriptorEndFlag = flag &&& descriptorEndFlag := by
  have hzero : s.address &&& descriptorEndFlag = 0 := by
    rw [← page_ushiftRight_shiftLeft haddr]
    exact shiftLeft_and_of_lt _ (by decide)
  have hflags : (descriptorTypeTransfer ||| descriptorInterruptFlag) &&& descriptorEndFlag = 0 := by decide
  rw [adma1Entry, BitVec.and_or_distrib_right, BitVec.and_or_distrib_right, hzero, hflags]
  simp

variable {front : List (Span 32)} {last : Span 32}

lemma endsLast_adma2 : EndsLast ((front.map (adma2Entry 0) ++ [adma2Entry descriptorEndFlag last]).map Prod.fst) := by
  refine ⟨(front.map (adma2Entry 0)).map Prod.fst, (adma2Entry descriptorEndFlag last).1, by simp, ?_, ?_⟩
  · intro w hw
    simp only [List.map_map, List.mem_map, Function.comp_apply] at hw
    obtain ⟨p, _, rfl⟩ := hw
    rw [adma2Entry_and_end]
    rfl
  · rw [adma2Entry_and_end]
    decide

lemma endsLast_adma1 (haddr : ∀ p ∈ front ++ [last], p.address.toNat % 4096 = 0) :
    EndsLast (entryWords (front.map (adma1Entry 0) ++ [adma1Entry descriptorEndFlag last])) := by
  refine ⟨entryWords (front.map (adma1Entry 0)) ++ [(adma1Entry descriptorEndFlag last).1],
    (adma1Entry descriptorEndFlag last).2, by simp, ?_, ?_⟩
  · intro w hw
    simp only [entryWords, List.flatMap_map, List.mem_append, List.mem_flatMap, List.mem_cons, List.not_mem_nil,
      or_false] at hw
    rcases hw with ⟨p, hp, rfl | rfl⟩ | rfl
    · exact adma1Entry_fst_and_end 0 p
    · rw [adma1Entry_snd_and_end 0 (haddr p (List.mem_append_left _ hp))]
      rfl
    · exact adma1Entry_fst_and_end descriptorEndFlag last
  · rw [adma1Entry_snd_and_end _ (haddr last (by simp))]
    decide

end Ends

end McuxDrivers.Usdhc
