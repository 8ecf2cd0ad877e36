import McuxDrivers.Lib.BitField
import Mathlib.Logic.Function.Basic

/-!
# Message buffers with a flexible data rate

A message buffer is a word with the control fields, a word with the identifier and the words of the payload. The calls of
the driver are lists of writes to these words, between which the controller may act. The device header that places the
fields is not part of the sources: `CsLayout` has the places as parameters.
-/

namespace McuxDrivers.FlexCan
open McuxDrivers.Lib

/-- `MBDSR0`. -/
inductive MbSize where
  | bytes8
  | bytes16
  | bytes32
  | bytes64
deriving DecidableEq

namespace MbSize

/-- The value of the field. -/
def dataSize : MbSize → Nat
  | bytes8 => 0
  | bytes16 => 1
  | bytes32 => 2
  | bytes64 => 3

/-- `payload_dword`. -/
def payloadDword (s : MbSize) : Nat :=
  1 <<< (s.dataSize + 1)

/-- `FLEXCAN_GetFDMailboxOffset`. -/
def mailboxOffset (s : MbSize) (mbIdx : Nat) : Nat :=
  (match s with
    | bytes8 => mbIdx / 32 * 512 + mbIdx % 32 * 16
    | bytes16 => mbIdx / 21 * 512 + mbIdx % 21 * 24
    | bytes32 => mbIdx / 12 * 512 + mbIdx % 12 * 40
    | bytes64 => mbIdx / 7 * 512 + mbIdx % 7 * 72) / 4

/-- The words of a message buffer. -/
def InMailbox (s : MbSize) (mbIdx a : Nat) : Prop :=
  s.mailboxOffset mbIdx ≤ a ∧ a < s.mailboxOffset mbIdx + 2 + s.payloadDword

instance (s : MbSize) (mbIdx a : Nat) : Decidable (s.InMailbox mbIdx a) :=
  inferInstanceAs (Decidable (_ ∧ _))

end MbSize

/-- The fields of the control word, and the mask of the identifier. -/
structure CsLayout where
  code : BitField
  timestamp : BitField
  dlc : BitField
  srr : BitField
  ide : BitField
  edl : BitField
  brs : BitField
  code_width : code.width = 4
  timestamp_width : timestamp.width = 16
  dlc_width : dlc.width = 4
  srr_width : srr.width = 1
  ide_width : ide.width = 1
  edl_width : edl.width = 1
  brs_width : brs.width = 1
  disjoint : [code, timestamp, dlc, srr, ide, edl, brs].Pairwise BitField.Disjoint

/-- `kFLEXCAN_RxMbFull`. -/
def rxMbFull : BitVec 32 := 0x2

/-- `kFLEXCAN_RxMbEmpty`. -/
def rxMbEmpty : BitVec 32 := 0x4

/-- `kFLEXCAN_RxMbOverrun`. -/
def rxMbOverrun : BitVec 32 := 0x6

/-- `kFLEXCAN_TxMbInactive`. -/
def txMbInactive : BitVec 32 := 0x8

/-- `kFLEXCAN_TxMbDataOrRemote`. -/
def txMbDataOrRemote : BitVec 32 := 0xC

/-- What a data frame carries, of `flexcan_fd_frame_t`. -/
structure FdFrame where
  id : BitVec 29
  extended : Bool
  length : BitVec 4
  edl : Bool
  brs : Bool
  dataWord : Nat → BitVec 32

/-- The part of the payload that a message buffer has room for. -/
def FdFrame.trim (s : MbSize) (f : FdFrame) : FdFrame :=
  { f with dataWord := fun cnt => if cnt < s.payloadDword then f.dataWord cnt else 0 }

/-- A write to a word. -/
abbrev Write := Nat × BitVec 32

section Calls

variable (L : CsLayout) (s : MbSize)

def bit (b : Bool) : BitVec 32 :=
  if b then 1 else 0

/-- The `cs_temp` of `FLEXCAN_WriteFDTxMb`. -/
def txCs (f : FdFrame) : BitVec 32 :=
  (if f.extended then L.srr.mask ||| L.ide.mask else 0#32) |||
    (L.code.put txMbDataOrRemote ||| L.dlc.put (f.length.setWidth 32) ||| L.edl.put (bit f.edl) |||
      L.brs.put (bit f.brs))

/-- The identifier and the payload. -/
def fillWrites (mbIdx : Nat) (f : FdFrame) : List Write :=
  (s.mailboxOffset mbIdx + 1, f.id.setWidth 32) ::
    (List.range s.payloadDword).map fun cnt => (s.mailboxOffset mbIdx + 2 + cnt, f.dataWord cnt)

/-- `FLEXCAN_WriteFDTxMb`: the writes after it has read `canCs`, or none for a buffer in use. -/
def writeFDTxMb (mbIdx : Nat) (canCs : BitVec 32) (f : FdFrame) : Option (List Write) :=
  if L.code.put txMbDataOrRemote ≠ canCs &&& L.code.mask then
    some ((s.mailboxOffset mbIdx, (canCs &&& ~~~L.code.mask) ||| L.code.put txMbInactive) ::
      (fillWrites s mbIdx f ++ [(s.mailboxOffset mbIdx, txCs L f)]))
  else none

/-- Writes of 0 behind the control word. -/
def cleanWrites (mbIdx : Nat) : List Write :=
  (s.mailboxOffset mbIdx + 1, 0) ::
    (List.range s.payloadDword).map fun cnt => (s.mailboxOffset mbIdx + 2 + cnt, 0)

/-- `FLEXCAN_SetFDTxMbConfig`. -/
def setFDTxMbConfig (mbIdx : Nat) (enable : Bool) : List Write :=
  (s.mailboxOffset mbIdx, if enable then L.code.put txMbInactive else 0) :: cleanWrites s mbIdx

/-- `FLEXCAN_SetFDRxMbConfig`, with the identifier and the format of the configuration if it is enabled. -/
def setFDRxMbConfig (mbIdx : Nat) (config : Option (BitVec 29 × Bool)) : List Write :=
  (s.mailboxOffset mbIdx, 0) :: (cleanWrites s mbIdx ++
    match config with
    | some (id, extended) =>
      [(s.mailboxOffset mbIdx + 1, id.setWidth 32),
        (s.mailboxOffset mbIdx, (if extended then L.ide.mask else 0#32) ||| L.code.put rxMbEmpty)]
    | none => [])

/-- The frame that a message buffer shows. -/
def shownFrame (mbIdx : Nat) (mem : Nat → BitVec 32) : FdFrame :=
  let cs := mem (s.mailboxOffset mbIdx)
  { id := (mem (s.mailboxOffset mbIdx + 1)).setWidth 29
    extended := cs &&& L.ide.mask ≠ 0
    length := (L.dlc.get cs).setWidth 4
    edl := cs &&& L.edl.mask ≠ 0
    brs := cs &&& L.brs.mask ≠ 0
    dataWord := fun cnt =>
      if cnt < s.payloadDword then mem (s.mailboxOffset mbIdx + 2 + cnt) else 0 }

end Calls

section Addresses

variable {s : MbSize} {i j a : Nat}

/-- A message buffer ends before the next one begins. -/
lemma mailboxOffset_add_le (h : i < j) : s.mailboxOffset i + 2 + s.payloadDword ≤ s.mailboxOffset j := by
  cases s with
  | bytes8 =>
    simp only [MbSize.mailboxOffset, MbSize.payloadDword, MbSize.dataSize]
    omega
  | bytes16 =>
    simp only [MbSize.mailboxOffset, MbSize.payloadDword, MbSize.dataSize]
    omega
  | bytes32 =>
    simp only [MbSize.mailboxOffset, MbSize.payloadDword, MbSize.dataSize]
    omega
  | bytes64 =>
    simp only [MbSize.mailboxOffset, MbSize.payloadDword, MbSize.dataSize]
    omega

/-- A word belongs to one message buffer at most. -/
lemma inMailbox_unique (hi : s.InMailbox i a) (hj : s.InMailbox j a) : i = j := by
  unfold MbSize.InMailbox at hi hj
  rcases Nat.lt_trichotomy i j with h | h | h
  · have hle := mailboxOffset_add_le (s := s) h
    omega
  · exact h
  · have hle := mailboxOffset_add_le (s := s) h
    omega

end Addresses

section Fields

variable {L : CsLayout} {f : FdFrame} {r : BitVec 32}

lemma toNat_bit_lt (b : Bool) : (bit b).toNat < 2 ^ 1 := by
  cases b <;> decide

/-- The two bits of an extended format as values of their fields. -/
lemma formatBits_eq (extended : Bool) :
    (if extended then L.srr.mask ||| L.ide.mask else 0#32) = L.srr.put (bit extended) ||| L.ide.put (bit extended) := by
  cases extended with
  | false => simp [bit]
  | true => simp [bit, BitField.put_one L.srr_width, BitField.put_one L.ide_width]

/-- The control word holds what the frame says. -/
lemma get_txCs :
    L.code.get (txCs L f) = txMbDataOrRemote ∧ L.dlc.get (txCs L f) = f.length.setWidth 32 ∧
      L.ide.get (txCs L f) = bit f.extended ∧ L.edl.get (txCs L f) = bit f.edl ∧
      L.brs.get (txCs L f) = bit f.brs := by
  have hdisjoint := L.disjoint
  simp only [List.pairwise_cons, List.mem_cons, List.not_mem_nil, or_false, forall_eq_or_imp, forall_eq] at hdisjoint
  obtain ⟨⟨-, hcd, hcs, hci, hce, hcb⟩, -, ⟨hds, hdi, hde, hdb⟩, ⟨hsi, hse, hsb⟩, ⟨hie, hib⟩, heb, -⟩ := hdisjoint
  have hcode : txMbDataOrRemote.toNat < 2 ^ L.code.width := by
    rw [L.code_width]
    decide
  have hdlc : (f.length.setWidth 32).toNat < 2 ^ L.dlc.width := by
    rw [L.dlc_width, BitVec.toNat_setWidth_of_le (by decide)]
    exact f.length.isLt
  have hide : (bit f.extended).toNat < 2 ^ L.ide.width := by
    rw [L.ide_width]
    exact toNat_bit_lt _
  have hedl : (bit f.edl).toNat < 2 ^ L.edl.width := by
    rw [L.edl_width]
    exact toNat_bit_lt _
  have hbrs : (bit f.brs).toNat < 2 ^ L.brs.width := by
    rw [L.brs_width]
    exact toNat_bit_lt _
  unfold txCs
  rw [formatBits_eq]
  simp only [BitField.get_or]
  refine ⟨?_, ?_, ?_, ?_, ?_⟩
  · rw [BitField.get_put_of_disjoint hcs, BitField.get_put_of_disjoint hci, BitField.get_put_self hcode,
      BitField.get_put_of_disjoint hcd, BitField.get_put_of_disjoint hce, BitField.get_put_of_disjoint hcb]
    simp
  · rw [BitField.get_put_of_disjoint hds, BitField.get_put_of_disjoint hdi, BitField.get_put_of_disjoint hcd.symm,
      BitField.get_put_self hdlc, BitField.get_put_of_disjoint hde, BitField.get_put_of_disjoint hdb]
    simp
  · rw [BitField.get_put_of_disjoint hsi.symm, BitField.get_put_self hide, BitField.get_put_of_disjoint hci.symm,
      BitField.get_put_of_disjoint hdi.symm, BitField.get_put_of_disjoint hie, BitField.get_put_of_disjoint hib]
    simp
  · rw [BitField.get_put_of_disjoint hse.symm, BitField.get_put_of_disjoint hie.symm,
      BitField.get_put_of_disjoint hce.symm, BitField.get_put_of_disjoint hde.symm, BitField.get_put_self hedl,
      BitField.get_put_of_disjoint heb]
    simp
  · rw [BitField.get_put_of_disjoint hsb.symm, BitField.get_put_of_disjoint hib.symm,
      BitField.get_put_of_disjoint hcb.symm, BitField.get_put_of_disjoint hdb.symm,
      BitField.get_put_of_disjoint heb.symm, BitField.get_put_self hbrs]
    simp

/-- A flag is read as it was written. -/
lemma flag_eq {F : BitField} {b : Bool} (h : F.get r = bit b) : decide (r &&& F.mask ≠ 0) = b := by
  cases b with
  | false => exact decide_eq_false (not_not.mpr (BitField.and_mask_eq_zero_iff.mpr h))
  | true =>
    apply decide_eq_true
    apply mt BitField.and_mask_eq_zero_iff.mp
    rw [h]
    decide

/-- A buffer is in use if its code says so. -/
lemma inUse_iff : L.code.put txMbDataOrRemote = r &&& L.code.mask ↔ L.code.get r = txMbDataOrRemote := by
  rw [BitField.put_eq_iff]
  rw [L.code_width]
  decide

/-- The driver makes the code inactive and keeps the rest of the word. -/
lemma get_inactive : L.code.get ((r &&& ~~~L.code.mask) ||| L.code.put txMbInactive) = txMbInactive := by
  rw [BitField.get_or, BitField.get_and_not_mask_self, BitField.get_put_self (by rw [L.code_width]; decide)]
  simp

end Fields

end McuxDrivers.FlexCan
