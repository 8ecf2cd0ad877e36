import McuxDrivers.Lib.KeyTable
import McuxDrivers.Lib.Runs
import Mathlib.Data.Fin.VecNotation

/-!
# The multicast filter of the ENET driver

`ENET_AddMulticastGroup` and `ENET_LeaveMulticastGroup` of `fsl_enet.c`. The MAC receives a multicast frame if the bit of
`GAUR:GALR` at the hash of its destination is set.
-/

namespace McuxDrivers.Enet
open McuxDrivers.Lib

/-- The six bytes of a multicast group address. -/
abbrev GroupAddress := Fin 6 → BitVec 8

/-- The body of the loop over the bits of a byte. -/
def crcBit (x : BitVec 8 × BitVec 32) : BitVec 8 × BitVec 32 :=
  let (c, crc) := x
  if (c.setWidth 32 ^^^ crc) &&& 1#32 ≠ 0 then (c >>> 1, (crc >>> 1) ^^^ 0xEDB88320#32) else (c >>> 1, crc >>> 1)

/-- The loop over the bits of a byte. -/
def crcBits : Nat → BitVec 8 × BitVec 32 → BitVec 32
  | 0, x => x.2
  | n + 1, x => crcBits n (crcBit x)

/-- `crc >> 26U` after the loop over the bytes of the address. -/
def groupHash (address : GroupAddress) : BitVec 32 :=
  (List.finRange 6).foldl (fun crc i => crcBits 8 (address i, crc)) 0xFFFFFFFF#32 >>> 26

lemma groupHash_lt (address : GroupAddress) : (groupHash address).toNat < 64 := by
  unfold groupHash
  rw [BitVec.toNat_ushiftRight, Nat.shiftRight_eq_div_pow]
  omega

/-- The bit of `GAUR:GALR` for an address. -/
def groupBit (address : GroupAddress) : Fin 64 :=
  ⟨(groupHash address).toNat, groupHash_lt address⟩

/-- The registers, and the counters of the handle. -/
structure MulticastFilter where
  gaur : BitVec 32
  galr : BitVec 32
  multicastCount : Fin 64 → BitVec 8

namespace MulticastFilter

/-- `ENET_AddMulticastGroup`. -/
def addMulticastGroup (f : MulticastFilter) (address : GroupAddress) : MulticastFilter :=
  let crc := groupBit address
  let f := { f with multicastCount := Function.update f.multicastCount crc (f.multicastCount crc + 1) }
  let configVal := 1#32 <<< (crc.val &&& 0x1F)
  if crc.val &&& 0x20 ≠ 0 then { f with gaur := f.gaur ||| configVal } else { f with galr := f.galr ||| configVal }

/-- `ENET_LeaveMulticastGroup`. -/
def leaveMulticastGroup (f : MulticastFilter) (address : GroupAddress) : MulticastFilter :=
  let crc := groupBit address
  let f := { f with multicastCount := Function.update f.multicastCount crc (f.multicastCount crc - 1) }
  if f.multicastCount crc = 0 then
    let configVal := ~~~(1#32 <<< (crc.val &&& 0x1F))
    if crc.val &&& 0x20 ≠ 0 then { f with gaur := f.gaur &&& configVal } else { f with galr := f.galr &&& configVal }
  else f

/-- `GAUR:GALR`. -/
def group (f : MulticastFilter) : BitVec 64 :=
  f.gaur ++ f.galr

/-- The bits and the counters. -/
def table (f : MulticastFilter) : KeyTable (Fin 64) 8 where
  bit k := f.group.getLsbD k
  count := f.multicastCount

/-- The MAC receives the frames to a group. -/
def receives (f : MulticastFilter) (address : GroupAddress) : Bool :=
  f.group.getLsbD (groupBit address)

end MulticastFilter

/-- The filter with the addresses that are joined, each as often as it has been joined. -/
structure MulticastHistory where
  filter : MulticastFilter
  joined : List GroupAddress

inductive MulticastCall where
  | add (address : GroupAddress)
  | leave (address : GroupAddress)

namespace MulticastHistory

/-- The registers after reset, and the handle after `ENET_Init`. -/
def start : MulticastHistory where
  filter := { gaur := 0, galr := 0, multicastCount := fun _ => 0 }
  joined := []

def step (s : MulticastHistory) : MulticastCall → MulticastHistory
  | .add address => { filter := s.filter.addMulticastGroup address, joined := address :: s.joined }
  | .leave address => { filter := s.filter.leaveMulticastGroup address, joined := s.joined.erase address }

/-- Only addresses that are joined are left. -/
def LeavesJoined (s : MulticastHistory) : MulticastCall → Prop
  | .add _ => True
  | .leave address => address ∈ s.joined

/-- The memberships with the bit of an address that is left are not brought to a positive multiple of 256. -/
def CountsDown (s : MulticastHistory) : MulticastCall → Prop
  | .add _ => True
  | .leave address => KeyTable.CanRemove 8 groupBit s.joined address

/-- The bits are those of the joined addresses, whose frames are received. -/
structure Faithful (s : MulticastHistory) : Prop where
  bits : ∀ k : Fin 64, s.filter.group.getLsbD k = true ↔ ∃ address ∈ s.joined, groupBit address = k
  receives : ∀ address ∈ s.joined, s.filter.receives address = true

instance (s : MulticastHistory) (c : MulticastCall) : Decidable (s.LeavesJoined c) := by
  cases c <;> unfold LeavesJoined <;> infer_instance

end MulticastHistory

namespace MulticastFilter

variable (f : MulticastFilter)

/-- The bit of a register that a call sets or clears. -/
lemma getLsbD_mask (k i : Fin 64) : (1#32 <<< (k.val &&& 0x1F)).getLsbD (i.val % 32) = decide (i.val % 32 = k.val % 32) := by
  have hlow : k.val &&& 0x1F = k.val % 32 := Nat.and_two_pow_sub_one_eq_mod k.val 5
  rw [hlow, BitVec.getLsbD_shiftLeft, BitVec.getLsbD_one]
  grind

lemma upper_iff (k : Fin 64) : k.val &&& 0x20 ≠ 0 ↔ 32 ≤ k.val := by
  decide +revert

lemma getLsbD_group (k : Fin 64) :
    f.group.getLsbD k = if k.val < 32 then f.galr.getLsbD (k % 32) else f.gaur.getLsbD (k % 32) := by
  rw [group, BitVec.getLsbD_append]
  split_ifs with hlow
  · rw [Nat.mod_eq_of_lt hlow]
  · rw [show k.val % 32 = k.val - 32 by omega]

lemma eq_iff (i k : Fin 64) : i = k ↔ (i.val < 32 ↔ ¬ 32 ≤ k.val) ∧ i.val % 32 = k.val % 32 := by
  rw [Fin.ext_iff]
  omega

/-- What a call makes of the registers. -/
lemma getLsbD_group_set (k i : Fin 64) :
    (if 32 ≤ k.val then { f with gaur := f.gaur ||| (1#32 <<< (k.val &&& 0x1F)) }
      else { f with galr := f.galr ||| (1#32 <<< (k.val &&& 0x1F)) }).group.getLsbD i =
      Function.update (fun i : Fin 64 => f.group.getLsbD i) k true i := by
  rw [Function.update_apply, getLsbD_group, getLsbD_group]
  simp only [eq_iff]
  by_cases hk : 32 ≤ k.val <;> by_cases hi : i.val < 32 <;>
    simp only [hk, hi, if_true, if_false, BitVec.getLsbD_or, getLsbD_mask] <;>
    by_cases hmod : i.val % 32 = k.val % 32 <;> simp [hmod]

lemma getLsbD_group_clear (k i : Fin 64) :
    (if 32 ≤ k.val then { f with gaur := f.gaur &&& ~~~(1#32 <<< (k.val &&& 0x1F)) }
      else { f with galr := f.galr &&& ~~~(1#32 <<< (k.val &&& 0x1F)) }).group.getLsbD i =
      Function.update (fun i : Fin 64 => f.group.getLsbD i) k false i := by
  have hlt : i.val % 32 < 32 := Nat.mod_lt _ (by decide)
  rw [Function.update_apply, getLsbD_group, getLsbD_group]
  simp only [eq_iff]
  by_cases hk : 32 ≤ k.val <;> by_cases hi : i.val < 32 <;>
    simp only [hk, hi, if_true, if_false, BitVec.getLsbD_and, BitVec.getLsbD_not, getLsbD_mask] <;>
    by_cases hmod : i.val % 32 = k.val % 32 <;> simp [hmod, hlt]

/-- Joining a group sets the bit of its hash. -/
lemma table_addMulticastGroup (address : GroupAddress) :
    (f.addMulticastGroup address).table = f.table.insert (groupBit address) := by
  unfold addMulticastGroup
  simp only [upper_iff]
  unfold table KeyTable.insert
  generalize groupBit address = k
  congr 1
  · funext i
    exact getLsbD_group_set { f with multicastCount := Function.update f.multicastCount k (f.multicastCount k + 1) } k i
  · simp only
    split_ifs <;> rfl

/-- Leaving a group clears the bit of its hash with the counter. -/
lemma table_leaveMulticastGroup (address : GroupAddress) :
    (f.leaveMulticastGroup address).table = f.table.remove (groupBit address) := by
  unfold leaveMulticastGroup
  simp only [upper_iff, Function.update_self]
  unfold table KeyTable.remove
  generalize groupBit address = k
  by_cases hlast : f.multicastCount k - 1 = 0
  · simp only [if_pos hlast]
    congr 1
    · funext i
      exact getLsbD_group_clear { f with multicastCount := Function.update f.multicastCount k (f.multicastCount k - 1) } k i
    · split_ifs <;> rfl
  · simp only [if_neg hlast]
    rfl

end MulticastFilter

namespace MulticastHistory

/-- The bits and counters are in step with the joined addresses. -/
def Counts (s : MulticastHistory) : Prop :=
  KeyTable.Counted groupBit s.filter.table s.joined

lemma faithful_iff (s : MulticastHistory) : Faithful s ↔ KeyTable.Tracks groupBit s.filter.table s.joined := by
  constructor
  · intro h
    exact h.bits
  · intro htracks
    constructor
    · exact htracks
    · intro address hjoined
      exact (htracks (groupBit address)).mpr ⟨address, hjoined, rfl⟩

lemma counts_start : Counts start := by
  have htable : start.filter.table = ⟨fun _ => false, fun _ => 0⟩ := by
    unfold MulticastFilter.table
    congr 1
    funext i
    exact BitVec.getLsbD_zero
  rw [Counts, htable]
  exact KeyTable.counted_empty

lemma counts_step (s : MulticastHistory) (c : MulticastCall) (h : Counts s) (hleaves : s.LeavesJoined c)
    (hcounts : s.CountsDown c) : Counts (s.step c) := by
  cases c with
  | add address =>
    unfold Counts step
    rw [MulticastFilter.table_addMulticastGroup]
    exact h.insert address
  | leave address =>
    unfold Counts step
    rw [MulticastFilter.table_leaveMulticastGroup]
    exact h.remove hleaves hcounts

lemma not_faithful_step (s : MulticastHistory) (c : MulticastCall) (h : Counts s) (hleaves : s.LeavesJoined c)
    (hcounts : ¬ s.CountsDown c) : ¬ Faithful (s.step c) := by
  cases c with
  | add address => exact absurd trivial hcounts
  | leave address =>
    rw [faithful_iff]
    unfold step
    rw [MulticastFilter.table_leaveMulticastGroup]
    exact h.not_tracks_remove hleaves hcounts

/-- In a run that only leaves joined addresses, the filter follows the memberships after every call exactly when no leave
brings the memberships of its bit to a positive multiple of 256. -/
theorem multicastFilter_faithful_iff (calls : List MulticastCall) (hleaves : EachStep step LeavesJoined start calls) :
    (∀ front, front <+: calls → Faithful (front.foldl step start)) ↔ EachStep step CountsDown start calls :=
  forall_front_iff (fun s h => (faithful_iff s).mpr h.tracks) counts_step not_faithful_step calls counts_start hleaves

/-- Two groups are joined, one of them twice, and it is left once. -/
def joinedTwice : List MulticastCall :=
  [.add ![0x01, 0x00, 0x5E, 0, 0, 1], .add ![0x33, 0x33, 0, 0, 0, 1], .add ![0x01, 0x00, 0x5E, 0, 0, 1],
    .leave ![0x01, 0x00, 0x5E, 0, 0, 1]]

theorem multicastFilter_joinedTwice : Faithful (joinedTwice.foldl step start) :=
  (multicastFilter_faithful_iff joinedTwice (by decide +kernel)).mpr
    ⟨trivial, trivial, trivial, .inr (by decide +kernel), trivial⟩ _ (List.prefix_refl _)

/-- A group is joined 257 times and left once. -/
theorem multicastFilter_wrap :
    ¬ ∀ calls, EachStep step LeavesJoined start calls →
      ∀ front, front <+: calls → Faithful (front.foldl step start) := by
  intro h
  let address : GroupAddress := ![0x01, 0x00, 0x5E, 0, 0, 1]
  let calls : List MulticastCall := List.replicate 257 (.add address) ++ [.leave address]
  have hfaithful := h calls (by decide +kernel) calls (List.prefix_refl _)
  have hreceives := hfaithful.receives address (by decide +kernel)
  have hcleared : (calls.foldl step start).filter.receives address = false := by decide +kernel
  rw [hcleared] at hreceives
  cases hreceives

end MulticastHistory

end McuxDrivers.Enet
