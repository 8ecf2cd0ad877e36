import McuxDrivers.Enet.TxFrames
import McuxDrivers.Enet.TxReclaim

/-!
# Handing a frame to the uDMA

Both send functions fill the descriptor at `txGenIdx`, make it READY and go on to the next one. `Handing` says what the
ring is after some of these steps.
-/

namespace McuxDrivers.Enet
open McuxDrivers.Lib

/-- The descriptor of the ring that comes `i` behind `txGenIdx`. -/
def TxFrames.slot (c : TxConfig) (s : TxFrames) (i : Nat) : Nat :=
  (s.ring.txGenIdx + i) % c.txRingLen

/-- One descriptor that was not READY is filled and handed over. -/
structure HandsOver (c : TxConfig) (s s' : TxFrames) (bytes : List UInt8) (last : Bool) : Prop where
  data : ∃ d : TxData, d.payload = bytes ∧ s'.data = Function.update s.data s.ring.txGenIdx d
  bds : s'.ring.txBdBase = Function.update s.ring.txBdBase s.ring.txGenIdx { ready := true, last := last }
  gen : s'.ring.txGenIdx = increaseIndex s.ring.txGenIdx c.txRingLen
  handed : s'.handed = s.handed ++ [⟨s.ring.txGenIdx, bytes, last, true⟩]

/-- The descriptor at `txGenIdx` is filled, and nothing else happens. -/
structure Fills (s filled : TxFrames) (bytes : List UInt8) : Prop where
  ring : filled.ring = s.ring
  data : ∃ d : TxData, d.payload = bytes ∧ filled.data = Function.update s.data s.ring.txGenIdx d
  handed : filled.handed = s.handed

section

variable {c : TxConfig} {s filled : TxFrames} {bytes : List UInt8}

lemma fills_copyData (hlt : bytes.length < 2 ^ 16) (tsFlag : Bool) : Fills s (s.copyData bytes tsFlag) bytes where
  ring := rfl
  data := by
    have hlength : bytes.length % 2 ^ 16 = bytes.length := Nat.mod_eq_of_lt hlt
    refine ⟨_, ?_, rfl⟩
    simp only [TxData.payload, hlength, List.take_left]
  handed := rfl

lemma fills_setBuffer (txConfig : TxDescConfig) (txBuff : EnetBuffer) :
    Fills s (s.setBuffer txConfig txBuff) txBuff.bytes where
  ring := rfl
  data := by
    refine ⟨_, ?_, rfl⟩
    exact List.take_length
  handed := rfl

lemma Fills.current (hfills : Fills s filled bytes) (hfree : s.busy = false) (last : Bool) :
    filled.current last = ⟨s.ring.txGenIdx, bytes, last, true⟩ := by
  obtain ⟨d, hpayload, hdata⟩ := hfills.data
  unfold TxFrames.busy at hfree
  simp [TxFrames.current, TxFrames.busy, hfills.ring, hdata, hpayload, hfree]

lemma Fills.queueBd (hfills : Fills s filled bytes) (hfree : s.busy = false) :
    HandsOver c s (filled.queueBd c) bytes false where
  data := hfills.data
  bds := by simp [TxFrames.queueBd, TxRing.queueBd, hfills.ring]
  gen := by simp [TxFrames.queueBd, TxRing.queueBd, hfills.ring]
  handed := by simp [TxFrames.queueBd, hfills.current hfree, hfills.handed]

lemma addContext_frame (r : TxRing) (context : Nat) :
    (r.addContext c context).txBdBase = r.txBdBase ∧ (r.addContext c context).txGenIdx = r.txGenIdx := by
  unfold TxRing.addContext
  split_ifs <;> exact ⟨rfl, rfl⟩

lemma Fills.queueLast (hfills : Fills s filled bytes) (hfree : s.busy = false) (context : Nat) :
    HandsOver c s (filled.queueLast c context) bytes true where
  data := hfills.data
  bds := by simp [TxFrames.queueLast, TxRing.queueLast, TxRing.queueBd, hfills.ring, addContext_frame]
  gen := by simp [TxFrames.queueLast, TxRing.queueLast, TxRing.queueBd, hfills.ring, addContext_frame]
  handed := by simp [TxFrames.queueLast, hfills.current hfree, hfills.handed]

end

/-- The descriptor still says what the uDMA was told. -/
def Handed.StandsIn (s : TxFrames) (d : Handed) : Prop :=
  (s.data d.index).payload = d.payload ∧ (s.ring.txBdBase d.index).last = d.last

/-- From `start` on, the descriptors of `new` have been handed over, one after the other. The last ones of them, as many
as the ring has, are still there, and READY unless the hardware has cleared that. Every other descriptor is left alone. -/
structure Handing (c : TxConfig) (cleared : Nat → Nat → Bool) (start s : TxFrames) (new : List Handed) : Prop where
  handed : s.handed = start.handed ++ new
  gen : s.ring.txGenIdx = start.slot c new.length
  index : ∀ i d, new[i]? = some d → d.index = start.slot c i
  fresh : ∀ d ∈ new, d.fresh = true
  stands : ∀ i d, new[i]? = some d → new.length ≤ i + c.txRingLen → d.StandsIn s
  ready : ∀ i d, new[i]? = some d → new.length ≤ i + c.txRingLen → (∀ round, cleared round d.index = false) →
    (s.ring.txBdBase d.index).ready = true
  rest : ∀ i, (∀ d ∈ new, d.index ≠ i) →
    s.data i = start.data i ∧ ((s.ring.txBdBase i).ready = true → (start.ring.txBdBase i).ready = true)

section

variable {c : TxConfig} {cleared : Nat → Nat → Bool} {start s s' : TxFrames} {new : List Handed}

lemma handing_nil (hgen : start.ring.txGenIdx < c.txRingLen) : Handing c cleared start start [] where
  handed := (List.append_nil _).symm
  gen := (Nat.mod_eq_of_lt hgen).symm
  index := by simp
  fresh := by simp
  stands := by simp
  ready := by simp
  rest _ _ := ⟨rfl, id⟩

lemma Handing.clearReady (hs : Handing c cleared start s new) (round : Nat) :
    Handing c cleared start (s.clearReady (cleared round)) new where
  handed := hs.handed
  gen := hs.gen
  index := hs.index
  fresh := hs.fresh
  stands := hs.stands
  ready i d hd hi hnone := by
    have hready := hs.ready i d hd hi hnone
    simp [TxFrames.clearReady, TxRing.clearReady, hready, hnone round]
  rest i hi := by
    refine ⟨(hs.rest i hi).1, fun hready => (hs.rest i hi).2 ?_⟩
    simp only [TxFrames.clearReady, TxRing.clearReady, Bool.and_eq_true] at hready
    exact hready.1

lemma slot_ne {i j : Nat} (hlt : i < j) (hnear : j < i + c.txRingLen) : start.slot c i ≠ start.slot c j := by
  intro hsame
  unfold TxFrames.slot at hsame
  have hmod : i % c.txRingLen = j % c.txRingLen := Nat.ModEq.add_left_cancel' start.ring.txGenIdx hsame
  have hdvd : c.txRingLen ∣ j - i := (Nat.modEq_iff_dvd' hlt.le).mp hmod
  have hle := Nat.le_of_dvd (by omega) hdvd
  omega

lemma slot_add_len (i : Nat) : start.slot c (i + c.txRingLen) = start.slot c i := by
  rw [TxFrames.slot, ← Nat.add_assoc, Nat.add_mod_right, TxFrames.slot]

lemma getElem?_concat_cases {α : Type} {l : List α} {x y : α} {i : Nat} (h : (l ++ [x])[i]? = some y) :
    (i < l.length ∧ l[i]? = some y) ∨ (i = l.length ∧ x = y) := by
  by_cases hlt : i < l.length
  · rw [List.getElem?_append_left hlt] at h
    exact Or.inl ⟨hlt, h⟩
  · rw [List.getElem?_append_right (by omega)] at h
    obtain ⟨hi, hx⟩ := List.getElem?_eq_some_iff.mp h
    rw [List.length_singleton] at hi
    refine Or.inr ⟨by omega, ?_⟩
    simpa using hx

/-- One more descriptor. -/
lemma Handing.hand (hs : Handing c cleared start s new) {bytes : List UInt8} {last : Bool}
    (hstep : HandsOver c s s' bytes last) :
    Handing c cleared start s' (new ++ [⟨start.slot c new.length, bytes, last, true⟩]) := by
  obtain ⟨d, hpayload, hdata⟩ := hstep.data
  have hother : ∀ i d, new[i]? = some d → i < new.length → new.length + 1 ≤ i + c.txRingLen →
      d.index ≠ s.ring.txGenIdx := by
    intro i d hd hlt hnear
    rw [hs.index i d hd, hs.gen]
    exact slot_ne hlt (by omega)
  constructor
  · rw [hstep.handed, hs.handed, hs.gen, List.append_assoc]
  · rw [hstep.gen, hs.gen, List.length_append, List.length_singleton]
    exact c.increaseIndex_add _ _
  · intro i d hd
    rcases getElem?_concat_cases hd with ⟨-, hold⟩ | ⟨rfl, rfl⟩
    · exact hs.index i d hold
    · rfl
  · intro d hd
    cases List.mem_append.mp hd with
    | inl hold => exact hs.fresh d hold
    | inr hnew => rw [List.mem_singleton.mp hnew]
  · intro i d hd hi
    rw [List.length_append, List.length_singleton] at hi
    rcases getElem?_concat_cases hd with ⟨hlt, hold⟩ | ⟨rfl, rfl⟩
    · have hne := hother i d hold hlt hi
      have hstands := hs.stands i d hold (by omega)
      rw [Handed.StandsIn, hdata, hstep.bds, Function.update_of_ne hne, Function.update_of_ne hne]
      exact hstands
    · simp [Handed.StandsIn, hdata, hstep.bds, hs.gen, hpayload]
  · intro i d hd hi hnone
    rw [List.length_append, List.length_singleton] at hi
    rcases getElem?_concat_cases hd with ⟨hlt, hold⟩ | ⟨rfl, rfl⟩
    · have hne := hother i d hold hlt hi
      rw [hstep.bds, Function.update_of_ne hne]
      exact hs.ready i d hold (by omega) hnone
    · simp [hstep.bds, hs.gen]
  · intro i hi
    have hne : i ≠ s.ring.txGenIdx := by
      rw [hs.gen]
      exact (hi _ (List.mem_append_right _ List.mem_cons_self)).symm
    rw [hdata, hstep.bds, Function.update_of_ne hne, Function.update_of_ne hne]
    exact hs.rest i (fun d hd => hi d (List.mem_append_left _ hd))

end

end McuxDrivers.Enet
