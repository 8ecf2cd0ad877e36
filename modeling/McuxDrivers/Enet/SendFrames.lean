import McuxDrivers.Enet.TxHanding

/-!
# A send function takes the whole frame or nothing

`ENET_StartTxFrame` counts the idle descriptors before it touches one. `ENET_SendFrame` hands over buffer after buffer and
only then looks whether the next descriptor is free.
-/

namespace McuxDrivers.Enet
open McuxDrivers.Lib

variable (c : TxConfig) (cleared : Nat → Nat → Bool)

/-- What the hardware alone makes of the ring. -/
def TxFrames.hardware (s : TxFrames) : Nat → TxFrames
  | 0 => s
  | rounds + 1 => (hardware s rounds).clearReady (cleared rounds)

/-- The descriptors are the buffers of `frame`, with LAST on the final one only. -/
structure CarriesFrame (frame : List UInt8) (new : List Handed) : Prop where
  bytes : (new.map Handed.payload).flatten = frame
  last : ∃ front final, new = front ++ [final] ∧ final.last = true ∧ ∀ d ∈ front, d.last = false

/-- The call from `start` to `s` has handed `frame` to the uDMA. -/
def Sends (start s : TxFrames) (frame : List UInt8) : Prop :=
  ∃ new, Handing c cleared start s new ∧ CarriesFrame frame new

/-- A call returns, and it sends the whole frame with success or leaves the ring alone. -/
def AllOrNothing (start : TxFrames) (frame : List UInt8) (result : Option (TxFrames × TxStatus)) : Prop :=
  ∃ s status, result = some (s, status) ∧
    (status = .success → Sends c cleared start s frame) ∧
    (status ≠ .success → ∃ rounds, s = start.hardware cleared rounds)

/-- The descriptor for buffer `i` is not READY after the test `rounds`: it was not READY at first, or the hardware has
cleared that since the descriptor was last handed over. -/
def Free (start : TxFrames) (rounds i : Nat) : Prop :=
  (i < c.txRingLen ∧ (start.ring.txBdBase (start.slot c i)).ready = false) ∨
    ∃ round ≤ rounds, i < round + c.txRingLen ∧ cleared round (start.slot c i) = true

/-- The buffers behind buffer `round`, where `left` bytes are left, find their descriptors free when their turn comes. -/
def RoomBehind (start : TxFrames) (round left : Nat) : Prop :=
  ∀ i, 0 < i → i * c.txBuffSizeAlign < left → Free c cleared start (round + i) (round + i)

/-- `ENET_SendFrame` refuses the frame before it touches the ring, or finds a free descriptor for each of its buffers. -/
def SendsOrRefuses (start : TxFrames) (frame : List UInt8) : Prop :=
  frame.length > c.lenLimitation ∨ ¬ Free c cleared start 0 0 ∨
    (start.ring.txReclaimEnable = true ∧ start.ring.isFull = true) ∨ RoomBehind c cleared start 0 frame.length

variable {c cleared} {start s s' : TxFrames} {new : List Handed}

lemma CarriesFrame.single {frame : List UInt8} {d : Handed} (hpayload : d.payload = frame) (hlast : d.last = true) :
    CarriesFrame frame [d] where
  bytes := by simp [hpayload]
  last := ⟨[], d, rfl, hlast, by simp⟩

lemma CarriesFrame.cons {frame : List UInt8} {d : Handed} (hnew : CarriesFrame frame new) (hlast : d.last = false) :
    CarriesFrame (d.payload ++ frame) (d :: new) where
  bytes := by simp [hnew.bytes]
  last := by
    obtain ⟨front, final, rfl, hfinal, hfront⟩ := hnew.last
    refine ⟨d :: front, final, rfl, hfinal, ?_⟩
    intro d' hd'
    cases List.mem_cons.mp hd' with
    | inl hsame => rw [hsame, hlast]
    | inr hold => exact hfront d' hold

lemma hardware_handed (rounds : Nat) : (start.hardware cleared rounds).handed = start.handed := by
  induction rounds with
  | zero => rfl
  | succ rounds ih => exact ih

lemma handing_hardware (hgen : start.ring.txGenIdx < c.txRingLen) (rounds : Nat) :
    Handing c cleared start (start.hardware cleared rounds) [] := by
  induction rounds with
  | zero => exact handing_nil hgen
  | succ rounds ih => exact ih.clearReady rounds

/-! Which descriptors are READY during `ENET_SendFrame`. -/

/-- The descriptors that the next buffers will find, after `rounds` buffers and the test behind them. -/
def Window (c : TxConfig) (cleared : Nat → Nat → Bool) (start s : TxFrames) (rounds : Nat) : Prop :=
  ∀ i, rounds ≤ i → i < rounds + c.txRingLen →
    ((s.ring.txBdBase (start.slot c i)).ready = false ↔ Free c cleared start rounds i)

lemma window_zero : Window c cleared start (start.clearReady (cleared 0)) 0 := by
  intro i _ hi
  have hlt : i < c.txRingLen := by omega
  simp only [TxFrames.clearReady, TxRing.clearReady, Free, hlt, true_and, Nat.le_zero, exists_eq_left, Nat.zero_add]
  cases (start.ring.txBdBase (start.slot c i)).ready <;> simp

lemma free_succ {rounds i : Nat} (hi : i < rounds + 1 + c.txRingLen) :
    Free c cleared start (rounds + 1) i ↔ Free c cleared start rounds i ∨ cleared (rounds + 1) (start.slot c i) = true := by
  constructor
  · rintro (hfirst | ⟨round, hround, hnear, hclear⟩)
    · exact Or.inl (Or.inl hfirst)
    · by_cases hlast : round = rounds + 1
      · rw [← hlast]
        exact Or.inr hclear
      · exact Or.inl (Or.inr ⟨round, by omega, hnear, hclear⟩)
  · rintro ((hfirst | ⟨round, hround, hnear, hclear⟩) | hclear)
    · exact Or.inl hfirst
    · exact Or.inr ⟨round, by omega, hnear, hclear⟩
    · exact Or.inr ⟨rounds + 1, le_rfl, hi, hclear⟩

/-- The descriptor that has just been handed over comes last. -/
lemma Window.next {rounds : Nat} (hwindow : Window c cleared start s rounds) (hgen : s.ring.txGenIdx = start.slot c rounds)
    {bytes : List UInt8} {last : Bool} (hstep : HandsOver c s s' bytes last) :
    Window c cleared start (s'.clearReady (cleared (rounds + 1))) (rounds + 1) := by
  intro i hi hlt
  have hready : (s'.ring.txBdBase (start.slot c i)).ready = false ↔ Free c cleared start rounds i := by
    by_cases hold : i < rounds + c.txRingLen
    · have hne : start.slot c i ≠ s.ring.txGenIdx := by
        rw [hgen]
        exact (slot_ne (by omega) (by omega)).symm
      rw [hstep.bds, Function.update_of_ne hne]
      exact hwindow i (by omega) hold
    · have hlast : i = rounds + c.txRingLen := by omega
      have hnever : ¬ Free c cleared start rounds i := by
        rintro (⟨hfirst, -⟩ | ⟨round, hround, hnear, -⟩) <;> omega
      rw [hstep.bds, hlast, slot_add_len, ← hgen, Function.update_self, ← hlast]
      simp [hnever]
  rw [free_succ hlt, ← hready]
  simp only [TxFrames.clearReady, TxRing.clearReady]
  cases (s'.ring.txBdBase (start.slot c i)).ready <;> simp

lemma Window.busy_iff {rounds : Nat} (hwindow : Window c cleared start s rounds)
    (hgen : s.ring.txGenIdx = start.slot c rounds) : s.busy = false ↔ Free c cleared start rounds rounds := by
  have hpos := c.len_pos
  rw [TxFrames.busy, hgen]
  exact hwindow rounds le_rfl (by omega)

lemma roomBehind_of_le {round left : Nat} (hle : left ≤ c.txBuffSizeAlign) : RoomBehind c cleared start round left := by
  intro i hi hleft
  have hone : c.txBuffSizeAlign ≤ i * c.txBuffSizeAlign := Nat.le_mul_of_pos_left _ hi
  omega

lemma roomBehind_next {round left : Nat} (hlt : c.txBuffSizeAlign < left) :
    RoomBehind c cleared start round left ↔ Free c cleared start (round + 1) (round + 1) ∧
      RoomBehind c cleared start (round + 1) (left - c.txBuffSizeAlign) := by
  constructor
  · intro hroom
    refine ⟨hroom 1 Nat.one_pos (by omega), ?_⟩
    intro i hi hleft
    have hnext := hroom (i + 1) (by omega) (by rw [Nat.add_mul, Nat.one_mul]; omega)
    rwa [Nat.add_comm i 1, ← Nat.add_assoc] at hnext
  · rintro ⟨hfree, hroom⟩ i hi hleft
    cases i with
    | zero => omega
    | succ i =>
      by_cases hfirst : i = 0
      · rwa [hfirst]
      · have hnext := hroom i (by omega) (by rw [Nat.add_mul, Nat.one_mul] at hleft; omega)
        rwa [Nat.add_comm i 1, ← Nat.add_assoc]

/-- One round of the loop of `ENET_SendFrame` that is not the last. -/
lemma sendLoop_round (hsize : c.txBuffSizeAlign < 2 ^ 16) (tsFlag : Bool) (context fuel : Nat) {left : List UInt8}
    (hmore : c.txBuffSizeAlign < left.length) (hs : Handing c cleared start s new)
    (hwindow : Window c cleared start s new.length) (hfree : s.busy = false) :
    ∃ s' d, d.payload = left.take c.txBuffSizeAlign ∧ d.last = false ∧ Handing c cleared start s' (new ++ [d]) ∧
      Window c cleared start s' (new ++ [d]).length ∧
      s.sendLoop c tsFlag context cleared (fuel + 1) new.length left =
        if s'.busy then some (s', .txFrameBusy)
        else s'.sendLoop c tsFlag context cleared fuel (new ++ [d]).length (left.drop c.txBuffSizeAlign) := by
  have htake : (left.take c.txBuffSizeAlign).length = c.txBuffSizeAlign := List.length_take_of_le hmore.le
  have hfills : Fills s (s.copyData (left.take c.txBuffSizeAlign) tsFlag) (left.take c.txBuffSizeAlign) :=
    fills_copyData (htake.symm ▸ hsize) tsFlag
  have hstep : HandsOver c s _ _ false := hfills.queueBd hfree
  refine ⟨_, _, ?_, ?_, (hs.hand hstep).clearReady (new.length + 1), ?_, ?_⟩
  · rfl
  · rfl
  · rw [List.length_append, List.length_singleton]
    exact hwindow.next hs.gen hstep
  · rw [TxFrames.sendLoop, if_pos hmore, List.length_append, List.length_singleton]

/-- The loop of `ENET_SendFrame` sends what is left if there is room, and leaves a part of the frame in the ring if not. -/
lemma sendLoop_spec (hsize : c.txBuffSizeAlign < 2 ^ 16) (tsFlag : Bool) (context : Nat) {fuel : Nat} {left : List UInt8}
    (hpos : 0 < left.length) (hfuel : left.length ≤ fuel) (hs : Handing c cleared start s new)
    (hwindow : Window c cleared start s new.length) (hfree : s.busy = false) :
    ∃ s' status, s.sendLoop c tsFlag context cleared fuel new.length left = some (s', status) ∧
      (RoomBehind c cleared start new.length left.length →
        status = .success ∧ ∃ rest, Handing c cleared start s' (new ++ rest) ∧ CarriesFrame left rest) ∧
      (¬ RoomBehind c cleared start new.length left.length → status ≠ .success ∧ s'.handed ≠ start.handed) := by
  induction fuel generalizing s new left with
  | zero => omega
  | succ fuel ih =>
    have hsizepos := c.size_pos
    by_cases hmore : c.txBuffSizeAlign < left.length
    · obtain ⟨s', d, hpayload, hlast, hnew, hnext, hround⟩ :=
        sendLoop_round hsize tsFlag context fuel hmore hs hwindow hfree
      have hdrop : (left.drop c.txBuffSizeAlign).length = left.length - c.txBuffSizeAlign := List.length_drop
      have hlength : (new ++ [d]).length = new.length + 1 := by simp
      have hbusy := hnext.busy_iff hnew.gen
      rw [hround, roomBehind_next hmore, ← hdrop, ← hlength, ← hbusy]
      cases hready : s'.busy with
      | true =>
        refine ⟨s', _, if_pos rfl, ?_, ?_⟩
        · rintro ⟨hno, -⟩
          cases hno
        · intro _
          refine ⟨by simp, ?_⟩
          rw [hnew.handed]
          simp
      | false =>
        have hsome : 0 < (left.drop c.txBuffSizeAlign).length := by omega
        have hless : (left.drop c.txBuffSizeAlign).length ≤ fuel := by omega
        obtain ⟨s'', status, hrun, hroom, hfull⟩ := ih hsome hless hnew hnext hready
        refine ⟨s'', status, ?_, ?_, ?_⟩
        · rw [if_neg (by simp)]
          exact hrun
        · rintro ⟨-, hbehind⟩
          obtain ⟨hstatus, rest, hall, hframe⟩ := hroom hbehind
          refine ⟨hstatus, d :: rest, ?_, ?_⟩
          · simpa using hall
          · have hcons := hframe.cons hlast
            rwa [hpayload, List.take_append_drop] at hcons
        · intro hnot
          exact hfull (fun hbehind => hnot ⟨rfl, hbehind⟩)
    · have hfills : Fills s (s.copyData left tsFlag) left := fills_copyData (by omega) tsFlag
      have hstep : HandsOver c s _ _ true := hfills.queueLast hfree context
      refine ⟨_, _, if_neg hmore, ?_, ?_⟩
      · intro _
        exact ⟨rfl, _, hs.hand hstep, CarriesFrame.single rfl rfl⟩
      · intro hnot
        exact absurd (roomBehind_of_le (by omega)) hnot

lemma allOrNothing_refused {status : TxStatus} (hstatus : status ≠ .success) (rounds : Nat) (frame : List UInt8) :
    AllOrNothing c cleared start frame (some (start.hardware cleared rounds, status)) :=
  ⟨_, status, rfl, fun hsuccess => absurd hsuccess hstatus, fun _ => ⟨rounds, rfl⟩⟩

lemma allOrNothing_sent {frame : List UInt8} (hs : Handing c cleared start s new) (hframe : CarriesFrame frame new) :
    AllOrNothing c cleared start frame (some (s, .success)) :=
  ⟨s, .success, rfl, fun _ => ⟨new, hs, hframe⟩, fun hnot => absurd rfl hnot⟩

/-- `ENET_SendFrame` meets the demand exactly if it does not run out of descriptors in the middle of the frame. -/
lemma sendFrame_allOrNothing_iff (hsize : c.txBuffSizeAlign < 2 ^ 16) (hgen : start.ring.txGenIdx < c.txRingLen)
    (frame : List UInt8) (tsFlag : Bool) (context : Nat) :
    AllOrNothing c cleared start frame (start.sendFrame c frame tsFlag context cleared) ↔
      SendsOrRefuses c cleared start frame := by
  have hs : Handing c cleared start (start.clearReady (cleared 0)) [] := handing_hardware hgen 1
  have hwindow : Window c cleared start (start.clearReady (cleared 0)) 0 := window_zero
  have hbusy := hwindow.busy_iff hs.gen
  unfold TxFrames.sendFrame SendsOrRefuses
  by_cases hlong : frame.length > c.lenLimitation
  · rw [if_pos hlong]
    exact iff_of_true (allOrNothing_refused (by simp) 0 frame) (Or.inl hlong)
  · rw [if_neg hlong, ← hbusy]
    cases hready : (start.clearReady (cleared 0)).busy with
    | true =>
      simp only [hready, if_true]
      exact iff_of_true (allOrNothing_refused (by simp) 1 frame) (Or.inr (Or.inl (by simp)))
    | false =>
      by_cases hfull : start.ring.txReclaimEnable = true ∧ start.ring.isFull = true
      · have hkeeps : ((start.clearReady (cleared 0)).ring.txReclaimEnable && (start.clearReady (cleared 0)).ring.isFull) =
            true := by simpa [TxFrames.clearReady, TxRing.clearReady] using hfull
        simp only [hready, hkeeps, Bool.false_eq_true, if_false, if_true]
        exact iff_of_true (allOrNothing_refused (by simp) 1 frame) (Or.inr (Or.inr (Or.inl hfull)))
      · have hkeeps : ((start.clearReady (cleared 0)).ring.txReclaimEnable && (start.clearReady (cleared 0)).ring.isFull) =
            false := by simpa [TxFrames.clearReady, TxRing.clearReady] using hfull
        simp only [hready, hkeeps, hlong, hfull, Bool.false_eq_true, if_false, not_true_eq_false, false_or]
        by_cases hone : c.txBuffSizeAlign ≥ frame.length
        · have hfills : Fills (start.clearReady (cleared 0)) ((start.clearReady (cleared 0)).copyData frame tsFlag) frame :=
            fills_copyData (by omega) tsFlag
          have hstep : HandsOver c (start.clearReady (cleared 0)) _ _ true := hfills.queueLast hready context
          rw [if_pos hone]
          exact iff_of_true (allOrNothing_sent (hs.hand hstep) (CarriesFrame.single rfl rfl)) (roomBehind_of_le hone)
        · rw [if_neg hone]
          have hsome : 0 < frame.length := by omega
          obtain ⟨s', status, hrun, hroom, hpart⟩ :=
            sendLoop_spec hsize tsFlag context hsome le_rfl hs hwindow hready
          rw [List.length_nil] at hrun hroom hpart
          rw [hrun]
          constructor
          · rintro ⟨s'', status', hsame, -, hrefused⟩
            obtain ⟨rfl, rfl⟩ := Prod.mk.inj (Option.some.inj hsame)
            by_contra hnone
            obtain ⟨hstatus, hchanged⟩ := hpart hnone
            obtain ⟨rounds, rfl⟩ := hrefused hstatus
            exact hchanged (hardware_handed rounds)
          · intro hall
            obtain ⟨rfl, new, hsent, hframe⟩ := hroom hall
            exact allOrNothing_sent hsent hframe

/-! `ENET_StartTxFrame`. -/

/-- The descriptors `i`, …, `j - 1` behind `txGenIdx` at the start are not READY. -/
def IdleSlots (c : TxConfig) (start s : TxFrames) (i j : Nat) : Prop :=
  ∀ k, i ≤ k → k < j → (s.ring.txBdBase (start.slot c k)).ready = false

lemma IdleSlots.clearReady {i j : Nat} (hidle : IdleSlots c start s i j) (clear : Nat → Bool) :
    IdleSlots c start (s.clearReady clear) i j := by
  intro k hi hj
  simp [TxFrames.clearReady, TxRing.clearReady, hidle k hi hj]

lemma IdleSlots.hand {i j : Nat} (hidle : IdleSlots c start s i j) (hgen : s.ring.txGenIdx = start.slot c i)
    (hle : j ≤ i + c.txRingLen) {bytes : List UInt8} {last : Bool} (hstep : HandsOver c s s' bytes last) :
    IdleSlots c start s' (i + 1) j := by
  intro k hi hj
  have hne : start.slot c k ≠ s.ring.txGenIdx := by
    rw [hgen]
    exact (slot_ne (by omega) (by omega)).symm
  rw [hstep.bds, Function.update_of_ne hne]
  exact hidle k (by omega) hj

/-- The loop that counts stops behind idle descriptors, at most once around the ring. -/
lemma idleLoop_spec (hgen : start.ring.txGenIdx < c.txRingLen) (txBuffNum : Nat) {fuel count : Nat}
    (hlt : count < c.txRingLen) (hfuel : c.txRingLen ≤ fuel + count)
    (hidle : IdleSlots c start (start.hardware cleared count) 0 count) :
    ∃ rounds idleDescNum,
      (start.hardware cleared count).idleLoop c txBuffNum cleared fuel (start.slot c count) count =
        some (start.hardware cleared rounds, idleDescNum) ∧
      idleDescNum ≤ c.txRingLen ∧ IdleSlots c start (start.hardware cleared rounds) 0 idleDescNum := by
  induction fuel generalizing count with
  | zero => omega
  | succ fuel ih =>
    have hround : (start.hardware cleared count).clearReady (cleared count) = start.hardware cleared (count + 1) := rfl
    have hkeep : IdleSlots c start (start.hardware cleared (count + 1)) 0 count := hidle.clearReady (cleared count)
    have hnext : increaseIndex (start.slot c count) c.txRingLen = start.slot c (count + 1) := c.increaseIndex_add _ _
    have hfirst : (start.hardware cleared (count + 1)).ring.txGenIdx = start.slot c 0 :=
      (handing_hardware hgen (count + 1)).gen
    rw [TxFrames.idleLoop, hround, hnext]
    by_cases hready : ((start.hardware cleared (count + 1)).ring.txBdBase (start.slot c count)).ready = true
    · exact ⟨count + 1, count, if_pos hready, hlt.le, hkeep⟩
    · have hmore : IdleSlots c start (start.hardware cleared (count + 1)) 0 (count + 1) := by
        intro k _ hk
        by_cases hlast : k = count
        · rw [hlast]
          exact Bool.eq_false_iff.mpr hready
        · exact hkeep k (Nat.zero_le k) (by omega)
      simp only [hready, Bool.false_eq_true, if_false]
      by_cases henough : count + 1 ≥ txBuffNum
      · exact ⟨count + 1, count + 1, if_pos henough, hlt, hmore⟩
      · rw [if_neg henough]
        by_cases haround : start.slot c (count + 1) = (start.hardware cleared (count + 1)).ring.txGenIdx
        · exact ⟨count + 1, count + 1, if_pos haround, hlt, hmore⟩
        · have hinside : count + 1 < c.txRingLen := by
            by_contra hend
            apply haround
            have hwhole : count + 1 = 0 + c.txRingLen := by omega
            rw [hwhole, slot_add_len, ← hwhole, hfirst]
          rw [if_neg haround]
          exact ih hinside (by omega) hmore

/-- The loop over the buffers sends them all if their descriptors are idle. -/
lemma startLoop_spec (txConfig : TxDescConfig) (context : Nat) (txBuff : EnetBuffer) (rest : List EnetBuffer)
    (hs : Handing c cleared start s new) (hle : rest.length + 1 ≤ c.txRingLen)
    (hidle : IdleSlots c start s new.length (new.length + rest.length + 1)) :
    ∃ more, Handing c cleared start (s.startLoop c txConfig context txBuff rest) (new ++ more) ∧
      CarriesFrame ((txBuff :: rest).map EnetBuffer.bytes).flatten more := by
  induction rest generalizing txBuff s new with
  | nil =>
    have hfree : s.busy = false := by
      rw [TxFrames.busy, hs.gen]
      exact hidle new.length le_rfl (by omega)
    have hfills : Fills s (s.setBuffer txConfig txBuff) txBuff.bytes := fills_setBuffer txConfig txBuff
    refine ⟨_, hs.hand (hfills.queueLast hfree context), CarriesFrame.single ?_ rfl⟩
    simp
  | cons next rest ih =>
    have hfree : s.busy = false := by
      rw [TxFrames.busy, hs.gen]
      exact hidle new.length le_rfl (by omega)
    have hfills : Fills s (s.setBuffer txConfig txBuff) txBuff.bytes := fills_setBuffer txConfig txBuff
    have hstep : HandsOver c s _ _ false := hfills.queueBd hfree
    obtain ⟨d, hpayload, hlast, hnew⟩ : ∃ d : Handed, d.payload = txBuff.bytes ∧ d.last = false ∧
        Handing c cleared start ((s.setBuffer txConfig txBuff).queueBd c) (new ++ [d]) :=
      ⟨_, rfl, rfl, hs.hand hstep⟩
    have hlength : (new ++ [d]).length = new.length + 1 := by simp
    rw [List.length_cons] at hle hidle
    have hbehind := hidle.hand hs.gen (by omega) hstep
    obtain ⟨more, hall, hframe⟩ := ih next hnew (by omega) (by
      rw [hlength]
      exact fun k hi hj => hbehind k hi (by omega))
    refine ⟨d :: more, ?_, ?_⟩
    · simpa [TxFrames.startLoop] using hall
    · have hcons := hframe.cons hlast
      rwa [hpayload] at hcons

/-- `ENET_StartTxFrame` meets the demand. -/
lemma startTxFrame_allOrNothing (hgen : start.ring.txGenIdx < c.txRingLen) (first : EnetBuffer) (rest : List EnetBuffer)
    (txConfig : TxDescConfig) (context : Nat) :
    AllOrNothing c cleared start ((first :: rest).map EnetBuffer.bytes).flatten
      (start.startTxFrame c first rest txConfig context cleared) := by
  have hslot : start.slot c 0 = start.ring.txGenIdx := Nat.mod_eq_of_lt hgen
  have hnone : IdleSlots c start (start.hardware cleared 0) 0 0 := by
    intro k _ hk
    omega
  obtain ⟨rounds, idleDescNum, hrun, hle, hidle⟩ := idleLoop_spec hgen (rest.length + 1) c.len_pos le_rfl hnone
  rw [hslot] at hrun
  have hcounted : start.idleLoop c (rest.length + 1) cleared c.txRingLen start.ring.txGenIdx 0 =
      some (start.hardware cleared rounds, idleDescNum) := hrun
  simp only [TxFrames.startTxFrame, hcounted, Option.map_some]
  split_ifs with hlong hfew hfull
  · exact allOrNothing_refused (by simp) rounds _
  · exact allOrNothing_refused (by simp) rounds _
  · exact allOrNothing_refused (by simp) rounds _
  · have hs : Handing c cleared start (start.hardware cleared rounds) [] := handing_hardware hgen rounds
    have hroom : IdleSlots c start (start.hardware cleared rounds) 0 (0 + rest.length + 1) :=
      fun k hi hj => hidle k hi (by omega)
    obtain ⟨more, hall, hframe⟩ := startLoop_spec txConfig context first rest hs (by omega) hroom
    exact allOrNothing_sent hall hframe

variable (c cleared start)

/-- Both functions send the whole frame or leave the ring alone exactly if `ENET_SendFrame` refuses its frame at once or
has a free descriptor for each buffer. -/
theorem send_allOrNothing_iff (hsize : c.txBuffSizeAlign < 2 ^ 16) (hgen : start.ring.txGenIdx < c.txRingLen)
    (frame : List UInt8) (tsFlag : Bool) (first : EnetBuffer) (rest : List EnetBuffer) (txConfig : TxDescConfig)
    (context : Nat) :
    (AllOrNothing c cleared start frame (start.sendFrame c frame tsFlag context cleared) ∧
      AllOrNothing c cleared start ((first :: rest).map EnetBuffer.bytes).flatten
        (start.startTxFrame c first rest txConfig context cleared)) ↔
      SendsOrRefuses c cleared start frame := by
  rw [sendFrame_allOrNothing_iff hsize hgen frame tsFlag context]
  exact and_iff_left (startTxFrame_allOrNothing hgen first rest txConfig context)

lemma three_lt : 3 < 2 ^ 16 := by
  decide

def threeDescriptors : TxConfig where
  txRingLen := 3
  txBuffSizeAlign := 4
  lenLimitation := 1514
  len_pos := Nat.succ_pos 2
  len_lt := three_lt
  size_pos := Nat.succ_pos 3

/-- A ring with buffers of four bytes, in which the descriptors of `busy` are READY. -/
def busyRing (busy : Nat → Bool) : TxFrames where
  ring := { TxRing.empty (fun _ => true) 0 0 0 with txBdBase := fun i => { ready := busy i, last := true } }
  data := fun _ => ⟨[0, 0, 0, 0], 0, 0⟩
  handed := []

theorem send_allOrNothing_free :
    AllOrNothing threeDescriptors (fun _ _ => false) (busyRing fun _ => false) [1, 2, 3, 4, 5, 6]
        ((busyRing fun _ => false).sendFrame threeDescriptors [1, 2, 3, 4, 5, 6] true 7 fun _ _ => false) ∧
      AllOrNothing threeDescriptors (fun _ _ => false) (busyRing fun _ => false) [1, 2, 3]
        ((busyRing fun _ => false).startTxFrame threeDescriptors ⟨[1, 2], by decide⟩ [⟨[3], by decide⟩]
          ⟨true, true, false, false⟩ 7 fun _ _ => false) := by
  apply (send_allOrNothing_iff threeDescriptors (fun _ _ => false) (busyRing fun _ => false) (by decide) (by decide)
    [1, 2, 3, 4, 5, 6] true ⟨[1, 2], by decide⟩ [⟨[3], by decide⟩] ⟨true, true, false, false⟩ 7).mpr
  refine Or.inr (Or.inr (Or.inr ?_))
  intro i hi hleft
  have hsecond : i = 1 := by
    change i * 4 < 6 at hleft
    omega
  rw [hsecond]
  exact Or.inl ⟨by decide, rfl⟩

/-- The second descriptor is busy: the first four bytes go to the uDMA, and the call reports a busy ring. -/
theorem send_second_busy :
    ¬ AllOrNothing threeDescriptors (fun _ _ => false) (busyRing fun i => i == 1) [1, 2, 3, 4, 5, 6]
      ((busyRing fun i => i == 1).sendFrame threeDescriptors [1, 2, 3, 4, 5, 6] true 7 fun _ _ => false) := by
  rintro ⟨s, status, hrun, -, hrefused⟩
  have hpart : ((busyRing fun i => i == 1).sendFrame threeDescriptors [1, 2, 3, 4, 5, 6] true 7 fun _ _ => false).map
      (fun result => (result.1.handed.length, result.2)) = some (1, .txFrameBusy) := by decide
  rw [hrun] at hpart
  obtain ⟨hlength, hstatus⟩ := Prod.mk.inj (Option.some.inj hpart)
  obtain ⟨rounds, rfl⟩ := hrefused (by
    rw [show status = .txFrameBusy from hstatus]
    simp)
  rw [hardware_handed] at hlength
  cases hlength

end McuxDrivers.Enet
