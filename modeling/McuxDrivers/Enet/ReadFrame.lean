import McuxDrivers.Lib.ByteMemory
import McuxDrivers.Lib.Countdown
import McuxDrivers.Enet.RxFrames

/-!
# Frames copied out of the receive ring

`ENET_GetRxFrameSize` and `ENET_ReadFrame` of `fsl_enet.c` on one ring, without timestamps. `size` is `rxBuffSizeAlign`,
and the pointers do not wrap.
-/

namespace McuxDrivers.Enet
open McuxDrivers.Lib

inductive ReadStatus where
  | success
  | rxFrameFail
deriving DecidableEq

namespace RxRing

variable (c : RxConfig)

/-- The loop of `ENET_GetRxFrameSize`, of at most `fuel` rounds: the code and `*length`. -/
def sizeLoop (r : RxRing) : Nat → Nat → Option (RxStatus × Nat)
  | 0, _ => none
  | fuel + 1, index =>
    let bd := r.rxBdBase index
    if bd.length = 0 then some (.rxFrameError, 0)
    else if bd.last && !bd.empty then
      if bd.error then some (.rxFrameError, 0) else some (.success, bd.length)
    else if increaseIndex index c.rxRingLen = r.rxGenIdx then some (.rxFrameEmpty, 0)
    else sizeLoop r fuel (increaseIndex index c.rxRingLen)

/-- `ENET_GetRxFrameSize`. -/
def getRxFrameSize (r : RxRing) : Option (RxStatus × Nat) :=
  if (r.rxBdBase r.rxGenIdx).empty then some (.rxFrameEmpty, 0) else r.sizeLoop c c.rxRingLen r.rxGenIdx

/-- `ENET_UpdateReadBuffers`. -/
def updateReadBuffers (r : RxRing) : RxRing :=
  r.release c (r.rxBdBase r.rxGenIdx).buffer

/-- The loop of `ENET_ReadFrame` without a buffer of the caller, of at most `fuel` rounds. -/
def updateLoop (index : Nat) : Nat → RxRing → Option RxRing
  | 0, _ => none
  | fuel + 1, r =>
    let last := (r.rxBdBase r.rxGenIdx).last
    let r := r.updateReadBuffers c
    if last then some r else if r.rxGenIdx = index then some r else updateLoop index fuel r

/-- The loop of `ENET_ReadFrame` with a buffer of the caller at `data`, of at most `fuel` rounds. -/
def readLoop (size data length : Nat) : Nat → Nat → RxRing → ByteMemory → Option (RxRing × ByteMemory × ReadStatus)
  | 0, _, _, _ => none
  | fuel + 1, offset, r, m =>
    let bd := r.rxBdBase r.rxGenIdx
    if bd.last then
      if length = bd.length then
        some (r.updateReadBuffers c, m.store (data + offset) (m.read bd.buffer (wsub32 bd.length offset)), .success)
      else some (r.updateReadBuffers c, m, .success)
    else if offset ≥ length then some (r, m, .rxFrameFail)
    else
      readLoop size data length fuel ((offset + size) % 2 ^ 32) (r.updateReadBuffers c)
        (m.store (data + offset) (m.read bd.buffer size))

/-- `ENET_ReadFrame`, where `data` may be `NULL`. -/
def readFrame (size : Nat) (data : Option Nat) (length : Nat) (r : RxRing) (m : ByteMemory) :
    Option (RxRing × ByteMemory × ReadStatus) :=
  match data with
  | none => (r.updateLoop c r.rxGenIdx c.rxRingLen).map fun r => (r, m, .success)
  | some data => readLoop c size data length c.rxRingLen 0 r m

end RxRing

/-- The first frame of the ring is in the descriptors `front`, which are full, and `final`, which tells its length. -/
structure HoldsFrame (c : RxConfig) (size : Nat) (r : RxRing) (front : List RxBd) (final : RxBd) (rest : List RxBd) :
    Prop where
  gen_lt : r.rxGenIdx < c.rxRingLen
  view : r.view c = front ++ final :: rest
  filled : ∀ bd ∈ front ++ [final], bd.empty = false
  front_last : ∀ bd ∈ front, bd.last = false
  full : ∀ bd ∈ front, bd.length = size
  final_last : final.last = true
  pos : 0 < final.length
  length_lt : final.length < 2 ^ 16
  length_ge : front.length * size ≤ final.length
  length_le : final.length ≤ (front.length + 1) * size

/-- The bytes of a frame, of which `offset` are before `front`. -/
def frameBytes (m : ByteMemory) (size offset : Nat) (front : List RxBd) (final : RxBd) : List UInt8 :=
  (front.map fun bd => m.read bd.buffer size).flatten ++
    m.read final.buffer (final.length - (offset + front.length * size))

/-- What a call of `ENET_ReadFrame` from `r` and `m` to `r'` and `m'` owes its caller. -/
structure ReadsFrame (c : RxConfig) (size data length : Nat) (r : RxRing) (m : ByteMemory) (front : List RxBd) (final : RxBd)
    (rest : List RxBd) (r' : RxRing) (m' : ByteMemory) (status : ReadStatus) : Prop where
  inside : ∃ writes, m'.written = m.written ++ writes ∧ ∀ x ∈ writes, data ≤ x ∧ x < data + length
  consumed : RxRing.Turned c r r' rest ((front ++ [final]).map fun bd => bd.refill bd.buffer)
  truthful : status = .success → length = final.length ∧ m'.read data length = frameBytes m size 0 front final
  reported : (status = .success ∧ length = final.length ∧ m'.read data length = frameBytes m size 0 front final) ↔
    r.getRxFrameSize c = some (.success, length)

lemma frameBytes_nil (m : ByteMemory) (size offset : Nat) (final : RxBd) :
    frameBytes m size offset [] final = m.read final.buffer (final.length - offset) := by
  simp [frameBytes]

lemma frameBytes_cons (m : ByteMemory) (size offset : Nat) (bd : RxBd) (front : List RxBd) (final : RxBd) :
    frameBytes m size offset (bd :: front) final =
      m.read bd.buffer size ++ frameBytes m size (offset + size) front final := by
  have hsum : offset + (front.length + 1) * size = offset + size + front.length * size := by
    rw [Nat.add_mul, Nat.one_mul]
    omega
  simp only [frameBytes, List.map_cons, List.flatten_cons, List.length_cons, hsum, List.append_assoc]

/-- Bytes that are written apart from the buffers of a frame do not change it. -/
lemma frameBytes_store (m : ByteMemory) {size offset a : Nat} {front : List RxBd} {final : RxBd} (bytes : List UInt8)
    (hle : final.length ≤ offset + (front.length + 1) * size)
    (hapart : ∀ bd ∈ front ++ [final], bd.buffer + size ≤ a ∨ a + bytes.length ≤ bd.buffer) :
    frameBytes (m.store a bytes) size offset front final = frameBytes m size offset front final := by
  have hlast : final.length - (offset + front.length * size) ≤ size := by
    rw [Nat.add_mul, Nat.one_mul] at hle
    omega
  have hfinal := hapart final (List.mem_append_right _ List.mem_cons_self)
  have hfront : ∀ bd ∈ front, (m.store a bytes).read bd.buffer size = m.read bd.buffer size := by
    intro bd hbd
    exact m.read_store_of_disjoint bytes (hapart bd (List.mem_append_left _ hbd))
  rw [frameBytes, frameBytes, List.map_congr_left hfront, m.read_store_of_disjoint bytes (by omega)]

lemma length_frameBytes (m : ByteMemory) {size offset : Nat} {front : List RxBd} {final : RxBd}
    (hge : offset + front.length * size ≤ final.length) :
    (frameBytes m size offset front final).length = final.length - offset := by
  induction front generalizing offset with
  | nil => rw [frameBytes_nil, ByteMemory.length_read]
  | cons bd front ih =>
    rw [List.length_cons, Nat.succ_mul] at hge
    rw [frameBytes_cons, List.length_append, ByteMemory.length_read, ih (by omega)]
    omega

namespace RxRing

variable {c : RxConfig} {r : RxRing} {m : ByteMemory} {size data length offset fuel : Nat}
variable {front rest : List RxBd} {final : RxBd}

lemma turned_update {bd : RxBd} (hlt : r.rxGenIdx < c.rxRingLen) (hview : r.view c = bd :: rest) :
    Turned c r (r.updateReadBuffers c) rest [bd.refill bd.buffer] := by
  rw [updateReadBuffers, head_of_view hlt hview]
  exact turned_release hlt hview bd.buffer r.pool

/-- With the right length the loop copies the frame. -/
lemma readLoop_right (hlt : r.rxGenIdx < c.rxRingLen) (hview : r.view c = front ++ final :: rest)
    (hfront : ∀ bd ∈ front, bd.last = false) (hfinal : final.last = true) (hmax : final.length < 2 ^ 16)
    (hsize : 0 < size) (hge : offset + front.length * size ≤ final.length)
    (hle : final.length ≤ offset + (front.length + 1) * size)
    (hapart : ∀ bd ∈ front ++ [final], bd.buffer + size ≤ data ∨ data + final.length ≤ bd.buffer)
    (hfuel : front.length < fuel) :
    ∃ r', readLoop c size data final.length fuel offset r m =
        some (r', m.store (data + offset) (frameBytes m size offset front final), .success) ∧
      Turned c r r' rest ((front ++ [final]).map fun bd => bd.refill bd.buffer) := by
  induction front generalizing r m offset rest fuel with
  | nil =>
    obtain ⟨fuel, rfl⟩ : ∃ n, fuel = n + 1 := Nat.exists_eq_succ_of_ne_zero (by omega)
    rw [List.length_nil, Nat.zero_mul, Nat.add_zero] at hge
    refine ⟨r.updateReadBuffers c, ?_, turned_update hlt hview⟩
    rw [readLoop, head_of_view hlt hview, hfinal, if_pos rfl, if_pos rfl, wsub32_of_le hge,
      frameBytes_nil]
  | cons bd front ih =>
    obtain ⟨fuel, rfl⟩ : ∃ n, fuel = n + 1 := Nat.exists_eq_succ_of_ne_zero (by omega)
    rw [List.length_cons] at hge hle hfuel
    rw [Nat.succ_mul] at hge hle
    rw [List.cons_append] at hview
    have hturn := turned_update hlt hview
    have hnext := hturn.view
    rw [List.append_assoc, List.cons_append] at hnext
    have hoffset : (offset + size) % 2 ^ 32 = offset + size := Nat.mod_eq_of_lt (by omega)
    have hge' : offset + size + front.length * size ≤ final.length := by omega
    have hle' : final.length ≤ offset + size + (front.length + 1) * size := by omega
    have hfuel' : front.length < fuel := by omega
    obtain ⟨r', hloop, hturned⟩ :=
      ih (m := m.store (data + offset) (m.read bd.buffer size)) hturn.gen_lt hnext
        (fun x hx => hfront x (List.mem_cons_of_mem bd hx)) hge' hle'
        (fun x hx => hapart x (List.mem_cons_of_mem bd hx)) hfuel'
    refine ⟨r', ?_, ?_⟩
    · rw [readLoop, head_of_view hlt hview, hfront bd List.mem_cons_self, if_neg (by simp), if_neg (by omega), hoffset,
        hloop, frameBytes_store m _ hle' ?_, frameBytes_cons, ← ByteMemory.store_append, ByteMemory.length_read,
        Nat.add_assoc]
      intro x hx
      have hx' := hapart x (List.mem_cons_of_mem bd hx)
      rw [ByteMemory.length_read]
      omega
    · have hturn' : Turned c r (r.updateReadBuffers c) (front ++ [final] ++ rest) [bd.refill bd.buffer] := by
        rw [List.append_assoc]
        exact hturn
      exact hturn'.trans hturned

/-- With any other length the loop reports success or leaves a part of the frame in the ring. -/
lemma readLoop_other (size data offset : Nat) (m : ByteMemory) (hlt : r.rxGenIdx < c.rxRingLen) (hview : r.view c = front ++ final :: rest)
    (hfront : ∀ bd ∈ front, bd.last = false) (hfinal : final.last = true)
    (hfilled : ∀ bd ∈ front ++ [final], bd.empty = false) (hlength : length ≠ final.length) (hfuel : front.length < fuel) :
    ∃ r' m' status, readLoop c size data length fuel offset r m = some (r', m', status) ∧
      (status = .success ∨ rest.countP (fun bd => !bd.empty) < (r'.view c).countP fun bd => !bd.empty) := by
  induction front generalizing r m offset rest fuel with
  | nil =>
    obtain ⟨fuel, rfl⟩ : ∃ n, fuel = n + 1 := Nat.exists_eq_succ_of_ne_zero (by omega)
    refine ⟨r.updateReadBuffers c, m, .success, ?_, Or.inl rfl⟩
    rw [readLoop, head_of_view hlt hview, hfinal, if_pos rfl, if_neg hlength]
  | cons bd front ih =>
    obtain ⟨fuel, rfl⟩ : ∃ n, fuel = n + 1 := Nat.exists_eq_succ_of_ne_zero (by omega)
    have hround : readLoop c size data length (fuel + 1) offset r m =
        if offset ≥ length then some (r, m, .rxFrameFail)
        else readLoop c size data length fuel ((offset + size) % 2 ^ 32) (r.updateReadBuffers c)
          (m.store (data + offset) (m.read bd.buffer size)) := by
      rw [readLoop, head_of_view hlt hview, hfront bd List.mem_cons_self, if_neg (by simp)]
    rw [hround]
    by_cases hstop : offset ≥ length
    · refine ⟨r, m, .rxFrameFail, if_pos hstop, Or.inr ?_⟩
      have hfirst := hfilled bd (List.mem_append_left _ List.mem_cons_self)
      have hlast := hfilled final (List.mem_append_right _ List.mem_cons_self)
      rw [hview]
      simp only [List.cons_append, List.countP_cons, List.countP_append, hfirst, hlast]
      simp
      omega
    · rw [if_neg hstop]
      rw [List.cons_append] at hview
      have hturn := turned_update hlt hview
      have hnext := hturn.view
      rw [List.append_assoc, List.cons_append] at hnext
      obtain ⟨r', m', status, hloop, hout⟩ := ih ((offset + size) % 2 ^ 32)
        (m.store (data + offset) (m.read bd.buffer size)) hturn.gen_lt hnext (fun x hx => hfront x (List.mem_cons_of_mem bd hx))
        (fun x hx => hfilled x (List.mem_cons_of_mem bd hx)) (by simpa using hfuel)
      refine ⟨r', m', status, hloop, ?_⟩
      simpa [RxBd.refill] using hout

/-- `ENET_GetRxFrameSize` finds the length of the frame. -/
lemma sizeLoop_frame (before : List RxBd) (hlt : r.rxGenIdx < c.rxRingLen)
    (hview : r.view c = before ++ front ++ final :: rest) (hlast : ∀ bd ∈ front, bd.last = false)
    (hpos : ∀ bd ∈ front ++ [final], bd.length ≠ 0) (hfinal : final.last = true) (hfilled : final.empty = false)
    (hfuel : front.length < fuel) :
    sizeLoop c r fuel ((r.rxGenIdx + before.length) % c.rxRingLen) =
      some (if final.error then (.rxFrameError, 0) else (.success, final.length)) := by
  induction front generalizing before fuel with
  | nil =>
    obtain ⟨fuel, rfl⟩ : ∃ n, fuel = n + 1 := Nat.exists_eq_succ_of_ne_zero (by omega)
    rw [List.append_nil] at hview
    rw [sizeLoop, ringView_slot hview, if_neg (hpos final List.mem_cons_self)]
    cases final.error <;> simp [hfinal, hfilled]
  | cons bd front ih =>
    obtain ⟨fuel, rfl⟩ : ∃ n, fuel = n + 1 := Nat.exists_eq_succ_of_ne_zero (by omega)
    rw [List.append_assoc, List.cons_append] at hview
    have hslot := ringView_slot hview
    have hcount : before.length + 1 < c.rxRingLen := by
      rw [← length_view (r := r), hview]
      simp
    have hround : (r.rxGenIdx + (before.length + 1)) % c.rxRingLen ≠ r.rxGenIdx := by
      intro heq
      have hsame : (r.rxGenIdx + (before.length + 1)) % c.rxRingLen = (r.rxGenIdx + 0) % c.rxRingLen := by
        rw [heq, Nat.add_zero, Nat.mod_eq_of_lt hlt]
      have hzero := ring_offset_inj hcount c.len_pos hsame
      omega
    have hview' : r.view c = before ++ [bd] ++ front ++ final :: rest := by
      rw [hview]
      simp
    have hnext := ih (before ++ [bd]) hview' (fun x hx => hlast x (List.mem_cons_of_mem bd hx))
      (fun x hx => hpos x (List.mem_cons_of_mem bd hx)) (by simpa using hfuel)
    rw [List.length_append, List.length_singleton] at hnext
    rw [sizeLoop, hslot, hlast bd List.mem_cons_self, increaseIndex_add, if_neg (hpos bd List.mem_cons_self), if_neg hround]
    exact hnext

end RxRing

namespace HoldsFrame

variable {c : RxConfig} {r : RxRing} {size : Nat} {front rest : List RxBd} {final : RxBd}

lemma size_pos (h : HoldsFrame c size r front final rest) : 0 < size := by
  have hpos := h.pos
  have hle := h.length_le
  by_contra hzero
  rw [Nat.eq_zero_of_not_pos hzero, Nat.mul_zero] at hle
  omega

lemma front_lt (h : HoldsFrame c size r front final rest) : front.length < c.rxRingLen := by
  rw [← RxRing.length_view (r := r), h.view]
  simp

lemma getRxFrameSize (h : HoldsFrame c size r front final rest) :
    r.getRxFrameSize c = some (if final.error then (.rxFrameError, 0) else (.success, final.length)) := by
  have hpos : ∀ bd ∈ front ++ [final], bd.length ≠ 0 := by
    intro bd hbd
    cases List.mem_append.mp hbd with
    | inl hfront =>
      rw [h.full bd hfront]
      exact h.size_pos.ne'
    | inr hlast =>
      rw [List.mem_singleton.mp hlast]
      exact h.pos.ne'
  have hview : r.view c = [] ++ front ++ final :: rest := h.view
  have hloop := RxRing.sizeLoop_frame [] h.gen_lt hview h.front_last hpos h.final_last
    (h.filled final (List.mem_append_right _ List.mem_cons_self)) h.front_lt
  rw [List.length_nil, Nat.add_zero, Nat.mod_eq_of_lt h.gen_lt] at hloop
  have hfirst : (r.rxBdBase r.rxGenIdx).empty = false := by
    obtain ⟨bd, tail, hhead, hmem⟩ : ∃ bd tail, r.view c = bd :: tail ∧ bd ∈ front ++ [final] := by
      rw [h.view]
      cases front with
      | nil => exact ⟨final, rest, rfl, List.mem_cons_self⟩
      | cons bd front => exact ⟨bd, front ++ final :: rest, rfl, List.mem_cons_self⟩
    rw [RxRing.head_of_view h.gen_lt hhead]
    exact h.filled bd hmem
  rw [RxRing.getRxFrameSize, hfirst, if_neg Bool.false_ne_true]
  exact hloop

lemma reported_iff (h : HoldsFrame c size r front final rest) (length : Nat) :
    r.getRxFrameSize c = some (.success, length) ↔ length = final.length ∧ final.error = false := by
  rw [h.getRxFrameSize]
  cases final.error <;> simp [eq_comm]

end HoldsFrame

/-- A call of `ENET_ReadFrame` does what it owes its caller exactly if it gets the length that `ENET_GetRxFrameSize`
reports. -/
theorem readsFrame_iff (c : RxConfig) (size data length : Nat) (r : RxRing) (m : ByteMemory) (front : List RxBd)
    (final : RxBd) (rest : List RxBd) (hframe : HoldsFrame c size r front final rest)
    (hapart : ∀ bd ∈ front ++ [final], bd.buffer + size ≤ data ∨ data + length ≤ bd.buffer) :
    (∃ r' m' status, r.readFrame c size (some data) length m = some (r', m', status) ∧
      ReadsFrame c size data length r m front final rest r' m' status) ↔
      length = final.length ∧ final.error = false := by
  have hreported := hframe.reported_iff length
  have hright : length = final.length → ∃ r', r.readFrame c size (some data) length m =
      some (r', m.store data (frameBytes m size 0 front final), .success) ∧
        RxRing.Turned c r r' rest ((front ++ [final]).map fun bd => bd.refill bd.buffer) := by
    intro hlength
    rw [hlength] at hapart ⊢
    have hge : 0 + front.length * size ≤ final.length := by
      rw [Nat.zero_add]
      exact hframe.length_ge
    have hle : final.length ≤ 0 + (front.length + 1) * size := by
      rw [Nat.zero_add]
      exact hframe.length_le
    exact RxRing.readLoop_right hframe.gen_lt hframe.view hframe.front_last hframe.final_last hframe.length_lt
      hframe.size_pos hge hle hapart hframe.front_lt
  constructor
  · rintro ⟨r', m', status, hrun, hreads⟩
    have hnever : status = .success → length = final.length ∧ final.error = false := by
      intro hsuccess
      exact hreported.mp (hreads.reported.mp ⟨hsuccess, hreads.truthful hsuccess⟩)
    apply hnever
    by_cases hlength : length = final.length
    · obtain ⟨r'', hcopy, -⟩ := hright hlength
      rw [hcopy] at hrun
      exact (congrArg (fun result => result.2.2) (Option.some.inj hrun)).symm
    · obtain ⟨r'', m'', status', hloop, hout⟩ := RxRing.readLoop_other size data 0 m hframe.gen_lt hframe.view
        hframe.front_last hframe.final_last hframe.filled hlength hframe.front_lt
      have hsame : (r'', m'', status') = (r', m', status) := Option.some.inj (hloop.symm.trans hrun)
      obtain ⟨rfl, -, rfl⟩ : r'' = r' ∧ m'' = m' ∧ status' = status := by simpa using hsame
      cases hout with
      | inl hsuccess => exact hsuccess
      | inr hleft =>
        -- all descriptors of the frame are empty again
        have hview := hreads.consumed.view
        have hnone : ((front ++ [final]).map fun bd => bd.refill bd.buffer).countP (fun bd => !bd.empty) = 0 := by
          rw [List.countP_eq_zero]
          intro bd hbd
          simp [hreads.consumed.empty bd hbd]
        rw [hview, List.countP_append, hnone] at hleft
        omega
  · rintro ⟨hlength, herror⟩
    obtain ⟨r', hcopy, hturned⟩ := hright hlength
    have hbytes : (frameBytes m size 0 front final).length = length := by
      rw [length_frameBytes m (by simpa using hframe.length_ge), hlength]
      rfl
    have hread : (m.store data (frameBytes m size 0 front final)).read data length = frameBytes m size 0 front final := by
      rw [← hbytes]
      exact m.read_store data _
    refine ⟨r', _, _, hcopy, ?_⟩
    exact {
      inside := by
        refine ⟨_, rfl, ?_⟩
        intro x hx
        rw [hbytes, List.mem_range'_1] at hx
        exact hx
      consumed := hturned
      truthful := fun _ => ⟨hlength, hread⟩
      reported := iff_of_true ⟨rfl, hlength, hread⟩ (hreported.mpr ⟨hlength, herror⟩) }

/-- A frame of six bytes in buffers of four. -/
def sixBytes : RxRing :=
  ((RxRing.init (fun i => 4 * i) []).fill RxRing.fourRx 4 false false).fill RxRing.fourRx 2 true false

def countingBytes : ByteMemory :=
  ⟨UInt8.ofNat, []⟩

theorem readsFrame_six :
    ∃ r' m' status, sixBytes.readFrame RxRing.fourRx 4 (some 64) 6 countingBytes = some (r', m', status) ∧
      ReadsFrame RxRing.fourRx 4 64 6 sixBytes countingBytes [⟨0, 4, false, false, false⟩] ⟨4, 6, false, true, false⟩
        [⟨8, 0, true, false, false⟩, ⟨12, 0, true, false, false⟩] r' m' status := by
  have hframe : HoldsFrame RxRing.fourRx 4 sixBytes [⟨0, 4, false, false, false⟩] ⟨4, 6, false, true, false⟩
      [⟨8, 0, true, false, false⟩, ⟨12, 0, true, false, false⟩] := by
    constructor <;> decide
  exact (readsFrame_iff RxRing.fourRx 4 64 6 sixBytes countingBytes _ _ _ hframe (by decide)).mpr ⟨rfl, rfl⟩

/-- With a length of three the first copy ends behind the caller's buffer. -/
theorem readsFrame_three :
    ¬ ∃ r' m' status, sixBytes.readFrame RxRing.fourRx 4 (some 64) 3 countingBytes = some (r', m', status) ∧
      ReadsFrame RxRing.fourRx 4 64 3 sixBytes countingBytes [⟨0, 4, false, false, false⟩] ⟨4, 6, false, true, false⟩
        [⟨8, 0, true, false, false⟩, ⟨12, 0, true, false, false⟩] r' m' status := by
  rintro ⟨r', m', status, hrun, hreads⟩
  have hwritten : (sixBytes.readFrame RxRing.fourRx 4 (some 64) 3 countingBytes).map (fun result => result.2.1.written) =
      some [64, 65, 66, 67] := by decide
  rw [hrun] at hwritten
  obtain ⟨writes, hwrites, hinside⟩ := hreads.inside
  have hall : writes = [64, 65, 66, 67] := hwrites.symm.trans (Option.some.inj hwritten)
  have hlast := hinside 67 (by simp [hall])
  omega

end McuxDrivers.Enet
