import McuxDrivers.I3c.Daa
import McuxDrivers.Lib.Runs

/-!
# The device list of the I3C driver

The bytes of the device that sends are in the buffer of the driver, then in the FIFO: when the driver has eight of them, they
are those of the device that gets the address. The entries of the list are counted from 0 in every call, the devices from
where the last call stopped.
-/

namespace McuxDrivers.I3c
open McuxDrivers.Lib

/-- What the list should say of a device: the vendor is in the first 15 bits, the part number in the next four bytes. -/
def Device.info (d : Device) (address : BitVec 8) : DeviceInfo where
  dynamicAddr := address
  vendorID := (d.id 0 ++ d.id 1 : BitVec 16) >>> 1
  partNumber := (d.id 2 ++ d.id 3 ++ d.id 4 ++ d.id 5 : BitVec 32)
  bcr := d.id 6
  dcr := d.id 7

/-- The bytes that the device has sent. -/
def Bus.sentBytes (b : Bus) : List (BitVec 8) :=
  match b.joining with
  | [] => []
  | d :: _ => (List.ofFn d.id).take b.sent

namespace Master

variable {maxDevCnt : Nat} {m : Master}

/-- The bytes in the buffer and in the FIFO are those that the device has sent. -/
structure Receiving (m : Master) : Prop where
  bytes : (List.range m.rxSize).map m.rxBuffer ++ m.bus.rxFifo = m.bus.sentBytes
  between : m.bus.between = true → m.bus.joining ≠ []

/-- The list has one entry for every device that was given an address, with its own data. -/
structure Reflects (maxDevCnt : Nat) (m : Master) : Prop where
  count_le : m.usedDevCount ≤ maxDevCnt
  list : m.getDeviceListAfterDAA = m.given.map fun g => g.1.info g.2

structure Inv (maxDevCnt : Nat) (m : Master) : Prop extends Reflects maxDevCnt m where
  idle : m.running = false → m.bus.rxFifo = []
  receiving : m.running = true → m.Receiving

/-- The round assigns an address. -/
def Assigns (maxDevCnt : Nat) (m : Master) (p : Poll) : Prop :=
  p.error = false ∧ m.mctrlDone = true ∧ 8 ≤ m.rxSize ∧ ((m.bus.run p.before).run p.after).between = true ∧
    m.devCount < m.count ∧ m.devCount < maxDevCnt

instance (m : Master) (p : Poll) : Decidable (m.Assigns maxDevCnt p) :=
  inferInstanceAs (Decidable (_ ∧ _))

/-- An address is assigned only in a call that found the count at 0. -/
def FromZero (maxDevCnt : Nat) (m : Master) : DaaEvent → Prop
  | .poll p => m.running = true → m.Assigns maxDevCnt p → m.usedDevCount = m.devCount
  | .processDAA .. => True
  | .clearDeviceCount => True

instance (m : Master) : (event : DaaEvent) → Decidable (m.FromZero maxDevCnt event)
  | .poll _ => inferInstanceAs (Decidable (_ → _ → _))
  | .processDAA .. => isTrue trivial
  | .clearDeviceCount => isTrue trivial

end Master

section Bytes

lemma append_eq_or {n k : Nat} (x : BitVec n) (y : BitVec k) :
    x ++ y = x.setWidth (n + k) <<< k ||| y.setWidth (n + k) := by
  rw [BitVec.append_def, BitVec.shiftLeftZeroExtend_eq, BitVec.setWidth'_eq]

/-- The mask clears the bit that is shifted out. -/
lemma and_mask_shiftRight (x : BitVec 16) : (x &&& 0xFFFE#16) >>> 1 = x >>> 1 := by
  have hmask : ∀ j : Fin 15, (0xFFFE#16).getLsbD (1 + j) = true := by decide
  ext i hi
  simp only [BitVec.getElem_ushiftRight, BitVec.getLsbD_and]
  by_cases h : i < 15
  · rw [hmask ⟨i, h⟩, Bool.and_true]
  · rw [BitVec.getLsbD_of_ge x _ (by omega), Bool.false_and]

lemma bytes_eq_append (a b c d : BitVec 8) :
    a.setWidth 32 <<< 24 ||| b.setWidth 32 <<< 16 ||| c.setWidth 32 <<< 8 ||| d.setWidth 32 =
      (a ++ b ++ c ++ d : BitVec 32) := by
  have hout (x : BitVec 8) {j : Nat} (hj : ¬j < 8) : x.getLsbD j = false := BitVec.getLsbD_of_ge x j (by omega)
  apply BitVec.eq_of_getLsbD_eq
  intro i hi
  simp only [BitVec.getLsbD_or, BitVec.getLsbD_shiftLeft, BitVec.getLsbD_setWidth, BitVec.getLsbD_append]
  grind

lemma deviceInfo_eq {d : Device} {rxBuffer : Nat → BitVec 8} (h : ∀ i : Fin 8, rxBuffer i = d.id i) (address : BitVec 8) :
    Master.deviceInfo address rxBuffer = d.info address := by
  have hvendor : ((rxBuffer 0).setWidth 16 <<< 8 ||| (rxBuffer 1).setWidth 16) = (d.id 0 ++ d.id 1 : BitVec 16) := by
    rw [append_eq_or, ← h 0, ← h 1]
    rfl
  have hpart : (rxBuffer 2).setWidth 32 <<< 24 ||| (rxBuffer 3).setWidth 32 <<< 16 ||| (rxBuffer 4).setWidth 32 <<< 8 |||
      (rxBuffer 5).setWidth 32 = (d.id 2 ++ d.id 3 ++ d.id 4 ++ d.id 5 : BitVec 32) := by
    rw [bytes_eq_append, ← h 2, ← h 3, ← h 4, ← h 5]
    rfl
  rw [Master.deviceInfo, and_mask_shiftRight, hvendor, hpart, Device.info, ← h 6, ← h 7]
  rfl

end Bytes

namespace Master

variable {maxDevCnt : Nat} {m : Master}

namespace Receiving

lemma busStep (h : m.Receiving) (e : BusStep) : Receiving { m with bus := m.bus.step e } := by
  have hbytes := h.bytes
  have hbetween := h.between
  cases hjoining : m.bus.joining with
  | nil =>
    have hsame : m.bus.step e = m.bus := by
      cases e <;> simp only [Bus.step, hjoining]
    rw [hsame]
    exact h
  | cons d rest =>
    rw [Bus.sentBytes, hjoining] at hbytes
    cases e with
    | send =>
      by_cases hlt : m.bus.sent < 8
      · have hstep : m.bus.step .send =
            { m.bus with rxFifo := m.bus.rxFifo ++ [d.id ⟨m.bus.sent, hlt⟩], sent := m.bus.sent + 1 } := by
          simp only [Bus.step, hjoining, dif_pos hlt]
        rw [hstep]
        refine ⟨?_, hbetween⟩
        have hlen : m.bus.sent < (List.ofFn d.id).length := by simpa using hlt
        simp only [Bus.sentBytes, hjoining]
        rw [← List.append_assoc, hbytes, ← List.take_concat_get' _ _ hlen, List.getElem_ofFn]
      · have hstep : m.bus.step .send = m.bus := by
          simp only [Bus.step, hjoining, dif_neg hlt]
        rw [hstep]
        exact h
    | pause =>
      by_cases hsent : m.bus.sent = 8
      · have hstep : m.bus.step .pause = { m.bus with between := true } := by
          simp only [Bus.step, hjoining, if_pos hsent]
        rw [hstep]
        exact ⟨h.bytes, fun _ => by simp [hjoining]⟩
      · have hstep : m.bus.step .pause = m.bus := by
          simp only [Bus.step, hjoining, if_neg hsent]
        rw [hstep]
        exact h

lemma hardware (h : m.Receiving) (steps : List BusStep) : (m.hardware steps).Receiving := by
  rw [Master.hardware, Bus.run]
  induction steps generalizing m with
  | nil => exact h
  | cons e steps ih => exact ih (h.busStep e)

lemma length_le (h : m.Receiving) : m.rxSize + m.bus.rxFifo.length ≤ 8 := by
  have hlen := congrArg List.length h.bytes
  rw [List.length_append, List.length_map, List.length_range, Bus.sentBytes] at hlen
  rw [hlen]
  cases m.bus.joining with
  | nil => exact Nat.zero_le 8
  | cons d rest => simp

lemma fifo_of_full (h : m.Receiving) (hsize : 8 ≤ m.rxSize) : m.bus.rxFifo = [] := by
  have hle := h.length_le
  rw [← List.length_eq_zero_iff]
  omega

lemma fifo_of_nil (h : m.Receiving) (hnil : m.bus.joining = []) : m.bus.rxFifo = [] := by
  have hbytes := h.bytes
  rw [Bus.sentBytes, hnil] at hbytes
  exact (List.append_eq_nil_iff.mp hbytes).2

/-- The eight bytes in the buffer are those of the device that waits. -/
lemma rxBuffer_eq (h : m.Receiving) (hsize : 8 ≤ m.rxSize) {d : Device} {rest : List Device}
    (hjoining : m.bus.joining = d :: rest) (i : Fin 8) : m.rxBuffer i = d.id i := by
  have hbytes := h.bytes
  have hle := h.length_le
  have heq : m.rxSize = 8 := by omega
  rw [h.fifo_of_full hsize, List.append_nil, Bus.sentBytes, hjoining, heq] at hbytes
  have hlen := congrArg List.length hbytes
  dsimp only at hbytes
  simp only [List.length_map, List.length_range, List.length_take, List.length_ofFn] at hlen
  rw [List.take_of_length_le (by rw [List.length_ofFn]; omega)] at hbytes
  have hget := congrArg (fun l => l[i.val]?) hbytes
  rw [List.getElem?_map, List.getElem?_range i.isLt, List.getElem?_ofFn, dif_pos i.isLt] at hget
  exact Option.some.inj hget

lemma receive (h : m.Receiving) (controlDone : Bool) : (m.receive controlDone).Receiving := by
  have hbytes := h.bytes
  rw [Master.receive, takeByte]
  cases hfifo : m.bus.rxFifo with
  | nil => exact ⟨h.bytes, h.between⟩
  | cons byte rest =>
    refine ⟨?_, h.between⟩
    dsimp only
    rw [List.range_succ, List.map_append, List.map_singleton, Function.update_self, List.append_assoc,
      List.singleton_append, ← hfifo]
    apply Eq.trans _ hbytes
    congr 1
    apply List.map_congr_left
    intro j hj
    exact Function.update_of_ne (Nat.ne_of_lt (List.mem_range.mp hj)) _ _

end Receiving

lemma receive_frame (m : Master) (controlDone : Bool) :
    (m.receive controlDone).running = m.running ∧ (m.receive controlDone).bus.joining = m.bus.joining ∧
      (m.receive controlDone).usedDevCount = m.usedDevCount ∧ (m.receive controlDone).devList = m.devList ∧
      (m.receive controlDone).given = m.given := by
  rw [receive, takeByte]
  split <;> exact ⟨rfl, rfl, rfl, rfl, rfl⟩

lemma running_assign (m : Master) : m.assign.running = m.running := by
  unfold assign sendAddress
  split <;> rfl

lemma joining_run_nil (b : Bus) (hnil : b.joining = []) (steps : List BusStep) : (b.run steps).joining = [] := by
  rw [Bus.run]
  induction steps with
  | nil => exact hnil
  | cons e steps ih =>
    have hsame : b.step e = b := by
      cases e <;> simp only [Bus.step, hnil]
    rw [List.foldl_cons, hsame]
    exact ih

namespace Inv

lemma init : Inv maxDevCnt Master.init where
  count_le := Nat.zero_le _
  list := rfl
  idle := fun _ => rfl
  receiving := nofun

lemma processDAA (h : Inv maxDevCnt m) (hidle : m.running = false) (busy : Bool) (devices : List Device)
    (addressList : List (BitVec 8)) : Inv maxDevCnt (m.processDAA busy devices addressList) := by
  rw [Master.processDAA]
  split_ifs
  · exact h
  · refine ⟨⟨h.count_le, h.list⟩, nofun, fun _ => ⟨?_, nofun⟩⟩
    simp only [h.idle hidle, List.range_zero, List.map_nil, List.nil_append, Bus.sentBytes]
    cases devices <;> rfl

lemma finish (h : Inv maxDevCnt m) (hfifo : m.bus.rxFifo = []) : Inv maxDevCnt m.finish :=
  ⟨⟨h.count_le, h.list⟩, fun _ => hfifo, nofun⟩

lemma hardware (h : Inv maxDevCnt m) (hrunning : m.running = true) (steps : List BusStep) :
    Inv maxDevCnt (m.hardware steps) :=
  ⟨⟨h.count_le, h.list⟩, fun hidle => absurd (hrunning.symm.trans hidle) nofun,
    fun _ => (h.receiving hrunning).hardware steps⟩

/-- The entry of the device is the next one, because the call counts from where the list ends. -/
lemma assign (h : Inv maxDevCnt m) (hmax : maxDevCnt < 2 ^ 8) (hrunning : m.running = true) (hsize : 8 ≤ m.rxSize)
    (hbetween : m.bus.between = true) (hroom : m.devCount < maxDevCnt) (hzero : m.usedDevCount = m.devCount) :
    Inv maxDevCnt m.assign := by
  have hrec := h.receiving hrunning
  obtain ⟨d, rest, hjoining⟩ := List.exists_cons_of_ne_nil (hrec.between hbetween)
  have hinfo := deviceInfo_eq (hrec.rxBuffer_eq hsize hjoining) (m.addressList.headD 0)
  have hlist := h.list
  have hmod : (m.usedDevCount + 1) % 2 ^ 8 = m.usedDevCount + 1 := Nat.mod_eq_of_lt (by omega)
  rw [Master.assign, sendAddress, hjoining]
  dsimp only
  rw [hinfo, hmod, ← hzero]
  constructor
  · constructor
    · dsimp only
      omega
    · rw [getDeviceListAfterDAA] at hlist ⊢
      simp only [List.range_succ, List.map_append, List.map_singleton, Function.update_self, ← hlist]
      congr 1
      apply List.map_congr_left
      intro j hj
      exact Function.update_of_ne (Nat.ne_of_lt (List.mem_range.mp hj)) _ _
  · exact fun hidle => absurd (hrunning.symm.trans hidle) nofun
  · intro _
    refine ⟨?_, nofun⟩
    simp only [List.range_zero, List.map_nil, List.nil_append, hrec.fifo_of_full hsize, Bus.sentBytes]
    cases rest <;> rfl

lemma handleDevice (h : Inv maxDevCnt m) (hmax : maxDevCnt < 2 ^ 8) (hrunning : m.running = true) {controlDone : Bool}
    {m' : Master} (hsome : m.handleDevice maxDevCnt controlDone = some m')
    (hzero : m.mctrlDone = true → 8 ≤ m.rxSize → m.bus.between = true → m.devCount < m.count → m.devCount < maxDevCnt →
      m.usedDevCount = m.devCount) :
    Inv maxDevCnt m' ∧ m'.running = true ∧ (m.bus.joining = [] → m'.bus.joining = []) := by
  rw [Master.handleDevice] at hsome
  split_ifs at hsome with hwait hbetween hexceed
  · cases hsome
    obtain ⟨hrun, hjoining, hused, hlist, hgiven⟩ := m.receive_frame controlDone
    refine ⟨⟨⟨?_, ?_⟩, ?_, ?_⟩, hrun.trans hrunning, fun hnil => hjoining.trans hnil⟩
    · exact hused.trans_le h.count_le
    · rw [getDeviceListAfterDAA, hused, hlist, hgiven]
      exact h.list
    · exact fun hidle => absurd (hrunning.symm.trans (hrun.symm.trans hidle)) nofun
    · exact fun _ => (h.receiving hrunning).receive controlDone
  · cases hsome
    rw [not_or, Bool.not_eq_false, Nat.not_lt] at hwait
    rw [not_or, Nat.not_lt, Nat.not_lt] at hexceed
    refine ⟨h.assign hmax hrunning hwait.2 hbetween hexceed.2 ?_, m.running_assign.trans hrunning, ?_⟩
    · exact hzero hwait.1 hwait.2 hbetween hexceed.1 hexceed.2
    · exact fun hnil => absurd hnil ((h.receiving hrunning).between hbetween)
  · cases hsome
    exact ⟨h, hrunning, id⟩

/-- When the addresses or the list are used up, the last byte has been read. -/
lemma fifo_of_exceed (h : Inv maxDevCnt m) (hrunning : m.running = true) {controlDone : Bool}
    (hnone : m.handleDevice maxDevCnt controlDone = none) : m.bus.rxFifo = [] := by
  rw [Master.handleDevice] at hnone
  split_ifs at hnone with hwait
  rw [not_or, Nat.not_lt] at hwait
  exact (h.receiving hrunning).fifo_of_full hwait.2

lemma poll (h : Inv maxDevCnt m) (hmax : maxDevCnt < 2 ^ 8) (hrunning : m.running = true) (p : Poll)
    (hzero : m.Assigns maxDevCnt p → m.usedDevCount = m.devCount) : Inv maxDevCnt (m.poll maxDevCnt p) := by
  have hbefore := h.hardware hrunning p.before
  have hafter := hbefore.hardware hrunning p.after
  rw [Master.poll]
  by_cases herror : p.error = true
  · rw [if_pos herror]
    exact ⟨⟨h.count_le, h.list⟩, fun _ => rfl, nofun⟩
  · rw [if_neg herror]
    dsimp only
    split
    next hnone => exact hafter.finish (hafter.fifo_of_exceed hrunning hnone)
    next m' hsome =>
      rw [Bool.not_eq_true] at herror
      obtain ⟨hinv, hrunning', hnil⟩ := hafter.handleDevice hmax hrunning hsome
        (fun hdone hsize hbetween hcount hroom => hzero ⟨herror, hdone, hsize, hbetween, hcount, hroom⟩)
      split_ifs with hcomplete
      · rw [Bool.and_eq_true, List.isEmpty_iff] at hcomplete
        apply hinv.finish
        apply (hinv.receiving hrunning').fifo_of_nil
        exact hnil (joining_run_nil _ hcomplete.2 _)
      · exact hinv

lemma step (h : Inv maxDevCnt m) (hmax : maxDevCnt < 2 ^ 8) {event : DaaEvent} (hzero : m.FromZero maxDevCnt event) :
    Inv maxDevCnt (m.step maxDevCnt event) := by
  cases hrunning : m.running with
  | true =>
    cases event with
    | poll p =>
      rw [Master.step, if_pos hrunning]
      exact h.poll hmax hrunning p (hzero hrunning)
    | processDAA | clearDeviceCount =>
      rw [Master.step, if_pos hrunning]
      exact h
  | false =>
    have hrunning' : ¬m.running = true := by rw [hrunning]; nofun
    cases event with
    | poll p =>
      rw [Master.step, if_neg hrunning']
      exact h
    | processDAA busy devices addressList =>
      rw [Master.step, if_neg hrunning']
      exact h.processDAA hrunning busy devices addressList
    | clearDeviceCount =>
      rw [Master.step, if_neg hrunning']
      exact ⟨⟨Nat.zero_le _, rfl⟩, h.idle, fun hrun => absurd (hrunning.symm.trans hrun) nofun⟩

end Inv

/-- While addresses are assigned only in calls that found the count at 0, the list shows the devices that were given one. -/
theorem deviceList_reflects (maxDevCnt : Nat) (hmax : maxDevCnt < 2 ^ 8) (events : List DaaEvent)
    (hrun : EachStep (step maxDevCnt) (FromZero maxDevCnt) init events) :
    Reflects maxDevCnt (events.foldl (step maxDevCnt) init) := by
  have hinv := hrun.invariant (I := Inv maxDevCnt) (fun m event h hzero => h.step hmax hzero) events Inv.init
  exact hinv.toReflects

/-- A round of the loop in which the device sends a byte. -/
def sending : Poll :=
  ⟨[.send], false, false, false, []⟩

/-- The rounds for one device: its bytes, the end of the request, the address. -/
def oneDevice : List DaaEvent :=
  List.replicate 8 (.poll sending) ++ [.poll ⟨[.pause], false, true, false, []⟩, .poll ⟨[], false, false, false, []⟩]

/-- The rounds after the last device. -/
def noDevice : List DaaEvent :=
  [.poll ⟨[], false, false, true, []⟩]

theorem deviceList_reflects_two :
    Reflects 10 ((.processDAA false [⟨fun i => i.val⟩, ⟨fun i => 16 * i.val⟩] [0x08, 0x09] :: (oneDevice ++ oneDevice ++
      noDevice)).foldl (step 10) init) :=
  deviceList_reflects 10 (by decide) _ (by decide)

/-- A device that joins later gets the entry of the first device. -/
theorem deviceList_not_reflects :
    ¬∀ (maxDevCnt : Nat) (events : List DaaEvent), maxDevCnt < 2 ^ 8 →
      Reflects maxDevCnt (events.foldl (step maxDevCnt) init) := by
  intro h
  have hlist := (h 10 (.processDAA false [⟨fun i => i.val⟩] [0x08] :: (oneDevice ++ noDevice) ++
    .processDAA false [⟨fun i => 16 * i.val⟩] [0x09] :: (oneDevice ++ noDevice)) (by decide)).list
  revert hlist
  decide

end Master

end McuxDrivers.I3c
