import Mathlib.Data.BitVec
import Mathlib.Logic.Function.Basic

/-!
# Dynamic address assignment in the I3C driver

`I3C_MasterProcessDAASpecifiedBaudrate` of `fsl_i3c.c` on one instance, in the build that polls without a limit. One round of
its polling loop is one step. Between the accesses of the driver the devices on the bus send their identification bytes; what
the driver reads of the flags is given with each round. The baud rate that is set for the time of the call does not appear.
-/

namespace McuxDrivers.I3c

/-- A device without a dynamic address, with the 8 bytes that it sends. -/
structure Device where
  id : Fin 8 → BitVec 8

/-- The fields of `i3c_device_info_t` that the driver fills in. -/
structure DeviceInfo where
  dynamicAddr : BitVec 8
  vendorID : BitVec 16
  partNumber : BitVec 32
  bcr : BitVec 8
  dcr : BitVec 8
deriving DecidableEq

/-- The bus during an enumeration. The first of the joining devices is the one that sends. -/
structure Bus where
  joining : List Device
  sent : Nat
  between : Bool
  rxFifo : List (BitVec 8)

/-- What the bus does by itself: the device sends its next byte, or the bus waits for the master after the last byte. -/
inductive BusStep where
  | send
  | pause

namespace Bus

def step (b : Bus) : BusStep → Bus
  | .send =>
    match b.joining with
    | [] => b
    | d :: _ => if h : b.sent < 8 then { b with rxFifo := b.rxFifo ++ [d.id ⟨b.sent, h⟩], sent := b.sent + 1 } else b
  | .pause =>
    match b.joining with
    | [] => b
    | _ :: _ => if b.sent = 8 then { b with between := true } else b

def run (b : Bus) (steps : List BusStep) : Bus :=
  steps.foldl step b

end Bus

/-- The static data of the instance, the locals of the call, the bus, and the devices that were given an address since the count
was cleared. -/
structure Master where
  devList : Nat → DeviceInfo
  usedDevCount : Nat
  -- the call
  running : Bool
  addressList : List (BitVec 8)
  count : Nat
  devCount : Nat
  rxBuffer : Nat → BitVec 8
  rxSize : Nat
  mctrlDone : Bool
  bus : Bus
  given : List (Device × BitVec 8)

/-- What one round of the loop meets: the bus before and after the flags are read, and the flags. -/
structure Poll where
  before : List BusStep
  error : Bool
  controlDone : Bool
  complete : Bool
  after : List BusStep

namespace Master

/-- The call ends. -/
def finish (m : Master) : Master :=
  { m with running := false, bus := { m.bus with joining := [], sent := 0, between := false } }

/-- `I3C_MasterCheckAndClearError` resets the FIFO when it finds an error. -/
def flush (m : Master) : Master :=
  { m with bus := { m.bus with rxFifo := [] } }

/-- One byte of the FIFO, if there is one, goes to the buffer. -/
def takeByte (m : Master) : Master :=
  match m.bus.rxFifo with
  | [] => m
  | byte :: rest =>
    { m with
      rxBuffer := Function.update m.rxBuffer m.rxSize byte
      rxSize := m.rxSize + 1
      bus := { m.bus with rxFifo := rest } }

/-- The round that waits for the bytes of the device. -/
def receive (m : Master) (controlDone : Bool) : Master :=
  { m.takeByte with mctrlDone := m.mctrlDone || controlDone }

/-- The entry of the device list from the bytes in the buffer. -/
def deviceInfo (dynamicAddr : BitVec 8) (rxBuffer : Nat → BitVec 8) : DeviceInfo where
  dynamicAddr := dynamicAddr
  vendorID := (((rxBuffer 0).setWidth 16 <<< 8 ||| (rxBuffer 1).setWidth 16) &&& 0xFFFE#16) >>> 1
  partNumber := (rxBuffer 2).setWidth 32 <<< 24 ||| (rxBuffer 3).setWidth 32 <<< 16 ||| (rxBuffer 4).setWidth 32 <<< 8 |||
    (rxBuffer 5).setWidth 32
  bcr := rxBuffer 6
  dcr := rxBuffer 7

/-- The device that waits gets the address, and the next one begins to send. -/
def sendAddress (m : Master) (address : BitVec 8) : Master :=
  match m.bus.joining with
  | [] => m
  | d :: rest =>
    { m with
      bus := { m.bus with joining := rest, sent := 0, between := false }
      given := m.given ++ [(d, address)] }

/-- The round that assigns the next address of the list. -/
def assign (m : Master) : Master :=
  let address := m.addressList.headD 0
  let m := m.sendAddress address
  { m with
    addressList := m.addressList.tail
    devList := Function.update m.devList m.devCount (deviceInfo address m.rxBuffer)
    devCount := m.devCount + 1
    usedDevCount := (m.usedDevCount + 1) % 2 ^ 8
    mctrlDone := false
    rxSize := 0 }

variable (maxDevCnt : Nat)

/-- The middle of the loop body. There is no result when the number of devices exceeds the addresses or the list. -/
def handleDevice (m : Master) (controlDone : Bool) : Option Master :=
  if m.mctrlDone = false ∨ m.rxSize < 8 then some (m.receive controlDone)
  else if m.bus.between then
    if m.count < m.devCount + 1 ∨ maxDevCnt < m.devCount + 1 then none else some m.assign
  else some m

/-- The bus goes on. -/
def hardware (m : Master) (steps : List BusStep) : Master :=
  { m with bus := m.bus.run steps }

/-- One round of the loop. The flag for the end of the enumeration is set when no device is left. -/
def poll (m : Master) (p : Poll) : Master :=
  let m := m.hardware p.before
  let complete := p.complete && m.bus.joining.isEmpty
  if p.error then m.flush.finish
  else
    let m := m.hardware p.after
    match m.handleDevice maxDevCnt p.controlDone with
    | none => m.finish
    | some m => if complete then m.finish else m

/-- `I3C_MasterProcessDAASpecifiedBaudrate` up to its loop. Nothing happens on a busy bus. -/
def processDAA (m : Master) (busy : Bool) (devices : List Device) (addressList : List (BitVec 8)) : Master :=
  if busy then m
  else
    { m with
      running := true
      addressList := addressList
      count := addressList.length
      devCount := 0
      rxBuffer := fun _ => 0xFF
      rxSize := 0
      mctrlDone := false
      bus := { m.bus with joining := devices, sent := 0, between := false } }

/-- `I3C_MasterGetDeviceListAfterDAA`: the first entries of the list, as many as the count says. -/
def getDeviceListAfterDAA (m : Master) : List DeviceInfo :=
  (List.range m.usedDevCount).map m.devList

/-- `I3C_MasterClearDeviceCount`. -/
def clearDeviceCount (m : Master) : Master :=
  { m with usedDevCount := 0, given := [] }

/-- Before the first call. -/
def init : Master where
  devList := fun _ => ⟨0, 0, 0, 0, 0⟩
  usedDevCount := 0
  running := false
  addressList := []
  count := 0
  devCount := 0
  rxBuffer := fun _ => 0xFF
  rxSize := 0
  mctrlDone := false
  bus := ⟨[], 0, false, []⟩
  given := []

end Master

/-- A call begins, its loop goes one round, or the count is cleared. -/
inductive DaaEvent where
  | processDAA (busy : Bool) (devices : List Device) (addressList : List (BitVec 8))
  | poll (p : Poll)
  | clearDeviceCount

/-- A call begins or the count is cleared only while no call runs. -/
def Master.step (maxDevCnt : Nat) (m : Master) : DaaEvent → Master
  | .processDAA busy devices addressList => if m.running then m else m.processDAA busy devices addressList
  | .poll p => if m.running then m.poll maxDevCnt p else m
  | .clearDeviceCount => if m.running then m else m.clearDeviceCount

end McuxDrivers.I3c
