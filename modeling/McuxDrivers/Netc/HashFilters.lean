import McuxDrivers.Lib.Runs
import Mathlib.Algebra.Group.Nat.Defs
import Mathlib.Data.BitVec
import Mathlib.Data.Fintype.Pi
import Mathlib.Data.List.Count

/-!
# The hash filters of a NETC endpoint

The calls of `fsl_netc_endpoint.c` that add an address to a hash filter of the station interface or delete it, and the
registers that they work on (`fsl_netc_hw_enetc.c`).
-/

namespace McuxDrivers.Netc
open McuxDrivers.Lib

/-- A hash filter: its two registers, and the counters of the handle. -/
structure HashFilter where
  hfr0 : BitVec 32
  hfr1 : BitVec 32
  hashCount : Nat → BitVec 8

namespace HashFilter

/-- The bit for a hash index. -/
def bit (f : HashFilter) (k : Nat) : Bool :=
  if k < 32 then f.hfr0.getLsbD k else f.hfr1.getLsbD (k - 32)

/-- `NETC_EnetcAddMacAddrHash` and `NETC_EnetcAddVlanHash`. -/
def addHash (f : HashFilter) (hashIndex : Nat) : HashFilter :=
  if hashIndex < 32 then { f with hfr0 := f.hfr0 ||| (1#32 <<< hashIndex) }
  else { f with hfr1 := f.hfr1 ||| (1#32 <<< (hashIndex - 32)) }

/-- `NETC_EnetcDelMacAddrHash` and `NETC_EnetcDelVlanHash`. -/
def delHash (f : HashFilter) (hashIndex : Nat) : HashFilter :=
  if hashIndex < 32 then { f with hfr0 := f.hfr0 &&& ~~~(1#32 <<< hashIndex) }
  else { f with hfr1 := f.hfr1 &&& ~~~(1#32 <<< (hashIndex - 32)) }

/-- The part of the add calls behind the hash index. -/
def addHashEntry (f : HashFilter) (hashIndex : Nat) : HashFilter :=
  let f := f.addHash hashIndex
  { f with hashCount := Function.update f.hashCount hashIndex (f.hashCount hashIndex + 1) }

/-- The part of the delete calls behind the hash index, which tells whether it succeeds. -/
def delHashEntry (f : HashFilter) (hashIndex : Nat) : HashFilter × Bool :=
  if f.hashCount hashIndex = 0 then (f, false)
  else
    let f := { f with hashCount := Function.update f.hashCount hashIndex (f.hashCount hashIndex - 1) }
    if f.hashCount hashIndex = 0 then (f.delHash hashIndex, true) else (f, true)

end HashFilter

/-- `netc_packet_type_t` without `kNETC_PacketBroadcast`, which the calls exclude by an assertion. -/
inductive PacketType where
  | unicast
  | multicast
deriving DecidableEq

/-- The six bytes of a MAC address. -/
abbrev MacAddr := Fin 6 → BitVec 8

/-- A VLAN identifier, which the calls bound by an assertion. -/
abbrev VlanId := BitVec 12

/-- The loop that folds the MAC address to six bits. -/
def foldMac : Nat → BitVec 64 → BitVec 8 → BitVec 8
  | 0, _, hashIndex => hashIndex
  | n + 1, mac, hashIndex => foldMac n (mac >>> 6) (hashIndex ^^^ (mac &&& 0x3f#64).setWidth 8)

/-- The hash index of a MAC address. -/
def macHash (macAddr : MacAddr) : Nat :=
  (foldMac 8 ((List.finRange 6).reverse.foldl (fun mac i => (mac <<< 8) ||| (macAddr i).setWidth 64) 0#64) 0).toNat

/-- The hash index of a VLAN identifier. -/
def vlanHash (vlanId : VlanId) : Nat :=
  let hash0 := ((vlanId.setWidth 16 >>> 6) &&& 0x3f#16).setWidth 8
  let hash1 := (vlanId.setWidth 16 &&& 0x3f#16).setWidth 8
  (hash0 ^^^ hash1 : BitVec 8).toNat

/-- The hash filters of the handle. -/
structure HashFilters where
  unicast : HashFilter
  multicast : HashFilter
  vlan : HashFilter

namespace HashFilters

/-- The filter for a type of packets. -/
def mac (e : HashFilters) : PacketType → HashFilter
  | .unicast => e.unicast
  | .multicast => e.multicast

/-- `EP_RxL2MFAddHashEntry`. -/
def rxL2MFAddHashEntry (e : HashFilters) (type : PacketType) (macAddr : MacAddr) : HashFilters :=
  match type with
  | .unicast => { e with unicast := e.unicast.addHashEntry (macHash macAddr) }
  | .multicast => { e with multicast := e.multicast.addHashEntry (macHash macAddr) }

/-- `EP_RxL2MFDelHashEntry`. -/
def rxL2MFDelHashEntry (e : HashFilters) (type : PacketType) (macAddr : MacAddr) : HashFilters × Bool :=
  match type with
  | .unicast =>
    let (f, result) := e.unicast.delHashEntry (macHash macAddr)
    ({ e with unicast := f }, result)
  | .multicast =>
    let (f, result) := e.multicast.delHashEntry (macHash macAddr)
    ({ e with multicast := f }, result)

/-- `EP_RxL2VFAddHashEntry`. -/
def rxL2VFAddHashEntry (e : HashFilters) (vlanId : VlanId) : HashFilters :=
  { e with vlan := e.vlan.addHashEntry (vlanHash vlanId) }

/-- `EP_RxL2VFDelHashEntry`. -/
def rxL2VFDelHashEntry (e : HashFilters) (vlanId : VlanId) : HashFilters × Bool :=
  let (f, result) := e.vlan.delHashEntry (vlanHash vlanId)
  ({ e with vlan := f }, result)

end HashFilters

/-- The filters with the addresses that the application has registered, and whether every delete has succeeded. -/
structure HashHistory where
  filters : HashFilters
  mac : PacketType → List MacAddr
  vlan : List VlanId
  deletes : Bool

/-- The calls. -/
inductive HashCall where
  | addMac (type : PacketType) (macAddr : MacAddr)
  | delMac (type : PacketType) (macAddr : MacAddr)
  | addVlan (vlanId : VlanId)
  | delVlan (vlanId : VlanId)

namespace HashHistory

/-- The handle after `EP_Init`, and the registers after reset. -/
def init : HashHistory :=
  let f : HashFilter := { hfr0 := 0, hfr1 := 0, hashCount := fun _ => 0 }
  { filters := { unicast := f, multicast := f, vlan := f }, mac := fun _ => [], vlan := [], deletes := true }

/-- One call. A delete that fails leaves the address registered. -/
def step (s : HashHistory) : HashCall → HashHistory
  | .addMac type macAddr =>
    { s with
      filters := s.filters.rxL2MFAddHashEntry type macAddr
      mac := Function.update s.mac type (macAddr :: s.mac type) }
  | .delMac type macAddr =>
    let (filters, result) := s.filters.rxL2MFDelHashEntry type macAddr
    if result then { s with filters := filters, mac := Function.update s.mac type ((s.mac type).erase macAddr) }
    else { s with filters := filters, deletes := false }
  | .addVlan vlanId =>
    { s with filters := s.filters.rxL2VFAddHashEntry vlanId, vlan := vlanId :: s.vlan }
  | .delVlan vlanId =>
    let (filters, result) := s.filters.rxL2VFDelHashEntry vlanId
    if result then { s with filters := filters, vlan := s.vlan.erase vlanId }
    else { s with filters := filters, deletes := false }

end HashHistory

end McuxDrivers.Netc
