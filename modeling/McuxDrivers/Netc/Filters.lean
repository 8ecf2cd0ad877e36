import McuxDrivers.Lib.Runs
import Mathlib.Data.BitVec

/-!
# The exact match filter tables of a NETC endpoint

The MAC and VLAN filter messages that the PSI handles for the VSIs (`fsl_netc_msg.c`), and the calls with which the PSI
writes the tables itself (`fsl_netc_endpoint.c`). Every command of the command ring succeeds.
-/

namespace McuxDrivers.Netc
open McuxDrivers.Lib

/-- The number of a virtual station interface. The PSI has the number 0, and a bitmap has 16 bits. -/
abbrev Vsi := { si : Nat // 0 < si ∧ si < 16 }

/-- An entry of an exact match table: the data and the station interfaces for which it applies. -/
structure Entry where
  addr : Nat
  siBitMap : BitVec 16
deriving DecidableEq

/-- `emtable_query_result_t` of an address that matches. -/
structure QueryResult where
  siBitMap : BitVec 16
  index : Nat

/-- The answers to a message. -/
inductive MsgCode where
  | done
  | noResource
  | addrNotFound
  | invalidVlan
deriving DecidableEq

/-- A table in the hardware with the array in which the driver counts its entries, `macFilterCount` or
`vlanFilterCount`. -/
structure FilterTable where
  entry : Nat → Entry
  filterCount : Nat → Nat

namespace FilterTable

/-- The set command of the command ring. -/
def write (t : FilterTable) (index : Nat) (e : Entry) : FilterTable :=
  { t with entry := Function.update t.entry index e }

def setCount (t : FilterTable) (index count : Nat) : FilterTable :=
  { t with filterCount := Function.update t.filterCount index count }

/-- The free indices of the first `num` ones. -/
def freeIndices (num : Nat) (t : FilterTable) : List Nat :=
  (List.range num).filter fun i => t.filterCount i = 0

/-- `EP_RxL2MFFreeNum` and `EP_RxL2VFFreeNum`. -/
def freeNum (num : Nat) (t : FilterTable) : Nat :=
  (t.freeIndices num).length

/-- `EP_RxL2MFFreeIndex` and `EP_RxL2VFFreeIndex`. -/
def freeIndex (num : Nat) (t : FilterTable) : Option Nat :=
  (t.freeIndices num).head?

/-- `EP_RxL2MFQueryEMTableEntry` and `EP_RxL2VFQueryEMTableEntry`: the first entry in use with the address. -/
def queryEMTableEntry (num : Nat) (t : FilterTable) (address : Nat) : Option QueryResult :=
  ((List.range num).find? fun i => t.filterCount i ≠ 0 ∧ (t.entry i).addr = address).map fun i =>
    { siBitMap := (t.entry i).siBitMap, index := i }

/-- The second loop of the add handlers, over the addresses with their query results. -/
def addEntries (num si : Nat) : List (Nat × Option QueryResult) → FilterTable → FilterTable × MsgCode
  | [], t => (t, .done)
  | (address, some r) :: results, t =>
    addEntries num si results
      ((t.write r.index { addr := address, siBitMap := r.siBitMap ||| (1#16 <<< si) }).setCount r.index 1)
  | (address, none) :: results, t =>
    match t.freeIndex num with
    | none => (t, .noResource)
    | some index =>
      addEntries num si results ((t.write index { addr := address, siBitMap := 1#16 <<< si }).setCount index 1)

/-- The addresses of a message with what the query says of each. -/
def queries (num : Nat) (t : FilterTable) (addresses : List Nat) : List (Nat × Option QueryResult) :=
  addresses.map fun address => (address, t.queryEMTableEntry num address)

/-- The number of addresses that the table does not have. -/
def newNum (num : Nat) (t : FilterTable) (addresses : List Nat) : Nat :=
  (addresses.filter fun address => (t.queryEMTableEntry num address).isNone).length

/-- The common part of the add handlers. -/
def queryAdd (num : Nat) (t : FilterTable) (si : Nat) (addresses : List Nat) : FilterTable × MsgCode :=
  if addresses.length > num then (t, .noResource)
  else if t.newNum num addresses > t.freeNum num then (t, .noResource)
  else addEntries num si (t.queries num addresses) t

/-- The first loop of the delete handlers. The result array has `num` places; a query for an address beyond them writes
outside of it, which is undefined. -/
def deleteQueries (num : Nat) (t : FilterTable) : Nat → List Nat → Option (Except MsgCode (List (Nat × QueryResult)))
  | _, [] => some (.ok [])
  | i, address :: addresses =>
    if i < num then
      match t.queryEMTableEntry num address with
      | none => some (.error .addrNotFound)
      | some r => (deleteQueries num t (i + 1) addresses).map fun results => results.map ((address, r) :: ·)
    else none

/-- The entry without the bit of the sender, which is cleared if no other bit is set. -/
def deletedEntry (si address : Nat) (r : QueryResult) : Entry :=
  let siBitMap := r.siBitMap &&& ~~~(1#16 <<< si)
  { addr := if siBitMap = 0 then 0 else address, siBitMap := siBitMap }

/-- One round of the second loop of the delete handlers. -/
def deleteEntry (si : Nat) (t : FilterTable) (x : Nat × QueryResult) : FilterTable :=
  let e := deletedEntry si x.1 x.2
  let t := t.write x.2.index e
  if e.siBitMap = 0 then t.setCount x.2.index 0 else t

/-- The common part of the delete handlers. -/
def queryDelete (num : Nat) (t : FilterTable) (si : Nat) (addresses : List Nat) : Option (FilterTable × MsgCode) :=
  (t.deleteQueries num 0 addresses).map fun
    | .error code => (t, code)
    | .ok results => (results.foldl (deleteEntry si) t, .done)

/-- One round of the loop of the flush handlers. -/
def flushEntry (si : Nat) (delete : Nat → Bool) (t : FilterTable) (i : Nat) : FilterTable :=
  let e := t.entry i
  if t.filterCount i = 0 then t
  else if ¬ delete e.addr then t
  else if e.siBitMap &&& (1#16 <<< si) = 0 then t
  else if e.siBitMap = 1#16 <<< si then (t.write i { addr := 0, siBitMap := 0 }).setCount i 0
  else
    let siBitMap := e.siBitMap &&& ~~~(1#16 <<< si)
    let t := t.write i { e with siBitMap := siBitMap }
    if siBitMap = 0 then t.setCount i 0 else t

/-- The common part of the flush handlers. -/
def flush (num : Nat) (t : FilterTable) (si : Nat) (delete : Nat → Bool) : FilterTable :=
  (List.range num).foldl (flushEntry si delete) t

end FilterTable

/-- `NUM_MAC_FILTER_ENTRY`. -/
def numMacFilterEntry : Nat := 4

/-- `NUM_VLAN_FILTER_ENTRY`. -/
def numVlanFilterEntry : Nat := 4

/-- The little-endian word at a place of a message. -/
def word (bytes : Nat → UInt8) (m : Nat) : Nat :=
  (bytes m).toNat + (bytes (m + 1)).toNat * 2 ^ 8 + (bytes (m + 2)).toNat * 2 ^ 16 + (bytes (m + 3)).toNat * 2 ^ 24

/-- The MAC address at a place of a message. -/
def macAddress (macAddr : Nat → UInt8) (m : Nat) : Nat :=
  (macAddr (m + 4)).toNat * 2 ^ 32 + (macAddr (m + 5)).toNat * 2 ^ 40 + word macAddr m

/-- The MAC addresses of a message. A count of 0 stands for one address. -/
def macAddresses (count : UInt8) (macAddr : Nat → UInt8) : List Nat :=
  (List.range (if count = 0 then 1 else count.toNat)).map fun i => macAddress macAddr (6 * i)

/-- The VLAN identifiers of a message. -/
def vlanIds (count : UInt8) (vlanId : Nat → UInt8) : List Nat :=
  (List.range count.toNat).map fun i => word vlanId (4 * i)

/-- `EP_RxL2MFQueryAddEMTableEntry`. -/
def rxL2MFQueryAddEMTableEntry (t : FilterTable) (si : Nat) (count : UInt8) (macAddr : Nat → UInt8) :
    FilterTable × MsgCode :=
  t.queryAdd numMacFilterEntry si (macAddresses count macAddr)

/-- `EP_RxL2MFQueryDeleteEMTableEntry`. -/
def rxL2MFQueryDeleteEMTableEntry (t : FilterTable) (si : Nat) (count : UInt8) (macAddr : Nat → UInt8) :
    Option (FilterTable × MsgCode) :=
  t.queryDelete numMacFilterEntry si (macAddresses count macAddr)

/-- The addresses that a flush of the type removes. -/
def macFlushed (type : UInt8) (address : Nat) : Bool :=
  let uc := type = 0x40 ∨ type = 0x00 ∨ type = 0xc0
  let mc := type = 0x80 ∨ type = 0x00 ∨ type = 0xc0
  (uc ∧ address % 2 = 0) ∨ (mc ∧ ¬ address % 2 = 0)

/-- `EP_RxL2MFFlush` on the exact match table. -/
def rxL2MFFlush (t : FilterTable) (si : Nat) (type : UInt8) : FilterTable × MsgCode :=
  (t.flush numMacFilterEntry si (macFlushed type), .done)

/-- `EP_RxL2VFQueryAddEMTableEntry`. -/
def rxL2VFQueryAddEMTableEntry (t : FilterTable) (si : Nat) (count : UInt8) (vlanId : Nat → UInt8) :
    FilterTable × MsgCode :=
  if count = 0 then (t, .invalidVlan) else t.queryAdd numVlanFilterEntry si (vlanIds count vlanId)

/-- `EP_RxL2VFQueryDeleteEMTableEntry`. -/
def rxL2VFQueryDeleteEMTableEntry (t : FilterTable) (si : Nat) (count : UInt8) (vlanId : Nat → UInt8) :
    Option (FilterTable × MsgCode) :=
  if count = 0 then some (t, .invalidVlan) else t.queryDelete numVlanFilterEntry si (vlanIds count vlanId)

/-- `EP_RxL2VFFlush` on the exact match table. -/
def rxL2VFFlush (t : FilterTable) (si : Nat) : FilterTable × MsgCode :=
  (t.flush numVlanFilterEntry si fun _ => true, .done)

/-- `EP_RxL2MFAddEMTableEntry` and `EP_RxL2VFAddEMTableEntry` of the PSI. The index field has 16 bits. -/
def addEMTableEntry (t : FilterTable) (idx address : Nat) : FilterTable :=
  t.write (idx % 2 ^ 16) { addr := address, siBitMap := 1#16 <<< 0 }

/-- `EP_RxL2MFDelEMTableEntry` and `EP_RxL2VFDelEMTableEntry` of the PSI. -/
def delEMTableEntry (t : FilterTable) (idx : Nat) : FilterTable :=
  t.write (idx % 2 ^ 16) { addr := 0, siBitMap := 0 }

/-- The tables of an endpoint. -/
structure Filters where
  mac : FilterTable
  vlan : FilterTable

/-- The messages of the VSIs. -/
inductive FilterMsg where
  | macAdd (count : UInt8) (macAddr : Nat → UInt8)
  | macDelete (count : UInt8) (macAddr : Nat → UInt8)
  | macFlush (type : UInt8)
  | vlanAdd (count : UInt8) (vlanId : Nat → UInt8)
  | vlanDelete (count : UInt8) (vlanId : Nat → UInt8)
  | vlanFlush

/-- The messages, and the calls of the PSI. -/
inductive FilterEvent where
  | msg (vsi : Vsi) (m : FilterMsg)
  | addMac (idx : Nat) (macAddr : Nat → UInt8)
  | delMac (idx : Nat)
  | addVlan (idx vlanId tpid : Nat)
  | delVlan (idx : Nat)

namespace Filters

/-- The empty tables. -/
def init : Filters :=
  { mac := { entry := fun _ => { addr := 0, siBitMap := 0 }, filterCount := fun _ => 0 }
    vlan := { entry := fun _ => { addr := 0, siBitMap := 0 }, filterCount := fun _ => 0 } }

/-- The cases of `EP_PsiHandleMacFilter` and `EP_PsiHandleVlanFilter` that work on the tables, with the answer. -/
def handle (f : Filters) (vsi : Vsi) : FilterMsg → Option (Filters × MsgCode)
  | .macAdd count macAddr =>
    let (t, code) := rxL2MFQueryAddEMTableEntry f.mac vsi count macAddr
    some ({ f with mac := t }, code)
  | .macDelete count macAddr =>
    (rxL2MFQueryDeleteEMTableEntry f.mac vsi count macAddr).map fun (t, code) => ({ f with mac := t }, code)
  | .macFlush type =>
    let (t, code) := rxL2MFFlush f.mac vsi type
    some ({ f with mac := t }, code)
  | .vlanAdd count vlanId =>
    let (t, code) := rxL2VFQueryAddEMTableEntry f.vlan vsi count vlanId
    some ({ f with vlan := t }, code)
  | .vlanDelete count vlanId =>
    (rxL2VFQueryDeleteEMTableEntry f.vlan vsi count vlanId).map fun (t, code) => ({ f with vlan := t }, code)
  | .vlanFlush =>
    let (t, code) := rxL2VFFlush f.vlan vsi
    some ({ f with vlan := t }, code)

/-- One event. Nothing is known of the tables after an undefined access. -/
def step (f : Option Filters) : FilterEvent → Option Filters
  | .msg vsi m => f.bind fun f => (f.handle vsi m).map Prod.fst
  | .addMac idx macAddr => f.map fun f => { f with mac := addEMTableEntry f.mac idx (macAddress macAddr 0) }
  | .delMac idx => f.map fun f => { f with mac := delEMTableEntry f.mac idx }
  | .addVlan idx vlanId tpid =>
    f.map fun f => { f with vlan := addEMTableEntry f.vlan idx ((vlanId % 2 ^ 16) ||| (tpid * 2 ^ 16)) }
  | .delVlan idx => f.map fun f => { f with vlan := delEMTableEntry f.vlan idx }

end Filters

end McuxDrivers.Netc
