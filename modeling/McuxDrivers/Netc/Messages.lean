import McuxDrivers.Netc.Filters

/-!
# The accesses of the message handlers

`EP_PsiHandleRxMsg` and its handlers (`fsl_netc_msg.c`) with a record of the bytes of the message and of the places of
the result arrays that they access. The commands of the command ring may fail. The registers that are only written are
left out.
-/

namespace McuxDrivers.Netc

/-- A byte of the message, or a place of a result array with `num` places. -/
inductive Access where
  | msg (offset : Nat)
  | result (num index : Nat)
deriving DecidableEq

def Access.InBounds (msgLen : Nat) : Access → Prop
  | .msg offset => offset < msgLen
  | .result num index => index < num

/-- `n` bytes of the message. -/
def bytesAt (offset n : Nat) : List Access :=
  (List.range' offset n).map Access.msg

/-- `emtable_query_result_t`: not valid, no match, or a match. -/
inductive Answer where
  | timeout
  | notFound
  | found (r : QueryResult)

/-- The code in `PSIMSGRR`. -/
inductive Reply where
  | filter (code : MsgCode)
  | timeout
  | filterNotSupported
  | notSupport
  | lenError
  | csumError
  | other (code : Nat)
deriving DecidableEq

/-- What the handlers depend on beside the message and the tables: whether the station interface is the PSI, which
commands of the command ring succeed, `HAL_CrcCompute`, and the answers of the handlers that work on no message. -/
structure PsiContext where
  isPsi : Bool
  cmdOk : Nat → Bool
  crc : List UInt8 → Nat
  answer : UInt8 → UInt8 → Nat

/-- A handler on its way: the table, the number of commands so far, and the accesses. -/
structure MsgRun where
  table : FilterTable
  sent : Nat
  accesses : List Access

/-- What the MAC and the VLAN handlers differ in: the entries, the bytes of an address, and its value. -/
structure TableFormat where
  num : Nat
  size : Nat
  address : (Nat → UInt8) → Nat → Nat

def macFormat : TableFormat :=
  { num := numMacFilterEntry, size := 6, address := macAddress }

def vlanFormat : TableFormat :=
  { num := numVlanFilterEntry, size := 4, address := word }

/-- The message from `macAddr` or `vlanId` on. -/
def payload (bytes : Nat → UInt8) (k : Nat) : UInt8 :=
  bytes (0x14 + k)

section Handlers

variable (c : PsiContext) (f : TableFormat)

/-- The loop of a query, which sends a command for each entry in use. -/
def queryEntries (t : FilterTable) (address : Nat) : List Nat → Nat → Answer × Nat
  | [], sent => (.notFound, sent)
  | i :: is, sent =>
    if t.filterCount i = 0 then queryEntries t address is sent
    else if ¬ c.cmdOk sent then (.timeout, sent + 1)
    else if (t.entry i).addr = address then (.found { siBitMap := (t.entry i).siBitMap, index := i }, sent + 1)
    else queryEntries t address is (sent + 1)

/-- `EP_RxL2MFQueryEMTableEntry` and `EP_RxL2VFQueryEMTableEntry`. -/
def queryTable (t : FilterTable) (address sent : Nat) : Answer × Nat :=
  if c.isPsi then queryEntries c t address (List.range f.num) sent else (.timeout, sent)

/-- The accesses of a query for the address `i` of the message. -/
def queryAccesses (i : Nat) : List Access :=
  bytesAt (0x14 + f.size * i) f.size ++ [.result f.num i]

/-- The first loop of the add and the delete handlers. `keep` says which answers end it. -/
def queryLoop {β : Type} (keep : Answer → Except Reply β) (t : FilterTable) (bytes : Nat → UInt8) :
    List Nat → Nat → Except Reply (List (Nat × β)) × Nat × List Access
  | [], sent => (.ok [], sent, [])
  | i :: is, sent =>
    let (a, sent) := queryTable c f t (f.address (payload bytes) (f.size * i)) sent
    match keep a with
    | .error r => (.error r, sent, queryAccesses f i)
    | .ok b =>
      let (results, sent, accesses) := queryLoop keep t bytes is sent
      (results.map ((i, b) :: ·), sent, queryAccesses f i ++ accesses)

/-- The add handlers go on without a match. -/
def keepAdd : Answer → Except Reply (Option QueryResult)
  | .timeout => .error .timeout
  | .notFound => .ok none
  | .found r => .ok (some r)

def keepDelete : Answer → Except Reply QueryResult
  | .timeout => .error .timeout
  | .notFound => .error (.filter .addrNotFound)
  | .found r => .ok r

/-- The second loop of the add handlers. The place of an address in the message has 8 bits. -/
def addLoop (si : Nat) (bytes : Nat → UInt8) : List (Nat × Option QueryResult) → MsgRun → Reply × MsgRun
  | [], s => (.filter .done, s)
  | (i, r) :: results, s =>
    let m := f.size * i % 2 ^ 8
    let s := { s with accesses := s.accesses ++ (bytesAt (0x14 + m) f.size ++ [.result f.num i]) }
    let place := match r with
      | some r => some (r.index, r.siBitMap ||| (1#16 <<< si))
      | none => (s.table.freeIndex f.num).map fun index => (index, 1#16 <<< si)
    match place with
    | none => (.filter .noResource, s)
    | some (index, siBitMap) =>
      if c.cmdOk s.sent then
        addLoop si bytes results { s with
          table := (s.table.write index { addr := f.address (payload bytes) m, siBitMap := siBitMap }).setCount index 1
          sent := s.sent + 1 }
      else (.timeout, { s with sent := s.sent + 1 })

/-- The common part of the add handlers. -/
def addToTable (si : Nat) (bytes : Nat → UInt8) (t : FilterTable) (count : Nat) : Reply × MsgRun :=
  if count > f.num then (.filter .noResource, { table := t, sent := 0, accesses := [] })
  else
    let (results, sent, accesses) := queryLoop c f keepAdd t bytes (List.range count) 0
    let s : MsgRun := { table := t, sent := sent, accesses := accesses }
    match results with
    | .error r => (r, s)
    | .ok results =>
      if (results.filter fun x => x.2.isNone).length > t.freeNum f.num then (.filter .noResource, s)
      else addLoop c f si bytes results s

/-- The second loop of the delete handlers. `place` is where the address `i` is read. -/
def deleteLoop (place : Nat → Nat) (si : Nat) (bytes : Nat → UInt8) : List (Nat × QueryResult) → MsgRun → Reply × MsgRun
  | [], s => (.filter .done, s)
  | (i, r) :: results, s =>
    let e := FilterTable.deletedEntry si (f.address (payload bytes) (place i)) r
    let read : List Access := if e.siBitMap = 0 then [] else bytesAt (0x14 + place i) f.size
    let s := { s with accesses := s.accesses ++ (Access.result f.num i :: read) }
    if c.cmdOk s.sent then
      let t := s.table.write r.index e
      deleteLoop place si bytes results { s with
        table := if e.siBitMap = 0 then t.setCount r.index 0 else t
        sent := s.sent + 1 }
    else (.timeout, { s with sent := s.sent + 1 })

/-- The common part of the delete handlers. -/
def deleteFromTable (place : Nat → Nat) (si : Nat) (bytes : Nat → UInt8) (t : FilterTable) (count : Nat) :
    Reply × MsgRun :=
  let (results, sent, accesses) := queryLoop c f keepDelete t bytes (List.range count) 0
  let s : MsgRun := { table := t, sent := sent, accesses := accesses }
  match results with
  | .error r => (r, s)
  | .ok results => deleteLoop c f place si bytes results s

/-- The loop of the flush handlers. -/
def flushLoop (si : Nat) (delete : Nat → Bool) : List Nat → MsgRun → Reply × MsgRun
  | [], s => (.filter .done, s)
  | i :: is, s =>
    let e := s.table.entry i
    if s.table.filterCount i = 0 then flushLoop si delete is s
    else if ¬ c.cmdOk s.sent then (.timeout, { s with sent := s.sent + 1 })
    else if ¬ delete e.addr ∨ e.siBitMap &&& (1#16 <<< si) = 0 then flushLoop si delete is { s with sent := s.sent + 1 }
    else if ¬ c.cmdOk (s.sent + 1) then (.timeout, { s with sent := s.sent + 2 })
    else
      let e' : Entry := if e.siBitMap = 1#16 <<< si then { addr := 0, siBitMap := 0 }
        else { e with siBitMap := e.siBitMap &&& ~~~(1#16 <<< si) }
      let t := s.table.write i e'
      flushLoop si delete is { s with
        table := if e'.siBitMap = 0 then t.setCount i 0 else t
        sent := s.sent + 2 }

end Handlers

section Messages

variable (c : PsiContext) (vsi : Nat) (bytes : Nat → UInt8)

/-- The fields `count`, `typeSize`, `type` and `typeOp` of a message are one byte. -/
def msgCount : UInt8 :=
  bytes 0x10

/-- The addresses that a MAC message is for. A count of 0 stands for one address. -/
def macCount : Nat :=
  if msgCount bytes = 0 then 1 else (msgCount bytes).toNat

/-- `EP_PsiHandleMacFilter`, behind the reads of the command and of the count. -/
def macFilterCmd (t : FilterTable) : Reply × MsgRun :=
  let s : MsgRun := { table := t, sent := 0, accesses := [] }
  match (bytes 3).toNat with
  | 0 => (.filter .done, { s with accesses := bytesAt 0x14 6 })
  | 1 => addToTable c macFormat vsi bytes t (macCount bytes)
  | 2 => deleteFromTable c macFormat (fun i => 6 * i % 2 ^ 8) vsi bytes t (macCount bytes)
  | 3 => (if msgCount bytes &&& 0x03 ≠ 0 then .filterNotSupported else .filter .done,
      { s with accesses := bytesAt 0x14 16 })
  | 4 => flushLoop c vsi (macFlushed (msgCount bytes)) (List.range numMacFilterEntry) s
  | 5 =>
    if msgCount bytes &&& 0x1 = 0x1 then
      flushLoop c vsi (macFlushed (msgCount bytes &&& 0xc0)) (List.range numMacFilterEntry) s
    else (.filter .done, s)
  | _ => (.notSupport, s)

/-- `EP_PsiHandleVlanFilter`, behind the reads of the command and of the count. -/
def vlanFilterCmd (t : FilterTable) : Reply × MsgRun :=
  let s : MsgRun := { table := t, sent := 0, accesses := [] }
  match (bytes 3).toNat with
  | 0 =>
    if msgCount bytes = 0 then (.filter .invalidVlan, s)
    else addToTable c vlanFormat vsi bytes t (msgCount bytes).toNat
  | 1 =>
    if msgCount bytes = 0 then (.filter .invalidVlan, s)
    else deleteFromTable c vlanFormat (fun i => 4 * i) vsi bytes t (msgCount bytes).toNat
  | 2 => (if msgCount bytes ≠ 0 then .filterNotSupported else .filter .done, { s with accesses := bytesAt 0x14 8 })
  | 3 => flushLoop c vsi (fun _ => true) (List.range numVlanFilterEntry) s
  | 4 =>
    if msgCount bytes &&& 0x1 = 0x1 then flushLoop c vsi (fun _ => true) (List.range numVlanFilterEntry) s
    else (.filter .done, s)
  | _ => (.notSupport, s)

/-- The checks at the start of `EP_PsiHandleRxMsg`. -/
def lenError (msgLen : Nat) : Prop :=
  msgLen ≠ ((bytes 5).toNat + 1) * 32

def csumError (msgLen : Nat) : Prop :=
  let crc := c.crc ((List.range msgLen).map bytes)
  crc % 2 ^ 8 ≠ (bytes 1).toNat ∨ crc / 2 ^ 8 % 2 ^ 8 ≠ (bytes 0).toNat

instance (msgLen : Nat) : Decidable (lenError bytes msgLen) :=
  inferInstanceAs (Decidable (_ ≠ _))

instance (msgLen : Nat) : Decidable (csumError c bytes msgLen) :=
  inferInstanceAs (Decidable (_ ∨ _))

/-- `EP_PsiHandleRxMsg`: the reply, the tables and the accesses. -/
def psiHandleRxMsg (msgLen : Nat) (f : Filters) : Reply × Filters × List Access :=
  let header : List Access := [.msg 0, .msg 1, .msg 5]
  if lenError bytes msgLen then (.lenError, f, header)
  else if csumError c bytes msgLen then (.csumError, f, header)
  else
    let header : List Access := header ++ [.msg 2]
    match (bytes 2).toNat with
    | 0x20 =>
      let (r, s) := macFilterCmd c vsi bytes f.mac
      (r, { f with mac := s.table }, header ++ [.msg 0x10, .msg 3] ++ s.accesses)
    | 0x21 =>
      let (r, s) := vlanFilterCmd c vsi bytes f.vlan
      (r, { f with vlan := s.table }, header ++ [.msg 0x10, .msg 3] ++ s.accesses)
    | 0x80 => (.other (c.answer (bytes 2) (bytes 3)), f, header ++ [.msg 3])
    | 0x81 => (.other (c.answer (bytes 2) (bytes 3)), f, header ++ [.msg 3])
    | 0xf0 => (.other (c.answer (bytes 2) (bytes 3)), f, header ++ [.msg 3])
    | _ => (.notSupport, f, header)

end Messages

end McuxDrivers.Netc
