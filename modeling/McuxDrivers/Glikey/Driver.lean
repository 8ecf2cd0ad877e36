import Mathlib.Data.BitVec

/-!
# The GLIKEY driver

The calls of `fsl_glikey.c` on the registers of one instance. The device header that places the fields in the registers is
not part of the sources: `Layout` has the places as parameters. What the hardware answers in STATUS is given from outside,
one value for each read.
-/

namespace McuxDrivers.Glikey

/-- The codes that the calls return. -/
inductive Status where
  | success
  | fail
  | lockedError
  | notLocked
  | locked
  | disabledError
deriving DecidableEq

/-- A field of a register. -/
structure Field where
  shift : Nat
  width : Nat

namespace Field

/-- The macro `.._MASK`. -/
def mask (f : Field) : BitVec 32 :=
  (BitVec.allOnes f.width).setWidth 32 <<< f.shift

/-- The macro that puts a value into the field. -/
def val (f : Field) (x : BitVec 32) : BitVec 32 :=
  (x <<< f.shift) &&& f.mask

/-- The value of the field in a register. -/
def get (f : Field) (register : BitVec 32) : BitVec 32 :=
  (register &&& f.mask) >>> f.shift

/-- The register with another value of the field. -/
def set (f : Field) (register x : BitVec 32) : BitVec 32 :=
  (register &&& ~~~f.mask) ||| f.val x

end Field

/-- The places of the fields. SFR_LOCK has four bits, and READ_INDEX lies elsewhere in CTRL_1. -/
structure Layout where
  -- CTRL_0
  writeIndex : Field
  wrEn0 : Field
  sftRst : Field
  -- CTRL_1
  readIndex : Field
  wrEn1 : Field
  sfrLock : Field
  -- INTR_CTRL
  intEn : Field
  intClr : Field
  intSet : Field
  -- STATUS
  lockStatus : Field
  errorStatus : Field
  fsmState : Field
  sfrLock_width : sfrLock.width = 4
  sfrLock_fits : sfrLock.shift + 4 ≤ 32
  readIndex_sfrLock : readIndex.mask &&& sfrLock.mask = 0

structure Regs where
  ctrl0 : BitVec 32
  ctrl1 : BitVec 32
  intrCtrl : BitVec 32
deriving DecidableEq

namespace Regs

variable (L : Layout)

/-- `GLIKEY_CheckLock`. -/
def checkLock (r : Regs) : Status :=
  if L.sfrLock.get r.ctrl1 ≠ 0x0A then .lockedError else .notLocked

/-- `GLIKEY_IsLocked`. -/
def isLocked (r : Regs) : Status :=
  if r.checkLock L = .notLocked then .notLocked else .locked

/-- The calls that first check the lock and go on when it is open. -/
def whenNotLocked (r : Regs) (body : Regs × Status) : Regs × Status :=
  if r.checkLock L ≠ .notLocked then (r, r.checkLock L) else body

/-- `Glikey_Internal_Set_WR_0`. -/
def setWr0 (r : Regs) (value : BitVec 32) : Regs :=
  { r with ctrl0 := L.wrEn0.set r.ctrl0 value }

/-- `Glikey_Internal_Set_WR_1`. -/
def setWr1 (r : Regs) (value : BitVec 32) : Regs :=
  { r with ctrl1 := L.wrEn1.set r.ctrl1 value }

/-- `GLIKEY_SyncReset`. -/
def syncReset (r : Regs) : Regs × Status :=
  r.whenNotLocked L ({ r with ctrl0 := r.ctrl0 ||| L.sftRst.mask }, .success)

/-- `GLIKEY_SetIntEnable`. -/
def setIntEnable (r : Regs) (value : BitVec 32) : Regs × Status :=
  r.whenNotLocked L ({ r with intrCtrl := L.intEn.val value }, .success)

/-- `GLIKEY_ClearIntStatus`. -/
def clearIntStatus (r : Regs) : Regs × Status :=
  r.whenNotLocked L ({ r with intrCtrl := r.intrCtrl ||| L.intClr.mask }, .success)

/-- `GLIKEY_SetIntStatus`. -/
def setIntStatus (r : Regs) : Regs × Status :=
  r.whenNotLocked L ({ r with intrCtrl := r.intrCtrl ||| L.intSet.mask }, .success)

/-- `GLIKEY_Lock`. The register is written when the check does not say that it is open. -/
def lock (r : Regs) : Regs × Status :=
  if r.checkLock L ≠ .notLocked then ({ r with ctrl1 := L.sfrLock.set r.ctrl1 0x05 }, .success) else (r, .success)

/-- `GLIKEY_IsIndexLocked`, with the two reads of STATUS. -/
def isIndexLocked (r : Regs) (index status status' : BitVec 32) : Regs × Status :=
  let r := { r with ctrl1 := L.readIndex.set r.ctrl1 index }
  if status &&& L.errorStatus.mask ≠ 0 then (r, .fail)
  else if status' &&& L.lockStatus.mask = 0 then (r, .notLocked)
  else (r, .locked)

/-- `GLIKEY_LockIndex`. -/
def lockIndex (r : Regs) (status : BitVec 32) : Regs × Status :=
  r.whenNotLocked L
    (if L.fsmState.get status = 0x1802 then ({ r with ctrl0 := r.ctrl0 ||| L.wrEn0.val 0x3 }, .locked)
      else (r, .disabledError))

/-- The part of `GLIKEY_StartEnable` behind its checks. -/
def startEnableIndex (r : Regs) (index status : BitVec 32) : Regs :=
  -- `ctrl0` is only read in the state LOCKED, else the register is written from zero
  let (r, ctrl0) :=
    if L.fsmState.get status = 0xC01 then
      let ctrl0 := L.wrEn0.set (L.writeIndex.set r.ctrl0 index) 2
      ({ r with ctrl0 := ctrl0, ctrl1 := r.ctrl1 &&& ~~~L.wrEn1.mask }, ctrl0)
    else (r, 0)
  { r with
    ctrl0 := (ctrl0 &&& ~~~L.wrEn0.mask) ||| L.writeIndex.val index ||| ((1#32) <<< L.wrEn0.shift)
    ctrl1 := r.ctrl1 &&& ~~~L.wrEn1.mask }

/-- `GLIKEY_StartEnable`, with the three reads of STATUS. -/
def startEnable (r : Regs) (index status status' status'' : BitVec 32) : Regs × Status :=
  r.whenNotLocked L
    (let (r, result) := r.isIndexLocked L index status status'
    if result ≠ .notLocked then (r, result) else (r.startEnableIndex L index status'', .success))

/-- The codeword passes the check `XXYZ ^ UUVW == 0xFFFF`. -/
def wellFormed (codeword : BitVec 32) : Bool :=
  (codeword ^^^ (codeword >>> 16)) &&& 0xFFFF == 0xFFFF

/-- `GLIKEY_ContinueEnable`. The codeword is checked behind the write. -/
def continueEnable (r : Regs) (codeword status : BitVec 32) : Regs × Status :=
  let check (r : Regs) : Regs × Status :=
    if status &&& L.errorStatus.mask ≠ 0 then (r, .disabledError)
    else if wellFormed codeword = false then (r, .fail)
    else (r, .success)
  r.whenNotLocked L
    (if codeword >>> 24 = 0xF0 then check (r.setWr1 L (codeword >>> 16))
      else if codeword >>> 24 = 0x0F then check (r.setWr0 L codeword)
      else (r, .fail))

/-- `GLIKEY_EndOperation`, with the reads of STATUS before and after the write. -/
def endOperation (r : Regs) (status status' : BitVec 32) : Regs × Status :=
  let init := (r.setWr0 L 0x2).setWr1 L 0x0
  r.whenNotLocked L
    (if L.fsmState.get status = 0xC01 then
      if L.fsmState.get status' = 0xC01 then (init, .locked) else (init, .success)
    else if L.fsmState.get status = 0x1005 ∨ L.fsmState.get status = 0x1802 then (init, .success)
    else (r, .disabledError))

/-- `GLIKEY_ResetIndex`, with the three reads of STATUS. -/
def resetIndex (r : Regs) (index status status' status'' : BitVec 32) : Regs × Status :=
  r.whenNotLocked L
    (let (r, result) := r.isIndexLocked L index status status'
    if result ≠ .notLocked then (r, result)
    else if L.fsmState.get status'' = 0x16 then ({ r with ctrl0 := L.writeIndex.set r.ctrl0 index }, .success)
    else (r, .disabledError))

end Regs

/-- The calls of the driver that write registers, with the values that STATUS has during the call. -/
inductive Call where
  | syncReset
  | setIntEnable (value : BitVec 32)
  | clearIntStatus
  | setIntStatus
  | lock
  | isIndexLocked (index status status' : BitVec 32)
  | lockIndex (status : BitVec 32)
  | startEnable (index status status' status'' : BitVec 32)
  | continueEnable (codeword status : BitVec 32)
  | endOperation (status status' : BitVec 32)
  | resetIndex (index status status' status'' : BitVec 32)

/-- One call, with its result. -/
def Regs.call (L : Layout) (r : Regs) : Call → Regs × Status
  | .syncReset => r.syncReset L
  | .setIntEnable value => r.setIntEnable L value
  | .clearIntStatus => r.clearIntStatus L
  | .setIntStatus => r.setIntStatus L
  | .lock => r.lock L
  | .isIndexLocked index status status' => r.isIndexLocked L index status status'
  | .lockIndex status => r.lockIndex L status
  | .startEnable index status status' status'' => r.startEnable L index status status' status''
  | .continueEnable codeword status => r.continueEnable L codeword status
  | .endOperation status status' => r.endOperation L status status'
  | .resetIndex index status status' status'' => r.resetIndex L index status status' status''

def Regs.step (L : Layout) (r : Regs) (c : Call) : Regs :=
  (r.call L c).1

end McuxDrivers.Glikey
