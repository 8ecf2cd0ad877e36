import Mathlib.Algebra.Group.Nat.Defs
import Mathlib.Data.List.Basic
import Mathlib.Logic.Function.Basic

/-!
# The setup of the receive rings of a NETC endpoint

`EP_RxBufferAllocAll` and `EP_RxBufferFreeAll` of `fsl_netc_endpoint.c`, without address offset. A run that writes behind
the descriptors of a ring, or that reads an array that the handle does not have, has no result.
-/

namespace McuxDrivers.Netc

/-- The fields of `netc_rx_bdr_config_t` that the setup reads, as `NETC_SIConfigRxBDR` accepts them. -/
structure RxBdrConfig where
  len : Nat
  extendDescEn : Bool
  len_ok : if extendDescEn then len % 16 = 0 ∧ len / 2 ≤ 65536 else len % 8 = 0 ∧ len ≤ 65536

namespace RxBdrConfig

/-- The number of descriptors as the hardware counts them. -/
def maxHwBdNum (c : RxBdrConfig) : Nat :=
  if c.extendDescEn then c.len / 2 else c.len

/-- The place of the descriptor that the hardware calls `u`. -/
def bdIndex (c : RxBdrConfig) (u : Nat) : Nat :=
  if c.extendDescEn then 2 * u else u

/-- The number of buffers after which the 16-bit index comes back to the first one. -/
def period (c : RxBdrConfig) : Nat :=
  if c.extendDescEn then 2 ^ 15 else 2 ^ 16

end RxBdrConfig

/-- The allocator of the application: what it answers to the calls of `rxBuffAlloc`, where 0 is NULL. It does not hand out
a buffer again before it is freed. -/
structure BuffAlloc where
  answer : Nat → Nat
  distinct : ∀ i j, answer i ≠ 0 → answer i = answer j → i = j

/-- What the setup works on. -/
structure RxSetup where
  /-- The address in each descriptor of each ring. -/
  bdBase : Nat → Nat → Nat
  /-- The rings for which the handle has its array. -/
  installed : Nat → Bool
  /-- The arrays of the application, one for each ring. -/
  buffArray : Nat → Nat → Nat
  /-- The buffers that `rxBuffAlloc` has given. -/
  allocated : List Nat
  /-- The buffers that went to `rxBuffFree`. -/
  freed : List Nat

/-- The codes that `EP_RxBufferAllocAll` returns. -/
inductive SetupStatus where
  | success
  | lackOfResource
deriving DecidableEq

namespace RxSetup

/-- Write the address of a descriptor. -/
def setAddr (s : RxSetup) (ring index addr : Nat) : RxSetup :=
  { s with bdBase := Function.update s.bdBase ring (Function.update (s.bdBase ring) index addr) }

/-- Keep a buffer of the allocator in the array of its ring. -/
def keep (s : RxSetup) (ring buffIdx buffAddr : Nat) : RxSetup :=
  { s with
    buffArray := Function.update s.buffArray ring (Function.update (s.buffArray ring) buffIdx buffAddr)
    allocated := s.allocated ++ [buffAddr] }

/-- One round of the loop of `EP_RxBufferFreeAll` over the array of a ring. -/
def freeBuffer (ring : Nat) (s : RxSetup) (index : Nat) : Option RxSetup :=
  if ¬ s.installed ring then none
  else if s.buffArray ring index ≠ 0 then some { s with freed := s.freed ++ [s.buffArray ring index] }
  else some s

/-- The loop of `EP_RxBufferFreeAll` over the rings. -/
def freeRings : Nat → List RxBdrConfig → RxSetup → Option RxSetup
  | _, [], s => some s
  | ring, c :: cs, s => do
    let s ← (List.range c.maxHwBdNum).foldlM (freeBuffer ring) s
    freeRings (ring + 1) cs s

/-- `EP_RxBufferFreeAll`. -/
def rxBufferFreeAll (rxZeroCopy : Bool) (rings : List RxBdrConfig) (s : RxSetup) : Option RxSetup :=
  if rxZeroCopy then freeRings 0 rings s else some s

variable (alloc : BuffAlloc) (rxZeroCopy : Bool)

/-- The loop of `EP_RxBufferAllocAll` over the descriptors of a ring, of which `left` are left. It tells whether an
allocation has failed. -/
def fillRing (c : RxBdrConfig) (ring : Nat) : Nat → Nat → Nat → RxSetup → Option (Bool × RxSetup)
  | left, rxDesc, index, s =>
    if index < c.len then
      match left with
      | 0 => none
      | left + 1 =>
        let s := s.setAddr ring rxDesc 0
        let next := fillRing c ring left (rxDesc + 1) ((index + 1) % 2 ^ 16)
        if c.extendDescEn ∧ index % 2 ≠ 0 then next s
        else
          let buffIdx := if c.extendDescEn then index / 2 else index
          if ¬ rxZeroCopy then next (s.setAddr ring rxDesc (s.buffArray ring buffIdx))
          else
            let buffAddr := alloc.answer s.allocated.length
            if buffAddr = 0 then some (true, s)
            else next ((s.keep ring buffIdx buffAddr).setAddr ring rxDesc buffAddr)
    else some (false, s)

/-- The loop of `EP_RxBufferAllocAll` over the rings. -/
def allocRings (rings : List RxBdrConfig) : Nat → List RxBdrConfig → RxSetup → Option (SetupStatus × RxSetup)
  | _, [], s => some (.success, s)
  | ring, c :: cs, s => do
    let s := { s with installed := Function.update s.installed ring true }
    let (failed, s) ← fillRing alloc rxZeroCopy c ring c.len 0 0 s
    if failed then (rxBufferFreeAll rxZeroCopy rings s).map fun s => (.lackOfResource, s)
    else allocRings rings (ring + 1) cs s

/-- `EP_RxBufferAllocAll`. -/
def rxBufferAllocAll (rings : List RxBdrConfig) (s : RxSetup) : Option (SetupStatus × RxSetup) :=
  allocRings alloc rxZeroCopy rings 0 rings s

end RxSetup

end McuxDrivers.Netc
