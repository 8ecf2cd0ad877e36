import McuxDrivers.Lib.Countdown
import McuxDrivers.Lib.Limbs
import Mathlib.Logic.Function.Basic

/-!
# The CASPER modular exponentiation

`CASPER_ModExp` of `fsl_casper.c` and the functions it calls, under their C names. An array of 32-bit
words is a function from indices; the accelerator's operations are exact arithmetic on the numbers in
such arrays. The buffers in the accelerator's RAM do not overlap, except that the product of
`MultprecMontPrepareX` runs on from `Base` into `TempBase`, which is written before it is read.
-/

namespace McuxDrivers.Casper
open McuxDrivers.Lib

/-- `a - b` on `uint64_t`. -/
def wsub64 (a b : Nat) : Nat :=
  if b ≤ a then a - b else 2 ^ 64 - (b - a)

/-- `PreZeroW` writes four words at a time. -/
def preZeroW (n : Nat) (w : Nat → Nat) : Nat → Nat :=
  fun i => if i < (n + 3) / 4 * 4 then 0 else w i

/-- `MultprecMontCalcRp`: `Sub64` from 0, without the last borrow. -/
def multprecMontCalcRp (n : Nat) (nmod : Nat → Nat) (rp : Nat → Nat) : Nat → Nat :=
  let rp := preZeroW n rp
  store (2 ^ 32) rp 0 n ((limbs (2 ^ 32) rp 0 n + (2 ^ 32) ^ n - limbs (2 ^ 32) nmod 0 n) % (2 ^ 32) ^ n)

/-- The loop of `MultprecMultiply` over the double words of `v` from the second on. A `Mul6464Sum` adds to
`n` words and writes the next two; a double word of 0 is skipped. -/
def multiplyLoop (n : Nat) (u v : Nat → Nat) : Nat → Nat → (Nat → Nat) → Nat → Nat
  | 0, _, w => w
  | count + 1, j, w =>
    let w := if v j ≠ 0 ∨ v (j + 1) ≠ 0 then
        store (2 ^ 32) w j (n + 2) (limbs (2 ^ 32) w j n + limbs (2 ^ 32) u 0 n * limbs (2 ^ 32) v j 2)
      else w
    multiplyLoop n u v count (j + 2) w

def multprecMultiply (n : Nat) (w u v : Nat → Nat) : Nat → Nat :=
  let w := preZeroW n w
  let w := store (2 ^ 32) w 0 (n + 2) (limbs (2 ^ 32) u 0 n * limbs (2 ^ 32) v 0 2)
  multiplyLoop n u v (n / 2 - 1) 2 w

/-- Whether a 16-bit quotient digit is too large for the lower half `vl16` of the divisor. -/
def overDivided (vl16 d qHat rHat : Nat) : Bool :=
  qHat * vl16 % 2 ^ 32 > (rHat * 2 ^ 16 % 2 ^ 32 ||| d)

/-- One half of the division in `MultprecModulo`: the 16-bit quotient digit of `u32` and the next 16 bits
`d`, and the rest. -/
def divideHalf (vNm1 u32 d : Nat) : Nat × Nat :=
  let vl16 := vNm1 % 2 ^ 16
  let vh16 := vNm1 / 2 ^ 16
  let qHat := u32 / vh16
  let rHat := wsub32 u32 (qHat * vh16 % 2 ^ 32)
  let qHat := if qHat = 0x10000 ∨ overDivided vl16 d qHat rHat then
      let qHat := wsub32 qHat 1
      let rHat := (rHat + vh16) % 2 ^ 32
      if rHat < 0x10000 ∧ overDivided vl16 d qHat rHat then wsub32 qHat 1 else qHat
    else qHat
  let u64 := wsub64 (u32 * 2 ^ 16 ||| d) (qHat * vNm1)
  if u64 / 2 ^ 48 ≠ 0 then (wsub32 qHat 1, (u64 + vNm1) % 2 ^ 32) else (qHat, u64 % 2 ^ 32)

/-- The loop that corrects the quotient digit with the second word of the divisor. `vNm1` has its top bit
set, so `rHat` overflows in the second round at the latest. -/
def correctDigit (vNm1 vNm2 u2 : Nat) (qOver : Bool) : Nat → Nat → Nat → Nat
  | 0, qHat, _ => qHat
  | fuel + 1, qHat, rHat =>
    if qOver ∨ qHat * vNm2 > 2 ^ 32 * rHat + u2 then
      let qHat := wsub32 qHat 1
      let rHat := (rHat + vNm1) % 2 ^ 32
      if rHat < vNm1 then qHat else correctDigit vNm1 vNm2 u2 qOver fuel qHat rHat
    else qHat

/-- The quotient digit of `MultprecModulo`, from the three upper words `un`, `u1`, `u2` of the dividend and
the two upper words of the divisor. -/
def quotientDigit (vNm1 vNm2 un u1 u2 : Nat) : Nat :=
  let qOver : Bool := wsub32 un vNm1 ≤ un
  let u32 := if qOver then wsub32 un vNm1 else un
  let upper := divideHalf vNm1 u32 (u1 / 2 ^ 16 % 2 ^ 16)
  let lower := divideHalf vNm1 upper.2 (u1 % 2 ^ 16)
  correctDigit vNm1 vNm2 u2 qOver 2 (lower.1 ||| upper.1 * 2 ^ 16 % 2 ^ 32) lower.2

/-- The loop that subtracts `qHat` times the divisor, from word `i` on. -/
def subtractLoop (qHat j : Nat) (v : Nat → Nat) : Nat → Nat → (Nat → Nat) × Nat → (Nat → Nat) × Nat
  | 0, _, s => s
  | count + 1, i, (u, borrow) =>
    let u64 := qHat * v i + borrow
    let borrow := if u (i + j) < u64 % 2 ^ 32 then (u64 / 2 ^ 32 + 1) % 2 ^ 32 else u64 / 2 ^ 32
    subtractLoop qHat j v count (i + 1)
      (Function.update u (i + j) (wsub32 (u (i + j)) (u64 % 2 ^ 32)), borrow)

/-- The loop that adds the divisor back, from word `i` on. -/
def addBackLoop (j : Nat) (v : Nat → Nat) : Nat → Nat → (Nat → Nat) × Nat → (Nat → Nat) × Nat
  | 0, _, s => s
  | count + 1, i, (u, carry) =>
    let word := (u (i + j) + carry) % 2 ^ 32
    let carry := if word < carry then 1 else 0
    let sum := (word + v i) % 2 ^ 32
    addBackLoop j v count (i + 1) (Function.update u (i + j) sum, if sum < v i then carry + 1 else carry)

/-- One round of `MultprecModulo`: the dividend and its upper word `un`. -/
def moduloStep (n : Nat) (v : Nat → Nat) (j : Nat) (s : (Nat → Nat) × Nat) : (Nat → Nat) × Nat :=
  let (u, un) := s
  let qHat := quotientDigit (v (n - 1)) (v (n - 2)) un (u (j + n - 1)) (u (j + n - 2))
  let (u, un) := if qHat ≠ 0 then
      let (u, borrow) := subtractLoop qHat j v n 0 (u, 0)
      (u, wsub32 un borrow)
    else (u, un)
  let u := if un ≠ 0 then (addBackLoop j v n 0 (u, 0)).1 else u
  (u, u (j + n - 1))

/-- The rounds `top, ..., 0`. -/
def moduloLoop (n : Nat) (v : Nat → Nat) : Nat → (Nat → Nat) × Nat → (Nat → Nat) × Nat
  | 0, s => moduloStep n v 0 s
  | j + 1, s => moduloLoop n v j (moduloStep n v (j + 1) s)

def multprecModulo (n : Nat) (u v : Nat → Nat) (top : Nat) : Nat → Nat :=
  (moduloLoop n v top (u, 0)).1

def multprecMontPrepareX (n : Nat) (xmont x rp nmod : Nat → Nat) : Nat → Nat :=
  multprecModulo n (multprecMultiply n xmont x rp) nmod n

/-- `COMP_NPN_1` on `uint64_t`. -/
def compNpn1 (nmod0 nprime : Nat) : Nat :=
  wsub64 2 (nmod0 * nprime % 2 ^ 64) * nprime % 2 ^ 64

/-- `Nmod_0` of `MultprecGenNp64`. -/
def lowDword (nmod : Nat → UInt32) : Nat :=
  (nmod 0).toNat ||| (nmod 1).toNat * 2 ^ 32

/-- `MultprecGenNp64`, from `Nmod_0`. -/
def multprecGenNp64 (nmod0 : Nat) : Nat :=
  let nprime := (((2 + nmod0) % 2 ^ 64 &&& 4) * 2 + nmod0) % 2 ^ 64
  let nprime := compNpn1 nmod0 (compNpn1 nmod0 (compNpn1 nmod0 (compNpn1 nmod0 nprime)))
  (2 ^ 64 - 1 - nprime + 1) % 2 ^ 64

/-- `w64[0..d]` as a number, and `w64[d + 1]`. -/
structure CiosState where
  w : Nat
  upper : Nat

/-- A `Mul6464FullSum` of `x` times a double word into `w64[0..d]`, with the carry that the driver infers
from `w64[d]`. -/
def fullSum (d : Nat) (w x : Nat) : Nat × Nat :=
  let sum := (w + x) % (2 ^ 64) ^ (d + 1)
  (sum, if sum / (2 ^ 64) ^ d < w / (2 ^ 64) ^ d then 1 else 0)

/-- One round of `MultprecCiosMul`: with factors `a` and `b` a multiplication and reduction, without them a
reduction only. -/
def ciosStep (d : Nat) (ab : Option (Nat × Nat)) (nmod np64 i : Nat) (s : CiosState) : CiosState :=
  let s : CiosState := match ab with
    | some (a, b) =>
      let sum := fullSum d s.w (a * (b / (2 ^ 64) ^ i % 2 ^ 64))
      { w := sum.1, upper := sum.2 }
    | none => s
  let m64 := s.w % 2 ^ 64 * np64 % 2 ^ 64
  let sum := fullSum d s.w (m64 * nmod)
  { w := sum.1 / 2 ^ 64 + (2 ^ 64) ^ d * ((s.upper + sum.2) % 2 ^ 64), upper := s.upper }

def ciosLoop (d : Nat) (ab : Option (Nat × Nat)) (nmod np64 : Nat) : Nat → Nat → CiosState → CiosState
  | 0, _, s => s
  | count + 1, i, s => ciosLoop d ab nmod np64 count (i + 1) (ciosStep d ab nmod np64 i s)

/-- Word `i` of a number. -/
def word (x i : Nat) : Nat :=
  x / (2 ^ 32) ^ i % 2 ^ 32

/-- The loop that compares the words `i, ..., 1`. -/
def largerWords (w nmod : Nat) : Nat → Bool
  | 0 => false
  | i + 1 =>
    if word w (i + 1) ≠ word nmod (i + 1) then word w (i + 1) > word nmod (i + 1)
    else largerWords w nmod i

/-- `MultprecCiosMul` on numbers of `d` double words; `w` is what the output buffer holds. -/
def multprecCiosMul (d w : Nat) (ab : Option (Nat × Nat)) (nmod np64 : Nat) : Nat :=
  let w := if ab.isSome then 0 else w
  let w := (ciosLoop d ab nmod np64 d 0 { w := w, upper := 0 }).w
  let j : Bool := if word w (2 * d) ≠ 0 then true else largerWords w nmod (2 * d - 1)
  if j then (w + (2 ^ 64) ^ d - nmod) % (2 ^ 64) ^ d else w % (2 ^ 64) ^ d

/-- The working area of `RSA_MontSignatureToPlaintextFast`. -/
structure MsgRet where
  result : Nat
  base : Nat
  tempBase : Nat
  bidx : Bool

/-- The round of the exponentiation for bit `bitpos`. -/
def exponentStep (d nmod np64 expPubkey bitpos : Nat) (s : MsgRet) : MsgRet :=
  let s := if s.bidx then { s with base := multprecCiosMul d s.base (some (s.tempBase, s.tempBase)) nmod np64 }
    else { s with tempBase := multprecCiosMul d s.tempBase (some (s.base, s.base)) nmod np64 }
  if expPubkey &&& 2 ^ bitpos % 2 ^ 8 ≠ 0 then
    if s.bidx then { s with tempBase := multprecCiosMul d s.tempBase (some (s.result, s.base)) nmod np64 }
    else { s with base := multprecCiosMul d s.base (some (s.result, s.tempBase)) nmod np64 }
  else { s with bidx := !s.bidx }

/-- The rounds for the bits `bitpos - 1, ..., 0`. -/
def exponentLoop (d nmod np64 expPubkey : Nat) : Nat → MsgRet → MsgRet
  | 0, s => s
  | bitpos + 1, s => exponentLoop d nmod np64 expPubkey bitpos (exponentStep d nmod np64 expPubkey bitpos s)

/-- `RSA_MontSignatureToPlaintextFast`. The signature is in `Base`; what `TempBase` holds is not read. -/
def rsaMontSignatureToPlaintextFast (d montSignature expPubkey nmod tempBase : Nat) : Nat :=
  let np64 := multprecGenNp64 (nmod % 2 ^ 64)
  let s := exponentLoop d nmod np64 expPubkey (Nat.log2 expPubkey)
    { result := montSignature, base := montSignature, tempBase := tempBase, bidx := false }
  multprecCiosMul d (if s.bidx then s.tempBase else s.base) none nmod np64

/-- `RSA_SignatureToPlaintextFast`, where `ram` holds what was in `Base` and beyond before. -/
def rsaSignatureToPlaintextFast (n : Nat) (signature : Nat → Nat) (expPubkey : Nat) (pubkey ram : Nat → Nat) : Nat :=
  let rp := multprecMontCalcRp n pubkey (fun _ => 0)
  let base := multprecMontPrepareX n ram signature rp pubkey
  rsaMontSignatureToPlaintextFast (n / 2) (limbs (2 ^ 32) base 0 n) expPubkey (limbs (2 ^ 32) pubkey 0 n)
    (limbs (2 ^ 32) ram 0 n)

/-- `CASPER_ModExp`: the words of the plaintext. -/
def modExp (wordLen : Nat) (signature pubN : Nat → UInt32) (pubE : Nat) (ram : Nat → UInt32) (i : Nat) : Nat :=
  word (rsaSignatureToPlaintextFast wordLen (fun k => (signature k).toNat) pubE (fun k => (pubN k).toNat)
    (fun k => (ram k).toNat)) i

end McuxDrivers.Casper
