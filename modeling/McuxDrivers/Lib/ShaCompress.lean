import McuxDrivers.Lib.Bytes

/-!
# The SHA-1 and SHA-256 compression functions

One block of 64 bytes against a chaining value kept as a list of 32-bit words, with the
initial chaining values.
-/

namespace McuxDrivers.Lib

/-- The big-endian words of a block. -/
def beWords : List UInt8 → List (BitVec 32)
  | a :: b :: c :: d :: rest => (a.toBitVec ++ b.toBitVec ++ c.toBitVec ++ d.toBitVec) :: beWords rest
  | _ => []

/-- Extends the message schedule, newest word first, `steps` times. -/
def extendSchedule (next : List (BitVec 32) → BitVec 32) : Nat → List (BitVec 32) → List (BitVec 32)
  | 0, w => w
  | steps + 1, w => extendSchedule next steps (next w :: w)

/-- The chaining value plus the working variables, word by word. -/
def addWords (h v : List (BitVec 32)) : List (BitVec 32) :=
  List.zipWith (· + ·) h v

def sha256Init : List (BitVec 32) :=
  [
    0x6a09e667, 0xbb67ae85, 0x3c6ef372, 0xa54ff53a,
    0x510e527f, 0x9b05688c, 0x1f83d9ab, 0x5be0cd19]

def sha256K : List (BitVec 32) :=
  [
    0x428a2f98, 0x71374491, 0xb5c0fbcf, 0xe9b5dba5, 0x3956c25b, 0x59f111f1, 0x923f82a4, 0xab1c5ed5,
    0xd807aa98, 0x12835b01, 0x243185be, 0x550c7dc3, 0x72be5d74, 0x80deb1fe, 0x9bdc06a7, 0xc19bf174,
    0xe49b69c1, 0xefbe4786, 0x0fc19dc6, 0x240ca1cc, 0x2de92c6f, 0x4a7484aa, 0x5cb0a9dc, 0x76f988da,
    0x983e5152, 0xa831c66d, 0xb00327c8, 0xbf597fc7, 0xc6e00bf3, 0xd5a79147, 0x06ca6351, 0x14292967,
    0x27b70a85, 0x2e1b2138, 0x4d2c6dfc, 0x53380d13, 0x650a7354, 0x766a0abb, 0x81c2c92e, 0x92722c85,
    0xa2bfe8a1, 0xa81a664b, 0xc24b8b70, 0xc76c51a3, 0xd192e819, 0xd6990624, 0xf40e3585, 0x106aa070,
    0x19a4c116, 0x1e376c08, 0x2748774c, 0x34b0bcb5, 0x391c0cb3, 0x4ed8aa4a, 0x5b9cca4f, 0x682e6ff3,
    0x748f82ee, 0x78a5636f, 0x84c87814, 0x8cc70208, 0x90befffa, 0xa4506ceb, 0xbef9a3f7, 0xc67178f2]

def sha256Next (w : List (BitVec 32)) : BitVec 32 :=
  let x := w.getD 14 0
  let y := w.getD 1 0
  (y.rotateRight 17 ^^^ y.rotateRight 19 ^^^ y >>> 10) + w.getD 6 0 +
    (x.rotateRight 7 ^^^ x.rotateRight 18 ^^^ x >>> 3) + w.getD 15 0

/-- One round on the working variables `a … h`. -/
def sha256Round (v : List (BitVec 32)) (kw : BitVec 32 × BitVec 32) : List (BitVec 32) :=
  match v with
  | [a, b, c, d, e, f, g, h] =>
    let t₁ := h + (e.rotateRight 6 ^^^ e.rotateRight 11 ^^^ e.rotateRight 25) +
      ((e &&& f) ^^^ (~~~e &&& g)) + kw.1 + kw.2
    let t₂ := (a.rotateRight 2 ^^^ a.rotateRight 13 ^^^ a.rotateRight 22) +
      ((a &&& b) ^^^ (a &&& c) ^^^ (b &&& c))
    [t₁ + t₂, a, b, c, d + t₁, e, f, g]
  | v => v

def sha256Compress (h : List (BitVec 32)) (block : List UInt8) : List (BitVec 32) :=
  let w := (extendSchedule sha256Next 48 (beWords block).reverse).reverse
  addWords h ((sha256K.zip w).foldl sha256Round h)

def sha1Init : List (BitVec 32) :=
  [0x67452301, 0xefcdab89, 0x98badcfe, 0x10325476, 0xc3d2e1f0]

def sha1Next (w : List (BitVec 32)) : BitVec 32 :=
  (w.getD 2 0 ^^^ w.getD 7 0 ^^^ w.getD 13 0 ^^^ w.getD 15 0).rotateLeft 1

/-- One round on the working variables `a … e`, with the index of the round. -/
def sha1Round (v : List (BitVec 32)) (tw : Nat × BitVec 32) : List (BitVec 32) :=
  match v with
  | [a, b, c, d, e] =>
    let f := if tw.1 < 20 then ((b &&& c) ^^^ (~~~b &&& d), 0x5a827999#32)
      else if tw.1 < 40 then (b ^^^ c ^^^ d, 0x6ed9eba1#32)
      else if tw.1 < 60 then ((b &&& c) ^^^ (b &&& d) ^^^ (c &&& d), 0x8f1bbcdc#32)
      else (b ^^^ c ^^^ d, 0xca62c1d6#32)
    [a.rotateLeft 5 + f.1 + e + f.2 + tw.2, a, b.rotateLeft 30, c, d]
  | v => v

def sha1Compress (h : List (BitVec 32)) (block : List UInt8) : List (BitVec 32) :=
  let w := (extendSchedule sha1Next 64 (beWords block).reverse).reverse
  addWords h (((List.range 80).zip w).foldl sha1Round h)

lemma length_foldl_of_step {α β : Type} (step : List α → β → List α)
    (hstep : ∀ v b, (step v b).length = v.length) (bs : List β) (v : List α) :
    (bs.foldl step v).length = v.length := by
  induction bs generalizing v with
  | nil => rfl
  | cons b bs ih => rw [List.foldl_cons, ih, hstep]

lemma length_sha256Round (v : List (BitVec 32)) (kw : BitVec 32 × BitVec 32) :
    (sha256Round v kw).length = v.length := by
  unfold sha256Round
  split <;> rfl

lemma length_sha1Round (v : List (BitVec 32)) (tw : Nat × BitVec 32) :
    (sha1Round v tw).length = v.length := by
  unfold sha1Round
  split <;> rfl

lemma length_sha256Compress (h : List (BitVec 32)) (block : List UInt8) :
    (sha256Compress h block).length = h.length := by
  rw [sha256Compress, addWords, List.length_zipWith, length_foldl_of_step _ length_sha256Round, Nat.min_self]

lemma length_sha1Compress (h : List (BitVec 32)) (block : List UInt8) :
    (sha1Compress h block).length = h.length := by
  rw [sha1Compress, addWords, List.length_zipWith, length_foldl_of_step _ length_sha1Round, Nat.min_self]

end McuxDrivers.Lib
