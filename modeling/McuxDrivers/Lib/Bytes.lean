import Mathlib.Data.List.Basic
import Mathlib.Tactic.IntervalCases

/-!
# Byte buffers and byte order

Copies into a byte buffer, the byte representations of a machine word, and the byte swap
that turns one into the other.
-/

namespace McuxDrivers.Lib

/-- `memcpy(&dst[off], src, |src|)` on a buffer kept as a list. -/
def memcpy {α : Type} (dst : List α) (off : Nat) (src : List α) : List α :=
  dst.take off ++ src ++ dst.drop (off + src.length)

lemma length_memcpy {α : Type} (dst src : List α) (off : Nat) (h : off + src.length ≤ dst.length) :
    (memcpy dst off src).length = dst.length := by
  simp only [memcpy, List.length_append, List.length_take, List.length_drop]
  omega

lemma take_memcpy {α : Type} (dst src : List α) (off : Nat) (h : off ≤ dst.length) :
    (memcpy dst off src).take (off + src.length) = dst.take off ++ src := by
  have hlen : (dst.take off ++ src).length = off + src.length := by
    rw [List.length_append, List.length_take, Nat.min_eq_left h]
  rw [memcpy, ← hlen, List.take_left]

lemma memcpy_append_left {α : Type} (a b src : List α) :
    memcpy (a ++ b) a.length src = a ++ src ++ b.drop src.length := by
  rw [memcpy, List.take_left, List.drop_length_add_append]

/-- A buffer of exactly `n` elements. -/
structure Buf (α : Type) (n : Nat) where
  data : List α
  length_eq : data.length = n
  deriving DecidableEq, Repr

namespace Buf

variable {α : Type} {n : Nat}

/-- A buffer with the same element everywhere. -/
def fill (n : Nat) (a : α) : Buf α n :=
  ⟨List.replicate n a, by simp⟩

/-- `memcpy(&b[off], src, |src|)`; what does not fit is dropped. -/
def write (b : Buf α n) (off : Nat) (src : List α) : Buf α n :=
  ⟨(memcpy b.data off src).take n, by
    have hn := b.length_eq
    simp only [memcpy, List.length_take, List.length_append, List.length_drop]
    omega⟩

lemma data_write (b : Buf α n) (off : Nat) (src : List α) (h : off + src.length ≤ n) :
    (b.write off src).data = memcpy b.data off src := by
  have hlen : (memcpy b.data off src).length = n := by
    rw [length_memcpy _ _ _ (by rw [b.length_eq]; exact h), b.length_eq]
  exact List.take_of_length_le hlen.le

lemma take_write (b : Buf α n) (off : Nat) (src : List α) (h : off + src.length ≤ n) :
    (b.write off src).data.take (off + src.length) = b.data.take off ++ src := by
  rw [data_write b off src h, take_memcpy _ _ _ (by rw [b.length_eq]; omega)]

/-- Filling a buffer up to its end leaves the valid bytes followed by the new ones. -/
lemma data_write_to_end (b : Buf α n) (off : Nat) (src : List α) (h : off + src.length = n) :
    (b.write off src).data = b.data.take off ++ src := by
  have htake := take_write b off src h.le
  rwa [h, List.take_of_length_le (b.write off src).length_eq.le] at htake

lemma data_write_fill (a : α) (src : List α) (h : src.length ≤ n) :
    ((fill n a).write 0 src).data = src ++ List.replicate (n - src.length) a := by
  rw [data_write _ _ _ (by omega)]
  simp [memcpy, fill]

/-- The first `size` elements of a buffer are the valid ones, `valid`. -/
structure Holds (b : Buf α n) (size : Nat) (valid : List α) : Prop where
  size_eq : size = valid.length
  take_eq : b.data.take size = valid
  bounded : valid.length ≤ n

lemma holds_nil (b : Buf α n) : b.Holds 0 [] :=
  ⟨rfl, rfl, by simp⟩

lemma holds_write_zero (b : Buf α n) (src : List α) (h : src.length ≤ n) :
    (b.write 0 src).Holds src.length src := by
  have htake := take_write b 0 src (by omega)
  rw [Nat.zero_add, List.take_zero, List.nil_append] at htake
  exact ⟨rfl, htake, h⟩

lemma Holds.append {b : Buf α n} {size : Nat} {valid : List α} (h : b.Holds size valid)
    (src : List α) (hfit : size + src.length ≤ n) :
    (b.write size src).Holds (size + src.length) (valid ++ src) := by
  have hlen : (valid ++ src).length = size + src.length := by rw [List.length_append, h.size_eq]
  refine ⟨hlen.symm, ?_, hlen ▸ hfit⟩
  rw [take_write b size src hfit, h.take_eq]

/-- Filling the buffer to its end leaves the valid elements and the new ones. -/
lemma Holds.complete {b : Buf α n} {size : Nat} {valid : List α} (h : b.Holds size valid)
    (src : List α) (hfill : size + src.length = n) : (b.write size src).data = valid ++ src := by
  rw [data_write_to_end b size src hfill, h.take_eq]

end Buf

/-- The bytes of a 32-bit word as a little-endian machine stores it. -/
def leBytes32 (w : BitVec 32) : List UInt8 :=
  [⟨w.extractLsb' 0 8⟩, ⟨w.extractLsb' 8 8⟩, ⟨w.extractLsb' 16 8⟩, ⟨w.extractLsb' 24 8⟩]

/-- The big-endian bytes of a 32-bit word. -/
def beBytes32 (w : BitVec 32) : List UInt8 :=
  [⟨w.extractLsb' 24 8⟩, ⟨w.extractLsb' 16 8⟩, ⟨w.extractLsb' 8 8⟩, ⟨w.extractLsb' 0 8⟩]

/-- The big-endian bytes of a 64-bit length. -/
def beBytes64 (n : Nat) : List UInt8 :=
  beBytes32 (BitVec.ofNat 32 (n / 2 ^ 32)) ++ beBytes32 (BitVec.ofNat 32 n)

/-- Byte swap of a 32-bit word by masks and shifts. -/
def swapBytes (w : BitVec 32) : BitVec 32 :=
  ((w &&& 0x000000ff#32) <<< 24) ||| ((w &&& 0x0000ff00#32) <<< 8) |||
    ((w &&& 0x00ff0000#32) >>> 8) ||| ((w &&& 0xff000000#32) >>> 24)

/-- Storing the swapped word little-endian writes the big-endian bytes. -/
theorem leBytes32_swapBytes (w : BitVec 32) : leBytes32 (swapBytes w) = beBytes32 w := by
  have h0 : (swapBytes w).extractLsb' 0 8 = w.extractLsb' 24 8 := by
    apply BitVec.eq_of_getLsbD_eq
    intro i hi
    interval_cases i <;> simp [swapBytes]
  have h1 : (swapBytes w).extractLsb' 8 8 = w.extractLsb' 16 8 := by
    apply BitVec.eq_of_getLsbD_eq
    intro i hi
    interval_cases i <;> simp [swapBytes]
  have h2 : (swapBytes w).extractLsb' 16 8 = w.extractLsb' 8 8 := by
    apply BitVec.eq_of_getLsbD_eq
    intro i hi
    interval_cases i <;> simp [swapBytes]
  have h3 : (swapBytes w).extractLsb' 24 8 = w.extractLsb' 0 8 := by
    apply BitVec.eq_of_getLsbD_eq
    intro i hi
    interval_cases i <;> simp [swapBytes]
  rw [leBytes32, beBytes32, h0, h1, h2, h3]

lemma length_beBytes64 (n : Nat) : (beBytes64 n).length = 8 := rfl

lemma beBytes64_of_lt {n : Nat} (h : n < 2 ^ 32) :
    beBytes64 n = List.replicate 4 0 ++ beBytes32 (BitVec.ofNat 32 n) := by
  rw [beBytes64, Nat.div_eq_of_lt h]
  rfl

end McuxDrivers.Lib
