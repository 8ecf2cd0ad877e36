import McuxDrivers.Lib.Blocks
import McuxDrivers.Lib.Bytes

/-!
# Length padding of a message

The padded message of SHA-1 and SHA-256: the message, the byte `0x80`, zeros, and the 64-bit
big-endian bit length, to a multiple of 64 bytes. A hash processor that has fed some blocks
and buffers the rest finishes with one or with two more blocks, as `lastBlocks` says.
-/

namespace McuxDrivers.Lib

/-- The number of zero bytes between the `0x80` marker and the length. -/
def padZeros (len : Nat) : Nat :=
  (119 - len % 64) % 64

/-- `m ++ 0x80 ++ zeros ++ 64-bit big-endian bit length`. -/
def padded (m : List UInt8) : List UInt8 :=
  m ++ [0x80] ++ List.replicate (padZeros m.length) 0 ++ beBytes64 (8 * m.length)

/-- The closing blocks for a buffer of at most 64 bytes and a message of `len` bytes. -/
def lastBlocks (buf : List UInt8) (len : Nat) : List (List UInt8) :=
  if buf.length ≤ 55 then
    [buf ++ [0x80] ++ List.replicate (55 - buf.length) 0 ++ beBytes64 (8 * len)]
  else if buf.length < 64 then
    [buf ++ [0x80] ++ List.replicate (63 - buf.length) 0,
      List.replicate 56 0 ++ beBytes64 (8 * len)]
  else
    [buf, [0x80] ++ List.replicate 55 0 ++ beBytes64 (8 * len)]

lemma length_of_mem_lastBlocks {buf : List UInt8} (h : buf.length ≤ 64) (len : Nat)
    {b : List UInt8} (hb : b ∈ lastBlocks buf len) : b.length = 64 := by
  unfold lastBlocks at hb
  split at hb
  next h55 =>
    rw [List.mem_singleton.mp hb]
    simp [length_beBytes64]
    omega
  next h55 =>
    split at hb
    next h64 =>
      rcases List.mem_pair.mp hb with rfl | rfl
      · simp
        omega
      · simp [length_beBytes64]
    next h64 =>
      rcases List.mem_pair.mp hb with rfl | rfl
      · omega
      · simp [length_beBytes64]

/-- The closing blocks complete whatever blocks were fed before to the padded message. -/
theorem flatten_lastBlocks {fed : List (List UInt8)} {buf m : List UInt8}
    (h : Absorbed 64 (fed, buf) m) :
    fed.flatten ++ (lastBlocks buf m.length).flatten = padded m := by
  have hfed : fed.flatten.length = fed.length * 64 := by
    have hall : fed.map List.length = List.replicate fed.length 64 :=
      List.eq_replicate_iff.mpr ⟨by simp, by simpa using h.full⟩
    rw [List.length_flatten, hall, List.sum_replicate_nat]
  have hlen : m.length = fed.length * 64 + buf.length := by
    rw [← h.spelled, List.length_append, hfed]
  have hb := h.bounded
  simp only at hb
  unfold lastBlocks
  split
  next h55 =>
    have hz : padZeros m.length = 55 - buf.length := by unfold padZeros; omega
    rw [padded, hz, ← h.spelled]
    simp
  next h55 =>
    split
    next h64 =>
      have hz : padZeros m.length = (63 - buf.length) + 56 := by unfold padZeros; omega
      rw [padded, hz, ← h.spelled, ← List.replicate_append_replicate]
      simp
    next h64 =>
      have hz : padZeros m.length = 55 := by unfold padZeros; omega
      rw [padded, hz, ← h.spelled]
      simp

/-- The blocks fed together with the closing blocks are the blocks of the padded message. -/
theorem blocksOf_padded {fed : List (List UInt8)} {buf m : List UInt8}
    (h : Absorbed 64 (fed, buf) m) :
    fed ++ lastBlocks buf m.length = blocksOf 64 (padded m) := by
  rw [← flatten_lastBlocks h, ← List.flatten_append]
  refine (blocksOf_flatten (by decide) _ ?_).symm
  intro b hb
  rcases List.mem_append.mp hb with hb | hb
  · exact h.full b hb
  · exact length_of_mem_lastBlocks h.bounded _ hb

/-- `lastBlock.w[15] = swap_bytes(8 * size)`. -/
def storeLength (lastBlock : Buf UInt8 64) (size : Nat) : Buf UInt8 64 :=
  lastBlock.write 60 (leBytes32 (swapBytes (BitVec.ofNat 32 (8 * size))))

/-- The closing blocks as a driver builds them from its block buffer and the message size,
together with the block buffer it leaves. -/
def closeBuffer (blk : Buf UInt8 64) (blksz size : Nat) : List (List UInt8) × Buf UInt8 64 :=
  let lastBlock := Buf.fill 64 0
  if blksz ≤ 55 then
    let lastBlock := lastBlock.write 0 (blk.data.take blksz)
    let lastBlock := lastBlock.write blksz [0x80]
    ([(storeLength lastBlock size).data], blk)
  else
    let (blk, lastBlock) :=
      if blksz < 64 then
        ((blk.write blksz [0x80]).write (blksz + 1) (List.replicate (63 - blksz) 0), lastBlock)
      else (blk, lastBlock.write 0 [0x80])
    ([blk.data, (storeLength lastBlock size).data], blk)

lemma data_storeLength (b : Buf UInt8 64) (size : Nat) :
    (storeLength b size).data = b.data.take 60 ++ beBytes32 (BitVec.ofNat 32 (8 * size)) := by
  rw [storeLength, leBytes32_swapBytes]
  exact Buf.data_write_to_end _ _ _ rfl

/-- A marked buffer with zeros behind it, cut at 60 bytes. -/
lemma take_marked (buf : List UInt8) (h : buf.length ≤ 55) :
    (buf ++ [0x80] ++ List.replicate (63 - buf.length) (0 : UInt8)).take 60 =
      buf ++ [0x80] ++ List.replicate (55 - buf.length) 0 ++ List.replicate 4 0 := by
  have hmarked : (buf ++ [(0x80 : UInt8)]).length ≤ 60 := by simp; omega
  have hzeros : min (60 - (buf ++ [(0x80 : UInt8)]).length) (63 - buf.length) =
      (55 - buf.length) + 4 := by simp; omega
  rw [List.take_append, List.take_of_length_le hmarked, List.take_replicate, hzeros,
    ← List.replicate_append_replicate, List.append_assoc _ _ (List.replicate 4 0)]

/-- Marking a buffer that leaves no room for the length. -/
lemma Buf.Holds.data_mark {blk : Buf UInt8 64} {blksz : Nat} {buf : List UInt8}
    (hb : blk.Holds blksz buf) (h64 : blksz < 64) :
    ((blk.write blksz [0x80]).write (blksz + 1) (List.replicate (63 - blksz) 0)).data =
      buf ++ [0x80] ++ List.replicate (63 - buf.length) 0 := by
  have hmark := hb.append [0x80] h64
  rw [List.length_singleton] at hmark
  rw [hmark.complete _ (by rw [List.length_replicate]; omega), hb.size_eq]

theorem closeBuffer_fst {blk : Buf UInt8 64} {blksz size : Nat} {buf : List UInt8}
    (hb : blk.Holds blksz buf) (hlen : 8 * size < 2 ^ 32) :
    (closeBuffer blk blksz size).1 = lastBlocks buf size := by
  have hsize := hb.size_eq
  have hbound := hb.bounded
  unfold closeBuffer lastBlocks
  rw [beBytes64_of_lt hlen, ← hsize]
  split
  next h55 =>
    have hdata : (((Buf.fill 64 (0 : UInt8)).write 0 (blk.data.take blksz)).write blksz
        [0x80]).data = buf ++ [0x80] ++ List.replicate (63 - buf.length) 0 := by
      rw [hb.take_eq, Buf.data_write _ _ _ (by simp; omega), Buf.data_write_fill _ _ hbound, hsize,
        memcpy_append_left, List.drop_replicate, List.length_singleton]
      have hzeros : 64 - buf.length - 1 = 63 - buf.length := by omega
      rw [hzeros]
    simp only [data_storeLength, hdata, take_marked buf (hsize ▸ h55)]
    simp [hsize]
  next h55 =>
    split
    next h64 =>
      simp only [data_storeLength, hb.data_mark h64]
      simp [Buf.fill, hsize]
    next h64 =>
      have hfull : blk.data = buf := by
        rw [← hb.take_eq, List.take_of_length_le (by rw [blk.length_eq]; omega)]
      have hlast : ((Buf.fill 64 (0 : UInt8)).write 0 [0x80]).data = [0x80] ++ List.replicate 63 0 := rfl
      simp only [data_storeLength, hfull, hlast]
      simp

lemma closeBuffer_snd {blk : Buf UInt8 64} {blksz : Nat} {buf : List UInt8}
    (hb : blk.Holds blksz buf) (size : Nat) : (closeBuffer blk blksz size).2.Holds blksz buf := by
  unfold closeBuffer
  split
  · exact hb
  · dsimp only
    split
    next h64 =>
      refine ⟨hb.size_eq, ?_, hb.bounded⟩
      rw [hb.data_mark h64, List.append_assoc, hb.size_eq, List.take_left]
    · exact hb

end McuxDrivers.Lib
