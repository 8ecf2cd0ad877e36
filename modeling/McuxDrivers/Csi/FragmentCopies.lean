import McuxDrivers.Csi.Fragments
import Mathlib.Data.Nat.Bitwise
import Mathlib.Tactic.IntervalCases

/-!
# What the copy of a fragment stores

The extracting functions store one byte of each pixel, and the loop of the handler stores the rows of the window that the
lines of a fragment have.
-/

namespace McuxDrivers.Csi.Fragments
open McuxDrivers.Lib

section Extraction

lemma getLsbD_byteMask (i : Nat) : (0xff#32).getLsbD i = decide (i < 8) := by
  have hbit : (255 : Nat).testBit i = decide (i < 8) := Nat.testBit_two_pow_sub_one 8 i
  rw [BitVec.getLsbD_ofNat, hbit]
  by_cases h : i < 8
  · rw [decide_eq_true (Nat.lt_trans h (by decide)), Bool.true_and]
  · rw [decide_eq_false h, Bool.and_false]

lemma getLsbD_bfi (d n : BitVec 32) (lsb : Nat) {i : Nat} (hi : i < 32) :
    (bfi d n lsb).getLsbD i = if lsb ≤ i ∧ i < lsb + 8 then n.getLsbD (i - lsb) else d.getLsbD i := by
  simp only [bfi, BitVec.getLsbD_or, BitVec.getLsbD_and, BitVec.getLsbD_not, BitVec.getLsbD_shiftLeft, getLsbD_byteMask,
    hi, decide_true, Bool.true_and]
  by_cases hlow : i < lsb
  · rw [if_neg (by omega), decide_eq_true hlow]
    simp
  · by_cases hhigh : i < lsb + 8
    · rw [if_pos (by omega), decide_eq_false hlow, decide_eq_true (show i - lsb < 8 by omega)]
      simp
    · rw [if_neg (by omega), decide_eq_false hlow, decide_eq_false (show ¬ i - lsb < 8 by omega)]
      simp

lemma getLsbD_byte (n : BitVec 32) (k : Nat) {i : Nat} (hi : i < 8) : (n.extractLsb' k 8).getLsbD i = n.getLsbD (k + i) := by
  rw [BitVec.getLsbD_extractLsb', decide_eq_true hi, Bool.true_and]

/-- The byte that `bfi` fills. -/
lemma byte_bfi (d n : BitVec 32) {lsb : Nat} (h : lsb + 8 ≤ 32) :
    (bfi d n lsb).extractLsb' lsb 8 = n.extractLsb' 0 8 := by
  apply BitVec.eq_of_getLsbD_eq
  intro i hi
  rw [getLsbD_byte _ _ hi, getLsbD_byte _ _ hi, getLsbD_bfi _ _ _ (by omega), if_pos (by omega), Nat.zero_add,
    Nat.add_sub_cancel_left]

/-- The bytes that it keeps. -/
lemma byte_bfi_of_ne (d n : BitVec 32) {lsb k : Nat} (h : k + 8 ≤ lsb ∨ lsb + 8 ≤ k) (hk : k + 8 ≤ 32) :
    (bfi d n lsb).extractLsb' k 8 = d.extractLsb' k 8 := by
  apply BitVec.eq_of_getLsbD_eq
  intro i hi
  rw [getLsbD_byte _ _ hi, getLsbD_byte _ _ hi, getLsbD_bfi _ _ _ (by omega), if_neg (by omega)]

lemma byte_ushiftRight (n : BitVec 32) (k s : Nat) : (n >>> s).extractLsb' k 8 = n.extractLsb' (s + k) 8 := by
  apply BitVec.eq_of_getLsbD_eq
  intro i hi
  rw [getLsbD_byte _ _ hi, getLsbD_byte _ _ hi, BitVec.getLsbD_ushiftRight, Nat.add_assoc]

lemma byte_loadWord (m : ByteMemory) (a : Nat) {k : Nat} (hk : k < 4) :
    (loadWord m a).extractLsb' (8 * k) 8 = (m.bytes (a + k)).toBitVec := by
  apply BitVec.eq_of_getLsbD_eq
  intro i hi
  rw [getLsbD_byte _ _ hi]
  unfold loadWord
  simp only [BitVec.getLsbD_append]
  interval_cases k
  · rw [if_pos (by omega), Nat.mul_zero, Nat.zero_add]
    rfl
  · rw [if_neg (by omega), if_pos (by omega)]
    congr 1
    omega
  · rw [if_neg (by omega), if_neg (by omega), if_pos (by omega)]
    congr 1
    omega
  · rw [if_neg (by omega), if_neg (by omega), if_neg (by omega)]
    congr 1
    omega

/-- One byte of each pixel of two bytes, the first or the second. -/
def bytePerPixel (second : Bool) : List UInt8 → List UInt8
  | u :: v :: rest => (if second then v else u) :: bytePerPixel second rest
  | _ => []

lemma exists_pixel {n : Nat} {l : List UInt8} (hl : l.length = 2 * (n + 1)) :
    ∃ u v l', l = u :: v :: l' ∧ l'.length = 2 * n := by
  obtain ⟨u, l, rfl⟩ := List.exists_cons_of_length_pos (show 0 < l.length by omega)
  rw [List.length_cons] at hl
  obtain ⟨v, l, rfl⟩ := List.exists_cons_of_length_pos (show 0 < l.length by omega)
  rw [List.length_cons] at hl
  exact ⟨u, v, l, rfl, by omega⟩

@[simp]
lemma bytePerPixel_append (second : Bool) {n : Nat} (l rest : List UInt8) (hl : l.length = 2 * n) :
    bytePerPixel second (l ++ rest) = bytePerPixel second l ++ bytePerPixel second rest := by
  induction n generalizing l with
  | zero =>
    rw [List.length_eq_zero_iff.mp hl]
    rfl
  | succ n ih =>
    obtain ⟨u, v, l, rfl, hrest⟩ := exists_pixel hl
    rw [List.cons_append, List.cons_append, bytePerPixel, bytePerPixel, ih l hrest, List.cons_append]

lemma length_bytePerPixel (second : Bool) {n : Nat} (l : List UInt8) (hl : l.length = 2 * n) :
    (bytePerPixel second l).length = n := by
  induction n generalizing l with
  | zero =>
    rw [List.length_eq_zero_iff.mp hl]
    rfl
  | succ n ih =>
    obtain ⟨u, v, l, rfl, hrest⟩ := exists_pixel hl
    rw [bytePerPixel, List.length_cons, ih l hrest]

/-- The two words of a round have one byte of each pixel. -/
def Packs (pack : BitVec 32 → BitVec 32 → BitVec 32 → BitVec 32 → BitVec 32 → BitVec 32 → BitVec 32 × BitVec 32)
    (second : Bool) : Prop :=
  ∀ r3 r4 r5 r6 r7 r12 : BitVec 32, leBytes32 (pack r3 r4 r5 r6 r7 r12).1 ++ leBytes32 (pack r3 r4 r5 r6 r7 r12).2 =
    bytePerPixel second (leBytes32 r3 ++ leBytes32 r4 ++ leBytes32 r5 ++ leBytes32 r6)

lemma packs_uyvy : Packs packUYVY true := by
  intro r3 r4 r5 r6 r7 r12
  simp [packUYVY, leBytes32, bytePerPixel, byte_bfi, byte_bfi_of_ne, byte_ushiftRight]

lemma leBytes32_loadWord (m : ByteMemory) (a : Nat) : leBytes32 (loadWord m a) = m.read a 4 := by
  have hbyte {k : Nat} (hk : k < 4) := byte_loadWord m a hk
  have h0 := hbyte (show 0 < 4 by decide)
  have h1 := hbyte (show 1 < 4 by decide)
  have h2 := hbyte (show 2 < 4 by decide)
  have h3 := hbyte (show 3 < 4 by decide)
  rw [leBytes32, h0, h1, h2, h3]
  rfl

variable {pack : BitVec 32 → BitVec 32 → BitVec 32 → BitVec 32 → BitVec 32 → BitVec 32 → BitVec 32 × BitVec 32}
  {second : Bool}

/-- The bytes that a round stores. -/
lemma Packs.stored (hpack : Packs pack second) (m : ByteMemory) (a : Nat) (r7 r12 : BitVec 32) :
    leBytes32 (pack (loadWord m a) (loadWord m (a + 4)) (loadWord m (a + 8)) (loadWord m (a + 12)) r7 r12).1 ++
      leBytes32 (pack (loadWord m a) (loadWord m (a + 4)) (loadWord m (a + 8)) (loadWord m (a + 12)) r7 r12).2 =
    bytePerPixel second (m.read a 16) := by
  have hread : m.read a 16 = m.read a 4 ++ m.read (a + 4) 4 ++ m.read (a + 8) 4 ++ m.read (a + 12) 4 := by
    rw [← m.read_add a 4 4, ← m.read_add a 8 4, ← m.read_add a 12 4]
  rw [hpack, hread, leBytes32_loadWord, leBytes32_loadWord, leBytes32_loadWord, leBytes32_loadWord]

/-- The rounds of the loop, eight bytes each. -/
lemma loop_extractRound (hpack : Packs pack second) {n fuel : Nat} {mem : ByteMemory} {dest src : Nat} {r7 r12 : BitVec 32}
    (hpos : 0 < n) (hlt : 8 * n < 2 ^ 32) (hfuel : n ≤ fuel) (hdest : dest % 4 = 0) (hsrc : src % 4 = 0)
    (hapart : src + 16 * n ≤ dest ∨ dest + 8 * n ≤ src) :
    loop (extractRound pack) fuel { mem := mem, r0 := dest, r1 := src, r2 := 8 * n, r7 := r7, r12 := r12 } =
      some (some (mem.store dest (bytePerPixel second (mem.read src (16 * n))))) := by
  induction n generalizing fuel mem dest src r7 r12 with
  | zero => exact absurd hpos (Nat.lt_irrefl 0)
  | succ n ih =>
    obtain ⟨fuel, rfl⟩ := Nat.exists_eq_add_of_le' (Nat.le_trans (Nat.succ_le_succ (Nat.zero_le n)) hfuel)
    have hcount : (8 * (n + 1) + (2 ^ 32 - 8)) % 2 ^ 32 = 8 * n := by omega
    have hlength : (bytePerPixel second (mem.read src 16)).length = 8 := length_bytePerPixel _ _ (ByteMemory.length_read _ _ _)
    rw [loop, extractRound]
    dsimp only
    rw [if_pos ⟨hsrc, hdest⟩, hpack.stored, hcount]
    by_cases hlast : n = 0
    · rw [if_pos (by omega), hlast]
    · rw [if_neg (by omega)]
      dsimp only
      rw [ih (by omega) (by omega) (by omega) (by omega) (by omega) (by omega),
        ByteMemory.read_store_of_disjoint _ _ (by omega)]
      have hnext : dest + 8 = dest + (bytePerPixel second (mem.read src 16)).length := by rw [hlength]
      have hsplit : 16 * (n + 1) = 16 + 16 * n := by omega
      rw [hnext, ByteMemory.store_append, hsplit, ByteMemory.read_add,
        bytePerPixel_append second (mem.read src 16) _ (ByteMemory.length_read mem src (2 * 8))]

/-- The extracting functions take one byte of each pixel. -/
theorem extract_eq (hpack : Packs pack second) {n : Nat} {mem : ByteMemory} {dest src : Nat} {r7 r12 : BitVec 32}
    (hpos : 0 < n) (hlt : 8 * n < 2 ^ 32) (hdest : dest % 4 = 0) (hsrc : src % 4 = 0)
    (hapart : src + 16 * n ≤ dest ∨ dest + 8 * n ≤ src) :
    extract pack mem dest src (8 * n) r7 r12 = some (mem.store dest (bytePerPixel second (mem.read src (16 * n)))) := by
  rw [extract, loop_extractRound hpack hpos hlt (by omega) hdest hsrc hapart]
  rfl

end Extraction

section Geometry

variable (cfg : FragConfig) (c : CaptureConfig)

namespace CaptureConfig

/-- The columns left of the window. -/
def left : Nat := c.window.elim 0 FragWindow.windowULX

/-- The lines above the window. -/
def top : Nat := c.window.elim 0 FragWindow.windowULY

def columns : Nat := c.window.elim cfg.width fun w => w.windowLRX + 1 - w.windowULX

def rows : Nat := c.window.elim cfg.height fun w => w.windowLRY + 1 - w.windowULY

def bytesPerRow : Nat := if c.outputGrayScale then c.columns cfg else 2 * c.columns cfg

def linePerFrag : Nat := if c.window.isSome then 1 else cfg.dmaBufferLine

/-- What the image has of a line. -/
def row (line : List UInt8) : List UInt8 :=
  let pixels := (line.drop (2 * c.left)).take (2 * c.columns cfg)
  if c.outputGrayScale then bytePerPixel true pixels else pixels

end CaptureConfig

/-- The frame is one that the registers can say, and the DMA buffers are aligned and apart. -/
structure Suits : Prop where
  width_pos : 0 < cfg.width
  width_lt : cfg.width < 2 ^ 15
  height_pos : 0 < cfg.height
  height_lt : cfg.height < 2 ^ 16
  aligned : cfg.dmaBufferAddr0 % 4 = 0 ∧ cfg.dmaBufferAddr1 % 4 = 0
  apart : cfg.dmaBufferAddr0 + cfg.dmaBufferLine * (2 * cfg.width) ≤ cfg.dmaBufferAddr1 ∨
    cfg.dmaBufferAddr1 + cfg.dmaBufferLine * (2 * cfg.width) ≤ cfg.dmaBufferAddr0

/-- What `CSI_FragModeCreateHandle` finds in addition. -/
structure Created : Prop extends Suits cfg where
  width_mod : 2 * cfg.width % 8 = 0
  line_pos : 0 < cfg.dmaBufferLine
  line_dvd : cfg.dmaBufferLine ∣ cfg.height

/-- The window is in the frame, and the image is apart from the DMA buffers. A gray image is aligned, and so is its
window. -/
structure Fits : Prop where
  window : ∀ w ∈ c.window, w.windowULX ≤ w.windowLRX ∧ w.windowLRX < cfg.width ∧ w.windowULY ≤ w.windowLRY ∧
    w.windowLRY < cfg.height
  gray : c.outputGrayScale = true → c.buffer % 4 = 0 ∧ c.left % 2 = 0
  apart : ∀ address ∈ [cfg.dmaBufferAddr0, cfg.dmaBufferAddr1],
    c.buffer + c.rows cfg * c.bytesPerRow cfg ≤ address ∨ address + cfg.dmaBufferLine * (2 * cfg.width) ≤ c.buffer

variable {cfg c}

lemma Fits.columns_le (h : Fits cfg c) : c.left + c.columns cfg ≤ cfg.width := by
  unfold CaptureConfig.left CaptureConfig.columns
  cases hw : c.window with
  | none => exact Nat.le_of_eq (Nat.zero_add _)
  | some w =>
    obtain ⟨hx, hlrx, -⟩ := h.window w hw
    change w.windowULX + (w.windowLRX + 1 - w.windowULX) ≤ cfg.width
    omega

lemma Fits.rows_le (h : Fits cfg c) : c.top + c.rows cfg ≤ cfg.height := by
  unfold CaptureConfig.top CaptureConfig.rows
  cases hw : c.window with
  | none => exact Nat.le_of_eq (Nat.zero_add _)
  | some w =>
    obtain ⟨-, -, hy, hlry⟩ := h.window w hw
    change w.windowULY + (w.windowLRY + 1 - w.windowULY) ≤ cfg.height
    omega

lemma Fits.columns_pos (h : Fits cfg c) (hcfg : Suits cfg) : 0 < c.columns cfg := by
  unfold CaptureConfig.columns
  cases hw : c.window with
  | none => exact hcfg.width_pos
  | some w =>
    obtain ⟨hx, -⟩ := h.window w hw
    change 0 < w.windowLRX + 1 - w.windowULX
    omega

lemma Fits.length_row (h : Fits cfg c) {line : List UInt8} (hline : line.length = 2 * cfg.width) :
    (c.row cfg line).length = c.bytesPerRow cfg := by
  have hcolumns := h.columns_le
  have hpixels : ((line.drop (2 * c.left)).take (2 * c.columns cfg)).length = 2 * c.columns cfg := by
    rw [List.length_take, List.length_drop]
    omega
  unfold CaptureConfig.row CaptureConfig.bytesPerRow
  split_ifs
  · exact length_bytePerPixel _ _ hpixels
  · exact hpixels

lemma length_flatMap_row (h : Fits cfg c) {lines : List (List UInt8)} (hlines : ∀ l ∈ lines, l.length = 2 * cfg.width) :
    (lines.flatMap (c.row cfg)).length = lines.length * c.bytesPerRow cfg := by
  induction lines with
  | nil => exact (Nat.zero_mul _).symm
  | cons l lines ih =>
    rw [List.flatMap_cons, List.length_append, h.length_row (hlines l List.mem_cons_self),
      ih (fun l' hl' => hlines l' (List.mem_cons_of_mem l hl')), List.length_cons, Nat.succ_mul, Nat.add_comm]

end Geometry

section Copying

variable {cfg : FragConfig} {c : CaptureConfig} {mem : ByteMemory}

/-- A part of what was read. -/
lemma read_part {a d n k : Nat} (h : d + k ≤ n) : mem.read (a + d) k = ((mem.read a n).drop d).take k := by
  have hsplit : n = d + (k + (n - d - k)) := by omega
  rw [hsplit, ByteMemory.read_add, ByteMemory.read_add, List.drop_left' (ByteMemory.length_read _ _ _),
    List.take_left' (ByteMemory.length_read _ _ _)]

/-- `copyFunc` for a capture. -/
def CaptureConfig.copyFunc (c : CaptureConfig) : CopyFunc :=
  if c.outputGrayScale then .extractYFromUYVY else .memCopy

/-- A row is stored from its line in a DMA buffer. -/
lemma run_row (hcfg : Created cfg) (h : Fits cfg c) (hgray : c.outputGrayScale = true → c.columns cfg % 8 = 0)
    {dest a : Nat} {line : List UInt8} (hline : mem.read a (2 * cfg.width) = line)
    (hdest : c.outputGrayScale = true → dest % 4 = 0 ∧ a % 4 = 0)
    (hapart : dest + c.bytesPerRow cfg ≤ a ∨ a + 2 * cfg.width ≤ dest) :
    c.copyFunc.run mem dest (a + 2 * c.left) (c.bytesPerRow cfg) = some (mem.store dest (c.row cfg line)) := by
  have hcolumns := h.columns_le
  have hpart : mem.read (a + 2 * c.left) (2 * c.columns cfg) = (line.drop (2 * c.left)).take (2 * c.columns cfg) := by
    rw [← hline]
    exact read_part (by omega)
  by_cases hout : c.outputGrayScale = true
  · have hbytes : c.bytesPerRow cfg = c.columns cfg := if_pos hout
    have hcopy : c.copyFunc = .extractYFromUYVY := if_pos hout
    have hrow : c.row cfg line = bytePerPixel true ((line.drop (2 * c.left)).take (2 * c.columns cfg)) := if_pos hout
    obtain ⟨n, hn⟩ := Nat.dvd_of_mod_eq_zero (hgray hout)
    have hpos := h.columns_pos hcfg.toSuits
    have hlt := hcfg.width_lt
    have heven := (h.gray hout).2
    obtain ⟨hd, ha⟩ := hdest hout
    rw [hbytes] at hapart ⊢
    rw [hcopy, CopyFunc.run, hrow, ← hpart, hn,
      extract_eq packs_uyvy (by omega) (by omega) hd (by omega) (by omega), ← Nat.mul_assoc]
  · have hbytes : c.bytesPerRow cfg = 2 * c.columns cfg := if_neg hout
    have hcopy : c.copyFunc = .memCopy := if_neg hout
    have hrow : c.row cfg line = (line.drop (2 * c.left)).take (2 * c.columns cfg) := if_neg hout
    rw [hbytes, hcopy, CopyFunc.run, hrow, hpart]

/-- What the handle has for a capture. -/
structure Running (cfg : FragConfig) (c : CaptureConfig) (h : FragHandle) : Prop where
  dmaBytePerLine : h.dmaBytePerLine = 2 * cfg.width
  windowULX : h.windowULX = c.left
  windowULY : h.windowULY = c.top
  windowLRY : h.windowLRY + 1 = c.top + c.rows cfg
  linePerFrag : h.linePerFrag = c.linePerFrag cfg
  datBytePerLine : h.datBytePerLine = c.bytesPerRow cfg
  copyFunc : h.copyFunc = some c.copyFunc
  outputBuffer : h.outputBuffer = c.buffer
  gray : c.outputGrayScale = true → c.columns cfg % 8 = 0

/-- Lines that are all of the window are copied. -/
lemma copyLines_inside (hcfg : Created cfg) (hfits : Fits cfg c) {h : FragHandle} (hrunning : Running cfg c h)
    {fragment : List (List UInt8)} {line dest a : Nat}
    (hlines : ∀ l ∈ fragment, l.length = 2 * cfg.width)
    (hread : mem.read a (fragment.length * (2 * cfg.width)) = fragment.flatten)
    (htop : c.top ≤ h.dmaCurLine + line) (hbottom : h.dmaCurLine + line + fragment.length ≤ c.top + c.rows cfg)
    (haligned : c.outputGrayScale = true → dest % 4 = 0 ∧ a % 4 = 0)
    (hapart : dest + fragment.length * c.bytesPerRow cfg ≤ a ∨ a + fragment.length * (2 * cfg.width) ≤ dest) :
    System.copyLines h fragment.length line mem dest (a + 2 * c.left) =
      some (mem.store dest (fragment.flatMap (c.row cfg)), dest + fragment.length * c.bytesPerRow cfg) := by
  induction fragment generalizing line dest a mem with
  | nil => rw [List.length_nil, System.copyLines, List.flatMap_nil, ByteMemory.store_nil, Nat.zero_mul, Nat.add_zero]
  | cons l fragment ih =>
    have hl : l.length = 2 * cfg.width := hlines l List.mem_cons_self
    have hlast := hrunning.windowLRY
    rw [List.length_cons] at hread hbottom hapart ⊢
    rw [Nat.succ_mul] at hapart hread
    rw [Nat.succ_mul] at hapart
    rw [Nat.add_comm (fragment.length * (2 * cfg.width)), ByteMemory.read_add, List.flatten_cons] at hread
    obtain ⟨hfirst, hrest⟩ := List.append_inj hread (by rw [ByteMemory.length_read, hl])
    rw [System.copyLines, if_neg (by omega), hrunning.windowULY, if_pos htop, hrunning.copyFunc, Option.bind_some,
      hrunning.datBytePerLine, run_row hcfg hfits hrunning.gray hfirst haligned (by omega)]
    dsimp only
    have hgray : c.outputGrayScale = true → (dest + c.bytesPerRow cfg) % 4 = 0 ∧ (a + 2 * cfg.width) % 4 = 0 := by
      intro hout
      obtain ⟨hd, ha⟩ := haligned hout
      have hbytes : c.bytesPerRow cfg = c.columns cfg := if_pos hout
      have hcolumns := hrunning.gray hout
      have hwidth := hcfg.width_mod
      rw [hbytes]
      omega
    have hsource : a + 2 * c.left + h.dmaBytePerLine = a + 2 * cfg.width + 2 * c.left := by
      rw [hrunning.dmaBytePerLine]
      omega
    rw [hsource, ih (fun l' hl' => hlines l' (List.mem_cons_of_mem l hl'))
      (by rw [ByteMemory.read_store_of_disjoint _ _ (by rw [hfits.length_row hl]; omega), hrest]) (by omega) (by omega) hgray
      (by omega)]
    have hnext : dest + c.bytesPerRow cfg = dest + (c.row cfg l).length := by rw [hfits.length_row hl]
    rw [hnext, ByteMemory.store_append, List.flatMap_cons, ← hnext, Nat.succ_mul, Nat.add_assoc,
      Nat.add_comm (c.bytesPerRow cfg)]

end Copying
end McuxDrivers.Csi.Fragments
