import McuxDrivers.Csi.FragmentCopies
import McuxDrivers.Lib.Runs

/-!
# Captures in fragment mode

Every image that is reported is the window of the lines that the DMA has written since the start of its frame, and nothing
but the DMA buffers and the images is written.
-/

namespace McuxDrivers.Csi.Fragments
open McuxDrivers.Lib

section Invariant

variable (cfg : FragConfig) (c : CaptureConfig)

def FragConfig.dmaBuffer (second : Bool) : Nat :=
  if second then cfg.dmaBufferAddr1 else cfg.dmaBufferAddr0

/-- The bytes of a DMA buffer. -/
def FragConfig.dmaRegion (second : Bool) : Region where
  address := cfg.dmaBuffer second
  bytes := cfg.dmaBufferLine * (2 * cfg.width)

namespace CaptureConfig

def region : Region where
  address := c.buffer
  bytes := c.rows cfg * c.bytesPerRow cfg

/-- The rows that the first `n` lines of a frame have. -/
def taken (n : Nat) : Nat :=
  min n (c.top + c.rows cfg) - c.top

end CaptureConfig

/-- What the calls and the handler leave alone. -/
structure Static (t : System) : Prop where
  width : t.handle.width = cfg.width
  height : t.handle.height = cfg.height
  maxLinePerFrag : t.handle.maxLinePerFrag = cfg.dmaBufferLine
  dmaBytePerLine : t.handle.dmaBytePerLine = 2 * cfg.width
  inputFormat : t.handle.inputFormat = .rgb565
  dmaBuffer : ∀ second, t.dmaBuffer second = cfg.dmaBuffer second

/-- The image is the window of the frame. -/
structure Complete (image : Image) : Prop where
  frame : cfg.height ≤ image.lines.length
  window : image.mem.read image.config.buffer (image.config.rows cfg * image.config.bytesPerRow cfg) =
    ((image.lines.drop image.config.top).take (image.config.rows cfg)).flatMap (image.config.row cfg)

/-- What has happened until now, from a memory on. -/
structure Log (mem : ByteMemory) (t : System) : Prop where
  faulted : t.faulted = false
  lines : ∀ l ∈ t.lines, l.length = 2 * cfg.width
  images : ∀ image ∈ t.images, Complete cfg image
  captured : (t.images.map Image.config ++ t.current.toList).Sublist t.captures
  fits : ∀ c ∈ t.captures, Fits cfg c
  kept : ∀ a, (∀ second, a ∉ cfg.dmaRegion second) → (∀ c ∈ t.captures, a ∉ c.region cfg) →
    t.mem.bytes a = mem.bytes a

/-- The lines that the handler has been told of. -/
def System.told (t : System) : Nat :=
  t.handle.dmaCurLine + if t.tsfDoneFb1 ∨ t.tsfDoneFb2 then t.imageHeight else 0

/-- The lines since the start of the frame are in the image, in a full buffer or in the one that the DMA writes. -/
structure Received (t : System) : Prop where
  dmaCurLine_lt : t.handle.dmaCurLine < cfg.height
  dmaCurLine_dvd : t.imageHeight ∣ t.handle.dmaCurLine
  writeAddr : t.handle.datCurWriteAddr = c.buffer + c.taken cfg t.handle.dmaCurLine * c.bytesPerRow cfg
  first : t.tsfDoneFb1 = true → t.second = true
  other : t.tsfDoneFb2 = true → t.second = false
  length : t.lines.length = t.told + t.dmaLine
  full : t.tsfDoneFb1 = true ∨ t.tsfDoneFb2 = true →
    t.mem.read (cfg.dmaBuffer !t.second) (t.imageHeight * (2 * cfg.width)) =
      ((t.lines.drop t.handle.dmaCurLine).take t.imageHeight).flatten
  filling : t.mem.read (cfg.dmaBuffer t.second) (t.dmaLine * (2 * cfg.width)) = (t.lines.drop t.told).flatten
  image : t.mem.read c.buffer (c.taken cfg t.handle.dmaCurLine * c.bytesPerRow cfg) =
    ((t.lines.drop c.top).take (c.taken cfg t.handle.dmaCurLine)).flatMap (c.row cfg)

/-- A capture is in progress or not. -/
inductive Mode (t : System) : Prop
  | idle (current : t.current = none) (interrupts : t.interruptsEnabled = false) (disabled : t.csiEnable = false)
  | busy (c : CaptureConfig) (current : t.current = some c) (interrupts : t.interruptsEnabled = true)
    (member : c ∈ t.captures) (running : Running cfg c t.handle)
    (imageWidth : t.imageWidth = 2 * cfg.width) (imageHeight : t.imageHeight = c.linePerFrag cfg)
    (waiting : t.csiEnable = false → t.tsfDoneFb1 = false ∧ t.tsfDoneFb2 = false)
    (receiving : t.csiEnable = true → t.dmaLine < t.imageHeight ∧ (t.sof = false → Received cfg c t))

structure Kept (mem : ByteMemory) (t : System) : Prop where
  static : Static cfg t
  log : Log cfg mem t
  mode : Mode cfg t

end Invariant

section Facts

variable {cfg : FragConfig} {c : CaptureConfig}

lemma Created.linePerFrag_pos (hcfg : Created cfg) : 0 < c.linePerFrag cfg := by
  unfold CaptureConfig.linePerFrag
  split_ifs
  · exact Nat.zero_lt_one
  · exact hcfg.line_pos

lemma Created.linePerFrag_le (hcfg : Created cfg) : c.linePerFrag cfg ≤ cfg.dmaBufferLine := by
  unfold CaptureConfig.linePerFrag
  split_ifs
  · exact hcfg.line_pos
  · exact Nat.le_refl _

lemma Created.linePerFrag_dvd (hcfg : Created cfg) : c.linePerFrag cfg ∣ cfg.height := by
  unfold CaptureConfig.linePerFrag
  split_ifs
  · exact Nat.one_dvd _
  · exact hcfg.line_dvd

/-- The frame has whole fragments. -/
lemma Created.fragment_le (hcfg : Created cfg) {n : Nat} (hdvd : c.linePerFrag cfg ∣ n) (hlt : n < cfg.height) :
    n + c.linePerFrag cfg ≤ cfg.height :=
  Nat.le_of_lt_add_of_dvd (Nat.add_lt_add_right hlt _) (Nat.dvd_add hdvd (Nat.dvd_refl _)) hcfg.linePerFrag_dvd

lemma dmaBuffer_mem (cfg : FragConfig) (second : Bool) :
    cfg.dmaBuffer second ∈ [cfg.dmaBufferAddr0, cfg.dmaBufferAddr1] := by
  cases second
  · exact List.mem_cons_self
  · exact List.mem_cons_of_mem _ List.mem_cons_self

lemma Suits.dmaBuffer_apart (hcfg : Suits cfg) (second : Bool) :
    cfg.dmaBuffer second + cfg.dmaBufferLine * (2 * cfg.width) ≤ cfg.dmaBuffer !second ∨
      cfg.dmaBuffer (!second) + cfg.dmaBufferLine * (2 * cfg.width) ≤ cfg.dmaBuffer second := by
  cases second
  · exact hcfg.apart
  · exact hcfg.apart.symm

lemma Suits.dmaBuffer_aligned (hcfg : Suits cfg) (second : Bool) : cfg.dmaBuffer second % 4 = 0 := by
  cases second
  · exact hcfg.aligned.1
  · exact hcfg.aligned.2

/-- A line more changes nothing in a part that the lines had. -/
lemma drop_take_append {α : Type} (l : List α) (x : α) {k n : Nat} (h : n = 0 ∨ k + n ≤ l.length) :
    ((l ++ [x]).drop k).take n = (l.drop k).take n := by
  rcases h with rfl | h
  · rw [List.take_zero, List.take_zero]
  · rw [List.drop_append_of_le_length (by omega), List.take_append_of_le_length (by rw [List.length_drop]; omega)]

lemma taken_eq_zero_or (n : Nat) : c.taken cfg n = 0 ∨ c.top + c.taken cfg n ≤ n := by
  unfold CaptureConfig.taken
  omega

lemma taken_le (n : Nat) : c.taken cfg n ≤ c.rows cfg := by
  unfold CaptureConfig.taken
  omega

/-- A fragment is all in the window, or it is a line outside of it. -/
lemma inside_or (hcfg : Created cfg) {n : Nat} (hdvd : c.linePerFrag cfg ∣ n) (hlt : n < cfg.height) :
    (c.top ≤ n ∧ n + c.linePerFrag cfg ≤ c.top + c.rows cfg) ∨
      (c.linePerFrag cfg = 1 ∧ (n < c.top ∨ c.top + c.rows cfg ≤ n)) := by
  have hfragment := hcfg.fragment_le hdvd hlt
  unfold CaptureConfig.linePerFrag CaptureConfig.top CaptureConfig.rows at *
  cases hw : c.window with
  | none =>
    rw [hw] at hfragment
    left
    refine ⟨Nat.zero_le _, ?_⟩
    change n + cfg.dmaBufferLine ≤ 0 + cfg.height
    rw [Nat.zero_add]
    exact hfragment
  | some w =>
    change (w.windowULY ≤ n ∧ n + 1 ≤ w.windowULY + (w.windowLRY + 1 - w.windowULY)) ∨
      (1 = 1 ∧ (n < w.windowULY ∨ w.windowULY + (w.windowLRY + 1 - w.windowULY) ≤ n))
    omega

lemma Static.congr {t t' : System} (h : Static cfg t) (hhandle : t'.handle = t.handle) (hfirst : t'.dmasaFb1 = t.dmasaFb1)
    (hother : t'.dmasaFb2 = t.dmasaFb2) : Static cfg t' := by
  have hbuffer : t'.dmaBuffer = t.dmaBuffer := by
    funext second
    rw [System.dmaBuffer, System.dmaBuffer, hfirst, hother]
  constructor
  · exact hhandle ▸ h.width
  · exact hhandle ▸ h.height
  · exact hhandle ▸ h.maxLinePerFrag
  · exact hhandle ▸ h.dmaBytePerLine
  · exact hhandle ▸ h.inputFormat
  · exact hbuffer ▸ h.dmaBuffer

lemma not_done : ¬(false = true ∨ false = true) := by
  decide

lemma store_bytes_of_not_mem (m : ByteMemory) {a x : Nat} (bs : List UInt8) (h : x < a ∨ a + bs.length ≤ x) :
    (m.store a bs).bytes x = m.bytes x := by
  rcases h with h | h
  · exact m.store_bytes_of_lt bs h
  · exact m.store_bytes_of_le bs h

end Facts

section Handler

variable {cfg : FragConfig} {c : CaptureConfig} {mem : ByteMemory} {t : System}

/-- What the loop of the handler does with a full buffer: the rows that the fragment has are stored behind the others. -/
lemma copyLines_fragment (hcfg : Created cfg) (hfits : Fits cfg c) (hrunning : Running cfg c t.handle)
    (himageHeight : t.imageHeight = c.linePerFrag cfg) (hreceived : Received cfg c t)
    (hlines : ∀ l ∈ t.lines, l.length = 2 * cfg.width) (hpending : t.tsfDoneFb1 = true ∨ t.tsfDoneFb2 = true) :
    ∃ rows, System.copyLines t.handle t.handle.linePerFrag 0 t.mem t.handle.datCurWriteAddr
        (cfg.dmaBuffer (!t.second) + 2 * c.left) =
          some (t.mem.store t.handle.datCurWriteAddr (rows.flatMap (c.row cfg)),
            t.handle.datCurWriteAddr + rows.length * c.bytesPerRow cfg) ∧
      (∀ l ∈ rows, l.length = 2 * cfg.width) ∧
      c.taken cfg (t.handle.dmaCurLine + c.linePerFrag cfg) = c.taken cfg t.handle.dmaCurLine + rows.length ∧
      rows = (t.lines.drop (c.top + c.taken cfg t.handle.dmaCurLine)).take rows.length := by
  have hlt := hreceived.dmaCurLine_lt
  have hdvd := hreceived.dmaCurLine_dvd
  have hfull := hreceived.full hpending
  have hlength := hreceived.length
  rw [System.told, if_pos hpending] at hlength
  rw [himageHeight] at hdvd hfull hlength
  have hlast := hrunning.windowLRY
  rcases inside_or hcfg hdvd hlt with ⟨htop, hbottom⟩ | ⟨hone, hout⟩
  · have htaken : c.top + c.taken cfg t.handle.dmaCurLine = t.handle.dmaCurLine := by
      unfold CaptureConfig.taken
      omega
    have hnext : c.taken cfg (t.handle.dmaCurLine + c.linePerFrag cfg) =
        c.taken cfg t.handle.dmaCurLine + c.linePerFrag cfg := by
      unfold CaptureConfig.taken
      omega
    obtain ⟨fragment, hfragment⟩ :
        ∃ fragment, fragment = (t.lines.drop t.handle.dmaCurLine).take (c.linePerFrag cfg) := ⟨_, rfl⟩
    have hcount : fragment.length = c.linePerFrag cfg := by
      rw [hfragment, List.length_take, List.length_drop]
      omega
    have hwidths : ∀ l ∈ fragment, l.length = 2 * cfg.width := by
      intro l hl
      rw [hfragment] at hl
      exact hlines l (List.mem_of_mem_drop (List.mem_of_mem_take hl))
    rw [← hfragment, ← hcount] at hfull
    rw [← hcount] at hbottom
    have haligned : c.outputGrayScale = true →
        t.handle.datCurWriteAddr % 4 = 0 ∧ cfg.dmaBuffer (!t.second) % 4 = 0 := by
      intro hout
      have hbytes : c.bytesPerRow cfg = c.columns cfg := if_pos hout
      have hcolumns : 4 ∣ c.columns cfg := Nat.dvd_of_mod_eq_zero (by have := hrunning.gray hout; omega)
      have hrows : 4 ∣ c.taken cfg t.handle.dmaCurLine * c.columns cfg := Dvd.dvd.mul_left hcolumns _
      have hbuffer := (hfits.gray hout).1
      rw [hreceived.writeAddr, hbytes]
      exact ⟨by omega, hcfg.dmaBuffer_aligned _⟩
    have hapart : t.handle.datCurWriteAddr + fragment.length * c.bytesPerRow cfg ≤ cfg.dmaBuffer (!t.second) ∨
        cfg.dmaBuffer (!t.second) + fragment.length * (2 * cfg.width) ≤ t.handle.datCurWriteAddr := by
      have hspace : (c.taken cfg t.handle.dmaCurLine + fragment.length) * c.bytesPerRow cfg ≤
          c.rows cfg * c.bytesPerRow cfg := Nat.mul_le_mul_right _ (by omega)
      have hsource : fragment.length * (2 * cfg.width) ≤ cfg.dmaBufferLine * (2 * cfg.width) :=
        Nat.mul_le_mul_right _ (hcount.trans_le hcfg.linePerFrag_le)
      have hbuffers := hfits.apart _ (dmaBuffer_mem cfg (!t.second))
      rw [Nat.add_mul] at hspace
      rw [hreceived.writeAddr]
      omega
    have hend : t.handle.dmaCurLine + 0 + fragment.length ≤ c.top + c.rows cfg := hbottom
    have hcopied := copyLines_inside hcfg hfits hrunning hwidths hfull htop hend haligned hapart
    rw [hcount, ← hrunning.linePerFrag] at hcopied
    refine ⟨fragment, ?_, hwidths, hnext.trans (by rw [hcount]), ?_⟩
    · rw [hcopied, hcount, hrunning.linePerFrag]
    · rw [htaken, hcount, hfragment]
  · refine ⟨[], ?_, ?_, ?_, ?_⟩
    · rw [hrunning.linePerFrag, hone, System.copyLines]
      split_ifs with hbelow habove
      · rw [List.flatMap_nil, ByteMemory.store_nil, List.length_nil, Nat.zero_mul, Nat.add_zero]
      · rw [hrunning.windowULY] at habove
        omega
      · rw [System.copyLines, List.flatMap_nil, ByteMemory.store_nil, List.length_nil, Nat.zero_mul, Nat.add_zero]
    · exact fun l hl => absurd hl List.not_mem_nil
    · rw [hone, List.length_nil]
      unfold CaptureConfig.taken
      omega
    · rw [List.length_nil, List.take_zero]

/-- Where the handler reads the rows of a fragment. -/
lemma Running.source (hrunning : Running cfg c t.handle) (dmaBufAddr : Nat) :
    dmaBufAddr + t.handle.windowULX * fragInputBytesPerPixel = dmaBufAddr + 2 * c.left := by
  rw [hrunning.windowULX, Nat.mul_comm]
  rfl

lemma Running.dmaCurLine_next (hrunning : Running cfg c t.handle) (hcfg : Created cfg)
    (hle : t.handle.dmaCurLine + c.linePerFrag cfg ≤ cfg.height) :
    (t.handle.dmaCurLine + t.handle.linePerFrag) % 2 ^ 16 = t.handle.dmaCurLine + c.linePerFrag cfg := by
  rw [hrunning.linePerFrag]
  exact Nat.mod_eq_of_lt (Nat.lt_of_le_of_lt hle hcfg.height_lt)

/-- The handler has stored the rows of a fragment. -/
lemma fragmentDone_kept (hcfg : Created cfg) (h : Kept cfg mem t) (hcurrent : t.current = some c)
    (hinterrupts : t.interruptsEnabled = true) (hmember : c ∈ t.captures)
    (hrunning : Running cfg c t.handle) (himageWidth : t.imageWidth = 2 * cfg.width)
    (himageHeight : t.imageHeight = c.linePerFrag cfg) (hdmaLine : t.dmaLine < t.imageHeight)
    (hreceived : Received cfg c t) (hpending : t.tsfDoneFb1 = true ∨ t.tsfDoneFb2 = true) :
    Kept cfg mem (System.fragmentDone { t with sof := false, tsfDoneFb1 := false, tsfDoneFb2 := false }
      (cfg.dmaBuffer !t.second)) := by
  have hfits := h.log.fits c hmember
  obtain ⟨rows, hcopied, hwidths, htaken, hrows⟩ :=
    copyLines_fragment hcfg hfits hrunning himageHeight hreceived h.log.lines hpending
  have hlength := hreceived.length
  rw [System.told, if_pos hpending, himageHeight] at hlength
  have hlt := hreceived.dmaCurLine_lt
  have hdvd := hreceived.dmaCurLine_dvd
  rw [himageHeight] at hdvd
  have hle := hcfg.fragment_le hdvd hlt
  have hcur := hrunning.dmaCurLine_next hcfg hle
  -- the rows fit into the image, behind those that are there
  have hstored : (rows.flatMap (c.row cfg)).length = rows.length * c.bytesPerRow cfg := length_flatMap_row hfits hwidths
  have hspace : (c.taken cfg t.handle.dmaCurLine + rows.length) * c.bytesPerRow cfg ≤ c.rows cfg * c.bytesPerRow cfg :=
    Nat.mul_le_mul_right _ (htaken ▸ taken_le _)
  rw [Nat.add_mul] at hspace
  have haddr := hreceived.writeAddr
  obtain ⟨mem', hmem'⟩ : ∃ mem', mem' = t.mem.store t.handle.datCurWriteAddr (rows.flatMap (c.row cfg)) := ⟨_, rfl⟩
  have hkept : ∀ a, (∀ second, a ∉ cfg.dmaRegion second) → (∀ c ∈ t.captures, a ∉ c.region cfg) →
      mem'.bytes a = mem.bytes a := by
    intro a hdma hregions
    have hout := hregions c hmember
    rw [Region.mem_iff] at hout
    change ¬(c.buffer ≤ a ∧ a < c.buffer + c.rows cfg * c.bytesPerRow cfg) at hout
    rw [hmem', store_bytes_of_not_mem _ _ (by omega)]
    exact h.log.kept a hdma hregions
  have himage : mem'.read c.buffer (c.taken cfg (t.handle.dmaCurLine + c.linePerFrag cfg) * c.bytesPerRow cfg) =
      ((t.lines.drop c.top).take (c.taken cfg (t.handle.dmaCurLine + c.linePerFrag cfg))).flatMap (c.row cfg) := by
    rw [htaken, Nat.add_mul, ByteMemory.read_add, List.take_add, List.flatMap_append, ← hreceived.image, hmem']
    congr 1
    · apply ByteMemory.read_store_of_disjoint
      omega
    · rw [← haddr, ← hstored, ByteMemory.read_store, List.drop_drop, ← hrows]
  unfold System.fragmentDone
  dsimp only
  rw [hrunning.source, hcopied, ← hmem']
  dsimp only
  by_cases hlast : t.handle.height ≤ (t.handle.dmaCurLine + t.handle.linePerFrag) % 2 ^ 16
  · -- the frame is complete
    rw [if_pos hlast]
    rw [hcur, h.static.height] at hlast
    have hall : c.taken cfg (t.handle.dmaCurLine + c.linePerFrag cfg) = c.rows cfg := by
      have hrowsLe := hfits.rows_le
      unfold CaptureConfig.taken
      omega
    rw [hall] at himage
    refine ⟨?_, ⟨h.log.faulted, h.log.lines, ?_, ?_, h.log.fits, hkept⟩, .idle rfl rfl rfl⟩
    · exact ⟨h.static.width, h.static.height, h.static.maxLinePerFrag, h.static.dmaBytePerLine, h.static.inputFormat,
        h.static.dmaBuffer⟩
    · intro image himg
      rcases List.mem_append.mp himg with himg | himg
      · exact h.log.images image himg
      · rw [hcurrent] at himg
        rw [List.mem_singleton.mp himg]
        exact ⟨by dsimp only; omega, himage⟩
    · have hcaptured := h.log.captured
      rw [hcurrent] at hcaptured ⊢
      dsimp only
      rw [List.map_append, Option.toList_none, List.append_nil]
      exact hcaptured
  · rw [if_neg hlast]
    rw [hcur, h.static.height] at hlast
    refine ⟨?_, ⟨h.log.faulted, h.log.lines, h.log.images, h.log.captured, h.log.fits, hkept⟩,
      .busy c hcurrent hinterrupts hmember ?_ himageWidth himageHeight ?_ ?_⟩
    · exact ⟨h.static.width, h.static.height, h.static.maxLinePerFrag, h.static.dmaBytePerLine, h.static.inputFormat,
        h.static.dmaBuffer⟩
    · exact ⟨hrunning.dmaBytePerLine, hrunning.windowULX, hrunning.windowULY, hrunning.windowLRY, hrunning.linePerFrag,
        hrunning.datBytePerLine, hrunning.copyFunc, hrunning.outputBuffer, hrunning.gray⟩
    · exact fun _ => ⟨rfl, rfl⟩
    · refine fun _ => ⟨hdmaLine, fun _ => ?_⟩
      have htold : t.told = t.handle.dmaCurLine + c.linePerFrag cfg := by rw [System.told, if_pos hpending, himageHeight]
      constructor
      · dsimp only
        omega
      · dsimp only
        rw [hcur, himageHeight]
        exact (Nat.dvd_add_right hdvd).mpr (Nat.dvd_refl _)
      · dsimp only
        rw [hcur, haddr, htaken, Nat.add_mul, Nat.add_assoc]
      · exact fun hfalse => absurd hfalse Bool.false_ne_true
      · exact fun hfalse => absurd hfalse Bool.false_ne_true
      · unfold System.told
        dsimp only
        rw [if_neg not_done, hcur, Nat.add_zero]
        exact hlength
      · exact fun hfalse => absurd hfalse not_done
      · have hfilling := hreceived.filling
        unfold System.told
        dsimp only
        rw [if_neg not_done, hcur, Nat.add_zero, ← htold, ← hfilling, hmem']
        apply ByteMemory.read_store_of_disjoint
        have hfilled : t.dmaLine * (2 * cfg.width) ≤ cfg.dmaBufferLine * (2 * cfg.width) :=
          Nat.mul_le_mul_right _ (hdmaLine.le.trans (himageHeight.trans_le hcfg.linePerFrag_le))
        have hbuffers := hfits.apart _ (dmaBuffer_mem cfg t.second)
        omega
      · dsimp only
        rw [hcur]
        exact himage

/-- With the last fragment the handler reports the capture. -/
lemma fragmentDone_reports (hcfg : Created cfg) (h : Kept cfg mem t) (hcurrent : t.current = some c)
    (hmember : c ∈ t.captures) (hrunning : Running cfg c t.handle) (himageHeight : t.imageHeight = c.linePerFrag cfg)
    (hdmaLine : t.dmaLine < t.imageHeight) (hreceived : Received cfg c t)
    (hpending : t.tsfDoneFb1 = true ∨ t.tsfDoneFb2 = true) (hall : cfg.height ≤ t.lines.length) :
    let t' := System.fragmentDone { t with sof := false, tsfDoneFb1 := false, tsfDoneFb2 := false }
      (cfg.dmaBuffer !t.second)
    t'.images = t.images ++ [⟨c, t.lines, t'.mem⟩] := by
  obtain ⟨rows, hcopied, -⟩ :=
    copyLines_fragment hcfg (h.log.fits c hmember) hrunning himageHeight hreceived h.log.lines hpending
  have hlength := hreceived.length
  rw [System.told, if_pos hpending, himageHeight] at hlength
  have hdvd := hreceived.dmaCurLine_dvd
  rw [himageHeight] at hdvd hdmaLine
  have hle := hcfg.fragment_le hdvd hreceived.dmaCurLine_lt
  -- a fragment behind this one would not be complete
  have hlast : cfg.height ≤ t.handle.dmaCurLine + c.linePerFrag cfg := by
    by_contra hlt
    have hnext := hcfg.fragment_le (Nat.dvd_add hdvd (Nat.dvd_refl _)) (not_le.mp hlt)
    omega
  intro t'
  have ht' : t' = System.fragmentDone { t with sof := false, tsfDoneFb1 := false, tsfDoneFb2 := false }
      (cfg.dmaBuffer !t.second) := rfl
  unfold System.fragmentDone at ht'
  dsimp only at ht'
  rw [hrunning.source, hcopied] at ht'
  dsimp only at ht'
  rw [hrunning.dmaCurLine_next hcfg hle, h.static.height, if_pos hlast, hcurrent] at ht'
  rw [ht']
  rfl

/-- Without a flag the handler changes nothing. -/
lemma cleared_eq (hsof : t.sof = false) (hfirst : t.tsfDoneFb1 = false) (hother : t.tsfDoneFb2 = false) :
    { t with sof := false, tsfDoneFb1 := false, tsfDoneFb2 := false } = t := by
  cases t
  cases hsof
  cases hfirst
  cases hother
  rfl

/-- The handler serves the buffer that the DMA has left. -/
lemma handleIRQ_fragment (hstatic : Static cfg t) (hreceived : Received cfg c t) (hsof : t.sof = false)
    (hpending : t.tsfDoneFb1 = true ∨ t.tsfDoneFb2 = true) (second : Bool) :
    t.handleIRQ second = System.fragmentDone { t with sof := false, tsfDoneFb1 := false, tsfDoneFb2 := false }
      (cfg.dmaBuffer !t.second) := by
  unfold System.handleIRQ
  dsimp only
  rw [if_neg (Bool.eq_false_iff.mp hsof)]
  by_cases hfirst : t.tsfDoneFb1 = true
  · have hbuffer : t.dmasaFb1 = cfg.dmaBuffer (!t.second) := by
      rw [hreceived.first hfirst]
      exact hstatic.dmaBuffer false
    rw [if_pos hfirst, hbuffer]
  · have hother : t.tsfDoneFb2 = true := hpending.resolve_left hfirst
    have hbuffer : t.dmasaFb2 = cfg.dmaBuffer (!t.second) := by
      rw [hreceived.other hother]
      exact hstatic.dmaBuffer true
    rw [if_neg hfirst, if_pos hother, hbuffer]

lemma handleIRQ_kept (hcfg : Created cfg) (h : Kept cfg mem t) (hinterrupts : t.interruptsEnabled = true) (second : Bool) :
    Kept cfg mem (t.handleIRQ second) := by
  cases h.mode with
  | idle current interrupts disabled => exact absurd (hinterrupts.symm.trans interrupts) (by decide)
  | busy c current interrupts member running imageWidth imageHeight waiting receiving =>
    have hlog := h.log
    by_cases hsof : t.sof = true
    · -- the frame starts again
      unfold System.handleIRQ
      dsimp only
      rw [if_pos hsof]
      have hzero : c.taken cfg 0 = 0 := by
        unfold CaptureConfig.taken
        omega
      refine ⟨?_, ⟨hlog.faulted, ?_, hlog.images, hlog.captured, hlog.fits, hlog.kept⟩,
        .busy c current interrupts member ?_ imageWidth imageHeight ?_ ?_⟩
      · exact ⟨h.static.width, h.static.height, h.static.maxLinePerFrag, h.static.dmaBytePerLine, h.static.inputFormat,
          h.static.dmaBuffer⟩
      · exact fun l hl => absurd hl List.not_mem_nil
      · exact ⟨running.dmaBytePerLine, running.windowULX, running.windowULY, running.windowLRY, running.linePerFrag,
          running.datBytePerLine, running.copyFunc, running.outputBuffer, running.gray⟩
      · exact fun hfalse => absurd hfalse.symm Bool.false_ne_true
      · refine fun _ => ⟨imageHeight ▸ hcfg.linePerFrag_pos, fun _ => ?_⟩
        constructor
        · exact hcfg.height_pos
        · exact Nat.dvd_zero _
        · dsimp only
          rw [hzero, Nat.zero_mul, Nat.add_zero, running.outputBuffer]
        · exact fun hfalse => absurd hfalse Bool.false_ne_true
        · exact fun hfalse => absurd hfalse Bool.false_ne_true
        · rfl
        · exact fun hfalse => absurd hfalse not_done
        · dsimp only
          rw [Nat.zero_mul, ByteMemory.read_zero, List.drop_nil, List.flatten_nil]
        · dsimp only
          rw [hzero, Nat.zero_mul, ByteMemory.read_zero, List.take_zero, List.flatMap_nil]
    rw [Bool.not_eq_true] at hsof
    have hreceived (hpending : t.tsfDoneFb1 = true ∨ t.tsfDoneFb2 = true) :
        t.dmaLine < t.imageHeight ∧ Received cfg c t := by
      have henable : t.csiEnable = true := by
        by_contra hdisabled
        obtain ⟨hfirst, hother⟩ := waiting (Bool.eq_false_iff.mpr hdisabled)
        rw [hfirst, hother] at hpending
        exact not_done hpending
      obtain ⟨hline, hreceived⟩ := receiving henable
      exact ⟨hline, hreceived hsof⟩
    by_cases hpending : t.tsfDoneFb1 = true ∨ t.tsfDoneFb2 = true
    · obtain ⟨hline, hreceived⟩ := hreceived hpending
      rw [handleIRQ_fragment h.static hreceived hsof hpending second]
      exact fragmentDone_kept hcfg h current interrupts member running imageWidth imageHeight hline hreceived hpending
    · obtain ⟨hfirst, hother⟩ := not_or.mp hpending
      rw [Bool.not_eq_true] at hfirst hother
      have hsame : t.handleIRQ second = t := by
        unfold System.handleIRQ
        dsimp only
        rw [cleared_eq hsof hfirst hother, if_neg (Bool.eq_false_iff.mp hsof), if_neg (Bool.eq_false_iff.mp hfirst),
          if_neg (Bool.eq_false_iff.mp hother)]
      rw [hsame]
      exact h

end Handler

section Steps

variable {cfg : FragConfig} {mem : ByteMemory} {t : System}

/-- The window that a capture stores. -/
lemma setWindow_eq (hstatic : Static cfg t) (hcfg : Suits cfg) {c : CaptureConfig} (hfits : Fits cfg c) :
    let handle := t.handle.setWindow c.window
    handle.width = cfg.width ∧ handle.height = cfg.height ∧ handle.maxLinePerFrag = cfg.dmaBufferLine ∧
      handle.dmaBytePerLine = 2 * cfg.width ∧ handle.inputFormat = .rgb565 ∧
      handle.windowULX = c.left ∧ handle.windowULY = c.top ∧ handle.windowLRX + 1 = c.left + c.columns cfg ∧
      handle.windowLRY + 1 = c.top + c.rows cfg ∧ handle.linePerFrag = c.linePerFrag cfg := by
  have hwidth := hcfg.width_lt
  have hheight := hcfg.height_lt
  have hwidthPos := hcfg.width_pos
  have hheightPos := hcfg.height_pos
  unfold FragHandle.setWindow CaptureConfig.left CaptureConfig.top CaptureConfig.columns CaptureConfig.rows
    CaptureConfig.linePerFrag
  cases hw : c.window with
  | none =>
    refine ⟨hstatic.width, hstatic.height, hstatic.maxLinePerFrag, hstatic.dmaBytePerLine, hstatic.inputFormat, rfl, rfl,
      ?_, ?_, hstatic.maxLinePerFrag⟩
    · change (t.handle.width + (2 ^ 16 - 1)) % 2 ^ 16 + 1 = 0 + cfg.width
      rw [hstatic.width]
      omega
    · change (t.handle.height + (2 ^ 16 - 1)) % 2 ^ 16 + 1 = 0 + cfg.height
      rw [hstatic.height]
      omega
  | some w =>
    obtain ⟨hx, hlrx, hy, hlry⟩ := hfits.window w hw
    refine ⟨hstatic.width, hstatic.height, hstatic.maxLinePerFrag, hstatic.dmaBytePerLine, hstatic.inputFormat, rfl, rfl,
      ?_, ?_, rfl⟩
    · change w.windowLRX + 1 = w.windowULX + (w.windowLRX + 1 - w.windowULX)
      omega
    · change w.windowLRY + 1 = w.windowULY + (w.windowLRY + 1 - w.windowULY)
      omega

lemma windowWidth_eq (hstatic : Static cfg t) (hcfg : Suits cfg) {c : CaptureConfig} (hfits : Fits cfg c) :
    ((t.handle.setWindow c.window).windowLRX + 2 ^ 16 - (t.handle.setWindow c.window).windowULX + 1) % 2 ^ 16 =
      c.columns cfg := by
  obtain ⟨-, -, -, -, -, hulx, -, hlrx, -⟩ := setWindow_eq hstatic hcfg hfits
  have hwidth := hcfg.width_lt
  have hcolumns := hfits.columns_le
  have hpos := hfits.columns_pos hcfg
  omega

/-- A capture is refused for the width of a gray image only. -/
lemma captureImage_success_iff (hstatic : Static cfg t) (hcfg : Suits cfg) {c : CaptureConfig} (hfits : Fits cfg c) :
    (t.captureImage c).1 = .success ↔ (c.outputGrayScale = true → c.columns cfg % 8 = 0) := by
  unfold System.captureImage
  dsimp only
  rw [windowWidth_eq hstatic hcfg hfits]
  by_cases hrefused : c.outputGrayScale = true ∧ c.columns cfg % 8 ≠ 0
  · rw [if_pos hrefused]
    exact iff_of_false nofun fun hgray => hrefused.2 (hgray hrefused.1)
  · rw [if_neg hrefused]
    refine iff_of_true rfl fun hout => ?_
    by_contra hne
    exact hrefused ⟨hout, hne⟩

lemma captureImage_current {c : CaptureConfig} (hsuccess : (t.captureImage c).1 = .success) :
    (t.captureImage c).2.current = some c := by
  unfold System.captureImage at hsuccess ⊢
  dsimp only at hsuccess ⊢
  split
  next hrefused =>
    rw [if_pos hrefused] at hsuccess
    cases hsuccess
  next => rfl

lemma captureImage_kept (hcfg : Created cfg) (h : Kept cfg mem t) {c : CaptureConfig} (hcurrent : t.current = none)
    (hdone : t.tsfDoneFb1 = false ∧ t.tsfDoneFb2 = false) (hfits : Fits cfg c) : Kept cfg mem (t.captureImage c).2 := by
  have hwidth := hcfg.width_lt
  have hheight := hcfg.height_lt
  have hidle : t.interruptsEnabled = false ∧ t.csiEnable = false := by
    cases h.mode with
    | idle current interrupts disabled => exact ⟨interrupts, disabled⟩
    | busy c current => exact absurd (hcurrent.symm.trans current) (by simp)
  have hhandle := setWindow_eq h.static hcfg.toSuits hfits
  have hcolumns := hfits.columns_le
  have hpos := hfits.columns_pos hcfg.toSuits
  have hwindowWidth := windowWidth_eq h.static hcfg.toSuits hfits
  unfold System.captureImage
  dsimp only
  dsimp only at hhandle
  generalize t.handle.setWindow c.window = handle at hhandle hwindowWidth ⊢
  obtain ⟨hw, hh, hmax, hbytes, hformat, hulx, huly, hlrx, hlry, hlines⟩ := hhandle
  rw [hwindowWidth]
  by_cases hrefused : c.outputGrayScale = true ∧ c.columns cfg % 8 ≠ 0
  · rw [if_pos hrefused]
    refine ⟨?_, ⟨h.log.faulted, h.log.lines, h.log.images, h.log.captured, h.log.fits, h.log.kept⟩,
      .idle hcurrent hidle.1 hidle.2⟩
    exact ⟨hw, hh, hmax, hbytes, hformat, h.static.dmaBuffer⟩
  · rw [if_neg hrefused]
    have hgray : c.outputGrayScale = true → c.columns cfg % 8 = 0 := by
      intro hout
      by_contra hne
      exact hrefused ⟨hout, hne⟩
    have hfits' : ∀ c' ∈ t.captures ++ [c], Fits cfg c' := by
      intro c' hc'
      rcases List.mem_append.mp hc' with hc' | hc'
      · exact h.log.fits c' hc'
      · rw [List.mem_singleton.mp hc']
        exact hfits
    have hcaptured : (t.images.map Image.config ++ [c]).Sublist (t.captures ++ [c]) := by
      have hbefore := h.log.captured
      rw [hcurrent, Option.toList_none, List.append_nil] at hbefore
      exact hbefore.append (List.Sublist.refl [c])
    have hkept : ∀ a, (∀ second, a ∉ cfg.dmaRegion second) → (∀ c' ∈ t.captures ++ [c], a ∉ c'.region cfg) →
        t.mem.bytes a = mem.bytes a := by
      intro a hdma hregions
      exact h.log.kept a hdma (fun c' hc' => hregions c' (List.mem_append_left _ hc'))
    refine ⟨⟨hw, hh, hmax, hbytes, hformat, h.static.dmaBuffer⟩,
      ⟨h.log.faulted, h.log.lines, h.log.images, hcaptured, hfits', hkept⟩,
      .busy c rfl rfl (List.mem_append_right _ List.mem_cons_self)
        ⟨hbytes, hulx, huly, hlry, hlines, ?_, ?_, rfl, hgray⟩ ?_ hlines (fun _ => hdone) ?_⟩
    · dsimp only [CaptureConfig.bytesPerRow, fragInputBytesPerPixel]
      split_ifs <;> omega
    · dsimp only [CaptureConfig.copyFunc]
      rw [hformat, if_neg (show ¬ InputFormat.rgb565 = .yuyv by decide)]
    · dsimp only [fragInputBytesPerPixel]
      rw [hw]
      omega
    · exact fun henable => absurd (henable.symm.trans hidle.2) (by decide)

lemma abortCaptureImage_kept (h : Kept cfg mem t) : Kept cfg mem t.abortCaptureImage := by
  refine ⟨?_, ⟨h.log.faulted, h.log.lines, h.log.images, ?_, h.log.fits, h.log.kept⟩, .idle rfl rfl rfl⟩
  · exact ⟨h.static.width, h.static.height, h.static.maxLinePerFrag, h.static.dmaBytePerLine, h.static.inputFormat,
      h.static.dmaBuffer⟩
  · apply List.Sublist.trans _ h.log.captured
    unfold System.abortCaptureImage
    rw [Option.toList_none, List.append_nil]
    exact List.sublist_append_left _ _

lemma startOfFrame_kept (h : Kept cfg mem t) : Kept cfg mem { t with sof := true } := by
  refine ⟨?_, ⟨h.log.faulted, h.log.lines, h.log.images, h.log.captured, h.log.fits, h.log.kept⟩, ?_⟩
  · exact ⟨h.static.width, h.static.height, h.static.maxLinePerFrag, h.static.dmaBytePerLine, h.static.inputFormat,
      h.static.dmaBuffer⟩
  · cases h.mode with
    | idle current interrupts disabled => exact .idle current interrupts disabled
    | busy c current interrupts member running imageWidth imageHeight waiting receiving =>
      refine .busy c current interrupts member running imageWidth imageHeight waiting (fun henable => ?_)
      exact ⟨(receiving henable).1, fun hfalse => absurd hfalse.symm Bool.false_ne_true⟩

/-- The lines after another one, in the DMA buffers and in the image. -/
lemma received_line (hcfg : Created cfg) {c : CaptureConfig} (hfits : Fits cfg c)
    (himageHeight : t.imageHeight = c.linePerFrag cfg) (hdmaLine : t.dmaLine < t.imageHeight)
    (hreceived : Received cfg c t) {line : List UInt8} (hline : line.length = 2 * cfg.width) {mem' : ByteMemory}
    (hmem' : mem' = t.mem.store (cfg.dmaBuffer t.second + t.dmaLine * (2 * cfg.width)) line) :
    (t.tsfDoneFb1 = true ∨ t.tsfDoneFb2 = true → mem'.read (cfg.dmaBuffer !t.second) (t.imageHeight * (2 * cfg.width)) =
      (((t.lines ++ [line]).drop t.handle.dmaCurLine).take t.imageHeight).flatten) ∧
    mem'.read (cfg.dmaBuffer t.second) ((t.dmaLine + 1) * (2 * cfg.width)) = ((t.lines ++ [line]).drop t.told).flatten ∧
    mem'.read c.buffer (c.taken cfg t.handle.dmaCurLine * c.bytesPerRow cfg) =
      (((t.lines ++ [line]).drop c.top).take (c.taken cfg t.handle.dmaCurLine)).flatMap (c.row cfg) := by
  have hlength := hreceived.length
  have hroom : (t.dmaLine + 1) * (2 * cfg.width) ≤ cfg.dmaBufferLine * (2 * cfg.width) :=
    Nat.mul_le_mul_right _ (Nat.lt_of_lt_of_le hdmaLine (himageHeight.trans_le hcfg.linePerFrag_le))
  have hnext : (t.dmaLine + 1) * (2 * cfg.width) = t.dmaLine * (2 * cfg.width) + 2 * cfg.width := Nat.succ_mul _ _
  rw [hnext] at hroom ⊢
  refine ⟨?_, ?_, ?_⟩
  · intro hpending
    have hheight : t.imageHeight * (2 * cfg.width) ≤ cfg.dmaBufferLine * (2 * cfg.width) :=
      Nat.mul_le_mul_right _ (himageHeight.trans_le hcfg.linePerFrag_le)
    have hapart := hcfg.dmaBuffer_apart t.second
    rw [System.told, if_pos hpending] at hlength
    rw [drop_take_append _ _ (Or.inr (by omega)), ← hreceived.full hpending, hmem']
    apply ByteMemory.read_store_of_disjoint
    omega
  · rw [ByteMemory.read_add, hmem', ByteMemory.read_store_of_disjoint _ _ (Or.inl (Nat.le_refl _)), ← hline,
      ByteMemory.read_store, hline, hreceived.filling, List.drop_append_of_le_length (by omega), List.flatten_append,
      List.flatten_singleton]
  · have hrows : c.taken cfg t.handle.dmaCurLine * c.bytesPerRow cfg ≤ c.rows cfg * c.bytesPerRow cfg :=
      Nat.mul_le_mul_right _ (taken_le _)
    have hbuffers := hfits.apart _ (dmaBuffer_mem cfg t.second)
    have hshown : c.taken cfg t.handle.dmaCurLine = 0 ∨ c.top + c.taken cfg t.handle.dmaCurLine ≤ t.handle.dmaCurLine :=
      taken_eq_zero_or _
    rw [System.told] at hlength
    rw [drop_take_append _ _ (by omega), ← hreceived.image, hmem']
    apply ByteMemory.read_store_of_disjoint
    omega

lemma storeLine_kept (hcfg : Created cfg) (h : Kept cfg mem t) (line : List UInt8)
    (htime : t.csiEnable = true → t.dmaLine + 1 = t.imageHeight →
      t.sof = true ∨ (t.tsfDoneFb1 = false ∧ t.tsfDoneFb2 = false)) :
    Kept cfg mem (t.storeLine line) := by
  unfold System.storeLine
  by_cases hstored : t.csiEnable = true ∧ line.length = t.imageWidth
  swap
  · rw [if_neg hstored]
    exact h
  obtain ⟨henable, hlength⟩ := hstored
  rw [if_pos ⟨henable, hlength⟩]
  cases h.mode with
  | idle current interrupts disabled => exact absurd (henable.symm.trans disabled) (by decide)
  | busy c current interrupts member running imageWidth imageHeight waiting receiving =>
    obtain ⟨hdmaLine, hreceived⟩ := receiving henable
    have hfits := h.log.fits c member
    rw [imageWidth] at hlength
    have haddress : t.dmaBuffer t.second + t.dmaLine * t.imageWidth =
        cfg.dmaBuffer t.second + t.dmaLine * (2 * cfg.width) := by
      rw [h.static.dmaBuffer, imageWidth]
    obtain ⟨mem', hmem'⟩ :
        ∃ mem', mem' = t.mem.store (cfg.dmaBuffer t.second + t.dmaLine * (2 * cfg.width)) line := ⟨_, rfl⟩
    have hlines : ∀ l ∈ t.lines ++ [line], l.length = 2 * cfg.width := by
      intro l hl
      rcases List.mem_append.mp hl with hl | hl
      · exact h.log.lines l hl
      · rw [List.mem_singleton.mp hl, hlength]
    have hkept : ∀ a, (∀ second, a ∉ cfg.dmaRegion second) → (∀ c ∈ t.captures, a ∉ c.region cfg) →
        mem'.bytes a = mem.bytes a := by
      intro a hdma hregions
      have hout := hdma t.second
      have hroom : (t.dmaLine + 1) * (2 * cfg.width) ≤ cfg.dmaBufferLine * (2 * cfg.width) :=
        Nat.mul_le_mul_right _ (Nat.lt_of_lt_of_le hdmaLine (imageHeight.trans_le hcfg.linePerFrag_le))
      have hnext : (t.dmaLine + 1) * (2 * cfg.width) = t.dmaLine * (2 * cfg.width) + 2 * cfg.width := Nat.succ_mul _ _
      rw [Region.mem_iff] at hout
      dsimp only [FragConfig.dmaRegion] at hout
      rw [hmem', store_bytes_of_not_mem _ _ (by omega)]
      exact h.log.kept a hdma hregions
    dsimp only
    rw [haddress, ← hmem']
    have hlog (t' : System) (heq : t'.mem = mem' ∧ t'.lines = t.lines ++ [line] ∧ t'.faulted = t.faulted ∧
        t'.images = t.images ∧ t'.current = t.current ∧ t'.captures = t.captures) : Log cfg mem t' := by
      obtain ⟨hm, hl, hf, hi, hcurrent, hcaptures⟩ := heq
      constructor
      · rw [hf]
        exact h.log.faulted
      · rw [hl]
        exact hlines
      · rw [hi]
        exact h.log.images
      · rw [hi, hcurrent, hcaptures]
        exact h.log.captured
      · rw [hcaptures]
        exact h.log.fits
      · rw [hm, hcaptures]
        exact hkept
    split_ifs with hlast
    · -- the fragment is complete
      refine ⟨h.static.congr rfl rfl rfl, hlog _ ⟨rfl, rfl, rfl, rfl, rfl, rfl⟩,
        .busy c current interrupts member running imageWidth imageHeight ?_ ?_⟩
      · exact fun hfalse => absurd (henable.symm.trans hfalse) (by decide)
      refine fun _ => ⟨imageHeight ▸ hcfg.linePerFrag_pos, fun hsof => ?_⟩
      have hbefore := hreceived hsof
      obtain ⟨hfirst, hother⟩ : t.tsfDoneFb1 = false ∧ t.tsfDoneFb2 = false := by
        rcases htime henable hlast with hstart | hdone
        · exact absurd (hstart.symm.trans hsof) (by decide)
        · exact hdone
      have htold : t.told = t.handle.dmaCurLine := by
        rw [System.told, hfirst, hother, if_neg not_done, Nat.add_zero]
      have hcount : (t.lines ++ [line]).length = t.handle.dmaCurLine + t.imageHeight := by
        rw [List.length_append, List.length_singleton, hbefore.length, htold, ← hlast, Nat.add_assoc]
      have hflag : (false || !t.second) = true ∨ (false || t.second) = true := by
        cases t.second
        · exact Or.inl rfl
        · exact Or.inr rfl
      obtain ⟨-, hfilled, himage⟩ := received_line hcfg hfits imageHeight hdmaLine hbefore hlength hmem'
      rw [hlast, htold] at hfilled
      have htold' : t.handle.dmaCurLine + (if (false || !t.second) = true ∨ (false || t.second) = true then t.imageHeight
          else 0) = t.handle.dmaCurLine + t.imageHeight := by rw [if_pos hflag]
      rw [hfirst, hother]
      constructor
      · exact hbefore.dmaCurLine_lt
      · exact hbefore.dmaCurLine_dvd
      · exact hbefore.writeAddr
      · exact id
      · intro hset
        change t.second = true at hset
        change (!t.second) = false
        rw [hset]
        rfl
      · exact hcount.trans htold'.symm
      · intro _
        dsimp only
        rw [Bool.not_not, hfilled, List.take_of_length_le]
        rw [List.length_drop, hcount]
        omega
      · unfold System.told
        dsimp only
        rw [htold', Nat.zero_mul, ByteMemory.read_zero, List.drop_eq_nil_of_le (Nat.le_of_eq hcount), List.flatten_nil]
      · exact himage
    · refine ⟨h.static.congr rfl rfl rfl, hlog _ ⟨rfl, rfl, rfl, rfl, rfl, rfl⟩,
        .busy c current interrupts member running imageWidth imageHeight ?_ ?_⟩
      · exact fun hfalse => absurd (henable.symm.trans hfalse) (by decide)
      refine fun _ => ⟨Nat.lt_of_le_of_ne hdmaLine hlast, fun hsof => ?_⟩
      have hbefore := hreceived hsof
      obtain ⟨hfull, hfilled, himage⟩ := received_line hcfg hfits imageHeight hdmaLine hbefore hlength hmem'
      refine ⟨hbefore.dmaCurLine_lt, hbefore.dmaCurLine_dvd, hbefore.writeAddr, hbefore.first, hbefore.other, ?_, hfull,
        hfilled, himage⟩
      rw [List.length_append, List.length_singleton, hbefore.length, Nat.add_assoc]
      rfl

end Steps

/-- A capture is started when none is in progress and no flag is left of one, and a fragment is handled before the next one
is complete. -/
def Orderly (cfg : FragConfig) (t : System) : Event → Prop
  | .capture c => t.current = none ∧ (t.tsfDoneFb1 = false ∧ t.tsfDoneFb2 = false) ∧ Fits cfg c
  | .line _ => t.csiEnable = true → t.dmaLine + 1 = t.imageHeight →
      t.sof = true ∨ (t.tsfDoneFb1 = false ∧ t.tsfDoneFb2 = false)
  | _ => True

lemma step_kept {cfg : FragConfig} (hcfg : Created cfg) {mem : ByteMemory} {t : System} (h : Kept cfg mem t) {e : Event}
    (horderly : Orderly cfg t e) : Kept cfg mem (step t e) := by
  cases e with
  | capture c =>
    obtain ⟨hcurrent, hdone, hfits⟩ := horderly
    exact captureImage_kept hcfg h hcurrent hdone hfits
  | abort => exact abortCaptureImage_kept h
  | startOfFrame => exact startOfFrame_kept h
  | line line => exact storeLine_kept hcfg h line horderly
  | interrupt second =>
    unfold step
    dsimp only
    split_ifs with hinterrupts
    · exact handleIRQ_kept hcfg h hinterrupts second
    · exact h

lemma created_kept {cfg : FragConfig} (hsuits : Suits cfg) {mem : ByteMemory} {t : System}
    (hcreate : fragModeCreateHandle cfg mem = some (.ok t)) : Created cfg ∧ Kept cfg mem t := by
  have hlt := hsuits.width_lt
  unfold fragModeCreateHandle at hcreate
  split_ifs at hcreate with hbus hwidth hzero hheight
  · cases hcreate
  · cases hcreate
  · cases hcreate
  · obtain rfl : _ = t := Except.ok.inj (Option.some.inj hcreate)
    have hmod : cfg.width * fragInputBytesPerPixel &&& 0x07 = cfg.width * fragInputBytesPerPixel % 2 ^ 3 :=
      Nat.and_two_pow_sub_one_eq_mod _ 3
    rw [hmod, ne_eq, not_not] at hwidth
    rw [ne_eq, not_not] at hheight
    unfold fragInputBytesPerPixel at hwidth
    refine ⟨⟨hsuits, by omega, Nat.pos_of_ne_zero hzero, Nat.dvd_of_mod_eq_zero hheight⟩, ?_, ?_, .idle rfl rfl rfl⟩
    · refine ⟨rfl, rfl, rfl, ?_, rfl, fun second => rfl⟩
      change cfg.width * 2 % 2 ^ 16 = 2 * cfg.width
      omega
    · refine ⟨rfl, ?_, ?_, List.Sublist.refl _, ?_, fun _ _ _ => rfl⟩
      · exact fun l hl => absurd hl List.not_mem_nil
      · exact fun image himage => absurd himage List.not_mem_nil
      · exact fun c hc => absurd hc List.not_mem_nil

/-- When the DMA has written all lines of a frame, the handler reports the capture. -/
lemma Kept.reports {cfg : FragConfig} (hcfg : Created cfg) {mem : ByteMemory} {t : System} (h : Kept cfg mem t)
    (second : Bool) {c : CaptureConfig} (hcurrent : t.current = some c) (henable : t.csiEnable = true)
    (hsof : t.sof = false) (hall : cfg.height ≤ t.lines.length) :
    let t' := step t (.interrupt second)
    t'.images = t.images ++ [⟨c, t.lines, t'.mem⟩] := by
  cases h.mode with
  | idle current interrupts disabled => exact absurd (henable.symm.trans disabled) (by decide)
  | busy c' current interrupts member running imageWidth imageHeight waiting receiving =>
    obtain rfl := Option.some.inj (current.symm.trans hcurrent)
    obtain ⟨hdmaLine, hreceived⟩ := receiving henable
    have hreceived := hreceived hsof
    have hpending : t.tsfDoneFb1 = true ∨ t.tsfDoneFb2 = true := by
      by_contra hnone
      have hlength := hreceived.length
      have hdvd := hreceived.dmaCurLine_dvd
      rw [System.told, if_neg hnone, Nat.add_zero] at hlength
      rw [imageHeight] at hdmaLine hdvd
      have hle := hcfg.fragment_le hdvd hreceived.dmaCurLine_lt
      omega
    have hstep : step t (.interrupt second) = t.handleIRQ second := if_pos interrupts
    rw [hstep, handleIRQ_fragment h.static hreceived hsof hpending second]
    exact fragmentDone_reports hcfg h current member running imageHeight hdmaLine hreceived hpending hall

lemma Kept.starts {cfg : FragConfig} {mem : ByteMemory} {t : System} (h : Kept cfg mem t) (second : Bool)
    (hcurrent : t.current ≠ none) (hsof : t.sof = true) : (step t (.interrupt second)).csiEnable = true := by
  cases h.mode with
  | idle current => exact absurd current hcurrent
  | busy c current interrupts member running imageWidth imageHeight waiting receiving =>
    unfold step System.handleIRQ
    dsimp only
    rw [if_pos interrupts, if_pos hsof]

/-- In every orderly run no copy faults, and each image that is reported is the window of the frame: the lines that the DMA
has written since its start have all of the frame, and the buffer of the application has the rows of its window, one after
the other, with the second byte of each pixel where the image is gray. A capture is accepted unless its image is gray and
the width of its window no multiple of 8. A start of a frame starts the DMA for the capture in progress, and when the DMA
has written all lines of the frame, the handler reports it. The captures are reported in their order, none twice, and
nothing but the DMA buffers and the images is written. -/
theorem reported_images {cfg : FragConfig} (hsuits : Suits cfg) {mem : ByteMemory} {t₀ : System}
    (hcreate : fragModeCreateHandle cfg mem = some (.ok t₀)) {events : List Event}
    (hrun : EachStep step (Orderly cfg) t₀ events) :
    let t := events.foldl step t₀
    t.faulted = false ∧ (∀ image ∈ t.images, Complete cfg image) ∧
      (∀ c, Fits cfg c → ((t.captureImage c).1 = .success ↔ (c.outputGrayScale = true → c.columns cfg % 8 = 0)) ∧
        ((t.captureImage c).1 = .success → (step t (.capture c)).current = some c)) ∧
      (∀ second, t.current ≠ none → t.sof = true → (step t (.interrupt second)).csiEnable = true) ∧
      (∀ second c, t.current = some c → t.csiEnable = true → t.sof = false → cfg.height ≤ t.lines.length →
        let t' := step t (.interrupt second)
        t'.images = t.images ++ [⟨c, t.lines, t'.mem⟩]) ∧
      (t.images.map Image.config ++ t.current.toList).Sublist t.captures ∧
      ∀ a, (∀ second, a ∉ cfg.dmaRegion second) → (∀ c ∈ t.captures, a ∉ c.region cfg) →
        t.mem.bytes a = mem.bytes a := by
  intro t
  obtain ⟨hcfg, hstart⟩ := created_kept hsuits hcreate
  have h : Kept cfg mem t := hrun.invariant (fun t e hkept horderly => step_kept hcfg hkept horderly) events hstart
  have haccepts (c : CaptureConfig) (hfits : Fits cfg c) := captureImage_success_iff h.static hcfg.toSuits hfits
  exact ⟨h.log.faulted, h.log.images, fun c hfits => ⟨haccepts c hfits, captureImage_current⟩, h.starts,
    fun second _ => h.reports hcfg second, h.log.captured, h.log.kept⟩

/-- A frame of two lines with eight pixels. -/
def smallFrame : FragConfig where
  width := 8
  height := 2
  dataBus8Bit := true
  inputFormat := .yuyv
  dmaBufferAddr0 := 0
  dmaBufferAddr1 := 64
  dmaBufferLine := 2

/-- A gray image of it. -/
def grayCapture : CaptureConfig where
  outputGrayScale := true
  buffer := 128
  window := none

/-- The two lines of the frame, and the handler after them. -/
theorem reported_images_gray :
    let events := [.capture grayCapture, .startOfFrame, .interrupt false, .line (List.replicate 16 1),
      .line (List.replicate 16 2), .interrupt false]
    (events.foldl step (.created smallFrame ⟨fun _ => 0, []⟩)).faulted = false := by
  intro events
  have hsuits : Suits smallFrame :=
    ⟨by decide, by decide, by decide, by decide, ⟨rfl, rfl⟩, Or.inl (by decide)⟩
  have hfits : Fits smallFrame grayCapture := by
    refine ⟨?_, fun _ => ⟨rfl, rfl⟩, ?_⟩
    · exact fun w hw => absurd hw (by simp [grayCapture])
    · intro address haddress
      right
      rcases List.mem_pair.mp haddress with rfl | rfl <;> decide
  have hrun : EachStep step (Orderly smallFrame) (.created smallFrame ⟨fun _ => 0, []⟩) events :=
    ⟨⟨rfl, ⟨rfl, rfl⟩, hfits⟩, trivial, trivial, fun _ _ => Or.inr ⟨rfl, rfl⟩, fun _ _ => Or.inr ⟨rfl, rfl⟩, trivial,
      trivial⟩
  exact (reported_images hsuits rfl hrun).1

-- the chroma of a camera with `kCSI_FragInputYUYV` is reported as the gray image
example :
    let events := [.capture grayCapture, .startOfFrame, .interrupt false, .line (List.replicate 8 [1, 9]).flatten,
      .line (List.replicate 8 [2, 9]).flatten, .interrupt false]
    (events.foldl step (.created smallFrame ⟨fun _ => 0, []⟩)).images.map (fun image => image.mem.read 128 16) =
      [List.replicate 16 9] := by
  rfl

end McuxDrivers.Csi.Fragments
