import McuxDrivers.Lib.Countdown
import McuxDrivers.Lib.LineWalk
import Mathlib.Data.List.Pairwise
import Mathlib.Data.Set.Lattice
import Mathlib.Order.CompletePartialOrder

/-!
# Cache maintenance by range in the CACHE64 and XCACHE drivers

The functions of both drivers that issue a line command for the lines of a range, with the lookup of the
controller that has the address. Lines have `2 ^ k` bytes. The secure alias of an address is the address itself,
and no windows are remapped; the address field of a line command holds every line address.
-/

namespace McuxDrivers.Cache
open McuxDrivers.Lib

/-- The line commands, with the `LCMD` field of `CLCR`. -/
inductive Op where
  | invalidate
  | clean
  | cleanInvalidate
  deriving DecidableEq

def Op.lcmd : Op → Nat
  | .invalidate => 1
  | .clean => 2
  | .cleanInvalidate => 3

/-- A write of `CSAR` that starts a line command on a controller. -/
structure LineCommand where
  ctrl : Nat
  lcmd : Nat
  addr : Nat
  deriving DecidableEq

/-- A physical memory window of a controller: whole lines below the last byte of the address space. -/
structure Window (k : Nat) where
  base : Nat
  size : Nat
  size_pos : 0 < size
  base_dvd : 2 ^ k ∣ base
  size_dvd : 2 ^ k ∣ size
  fits : base + size ≤ 2 ^ 32 - 1

namespace Window

variable {k : Nat}

/-- `base + size - 1` on `uint32_t`. -/
def last (w : Window k) : Nat :=
  wsub32 ((w.base + w.size) % 2 ^ 32) 1

/-- The test of both lookups. -/
def accepts (w : Window k) (address : Nat) : Bool :=
  decide (w.base ≤ address) && decide (address < w.last)

def bytes (w : Window k) : Set Nat :=
  Set.Ico w.base (w.base + w.size)

/-- The range lies in the window. -/
def Has (w : Window k) (address n : Nat) : Prop :=
  w.base ≤ address ∧ address + n ≤ w.base + w.size

end Window

section Drivers

variable {k : Nat}

/-- `address & ~(LINESIZE - 1)`. -/
def alignLine (k address : Nat) : Nat :=
  address &&& 2 ^ 32 - 1 - (2 ^ k - 1)

/-- The loops of `CACHE64_GetInstanceByAddr` from row `i` on: the instance, and its window at
`g_cache64MemPhyAliasId`. -/
def cache64Lookup (address : Nat) : Nat → List (List (Window k)) → Option (Nat × Window k)
  | _, [] => none
  | i, row :: rows =>
    match row.find? (fun w => w.accepts address) with
    | some w => some (i, w)
    | none => cache64Lookup address (i + 1) rows

/-- `CACHE64_GetInstanceByAddr`, with `none` for 0xFFFFFFFF. -/
def cache64GetInstanceByAddr (rows : List (List (Window k))) (address : Nat) : Option (Nat × Window k) :=
  cache64Lookup address 0 rows

/-- What the functions of the CACHE64 driver share. -/
def cache64ByRange (op : Op) (rows : List (List (Window k))) (address sizeByte fuel : Nat) : Option (List LineCommand) :=
  if 0 < sizeByte then
    if 2 ^ 32 - 1 - address < sizeByte then some []
    else
      let endAddr := wsub32 ((address + sizeByte) % 2 ^ 32) 1
      let startAddr := alignLine k address
      match cache64GetInstanceByAddr rows address with
      | none => some []
      | some (inst, window) =>
        let endAddr := if endAddr > window.last then window.last else endAddr
        (walk 32 (2 ^ k) (fun cursor => decide (cursor < endAddr)) id startAddr fuel).map
          (List.map fun addr => ⟨inst, op.lcmd, addr⟩)
  else some []

def cache64InvalidateCacheByRange (rows : List (List (Window k))) : Nat → Nat → Nat → Option (List LineCommand) :=
  cache64ByRange .invalidate rows

def cache64CleanCacheByRange (rows : List (List (Window k))) : Nat → Nat → Nat → Option (List LineCommand) :=
  cache64ByRange .clean rows

def cache64CleanInvalidateCacheByRange (rows : List (List (Window k))) : Nat → Nat → Nat → Option (List LineCommand) :=
  cache64ByRange .cleanInvalidate rows

/-- `XCACHE_GetInstanceByAddr`. -/
def xcacheGetInstanceByAddr (table : List (Window k)) (address : Nat) : Nat :=
  table.findIdx fun w => w.accepts address

/-- What the functions of the XCACHE driver share; no result when the assertion fails. -/
def xcacheByRange (op : Op) (table : List (Window k)) (address sizeByte fuel : Nat) : Option (List LineCommand) :=
  if address < 2 ^ 32 - 1 - sizeByte then
    if 0 < sizeByte then
      let endAddr := wsub32 ((address + sizeByte) % 2 ^ 32) 1
      let startAddr := alignLine k address
      let inst := xcacheGetInstanceByAddr table address
      match table[inst]? with
      | none => some []
      | some window =>
        let endAddr := if endAddr > window.last then window.last else endAddr
        (walk 32 (2 ^ k) (fun cursor => decide (cursor ≤ endAddr)) id startAddr fuel).map
          (List.map fun addr => ⟨inst, op.lcmd, addr⟩)
    else some []
  else none

def xcacheInvalidateCacheByRange (table : List (Window k)) : Nat → Nat → Nat → Option (List LineCommand) :=
  xcacheByRange .invalidate table

def xcacheCleanCacheByRange (table : List (Window k)) : Nat → Nat → Nat → Option (List LineCommand) :=
  xcacheByRange .clean table

def xcacheCleanInvalidateCacheByRange (table : List (Window k)) : Nat → Nat → Nat → Option (List LineCommand) :=
  xcacheByRange .cleanInvalidate table

/-- The two drivers' functions for one command issue it for the lines of the range, in the same order, each on the
controller that has the window. -/
def Issues (k : Nat) (op : Op) (cache64 xcache : Nat → Nat → Nat → Option (List LineCommand)) (r i a n : Nat) : Prop :=
  ∃ lines, ExactLines (2 ^ k) a n lines ∧ Returns (cache64 a n) (lines.map fun addr => ⟨r, op.lcmd, addr⟩) ∧
    Returns (xcache a n) (lines.map fun addr => ⟨i, op.lcmd, addr⟩)

/-- Maintenance of a range in a window of row `r` of the one table and at place `i` of the other. -/
structure Maintained (rows : List (List (Window k))) (table : List (Window k)) (r i a n : Nat) : Prop where
  invalidate : Issues k .invalidate (cache64InvalidateCacheByRange rows) (xcacheInvalidateCacheByRange table) r i a n
  clean : Issues k .clean (cache64CleanCacheByRange rows) (xcacheCleanCacheByRange table) r i a n
  cleanInvalidate :
    Issues k .cleanInvalidate (cache64CleanInvalidateCacheByRange rows) (xcacheCleanInvalidateCacheByRange table) r i a n

end Drivers

section Windows

variable {k : Nat} {v w : Window k} {a n : Nat}

lemma Window.last_eq (w : Window k) : w.last = w.base + w.size - 1 := by
  have hpos := w.size_pos
  have hfits := w.fits
  rw [Window.last, Nat.mod_eq_of_lt (by omega)]
  exact wsub32_of_le (by omega)

lemma Window.accepts_iff (w : Window k) : w.accepts a = true ↔ w.base ≤ a ∧ a + 1 < w.base + w.size := by
  have hpos := w.size_pos
  rw [accepts, w.last_eq, Bool.and_eq_true, decide_eq_true_iff, decide_eq_true_iff]
  omega

lemma Window.mem_bytes (w : Window k) : a ∈ w.bytes ↔ w.base ≤ a ∧ a < w.base + w.size :=
  Set.mem_Ico

lemma Window.mem_of_accepts (h : w.accepts a = true) : a ∈ w.bytes := by
  rw [w.accepts_iff] at h
  rw [w.mem_bytes]
  omega

lemma Window.Has.mem (h : w.Has a n) (hn : 0 < n) : a ∈ w.bytes := by
  obtain ⟨hlow, hhigh⟩ := h
  rw [w.mem_bytes]
  omega

lemma Window.accepts_iff_of_mem (h : a ∈ w.bytes) : w.accepts a = true ↔ a + 1 ≠ w.base + w.size := by
  rw [w.mem_bytes] at h
  rw [w.accepts_iff]
  omega

/-- No two windows of a table have a byte in common. -/
def Apart (windows : List (Window k)) : Prop :=
  windows.Pairwise fun v w => Disjoint v.bytes w.bytes

lemma Apart.eq {windows : List (Window k)} (h : Apart windows) (hv : v ∈ windows) (hw : w ∈ windows)
    (hav : a ∈ v.bytes) (haw : a ∈ w.bytes) : v = w := by
  by_contra hne
  have hsymm : Std.Symm fun v w : Window k => Disjoint v.bytes w.bytes := ⟨fun _ _ hvw => hvw.symm⟩
  have hdisjoint := List.Pairwise.forall h hv hw hne
  exact Set.disjoint_left.mp hdisjoint hav haw

lemma Apart.find? {row : List (Window k)} (h : Apart row) (hw : w ∈ row) (hacc : w.accepts a = true) :
    row.find? (fun w => w.accepts a) = some w := by
  cases hfind : row.find? (fun w => w.accepts a) with
  | none => exact absurd hacc (List.find?_eq_none.mp hfind w hw)
  | some v =>
    have hv := List.find?_some hfind
    have heq := h.eq (List.mem_of_find?_eq_some hfind) hw (Window.mem_of_accepts hv) (Window.mem_of_accepts hacc)
    exact congrArg some heq

lemma cache64Lookup_eq_none {rows : List (List (Window k))} (h : ∀ v ∈ rows.flatten, ¬ v.accepts a = true) (i : Nat) :
    cache64Lookup a i rows = none := by
  induction rows generalizing i with
  | nil => rfl
  | cons row rows ih =>
    have hrow : row.find? (fun w => w.accepts a) = none :=
      List.find?_eq_none.mpr (fun v hv => h v (List.mem_flatten_of_mem List.mem_cons_self hv))
    rw [cache64Lookup, hrow]
    apply ih
    intro v hv
    apply h
    rw [List.flatten_cons]
    exact List.mem_append_right row hv

lemma cache64Lookup_eq_some {rows : List (List (Window k))} {row : List (Window k)} {r : Nat} (h : Apart rows.flatten)
    (hrow : rows[r]? = some row) (hw : w ∈ row) (hacc : w.accepts a = true) (i : Nat) :
    cache64Lookup a i rows = some (i + r, w) := by
  induction rows generalizing i r with
  | nil => exact absurd hrow (by simp)
  | cons first rows ih =>
    rw [Apart, List.flatten_cons, List.pairwise_append] at h
    obtain ⟨hfirst, hrest, hapart⟩ := h
    rw [cache64Lookup]
    cases r with
    | zero =>
      rw [List.getElem?_cons_zero, Option.some.injEq] at hrow
      subst hrow
      rw [Apart.find? hfirst hw hacc]
      rfl
    | succ r =>
      rw [List.getElem?_cons_succ] at hrow
      have hnone : first.find? (fun w => w.accepts a) = none := by
        apply List.find?_eq_none.mpr
        intro v hv hva
        have hdisjoint := hapart v hv w (List.mem_flatten_of_mem (List.mem_of_getElem? hrow) hw)
        exact Set.disjoint_left.mp hdisjoint (Window.mem_of_accepts hva) (Window.mem_of_accepts hacc)
      rw [hnone]
      dsimp only
      rw [ih hrest hrow, Nat.add_assoc, Nat.add_comm 1]

lemma xcacheGetInstanceByAddr_eq {table : List (Window k)} {i : Nat} (h : Apart table) (hw : table[i]? = some w)
    (hacc : w.accepts a = true) : xcacheGetInstanceByAddr table a = i := by
  obtain ⟨hi, hget⟩ := List.getElem?_eq_some_iff.mp hw
  apply (List.findIdx_eq hi).mpr
  refine ⟨hget ▸ hacc, ?_⟩
  intro j hj
  by_contra hja
  have hdisjoint := List.pairwise_iff_getElem.mp h j i (hj.trans hi) hi hj
  rw [hget] at hdisjoint
  have hmem := Window.mem_of_accepts (Bool.eq_true_of_not_eq_false hja)
  exact Set.disjoint_left.mp hdisjoint hmem (Window.mem_of_accepts hacc)

/-- No window accepts its own last byte. -/
lemma Apart.not_accepts {windows : List (Window k)} (h : Apart windows) (hw : w ∈ windows) (hmem : a ∈ w.bytes)
    (hlast : a + 1 = w.base + w.size) : ∀ v ∈ windows, ¬ v.accepts a = true := by
  intro v hv hacc
  have heq := h.eq hv hw (Window.mem_of_accepts hacc) hmem
  rw [heq, Window.accepts_iff_of_mem hmem] at hacc
  exact hacc hlast

end Windows

section Walks

variable {k a n : Nat} {w : Window k}

lemma alignLine_eq (hk : k ≤ 32) (ha : a < 2 ^ 32) : alignLine k a = a / 2 ^ k * 2 ^ k :=
  and_mask_eq hk ha

lemma Window.shift_le (w : Window k) : k ≤ 32 := by
  have hle := Nat.le_of_dvd w.size_pos w.size_dvd
  have hfits := w.fits
  by_contra hlt
  have hpow : 2 ^ 32 ≤ 2 ^ k := Nat.pow_le_pow_right (by decide) (by omega)
  omega

/-- The lines of a range in a window end in the window. -/
lemma Window.Has.lines_end (h : w.Has a n) (hn : 0 < n) : (a + n - 1) / 2 ^ k * 2 ^ k + 2 ^ k ≤ w.base + w.size := by
  obtain ⟨m, hm⟩ := (Nat.dvd_add w.base_dvd w.size_dvd)
  obtain ⟨-, hhigh⟩ := h
  have hlt : (a + n - 1) / 2 ^ k < m := by
    apply (Nat.div_lt_iff_lt_mul (Nat.two_pow_pos k)).mpr
    rw [Nat.mul_comm, ← hm]
    omega
  calc (a + n - 1) / 2 ^ k * 2 ^ k + 2 ^ k = ((a + n - 1) / 2 ^ k + 1) * 2 ^ k := by rw [Nat.succ_mul]
    _ ≤ m * 2 ^ k := Nat.mul_le_mul_right _ hlt
    _ = w.base + w.size := by rw [hm, Nat.mul_comm]

/-- The number of lines that start before the last byte. -/
def linesBelow (k a n : Nat) : Nat :=
  if (a + n - 1) % 2 ^ k = 0 then (a + n - 1) / 2 ^ k - a / 2 ^ k else lineCount (2 ^ k) a n

lemma cursor_eq (k a i : Nat) : a / 2 ^ k * 2 ^ k + 2 ^ k * i = (a / 2 ^ k + i) * 2 ^ k := by
  rw [Nat.add_mul, Nat.mul_comm i]

lemma div_le_last (k : Nat) (hn : 0 < n) : a / 2 ^ k ≤ (a + n - 1) / 2 ^ k :=
  Nat.div_le_div_right (by omega)

/-- The lines up to the one with the last byte. -/
lemma walk_le (h : w.Has a n) (hn : 0 < n) :
    Returns (walk 32 (2 ^ k) (fun cursor => decide (cursor ≤ a + n - 1)) id (a / 2 ^ k * 2 ^ k))
      (linesFrom (2 ^ k) (a / 2 ^ k * 2 ^ k) (lineCount (2 ^ k) a n)) := by
  have hend := h.lines_end hn
  have hfits := w.fits
  have hq := div_le_last k hn (a := a)
  have hlow := Nat.div_mul_le_self (a + n - 1) (2 ^ k)
  have hhigh := Nat.lt_div_mul_add (Nat.two_pow_pos k) (a := a + n - 1)
  apply walk_returns
  · have := Nat.div_mul_le_self a (2 ^ k)
    have := h.2
    omega
  · intro i hi
    have hle : (a / 2 ^ k + i) * 2 ^ k ≤ (a + n - 1) / 2 ^ k * 2 ^ k :=
      Nat.mul_le_mul_right _ (by rw [lineCount] at hi; omega)
    rw [cursor_eq]
    refine ⟨by omega, decide_eq_true (hle.trans hlow), rfl⟩
  · have hcount : a / 2 ^ k + lineCount (2 ^ k) a n = (a + n - 1) / 2 ^ k + 1 := by
      rw [lineCount]
      omega
    rw [cursor_eq, hcount, Nat.succ_mul, Nat.mod_eq_of_lt (by omega)]
    exact decide_eq_false (by omega)

/-- The lines that start before the last byte. -/
lemma walk_lt (h : w.Has a n) (hn : 0 < n) :
    Returns (walk 32 (2 ^ k) (fun cursor => decide (cursor < a + n - 1)) id (a / 2 ^ k * 2 ^ k))
      (linesFrom (2 ^ k) (a / 2 ^ k * 2 ^ k) (linesBelow k a n)) := by
  have hend := h.lines_end hn
  have hfits := w.fits
  have hq := div_le_last k hn (a := a)
  have hdigits := Nat.div_add_mod' (a + n - 1) (2 ^ k)
  have hhigh := Nat.lt_div_mul_add (Nat.two_pow_pos k) (a := a + n - 1)
  apply walk_returns
  · have := Nat.div_mul_le_self a (2 ^ k)
    have := h.2
    omega
  · intro i hi
    rw [cursor_eq]
    have hlt : (a / 2 ^ k + i) * 2 ^ k < a + n - 1 := by
      unfold linesBelow at hi
      split_ifs at hi with hopen
      · have hle : (a / 2 ^ k + i + 1) * 2 ^ k ≤ (a + n - 1) / 2 ^ k * 2 ^ k := Nat.mul_le_mul_right _ (by omega)
        rw [Nat.succ_mul] at hle
        have := Nat.two_pow_pos k
        omega
      · have hle : (a / 2 ^ k + i) * 2 ^ k ≤ (a + n - 1) / 2 ^ k * 2 ^ k :=
          Nat.mul_le_mul_right _ (by rw [lineCount] at hi; omega)
        omega
    refine ⟨by omega, decide_eq_true hlt, rfl⟩
  · rw [cursor_eq]
    unfold linesBelow
    split_ifs with hopen
    · rw [Nat.add_sub_cancel' hq, Nat.mod_eq_of_lt (by omega)]
      exact decide_eq_false (by omega)
    · have hcount : a / 2 ^ k + lineCount (2 ^ k) a n = (a + n - 1) / 2 ^ k + 1 := by
        rw [lineCount]
        omega
      rw [hcount, Nat.succ_mul, Nat.mod_eq_of_lt (by omega)]
      exact decide_eq_false (by omega)

end Walks

section Calls

variable {k a n r i : Nat} {rows : List (List (Window k))} {table row : List (Window k)} {v w : Window k}

/-- The ends of a range in a window need no wrapping and no limit. -/
lemma Window.Has.ends (h : w.Has a n) (hn : 0 < n) :
    wsub32 ((a + n) % 2 ^ 32) 1 = a + n - 1 ∧ ¬ (a + n - 1 > w.last) ∧ a < 2 ^ 32 := by
  obtain ⟨-, hhigh⟩ := h
  have hfits := w.fits
  refine ⟨?_, ?_, by omega⟩
  · rw [Nat.mod_eq_of_lt (by omega)]
    exact wsub32_of_le (by omega)
  · rw [w.last_eq]
    omega

lemma cache64ByRange_returns (hrows : Apart rows.flatten) (hrow : rows[r]? = some row) (hv : v ∈ row) (h : v.Has a n)
    (hn : 0 < n) (hlast : a + 1 ≠ v.base + v.size) (op : Op) :
    Returns (cache64ByRange op rows a n)
      ((linesFrom (2 ^ k) (a / 2 ^ k * 2 ^ k) (linesBelow k a n)).map fun addr => ⟨r, op.lcmd, addr⟩) := by
  have hlookup : cache64GetInstanceByAddr rows a = some (r, v) := by
    have hacc := (Window.accepts_iff_of_mem (h.mem hn)).mpr hlast
    rw [cache64GetInstanceByAddr, cache64Lookup_eq_some hrows hrow hv hacc, Nat.zero_add]
  obtain ⟨hend, hlim, ha⟩ := h.ends hn
  have hfits := v.fits
  have hcheck : ¬ 2 ^ 32 - 1 - a < n := by
    have := h.2
    omega
  unfold cache64ByRange
  simp only [if_pos hn, if_neg hcheck, hlookup, hend, if_neg hlim, alignLine_eq v.shift_le ha]
  exact (walk_lt h hn).map _

lemma cache64ByRange_last (hrows : Apart rows.flatten) (hrow : rows[r]? = some row) (hv : v ∈ row) (h : v.Has a n)
    (hn : 0 < n) (hlast : a + 1 = v.base + v.size) (op : Op) : Returns (cache64ByRange op rows a n) [] := by
  have hmem : v ∈ rows.flatten := List.mem_flatten_of_mem (List.mem_of_getElem? hrow) hv
  have hlookup : cache64GetInstanceByAddr rows a = none :=
    cache64Lookup_eq_none (hrows.not_accepts hmem (h.mem hn) hlast) 0
  refine ⟨0, ?_⟩
  intro fuel _
  unfold cache64ByRange
  simp only [hlookup, ite_self]

lemma xcacheByRange_returns (htable : Apart table) (hw : table[i]? = some w) (h : w.Has a n) (hn : 0 < n)
    (hchecked : a < 2 ^ 32 - 1 - n) (hlast : a + 1 ≠ w.base + w.size) (op : Op) :
    Returns (xcacheByRange op table a n)
      ((linesFrom (2 ^ k) (a / 2 ^ k * 2 ^ k) (lineCount (2 ^ k) a n)).map fun addr => ⟨i, op.lcmd, addr⟩) := by
  have hlookup : xcacheGetInstanceByAddr table a = i :=
    xcacheGetInstanceByAddr_eq htable hw ((Window.accepts_iff_of_mem (h.mem hn)).mpr hlast)
  obtain ⟨hend, hlim, ha⟩ := h.ends hn
  unfold xcacheByRange
  simp only [if_pos hn, if_pos hchecked, hlookup, hw, hend, if_neg hlim, alignLine_eq w.shift_le ha]
  exact (walk_le h hn).map _

lemma xcacheByRange_last (htable : Apart table) (hw : table[i]? = some w) (h : w.Has a n) (hn : 0 < n)
    (hchecked : a < 2 ^ 32 - 1 - n) (hlast : a + 1 = w.base + w.size) (op : Op) :
    Returns (xcacheByRange op table a n) [] := by
  have hlookup : xcacheGetInstanceByAddr table a = table.length := by
    apply List.findIdx_eq_length.mpr
    intro v hv
    exact Bool.eq_false_of_not_eq_true (htable.not_accepts (List.mem_of_getElem? hw) (h.mem hn) hlast v hv)
  refine ⟨0, ?_⟩
  intro fuel _
  unfold xcacheByRange
  simp only [if_pos hn, if_pos hchecked, hlookup, List.getElem?_eq_none le_rfl]

/-- A range of lines that is issued is not empty. -/
lemma not_issues_nil {op : Op} {cache64 xcache : Nat → Nat → Nat → Option (List LineCommand)} (hn : 0 < n)
    (hnil : Returns (cache64 a n) [] ∨ Returns (xcache a n) []) : ¬ Issues k op cache64 xcache r i a n := by
  rintro ⟨lines, hexact, h64, hx⟩
  have hlength := hexact.length (Nat.two_pow_pos k) hn
  have hempty : lines = [] := by
    obtain hnil | hnil := hnil
    · exact List.map_eq_nil_iff.mp (h64.unique hnil)
    · exact List.map_eq_nil_iff.mp (hx.unique hnil)
  rw [hempty, List.length_nil, lineCount] at hlength
  omega

/-- A last byte that opens a line leaves that line out. -/
lemma linesBelow_lt (hn : 0 < n) (hopen : (a + n - 1) % 2 ^ k = 0) : linesBelow k a n < lineCount (2 ^ k) a n := by
  have hq := div_le_last k hn (a := a)
  rw [linesBelow, if_pos hopen, lineCount]
  omega

section Conditions

variable (hrows : Apart rows.flatten) (hrow : rows[r]? = some row) (hv : v ∈ row) (hav : v.Has a n)
  (htable : Apart table) (hw : table[i]? = some w) (haw : w.Has a n) (hn : 0 < n) (hchecked : a < 2 ^ 32 - 1 - n)
include hrows hrow hv hav htable hw haw hn hchecked

lemma issues_byRange (h64 : a + 1 ≠ v.base + v.size) (hx : a + 1 ≠ w.base + w.size) (hopen : (a + n - 1) % 2 ^ k ≠ 0)
    (op : Op) : Issues k op (cache64ByRange op rows) (xcacheByRange op table) r i a n := by
  refine ⟨_, exactLines_linesFrom (Nat.two_pow_pos k) hn, ?_, ?_⟩
  · have hreturns := cache64ByRange_returns hrows hrow hv hav hn h64 op
    rwa [linesBelow, if_neg hopen] at hreturns
  · exact xcacheByRange_returns htable hw haw hn hchecked hx op

lemma issues_byRange_iff (op : Op) :
    Issues k op (cache64ByRange op rows) (xcacheByRange op table) r i a n ↔
      a + 1 ≠ v.base + v.size ∧ a + 1 ≠ w.base + w.size ∧ (a + n - 1) % 2 ^ k ≠ 0 := by
  constructor
  · intro h
    have h64 : a + 1 ≠ v.base + v.size := by
      intro hlast
      exact not_issues_nil hn (Or.inl (cache64ByRange_last hrows hrow hv hav hn hlast op)) h
    have hx : a + 1 ≠ w.base + w.size := by
      intro hlast
      exact not_issues_nil hn (Or.inr (xcacheByRange_last htable hw haw hn hchecked hlast op)) h
    refine ⟨h64, hx, ?_⟩
    intro hopen
    obtain ⟨lines, hexact, hlines, -⟩ := h
    have heq := congrArg List.length (hlines.unique (cache64ByRange_returns hrows hrow hv hav hn h64 op))
    rw [List.length_map, List.length_map, linesFrom, List.length_map, List.length_range,
      hexact.length (Nat.two_pow_pos k) hn] at heq
    exact absurd (linesBelow_lt hn hopen) (by omega)
  · rintro ⟨h64, hx, hopen⟩
    exact issues_byRange hrows hrow hv hav htable hw haw hn hchecked h64 hx hopen op

/-- Maintenance by range is right if and only if the range does not start at the last byte of its window, and its
last byte does not open a line. -/
theorem maintained_iff :
    Maintained rows table r i a n ↔
      a + 1 ≠ v.base + v.size ∧ a + 1 ≠ w.base + w.size ∧ (a + n - 1) % 2 ^ k ≠ 0 := by
  have hiff := issues_byRange_iff hrows hrow hv hav htable hw haw hn hchecked
  constructor
  · intro h
    exact (hiff .invalidate).mp h.invalidate
  · intro h
    exact ⟨(hiff .invalidate).mpr h, (hiff .clean).mpr h, (hiff .cleanInvalidate).mpr h⟩

end Conditions

/-- A window of 4 KB with lines of 32 bytes. -/
def flash : Window 5 :=
  { base := 0x08000000
    size := 0x1000
    size_pos := by decide
    base_dvd := by decide
    size_dvd := by decide
    fits := by decide }

lemma apart_flash : Apart [flash] :=
  List.pairwise_singleton _ _

theorem maintained_flash :
    Maintained [[flash]] [flash] 0 0 0x08000004 40 ↔
      0x08000004 + 1 ≠ flash.base + flash.size ∧ 0x08000004 + 1 ≠ flash.base + flash.size ∧
        (0x08000004 + 40 - 1) % 2 ^ 5 ≠ 0 :=
  maintained_iff apart_flash rfl List.mem_cons_self ⟨by decide, by decide⟩ apart_flash rfl ⟨by decide, by decide⟩
    (by decide) (by decide)

/-- The second line of 33 bytes from the start of a line gets no command from the CACHE64 driver. -/
theorem not_maintained_flash : ¬ Maintained [[flash]] [flash] 0 0 0x08000000 33 := by
  intro h
  have hhas : flash.Has 0x08000000 33 := ⟨by decide, by decide⟩
  have hrows : Apart [[flash]].flatten := apart_flash
  have hconditions := (issues_byRange_iff hrows rfl List.mem_cons_self hhas apart_flash rfl hhas (by decide)
    (by decide) .invalidate).mp h.invalidate
  exact hconditions.2.2 (by decide)

end Calls

end McuxDrivers.Cache
