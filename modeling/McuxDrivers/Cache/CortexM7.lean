import McuxDrivers.Lib.Countdown
import McuxDrivers.Lib.LineWalk
import McuxDrivers.Lib.SignedArith

/-!
# Cache maintenance by range on the Cortex-M7

The functions for the level 2 controller and for the level 1 instruction cache. Cursors and ends of ranges are
`uint32_t`, so a cursor can pass the end of the address space, and a loop need not end.
-/

namespace McuxDrivers.Cache.CortexM7
open McuxDrivers.Lib

/-- The start of the line with 32 bytes. -/
def alignLine (address : Nat) : Nat :=
  address &&& 2 ^ 32 - 1 - (2 ^ 5 - 1)

/-- The fields of `REG1_AUX_CONTROL`. -/
structure AuxControl where
  associativity : Nat
  waySize : Nat

/-- The registers for the line commands, and for the commands to all ways. -/
inductive Reg7 where
  | invPa
  | cleanPa
  | cleanInvPa
  | cleanWay
  | cleanInvWay
deriving DecidableEq

/-- What a call writes to a register: addresses of lines, or the mask of the ways. -/
inductive L2Command where
  | lines (reg : Reg7) (addresses : List Nat)
  | ways (reg : Reg7) (mask : Nat)

section Driver

variable (aux : AuxControl) (reads : Nat → Nat)

def l2GetWayNumSize : Nat × Nat :=
  let size := if aux.waySize = 0 then aux.waySize + 1 else aux.waySize
  ((aux.associativity + 1) * 8 % 2 ^ 32, 2 ^ (size - 1) * 16 * 1024 % 2 ^ 32)

/-- The wait of `L2CACHE_SetAndWaitBackGroundOperate`; `reads` are the values that the register has. -/
def backGroundBody (mask : Nat) (s : Nat × Nat) : (Nat × Nat) ⊕ Unit :=
  if reads s.1 &&& mask ≠ 0 ∧ s.2 ≠ 0 then .inl (s.1 + 1, s.2 - 1) else .inr ()

/-- `L2CACHE_SetAndWaitBackGroundOperate`: the mask that it writes. -/
def l2SetAndWaitBackGroundOperate (fuel : Nat) : Option Nat :=
  let mask := if aux.associativity ≠ 0 then 0xFFFF else 0xFF
  (loop (backGroundBody reads mask) fuel (0, 0xFFFFF)).map fun _ => mask

/-- `L2CACHE_InvalidateByRange`. -/
def l2InvalidateByRange (address sizeByte fuel : Nat) : Option L2Command :=
  let endAddr := (address + sizeByte) % 2 ^ 32
  (walk 32 32 (fun cursor => decide (cursor < endAddr)) alignLine address fuel).map (.lines .invPa)

/-- What `L2CACHE_CleanByRange` and `L2CACHE_CleanInvalidateByRange` share, with the registers of the line command and of the
command to all ways. -/
def l2ByRange (pa way : Reg7) (address sizeByte fuel : Nat) : Option L2Command :=
  let endAddr := (address + sizeByte) % 2 ^ 32
  let (numWays, sizeWay) := l2GetWayNumSize aux
  if wsub32 endAddr address > numWays * sizeWay % 2 ^ 32 then
    (l2SetAndWaitBackGroundOperate aux reads fuel).map (.ways way)
  else (walk 32 32 (fun cursor => decide (alignLine cursor < endAddr)) alignLine address fuel).map (.lines pa)

def l2CleanByRange : Nat → Nat → Nat → Option L2Command :=
  l2ByRange aux reads .cleanPa .cleanWay

def l2CleanInvalidateByRange : Nat → Nat → Nat → Option L2Command :=
  l2ByRange aux reads .cleanInvPa .cleanInvWay

/-- A conversion to `int32_t`. -/
def toInt32 (x : Nat) : Int :=
  if x < 2 ^ 31 then x else x - 2 ^ 32

/-- The state is `addr`, `size` and the lines so far. -/
def icacheBody (s : Nat × Int × List Nat) : (Nat × Int × List Nat) ⊕ List Nat :=
  if s.2.1 > 0 then .inl ((s.1 + 32) % 2 ^ 32, s.2.1 - 32, s.2.2 ++ [s.1]) else .inr s.2.2

/-- `L1CACHE_InvalidateICacheByRange`; no result when the signed sum overflows. -/
def l1InvalidateICacheByRange (address sizeByte fuel : Nat) : Option (List Nat) :=
  let addr := alignLine address
  let alignLen := wsub32 address addr
  (checked 32 (toInt32 sizeByte + toInt32 alignLen)).bind fun size => loop icacheBody fuel (addr, size, [])

end Driver

/-- The command for the lines that the range touches, each once. -/
def Issues (f : Nat → Option L2Command) (pa : Reg7) (a n : Nat) : Prop :=
  ∃ lines, Returns f (.lines pa lines) ∧ ExactLines 32 a n lines

/-- The command for these lines, or for all ways. -/
def Serves (f : Nat → Option L2Command) (pa way : Reg7) (a n : Nat) : Prop :=
  Issues f pa a n ∨ ∃ mask, Returns f (.ways way mask)

/-- Complete and terminating maintenance of a range. -/
structure Complete (aux : AuxControl) (reads : Nat → Nat) (a n : Nat) : Prop where
  invalidate : Issues (l2InvalidateByRange a n) .invPa a n
  clean : Serves (l2CleanByRange aux reads a n) .cleanPa .cleanWay a n
  cleanInvalidate : Serves (l2CleanInvalidateByRange aux reads a n) .cleanInvPa .cleanInvWay a n
  icache : ∃ lines, Returns (l1InvalidateICacheByRange a n) lines ∧ ∀ x, 32 ∣ x → Touches 32 a n x → x ∈ lines

section Lines

variable {a n x : Nat}

lemma alignLine_eq (ha : a < 2 ^ 32) : alignLine a = a / 32 * 32 :=
  and_mask_eq (k := 5) (by decide) ha

lemma alignLine_le (ha : a < 2 ^ 32) : alignLine a ≤ a := by
  rw [alignLine_eq ha]
  exact Nat.div_mul_le_self a 32

/-- A line is its own start. -/
lemma alignLine_mul {q : Nat} (hq : q * 32 < 2 ^ 32) : alignLine (q * 32) = q * 32 := by
  rw [alignLine_eq hq, Nat.mul_div_cancel _ (by decide)]

lemma cursor_eq (a i : Nat) : a / 32 * 32 + 32 * i = (a / 32 + i) * 32 := by
  omega

lemma lineCount_pos (line a n : Nat) : 0 < lineCount line a n :=
  Nat.succ_pos _

/-- A walk from the line of the first byte, with either test, up to an end below the last line. -/
lemma walk_lines {go : Nat → Bool} (hn : 0 < n) (hend : a + n ≤ 2 ^ 32 - 32)
    (hgo : ∀ q, q * 32 < 2 ^ 32 → go (q * 32) = decide (q * 32 < a + n)) (hstart : go a = go (a / 32 * 32)) :
    Returns (walk 32 32 go alignLine a) (linesFrom 32 (a / 32 * 32) (lineCount 32 a n)) := by
  have hfirst : alignLine a = alignLine (a / 32 * 32) := by
    rw [alignLine_mul (by omega), alignLine_eq (by omega)]
  rw [show walk 32 32 go alignLine a = walk 32 32 go alignLine (a / 32 * 32) from funext (walk_congr hstart hfirst)]
  apply walk_returns
  · omega
  · intro i hi
    rw [lineCount] at hi
    rw [cursor_eq]
    refine ⟨by omega, ?_, alignLine_mul (by omega)⟩
    rw [hgo _ (by omega)]
    exact decide_eq_true (by omega)
  · rw [cursor_eq, lineCount, Nat.mod_eq_of_lt (by omega), hgo _ (by omega)]
    exact decide_eq_false (by omega)

/-- A walk to an end inside the last line comes back to the first lines of the address space. -/
lemma walk_last {go : Nat → Bool} (ha : a < 2 ^ 32) (hgo : go a = true) (hall : ∀ q, q * 32 < 2 ^ 32 → go (q * 32) = true)
    (fuel : Nat) : walk 32 32 go alignLine a fuel = none := by
  refine walk_never (I := fun x => x < 2 ^ 32 ∧ go x = true) ?_ ⟨ha, hgo⟩ fuel
  rintro x ⟨hx, hgox⟩
  refine ⟨hgox, Nat.mod_lt _ (by decide), ?_⟩
  rw [alignLine_eq hx, show (x / 32 * 32 + 32) % 2 ^ 32 = (x / 32 + 1) % 2 ^ 27 * 32 by omega]
  exact hall _ (by omega)

/-- A walk to an end at 0 does not start. -/
lemma walk_stops {go : Nat → Bool} (hgo : go a = false) : Returns (walk 32 32 go alignLine a) [] := by
  apply loop_leave
  rw [walkBody, if_neg (by rw [hgo]; decide)]

lemma not_exactLines_nil (hn : 0 < n) : ¬ ExactLines 32 a n [] := by
  intro h
  have hlength := h.length (by decide) hn
  exact absurd hlength (lineCount_pos 32 a n).ne

end Lines

section Level2

variable {aux : AuxControl} {reads : Nat → Nat} {a n : Nat}

lemma l2InvalidateByRange_returns (hn : 0 < n) (hend : a + n ≤ 2 ^ 32 - 32) :
    Returns (l2InvalidateByRange a n) (.lines .invPa (linesFrom 32 (a / 32 * 32) (lineCount 32 a n))) := by
  unfold l2InvalidateByRange
  apply Returns.map
  rw [Nat.mod_eq_of_lt (by omega)]
  apply walk_lines hn hend
  · intro q _
    rfl
  · rw [decide_eq_true (show a < a + n by omega), decide_eq_true (show a / 32 * 32 < a + n by omega)]

/-- A range that goes beyond the last line but one of the address space: no line is issued, or lines without end. -/
lemma walk_wrapped (go : Nat → Bool) (hn : 0 < n) (ha : a + n ≤ 2 ^ 32) (hend : ¬ a + n ≤ 2 ^ 32 - 32)
    (hgo : ∀ q, q * 32 < 2 ^ 32 → go (q * 32) = decide (q * 32 < (a + n) % 2 ^ 32)) (hstart : go a = go (a / 32 * 32)) :
    Returns (walk 32 32 go alignLine a) [] ∨ ∀ fuel, walk 32 32 go alignLine a fuel = none := by
  have hfirst := hgo (a / 32) (by omega)
  obtain htop | hlow := Nat.eq_or_lt_of_le ha
  · left
    apply walk_stops
    rw [hstart, hfirst, htop, Nat.mod_self]
    rfl
  · right
    rw [Nat.mod_eq_of_lt hlow] at hgo hfirst
    apply walk_last (by omega) (hstart.trans (hfirst.trans (decide_eq_true (by omega))))
    intro q hq
    exact (hgo q hq).trans (decide_eq_true (by omega))

/-- The level 2 invalidation is right if and only if the range ends before the last line of the address space. -/
lemma l2InvalidateByRange_iff (hn : 0 < n) (ha : a + n ≤ 2 ^ 32) :
    Issues (l2InvalidateByRange a n) .invPa a n ↔ a + n ≤ 2 ^ 32 - 32 := by
  constructor
  · rintro ⟨lines, hreturns, hexact⟩
    by_contra hend
    have hstart : decide (a < (a + n) % 2 ^ 32) = decide (a / 32 * 32 < (a + n) % 2 ^ 32) :=
      decide_eq_decide.mpr (by omega)
    obtain hnil | hnever := walk_wrapped (fun x => decide (x < (a + n) % 2 ^ 32)) hn ha hend (fun q _ => rfl) hstart
    · rw [(L2Command.lines.inj (hreturns.unique (hnil.map _))).2] at hexact
      exact not_exactLines_nil hn hexact
    · exact hreturns.ne_none (fun fuel => congrArg (Option.map (L2Command.lines .invPa)) (hnever fuel))
  · intro hend
    exact ⟨_, l2InvalidateByRange_returns hn hend, exactLines_linesFrom (by decide) hn⟩

/-- The wait ends with the operation, or with its timeout. -/
lemma l2SetAndWaitBackGroundOperate_returns (aux : AuxControl) (reads : Nat → Nat) :
    ∃ mask, Returns (l2SetAndWaitBackGroundOperate aux reads) mask := by
  have hnext (mask : Nat) (s s' : Nat × Nat) (_ : True) (hbody : backGroundBody reads mask s = .inl s') :
      True ∧ s'.2 < s.2 := by
    unfold backGroundBody at hbody
    split_ifs at hbody with hwait
    rw [Sum.inl.injEq] at hbody
    subst hbody
    exact ⟨trivial, Nat.sub_one_lt hwait.2⟩
  obtain ⟨r, hr, -⟩ := loop_yields (Q := fun _ => True) (fun s : Nat × Nat => s.2)
    (hnext (if aux.associativity ≠ 0 then 0xFFFF else 0xFF)) (fun _ _ _ _ => trivial) trivial
  exact ⟨_, hr.map _⟩

/-- The bytes of the cache, from the number of its ways and their size. -/
def cacheSize (aux : AuxControl) : Nat :=
  (l2GetWayNumSize aux).1 * (l2GetWayNumSize aux).2 % 2 ^ 32

lemma l2ByRange_eq (pa way : Reg7) (hn : n < 2 ^ 32) (ha : a + n ≤ 2 ^ 32) :
    l2ByRange aux reads pa way a n = fun fuel =>
      if cacheSize aux < n then (l2SetAndWaitBackGroundOperate aux reads fuel).map (.ways way)
      else (walk 32 32 (fun cursor => decide (alignLine cursor < (a + n) % 2 ^ 32)) alignLine a fuel).map (.lines pa) := by
  have hsize : wsub32 ((a + n) % 2 ^ 32) a = n := by
    unfold wsub32
    split_ifs <;> omega
  funext fuel
  unfold l2ByRange
  simp only [hsize]
  rfl

/-- A cleaning function is right for a range larger than the cache, and for one that ends before the last line of
the address space. -/
lemma l2ByRange_iff (aux : AuxControl) (reads : Nat → Nat) (pa way : Reg7) (hn : 0 < n) (hn32 : n < 2 ^ 32)
    (ha : a + n ≤ 2 ^ 32) :
    Serves (l2ByRange aux reads pa way a n) pa way a n ↔ cacheSize aux < n ∨ a + n ≤ 2 ^ 32 - 32 := by
  rw [l2ByRange_eq pa way hn32 ha]
  by_cases hsize : cacheSize aux < n
  · obtain ⟨mask, hmask⟩ := l2SetAndWaitBackGroundOperate_returns aux reads
    simp only [hsize, if_true, true_or, iff_true]
    exact Or.inr ⟨mask, hmask.map _⟩
  · simp only [hsize, if_false, false_or]
    constructor
    · intro h
      by_contra hend
      obtain hnil | hnever := walk_wrapped (fun x => decide (alignLine x < (a + n) % 2 ^ 32)) hn ha hend
        (fun q hq => by rw [alignLine_mul hq]) (by rw [alignLine_mul (by omega), alignLine_eq (by omega)])
      · obtain ⟨lines, hlines, hexact⟩ | ⟨mask, hmask⟩ := h
        · rw [(L2Command.lines.inj (hlines.unique (hnil.map _))).2] at hexact
          exact not_exactLines_nil hn hexact
        · exact L2Command.noConfusion (hmask.unique (hnil.map _))
      · obtain ⟨lines, hlines, -⟩ | ⟨mask, hmask⟩ := h
        · exact hlines.ne_none (fun fuel => congrArg (Option.map (L2Command.lines pa)) (hnever fuel))
        · exact hmask.ne_none (fun fuel => congrArg (Option.map (L2Command.lines pa)) (hnever fuel))
    · intro hend
      refine Or.inl ⟨_, Returns.map ?_ _, exactLines_linesFrom (by decide) hn⟩
      rw [Nat.mod_eq_of_lt (by omega)]
      apply walk_lines hn hend
      · intro q hq
        rw [alignLine_mul hq]
      · rw [alignLine_mul (by omega), alignLine_eq (by omega)]

end Level2

section Level1

variable {a n : Nat}

/-- Rounds over lines of which only the end of the last may be beyond the end of the address space. -/
lemma icache_rounds {first : Nat} {size : Int} (count : Nat)
    (hstep : ∀ i < count, first + 32 * i < 2 ^ 32 ∧ 0 < size - 32 * i) (hstop : size - 32 * count ≤ 0)
    (hfirst : first < 2 ^ 32) :
    Returns (fun fuel => loop icacheBody fuel (first, size, [])) (linesFrom 32 first count) := by
  have hrounds (k : Nat) (hk : k ≤ count)
      (h : Returns (fun fuel => loop icacheBody fuel ((first + 32 * k) % 2 ^ 32, size - 32 * k, linesFrom 32 first k))
        (linesFrom 32 first count)) :
      Returns (fun fuel => loop icacheBody fuel (first, size, [])) (linesFrom 32 first count) := by
    induction k with
    | zero =>
      simp only [Nat.add_zero, Nat.mod_eq_of_lt hfirst, Nat.cast_zero, mul_zero, sub_zero] at h
      exact h
    | succ k ih =>
      obtain ⟨hlt, hsize⟩ := hstep k (by omega)
      apply ih (by omega)
      refine loop_next ?_ h
      rw [Nat.mod_eq_of_lt hlt, icacheBody, if_pos hsize, linesFrom_succ, Nat.mul_succ, Nat.add_assoc, Nat.cast_succ,
        mul_add, mul_one, sub_sub]
  apply hrounds count le_rfl
  apply loop_leave
  rw [icacheBody, if_neg (not_lt.mpr hstop)]

/-- `size` of the loop, where the sum is defined. -/
lemma l1InvalidateICacheByRange_eq (ha : a < 2 ^ 32) :
    l1InvalidateICacheByRange a n = fun fuel =>
      (checked 32 (toInt32 n + (a % 32 : Nat))).bind fun size => loop icacheBody fuel (a / 32 * 32, size, []) := by
  have hle := alignLine_le ha
  rw [alignLine_eq ha] at hle
  have hlen : wsub32 a (a / 32 * 32) = a % 32 := by
    rw [wsub32_of_le hle]
    omega
  have hint : toInt32 (a % 32) = (a % 32 : Nat) := if_pos (by omega)
  funext fuel
  unfold l1InvalidateICacheByRange
  simp only [alignLine_eq ha, hlen, hint]

/-- The level 1 invalidation is right if and only if the size fits the signed counter with the bytes before it. -/
lemma l1InvalidateICacheByRange_iff (hn : 0 < n) (hn32 : n < 2 ^ 32) (ha : a + n ≤ 2 ^ 32) :
    (∃ lines, Returns (l1InvalidateICacheByRange a n) lines ∧ ∀ x, 32 ∣ x → Touches 32 a n x → x ∈ lines) ↔
      n + a % 32 < 2 ^ 31 := by
  rw [l1InvalidateICacheByRange_eq (by omega)]
  constructor
  · rintro ⟨lines, hreturns, hcover⟩
    by_contra hlarge
    by_cases hsign : n < 2 ^ 31
    · -- the sum of the size and the bytes before the range overflows
      have hnone : checked 32 (toInt32 n + (a % 32 : Nat)) = none := by
        rw [toInt32, if_pos hsign, checked, if_neg (by omega)]
      rw [hnone] at hreturns
      exact hreturns.ne_none (fun _ => rfl)
    · -- the size is negative, and the loop does not start
      have hsize : checked 32 (toInt32 n + (a % 32 : Nat)) = some ((n : Int) - 2 ^ 32 + (a % 32 : Nat)) := by
        rw [toInt32, if_neg hsign]
        exact checked_of_fits (by omega) (by omega)
      rw [hsize] at hreturns
      have hnil : lines = [] := by
        apply hreturns.unique
        apply loop_leave
        rw [icacheBody, if_neg (by dsimp only; omega)]
      have hmem := hcover (a / 32 * 32) (Dvd.intro_left _ rfl) ((touches_iff (by decide) hn _).mpr (by omega))
      rw [hnil] at hmem
      exact List.not_mem_nil hmem
  · intro hfits
    have hsize : checked 32 (toInt32 n + (a % 32 : Nat)) = some ((n + a % 32 : Nat) : Int) := by
      rw [toInt32, if_pos (by omega), Nat.cast_add]
      exact checked_of_fits (by omega) (by omega)
    rw [hsize]
    have hrounds : Returns (fun fuel => loop icacheBody fuel (a / 32 * 32, ((n + a % 32 : Nat) : Int), []))
        (linesFrom 32 (a / 32 * 32) (lineCount 32 a n)) := by
      apply icache_rounds
      · intro i hi
        rw [lineCount] at hi
        omega
      · rw [lineCount]
        omega
      · omega
    exact ⟨_, hrounds, fun x hdvd htouch => ((exactLines_linesFrom (by decide) hn).mem_iff x).mpr ⟨hdvd, htouch⟩⟩

end Level1

section Result

variable (aux : AuxControl) (reads : Nat → Nat) {a n : Nat}

/-- Maintenance by range is complete and ends if and only if the range ends before the last line of the address space
and its size, with the bytes before it in the first line, is less than 2^31. -/
theorem complete_iff (hn : 0 < n) (hn32 : n < 2 ^ 32) (ha : a + n ≤ 2 ^ 32) :
    Complete aux reads a n ↔ a + n ≤ 2 ^ 32 - 32 ∧ n + a % 32 < 2 ^ 31 := by
  have hinvalidate := l2InvalidateByRange_iff hn ha
  have hserves := l2ByRange_iff aux reads (n := n) (a := a)
  have hicache := l1InvalidateICacheByRange_iff hn hn32 ha
  constructor
  · intro h
    exact ⟨hinvalidate.mp h.invalidate, hicache.mp h.icache⟩
  · rintro ⟨hend, hsize⟩
    exact ⟨hinvalidate.mpr hend, (hserves .cleanPa .cleanWay hn hn32 ha).mpr (Or.inr hend),
      (hserves .cleanInvPa .cleanInvWay hn hn32 ha).mpr (Or.inr hend), hicache.mpr hsize⟩

theorem complete_iff_small :
    Complete ⟨0, 1⟩ (fun _ => 0) 0x80001004 60 ↔ 0x80001004 + 60 ≤ 2 ^ 32 - 32 ∧ 60 + 0x80001004 % 32 < 2 ^ 31 :=
  complete_iff ⟨0, 1⟩ (fun _ => 0) (by decide) (by decide) (by decide)

/-- A range in the last line: the level 2 invalidation does not end. -/
theorem not_complete_last_line : ¬ Complete ⟨0, 1⟩ (fun _ => 0) 0xFFFFFFE0 16 := by
  intro h
  exact absurd ((l2InvalidateByRange_iff (by decide) (by decide)).mp h.invalidate) (by decide)

end Result

end McuxDrivers.Cache.CortexM7
