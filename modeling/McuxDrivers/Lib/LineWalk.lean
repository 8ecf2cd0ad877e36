import McuxDrivers.Lib.Loop
import Mathlib.Algebra.Order.Ring.Nat
import Mathlib.Data.List.Nodup
import Mathlib.Data.List.Range
import Mathlib.Data.Nat.Bitwise
import Mathlib.Order.Interval.Set.Basic

/-!
# Walks over the lines of a range

Memory is cut into aligned lines. `ExactLines` says that a list has the lines which a range of bytes touches,
each once; `walk` is a loop that steps a cursor of a fixed width from line to line.
-/

namespace McuxDrivers.Lib

/-- The line at `x` has one of the `n` bytes from `a` on. -/
def Touches (line a n x : Nat) : Prop :=
  (Set.Ico x (x + line) ∩ Set.Ico a (a + n)).Nonempty

/-- The lines that a range touches, each once. -/
structure ExactLines (line a n : Nat) (lines : List Nat) : Prop where
  nodup : lines.Nodup
  mem_iff : ∀ x, x ∈ lines ↔ line ∣ x ∧ Touches line a n x

/-- `count` lines, one after another. -/
def linesFrom (line first count : Nat) : List Nat :=
  (List.range count).map fun i => first + line * i

def lineCount (line a n : Nat) : Nat :=
  (a + n - 1) / line - a / line + 1

section Lines

variable {line a n : Nat}

lemma touches_iff (hline : 0 < line) (hn : 0 < n) (x : Nat) : Touches line a n x ↔ x < a + n ∧ a < x + line := by
  constructor
  · rintro ⟨y, ⟨hxy, hyx⟩, ⟨hay, hya⟩⟩
    exact ⟨hxy.trans_lt hya, hay.trans_lt hyx⟩
  · rintro ⟨hlow, hhigh⟩
    refine ⟨max x a, ⟨le_max_left _ _, ?_⟩, ⟨le_max_right _ _, ?_⟩⟩
    · exact max_lt (Nat.lt_add_of_pos_right hline) hhigh
    · exact max_lt hlow (Nat.lt_add_of_pos_right hn)

lemma mem_linesFrom {first count x : Nat} : x ∈ linesFrom line first count ↔ ∃ i < count, first + line * i = x := by
  simp [linesFrom]

lemma linesFrom_succ (first count : Nat) :
    linesFrom line first (count + 1) = linesFrom line first count ++ [first + line * count] := by
  rw [linesFrom, List.range_succ, List.map_append]
  rfl

/-- The lines from that of the first byte to that of the last one. -/
theorem exactLines_linesFrom (hline : 0 < line) (hn : 0 < n) :
    ExactLines line a n (linesFrom line (a / line * line) (lineCount line a n)) := by
  constructor
  · apply List.Nodup.map _ List.nodup_range
    intro i j hij
    exact Nat.eq_of_mul_eq_mul_left hline (Nat.add_left_cancel hij)
  · intro x
    rw [mem_linesFrom, touches_iff hline hn, lineCount]
    constructor
    · rintro ⟨i, hi, rfl⟩
      have hsum : a / line * line + line * i = (a / line + i) * line := by
        rw [Nat.add_mul, Nat.mul_comm line i]
      have hle : a / line + i ≤ (a + n - 1) / line := by
        have := Nat.div_le_div_right (c := line) (show a ≤ a + n - 1 by omega)
        omega
      refine ⟨hsum ▸ Dvd.intro_left _ rfl, ?_, ?_⟩
      · have := (Nat.le_div_iff_mul_le hline).mp hle
        omega
      · have := Nat.lt_div_mul_add hline (a := a)
        omega
    · rintro ⟨⟨q, rfl⟩, hlow, hhigh⟩
      have hfirst : a / line ≤ q := by
        apply Nat.lt_succ_iff.mp
        apply (Nat.div_lt_iff_lt_mul hline).mpr
        rw [Nat.succ_mul, Nat.mul_comm q]
        exact hhigh
      have hlast : q ≤ (a + n - 1) / line := by
        apply (Nat.le_div_iff_mul_le hline).mpr
        rw [Nat.mul_comm q]
        omega
      refine ⟨q - a / line, by omega, ?_⟩
      rw [Nat.mul_comm (a / line), ← Nat.mul_add, Nat.add_sub_cancel' hfirst]

/-- Lists with the same lines are equally long. -/
lemma ExactLines.length_eq {lines lines' : List Nat} (h : ExactLines line a n lines) (h' : ExactLines line a n lines') :
    lines.length = lines'.length := by
  have hperm : lines.Perm lines' :=
    (List.perm_ext_iff_of_nodup h.nodup h'.nodup).mpr (fun x => (h.mem_iff x).trans (h'.mem_iff x).symm)
  exact hperm.length_eq

/-- The lines that a range touches are `lineCount` many. -/
lemma ExactLines.length {lines : List Nat} (h : ExactLines line a n lines) (hline : 0 < line) (hn : 0 < n) :
    lines.length = lineCount line a n := by
  rw [h.length_eq (exactLines_linesFrom hline hn), linesFrom, List.length_map, List.length_range]

end Lines

/-- The mask that aligns an address of `w` bits. -/
lemma and_mask_eq {w k x : Nat} (hk : k ≤ w) (hx : x < 2 ^ w) : x &&& 2 ^ w - 1 - (2 ^ k - 1) = x / 2 ^ k * 2 ^ k := by
  have hpow : 2 ^ k ≤ 2 ^ w := Nat.pow_le_pow_right (by decide) hk
  have hpos : 0 < 2 ^ k := Nat.two_pow_pos k
  apply Nat.eq_of_testBit_eq
  intro i
  rw [Nat.testBit_and, show 2 ^ w - 1 - (2 ^ k - 1) = 2 ^ w - (2 ^ k - 1 + 1) by omega,
    Nat.testBit_two_pow_sub_succ (by omega), Nat.testBit_two_pow_sub_one, Nat.testBit_mul_two_pow]
  by_cases hik : k ≤ i
  · rw [Nat.testBit_div_two_pow, Nat.sub_add_cancel hik]
    by_cases hiw : i < w
    · simp [hik, hiw]
    · have hhigh : x.testBit i = false :=
        Nat.testBit_lt_two_pow (hx.trans_le (Nat.pow_le_pow_right (by decide) (Nat.le_of_not_lt hiw)))
      simp [hhigh]
  · simp [hik, Nat.lt_of_not_le hik]

/-- One round of `while (go cursor) { issue (align cursor); cursor = align cursor + line; }` with a cursor of
`w` bits. The state is the cursor and what is issued. -/
def walkBody (w line : Nat) (go : Nat → Bool) (align : Nat → Nat) (s : Nat × List Nat) :
    (Nat × List Nat) ⊕ List Nat :=
  if go s.1 then .inl ((align s.1 + line) % 2 ^ w, s.2 ++ [align s.1]) else .inr s.2

def walk (w line : Nat) (go : Nat → Bool) (align : Nat → Nat) (cursor fuel : Nat) : Option (List Nat) :=
  loop (walkBody w line go align) fuel (cursor, [])

section Walk

variable {w line first : Nat} {go : Nat → Bool} {align : Nat → Nat}

/-- Rounds over lines of which only the end of the last may be beyond the width of the cursor. -/
lemma walk_rounds {r : List Nat} (count : Nat)
    (hstep : ∀ i < count, first + line * i < 2 ^ w ∧ go (first + line * i) = true ∧
      align (first + line * i) = first + line * i)
    (h : Returns (fun fuel => loop (walkBody w line go align) fuel
      ((first + line * count) % 2 ^ w, linesFrom line first count)) r) (hfirst : first < 2 ^ w) :
    Returns (walk w line go align first) r := by
  induction count with
  | zero =>
    rw [Nat.mul_zero, Nat.add_zero, Nat.mod_eq_of_lt hfirst] at h
    exact h
  | succ count ih =>
    obtain ⟨hlt, hgo, halign⟩ := hstep count (Nat.lt_succ_self count)
    apply ih (fun i hi => hstep i (by omega))
    refine loop_next ?_ h
    rw [Nat.mod_eq_of_lt hlt, walkBody, if_pos hgo, halign, linesFrom_succ, Nat.mul_succ, Nat.add_assoc]

/-- A walk that stops behind its last line. -/
theorem walk_returns (count : Nat) (hfirst : first < 2 ^ w)
    (hstep : ∀ i < count, first + line * i < 2 ^ w ∧ go (first + line * i) = true ∧
      align (first + line * i) = first + line * i)
    (hstop : go ((first + line * count) % 2 ^ w) = false) :
    Returns (walk w line go align first) (linesFrom line first count) := by
  refine walk_rounds count hstep (loop_leave ?_) hfirst
  rw [walkBody, if_neg (by rw [hstop]; decide)]

/-- A walk whose test holds at every cursor that it can get to. -/
theorem walk_never {I : Nat → Prop} (hI : ∀ x, I x → go x = true ∧ I ((align x + line) % 2 ^ w)) (h : I first)
    (fuel : Nat) : walk w line go align first fuel = none := by
  refine loop_never (I := fun s => I s.1) ?_ h fuel
  intro s hs
  obtain ⟨hgo, hnext⟩ := hI s.1 hs
  exact ⟨_, if_pos hgo, hnext⟩

/-- A cursor that is not aligned is walked from like the line that it is in. -/
lemma walk_congr {x : Nat} (hgo : go x = go first) (halign : align x = align first) (fuel : Nat) :
    walk w line go align x fuel = walk w line go align first fuel := by
  apply loop_congr
  rw [walkBody, walkBody, hgo, halign]

end Walk

end McuxDrivers.Lib
