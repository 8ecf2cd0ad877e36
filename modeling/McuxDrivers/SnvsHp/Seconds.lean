import Mathlib.Algebra.Group.Nat.Defs
import Mathlib.Order.Monotone.Basic
import McuxDrivers.Lib.Loop

/-!
# Reading the split seconds counter

The 47-bit counter is read in two halves until two samples agree. The first sample is compared with the
initial 0, so there a carry between the two halves can go unnoticed.
-/

namespace McuxDrivers.SnvsHp
open McuxDrivers.Lib

/-- A call: the counter at each instant, and the instants of its register reads. The counter does not come
far during the call. -/
structure Call where
  counter : Nat → Nat
  readAt : Nat → Nat
  start : Nat
  finish : Nat
  counter_mono : Monotone counter
  counter_lt : ∀ t, counter t < 2 ^ 47
  readAt_mono : Monotone readAt
  start_le : start ≤ readAt 0
  slow : counter finish < counter start + 2 ^ 15

/-- The two halves of the counter. -/
def highHalf (counter : Nat) : Nat := counter / 2 ^ 32
def lowHalf (counter : Nat) : Nat := counter % 2 ^ 32

/-- `tmp` from the two registers. -/
def sampleOf (high low : Nat) : Nat :=
  (high <<< 17) % 2 ^ 32 ||| low >>> 15

/-- `tmp` of a round: the reads `2 * round` and `2 * round + 1`. -/
def Call.sample (c : Call) (round : Nat) : Nat :=
  sampleOf (highHalf (c.counter (c.readAt (2 * round)))) (lowHalf (c.counter (c.readAt (2 * round + 1))))

/-- One round of the loop, with the number of the round and `tmp`; it gives `seconds` and the number of
rounds. -/
def secondsRound (sample : Nat → Nat) : Nat × Nat → (Nat × Nat) ⊕ (Nat × Nat)
  | (round, tmp) =>
    let seconds := tmp
    let tmp := sample round
    if tmp ≠ seconds then .inl (round + 1, tmp) else .inr (seconds, round + 1)

/-- `SNVS_HP_RTC_GetSeconds`, from `HPRTCMR` and `HPRTCLR`. -/
def snvsHpRtcGetSeconds (c : Call) (fuel : Nat) : Option (Nat × Nat) :=
  loop (secondsRound c.sample) fuel (0, 0)

/-- `BBNSM_RTC_GetSeconds`, from `BBNSM_RTC_MS` and `BBNSM_RTC_LS`. -/
def bbnsmRtcGetSeconds (c : Call) (fuel : Nat) : Option (Nat × Nat) :=
  loop (secondsRound c.sample) fuel (0, 0)

/-- The value is the seconds of the counter at some instant of the call. -/
def Happened (c : Call) (seconds : Nat) : Prop :=
  ∃ t, c.start ≤ t ∧ t ≤ c.finish ∧ seconds = c.counter t / 2 ^ 15

/-- The counter passes from second 131071 to second 131072 between the first two reads. -/
def FirstCarry (c : Call) : Prop :=
  c.counter (c.readAt 0) < 2 ^ 32 ∧ 2 ^ 32 ≤ c.counter (c.readAt 1)

section Samples

lemma sampleOf_eq {high low : Nat} (hhigh : high < 2 ^ 15) (hlow : low < 2 ^ 32) :
    sampleOf high low = high * 2 ^ 17 + low / 2 ^ 15 := by
  have hshift : (high <<< 17) % 2 ^ 32 = high <<< 17 := by
    rw [Nat.shiftLeft_eq]
    exact Nat.mod_eq_of_lt (by omega)
  rw [sampleOf, hshift, ← Nat.shiftLeft_add_eq_or_of_lt, Nat.shiftLeft_eq, Nat.shiftRight_eq_div_pow]
  rw [Nat.shiftRight_eq_div_pow]
  omega

variable {c : Call} {round : Nat}

lemma Call.window (c : Call) {i : Nat} (hend : c.readAt i ≤ c.finish) :
    c.counter c.start ≤ c.counter (c.readAt i) ∧ c.counter (c.readAt i) < c.counter c.start + 2 ^ 15 := by
  have hstart : c.start ≤ c.readAt i := le_trans c.start_le (c.readAt_mono (Nat.zero_le i))
  exact ⟨c.counter_mono hstart, lt_of_le_of_lt (c.counter_mono hend) c.slow⟩

/-- A sample without a carry in between is the second of its later half. With one it is the second
of the carry without the carry. -/
lemma Call.sample_cases (c : Call) (round : Nat) (hend : c.readAt (2 * round + 1) ≤ c.finish) :
    (highHalf (c.counter (c.readAt (2 * round + 1))) = highHalf (c.counter (c.readAt (2 * round))) ∧
        c.sample round = c.counter (c.readAt (2 * round + 1)) / 2 ^ 15) ∨
      highHalf (c.counter (c.readAt (2 * round + 1))) = highHalf (c.counter (c.readAt (2 * round))) + 1 ∧
        c.sample round = highHalf (c.counter (c.readAt (2 * round))) * 2 ^ 17 := by
  have hfirst := c.counter_lt (c.readAt (2 * round))
  have horder : c.readAt (2 * round) ≤ c.readAt (2 * round + 1) := c.readAt_mono (Nat.le_succ _)
  have hle := c.counter_mono horder
  have hwindow := c.window (le_trans horder hend)
  have hwindow' := c.window hend
  unfold sample highHalf lowHalf
  rw [sampleOf_eq (by omega) (by omega)]
  omega

end Samples

section Rounds

/-- The last sample is the value, and the one before it too, or the initial value. -/
lemma secondsRound_result {sample : Nat → Nat} {fuel round tmp seconds rounds : Nat}
    (h : loop (secondsRound sample) fuel (round, tmp) = some (seconds, rounds)) :
    round < rounds ∧ sample (rounds - 1) = seconds ∧
      (rounds = round + 1 ∧ seconds = tmp ∨ round + 1 < rounds ∧ sample (rounds - 2) = seconds) := by
  induction fuel generalizing round tmp with
  | zero => nomatch h
  | succ fuel ih =>
    rw [loop] at h
    by_cases hsame : sample round = tmp
    · have hround : secondsRound sample (round, tmp) = .inr (tmp, round + 1) := if_neg (not_not.mpr hsame)
      rw [hround] at h
      obtain ⟨rfl, rfl⟩ := Prod.mk.inj (Option.some.inj h)
      exact ⟨Nat.lt_succ_self round, hsame, Or.inl ⟨rfl, rfl⟩⟩
    · have hround : secondsRound sample (round, tmp) = .inl (round + 1, sample round) := if_pos hsame
      rw [hround] at h
      obtain ⟨hlt, hlast, hbefore⟩ := ih h
      refine ⟨Nat.lt_of_succ_lt hlt, hlast, Or.inr ⟨hlt, ?_⟩⟩
      rcases hbefore with ⟨rfl, hvalue⟩ | ⟨-, hvalue⟩
      · exact hvalue.symm
      · exact hvalue

variable {c : Call} {fuel seconds rounds : Nat}

/-- Only a carry in the first sample goes unnoticed. -/
lemma happened_of_not_firstCarry (h : loop (secondsRound c.sample) fuel (0, 0) = some (seconds, rounds))
    (hend : c.readAt (2 * rounds - 1) ≤ c.finish) (hno : ¬ FirstCarry c) : Happened c seconds := by
  obtain ⟨hpos, hlast, hbefore⟩ := secondsRound_result h
  obtain ⟨n, rfl⟩ : ∃ n, rounds = n + 1 := ⟨rounds - 1, by omega⟩
  have hread : c.readAt (2 * n + 1) ≤ c.finish := hend
  rw [Nat.add_sub_cancel] at hlast
  rcases c.sample_cases n hread with ⟨-, hwhole⟩ | ⟨hcarry, htorn⟩
  · refine ⟨c.readAt (2 * n + 1), le_trans c.start_le (c.readAt_mono (Nat.zero_le _)), hread, ?_⟩
    rw [← hlast, hwhole]
  · exfalso
    have horder : c.readAt (2 * n) ≤ c.readAt (2 * n + 1) := c.readAt_mono (Nat.le_succ _)
    have hwindow := c.window hread
    have hmono := c.counter_mono horder
    unfold highHalf at hcarry htorn
    rcases hbefore with ⟨hfirst, hzero⟩ | ⟨hmore, hsame⟩
    · -- the first sample is 0, as the initial value
      obtain rfl : n = 0 := by omega
      apply hno
      simp only [Nat.mul_zero, Nat.zero_add] at hcarry htorn
      constructor
      · omega
      · omega
    · -- the sample before lies in the second before the carry
      obtain ⟨m, rfl⟩ : ∃ m, n = m + 1 := ⟨n - 1, by omega⟩
      have hprevious : c.sample m = seconds := hsame
      have hread' : c.readAt (2 * m + 1) ≤ c.readAt (2 * (m + 1)) := c.readAt_mono (by omega)
      have hlate := c.counter_mono hread'
      have hend' : c.readAt (2 * m + 1) ≤ c.finish := le_trans hread' (le_trans horder hread)
      have hwindow' := c.window hend'
      rcases c.sample_cases m hend' with ⟨-, hwhole⟩ | ⟨hcarry', htorn'⟩
      · omega
      · unfold highHalf at hcarry' htorn'
        omega

/-- A carry in the first sample makes it 0. -/
lemma not_happened_of_firstCarry (h : loop (secondsRound c.sample) fuel (0, 0) = some (seconds, rounds))
    (hend : c.readAt (2 * rounds - 1) ≤ c.finish) (hcarry : FirstCarry c) : ¬ Happened c seconds := by
  obtain ⟨hlow, hhigh⟩ := hcarry
  obtain ⟨hpos, -, -⟩ := secondsRound_result h
  have hread : c.readAt (2 * 0 + 1) ≤ c.finish := le_trans (c.readAt_mono (by omega)) hend
  have hwindow := c.window hread
  have hzero : c.sample 0 = 0 := by
    rcases c.sample_cases 0 hread with ⟨hsame, -⟩ | ⟨-, htorn⟩
    · simp only [Nat.mul_zero, Nat.zero_add, highHalf] at hsame
      omega
    · rw [htorn, Nat.mul_zero, highHalf, Nat.div_eq_of_lt hlow, Nat.zero_mul]
  have hseconds : seconds = 0 := by
    cases fuel with
    | zero => nomatch h
    | succ fuel =>
      have hround : secondsRound c.sample (0, 0) = .inr (0, 1) := if_neg (not_not.mpr hzero)
      rw [loop, hround] at h
      exact (Prod.mk.inj (Option.some.inj h)).1.symm
  rintro ⟨t, hstart, -, hvalue⟩
  have hcounter := c.counter_mono hstart
  simp only [Nat.mul_zero, Nat.zero_add] at hwindow
  omega

lemma Call.sample_eq (c : Call) {round second : Nat} (hend : c.readAt (2 * round + 1) ≤ c.finish)
    (hfirst : c.counter (c.readAt (2 * round)) / 2 ^ 15 = second)
    (hsecond : c.counter (c.readAt (2 * round + 1)) / 2 ^ 15 = second) : c.sample round = second := by
  rcases c.sample_cases round hend with ⟨-, hwhole⟩ | ⟨hcarry, -⟩
  · rw [hwhole, hsecond]
  · unfold highHalf at hcarry
    omega

/-- The second changes at most once, so one of these pairs of samples agrees. -/
lemma Call.samples_agree (c : Call) (hend : c.readAt 7 ≤ c.finish) :
    c.sample 1 = c.sample 0 ∨ c.sample 3 = c.sample 2 := by
  have hread (i : Nat) (hi : i ≤ 7) : c.readAt i ≤ c.finish := le_trans (c.readAt_mono hi) hend
  have hmono (i j : Nat) (hij : i ≤ j) : c.counter (c.readAt i) ≤ c.counter (c.readAt j) :=
    c.counter_mono (c.readAt_mono hij)
  by_cases hearly : c.counter (c.readAt 3) / 2 ^ 15 = c.counter c.start / 2 ^ 15
  · have hsecond (i : Nat) (hi : i ≤ 3) : c.counter (c.readAt i) / 2 ^ 15 = c.counter c.start / 2 ^ 15 := by
      have hwindow := c.window (hread i (by omega))
      have hle := hmono i 3 hi
      omega
    left
    rw [c.sample_eq (hread 3 (by decide)) (hsecond 2 (by decide)) (hsecond 3 (by decide)),
      c.sample_eq (hread 1 (by decide)) (hsecond 0 (by decide)) (hsecond 1 (by decide))]
  · have hthird := c.window (hread 3 (by decide))
    have hsecond (i : Nat) (hi : 3 ≤ i) (hi' : i ≤ 7) :
        c.counter (c.readAt i) / 2 ^ 15 = c.counter c.start / 2 ^ 15 + 1 := by
      have hwindow := c.window (hread i hi')
      have hle := hmono 3 i hi
      omega
    right
    rw [c.sample_eq (hread 7 (by decide)) (hsecond 6 (by decide) (by decide)) (hsecond 7 (by decide) (by decide)),
      c.sample_eq (hread 5 (by decide)) (hsecond 4 (by decide) (by decide)) (hsecond 5 (by decide) (by decide))]

end Rounds

/-- When the value that is read is one that the counter had. -/
theorem getSeconds_happened_iff (c : Call) (fuel seconds rounds : Nat) (hend : c.readAt (2 * rounds - 1) ≤ c.finish) :
    (snvsHpRtcGetSeconds c fuel = some (seconds, rounds) → (Happened c seconds ↔ ¬ FirstCarry c)) ∧
      (bbnsmRtcGetSeconds c fuel = some (seconds, rounds) → (Happened c seconds ↔ ¬ FirstCarry c)) := by
  have hiff (h : loop (secondsRound c.sample) fuel (0, 0) = some (seconds, rounds)) :
      Happened c seconds ↔ ¬ FirstCarry c := by
    constructor
    · intro hhappened hcarry
      exact not_happened_of_firstCarry h hend hcarry hhappened
    · exact happened_of_not_firstCarry h hend
  exact ⟨hiff, hiff⟩

/-- A counter that advances by one tick, right after the first read. -/
def tickCall (counter : Nat) (hlt : counter + 1 < 2 ^ 47) : Call where
  counter t := counter + min t 1
  readAt := id
  start := 0
  finish := 4
  counter_mono a b hle := by
    show counter + min a 1 ≤ counter + min b 1
    omega
  counter_lt t := by
    show counter + min t 1 < 2 ^ 47
    omega
  readAt_mono := monotone_id
  start_le := le_refl 0
  slow := by
    show counter + 1 < counter + 0 + 2 ^ 15
    omega

theorem getSeconds_happened_five : Happened (tickCall 163840 (by decide)) 5 :=
  ((getSeconds_happened_iff (tickCall 163840 (by decide)) 2 5 2 (by decide)).1 (by decide)).mpr (by
    rintro ⟨-, hhigh⟩
    exact absurd hhigh (by decide))

/-- The tick after 0xFFFFFFFF comes between the two halves: the call returns 0. -/
theorem not_getSeconds_happened : ¬ ∀ (c : Call) (fuel seconds rounds : Nat), c.readAt (2 * rounds - 1) ≤ c.finish →
    snvsHpRtcGetSeconds c fuel = some (seconds, rounds) → Happened c seconds := by
  intro h
  obtain ⟨t, -, -, hvalue⟩ := h (tickCall 0xFFFFFFFF (by decide)) 1 0 1 (by decide) (by decide)
  have hcounter : 0 = (0xFFFFFFFF + min t 1) / 2 ^ 15 := hvalue
  omega

/-- Four rounds are enough, when the counter does not come far in them. -/
theorem getSeconds_returns (c : Call) (hend : c.readAt 7 ≤ c.finish) :
    ∃ seconds rounds, snvsHpRtcGetSeconds c 4 = some (seconds, rounds) ∧ rounds ≤ 4 := by
  have hround (round tmp : Nat) : secondsRound c.sample (round, tmp) =
      if c.sample round ≠ tmp then .inl (round + 1, c.sample round) else .inr (tmp, round + 1) := rfl
  unfold snvsHpRtcGetSeconds
  by_cases hzero : c.sample 0 = 0
  · exact ⟨0, 1, by simp [loop, hround, hzero], by decide⟩
  · by_cases hone : c.sample 1 = c.sample 0
    · exact ⟨c.sample 0, 2, by simp [loop, hround, hzero, hone], by decide⟩
    · have hthree := (c.samples_agree hend).resolve_left hone
      by_cases htwo : c.sample 2 = c.sample 1
      · exact ⟨c.sample 1, 3, by simp [loop, hround, hzero, hone, htwo], by decide⟩
      · exact ⟨c.sample 2, 4, by simp [loop, hround, hzero, hone, htwo, hthree], by decide⟩

end McuxDrivers.SnvsHp
