import Mathlib.Data.Prod.Lex
import Mathlib.Order.Monotone.Basic

/-!
# The Gregorian calendar

Moments of the calendar in seconds since the beginning of a year. The seconds increase with the moments,
so they determine them.
-/

namespace McuxDrivers.Lib

def isLeap (year : Nat) : Bool :=
  year % 4 = 0 && (year % 100 ≠ 0 || year % 400 = 0)

def yearLength (year : Nat) : Nat :=
  if isLeap year then 366 else 365

def monthLength (leap : Bool) : Nat → Nat
  | 2 => if leap then 29 else 28
  | 4 | 6 | 9 | 11 => 30
  | 1 | 3 | 5 | 7 | 8 | 10 | 12 => 31
  | _ => 0

/-- The days of the year before a month. -/
def daysBeforeMonth (leap : Bool) : Nat → Nat
  | 0 => 0
  | month + 1 => daysBeforeMonth leap month + monthLength leap month

/-- The days of `n` years. -/
def daysOfYears (epoch : Nat) : Nat → Nat
  | 0 => 0
  | n + 1 => daysOfYears epoch n + yearLength (epoch + n)

/-- A date and a time of day. -/
structure Moment where
  year : Nat
  month : Nat
  day : Nat
  hour : Nat
  minute : Nat
  second : Nat
  deriving DecidableEq, Repr

namespace Moment

/-- A moment of the calendar, not before the year `epoch`. -/
structure Valid (epoch : Nat) (m : Moment) : Prop where
  year_ge : epoch ≤ m.year
  month_pos : 0 < m.month
  month_le : m.month ≤ 12
  day_pos : 0 < m.day
  day_le : m.day ≤ monthLength (isLeap m.year) m.month
  hour_lt : m.hour < 24
  minute_lt : m.minute < 60
  second_lt : m.second < 60

/-- The days since the beginning of the year. -/
def dayOfYear (m : Moment) : Nat :=
  daysBeforeMonth (isLeap m.year) m.month + (m.day - 1)

def secondOfDay (m : Moment) : Nat :=
  m.hour * 3600 + m.minute * 60 + m.second

/-- The seconds since the beginning of the year `epoch`. -/
def seconds (epoch : Nat) (m : Moment) : Nat :=
  (daysOfYears epoch (m.year - epoch) + m.dayOfYear) * 86400 + m.secondOfDay

/-- The parts of a moment from the year on. -/
def key (m : Moment) : Nat ×ₗ Nat ×ₗ Nat ×ₗ Nat ×ₗ Nat ×ₗ Nat :=
  toLex (m.year, toLex (m.month, toLex (m.day, toLex (m.hour, toLex (m.minute, m.second)))))

/-- The chronological order. -/
def Before (m m' : Moment) : Prop :=
  m.key < m'.key

end Moment

section Days

lemma daysBeforeMonth_mono (leap : Bool) : Monotone (daysBeforeMonth leap) :=
  monotone_nat_of_le_succ fun month => Nat.le_add_right _ (monthLength leap month)

lemma monthLength_le (leap : Bool) (month : Nat) : monthLength leap month ≤ 31 := by
  unfold monthLength
  cases leap <;> split <;> decide

lemma daysOfYears_mono (epoch : Nat) : Monotone (daysOfYears epoch) :=
  monotone_nat_of_le_succ fun n => Nat.le_add_right _ (yearLength (epoch + n))

lemma daysBeforeMonth_year (year : Nat) : daysBeforeMonth (isLeap year) 13 = yearLength year := by
  unfold yearLength
  cases isLeap year <;> rfl

end Days

namespace Moment

variable {epoch : Nat} {m m' : Moment}

lemma Valid.dayOfYear_lt (h : m.Valid epoch) : m.dayOfYear < yearLength m.year := by
  have hmonth : daysBeforeMonth (isLeap m.year) (m.month + 1) ≤ daysBeforeMonth (isLeap m.year) 13 :=
    daysBeforeMonth_mono _ (Nat.succ_le_succ h.month_le)
  have hpos := h.day_pos
  have hle := h.day_le
  rw [daysBeforeMonth, daysBeforeMonth_year] at hmonth
  rw [dayOfYear]
  omega

lemma Valid.secondOfDay_lt (h : m.Valid epoch) : m.secondOfDay < 86400 := by
  have hhour := h.hour_lt
  have hminute := h.minute_lt
  have hsecond := h.second_lt
  rw [secondOfDay]
  omega

lemma Valid.seconds_lt (h : m.Valid epoch) : m.seconds epoch < daysOfYears epoch (m.year - epoch + 1) * 86400 := by
  have hday := h.dayOfYear_lt
  have hsecond := h.secondOfDay_lt
  have hyear : epoch + (m.year - epoch) = m.year := Nat.add_sub_cancel' h.year_ge
  rw [seconds, daysOfYears, hyear]
  omega

lemma key_injective : Function.Injective key := by
  intro m m' h
  cases m
  cases m'
  simpa [key] using h

lemma Valid.dayOfYear_lt_of_lt (h : m.Valid epoch) (hyear : m.year = m'.year)
    (hlt : m.month < m'.month ∨ m.month = m'.month ∧ m.day < m'.day) : m.dayOfYear < m'.dayOfYear := by
  have hpos := h.day_pos
  have hle := h.day_le
  rw [dayOfYear, dayOfYear, ← hyear]
  rcases hlt with hmonth | ⟨hmonth, hday⟩
  · have hbefore : daysBeforeMonth (isLeap m.year) (m.month + 1) ≤ daysBeforeMonth (isLeap m.year) m'.month :=
      daysBeforeMonth_mono _ hmonth
    rw [daysBeforeMonth] at hbefore
    omega
  · rw [hmonth]
    omega

/-- The seconds increase with the moments. -/
theorem Valid.seconds_lt_of_before (h : m.Valid epoch) (hbefore : m.Before m') :
    m.seconds epoch < m'.seconds epoch := by
  rw [Before, key, key] at hbefore
  simp only [Prod.Lex.toLex_lt_toLex] at hbefore
  rcases hbefore with hyear | ⟨hyear, hbefore⟩
  · have hpast : daysOfYears epoch (m.year - epoch + 1) ≤ daysOfYears epoch (m'.year - epoch) := by
      apply daysOfYears_mono
      have := h.year_ge
      omega
    have hlt := h.seconds_lt
    have hdays : daysOfYears epoch (m.year - epoch + 1) * 86400 ≤ daysOfYears epoch (m'.year - epoch) * 86400 :=
      Nat.mul_le_mul_right 86400 hpast
    refine lt_of_lt_of_le hlt (le_trans hdays ?_)
    rw [seconds, Nat.add_mul, Nat.add_assoc]
    exact Nat.le_add_right _ _
  · have hsecond := h.secondOfDay_lt
    have hday : m.dayOfYear < m'.dayOfYear ∨ m.dayOfYear = m'.dayOfYear ∧ m.secondOfDay < m'.secondOfDay := by
      rcases hbefore with hmonth | ⟨hmonth, hday | ⟨hday, htime⟩⟩
      · exact Or.inl (h.dayOfYear_lt_of_lt hyear (Or.inl hmonth))
      · exact Or.inl (h.dayOfYear_lt_of_lt hyear (Or.inr ⟨hmonth, hday⟩))
      · refine Or.inr ⟨by rw [dayOfYear, dayOfYear, hyear, hmonth, hday], ?_⟩
        have hminute := h.minute_lt
        have hsec := h.second_lt
        rw [secondOfDay, secondOfDay]
        omega
    rw [seconds, seconds, hyear]
    omega

/-- The seconds determine the moment. -/
theorem Valid.eq_of_seconds (h : m.Valid epoch) (h' : m'.Valid epoch) (heq : m.seconds epoch = m'.seconds epoch) :
    m = m' := by
  rcases lt_trichotomy m.key m'.key with hbefore | hsame | hafter
  · exact absurd heq (h.seconds_lt_of_before hbefore).ne
  · exact key_injective hsame
  · exact absurd heq (h'.seconds_lt_of_before hafter).ne'

end Moment

end McuxDrivers.Lib
