import McuxDrivers.Lib.Calendar
import McuxDrivers.Lib.Countdown

/-!
# Dates of the SNVS HP real-time counter

The checks and conversions of `fsl_snvs_hp.c`. The counter's seconds start in 1970 and the years end
with 2099, where every fourth year is a leap year.
-/

namespace McuxDrivers.SnvsHp
open McuxDrivers.Lib

def u8 (n : Nat) : Nat := n % 2 ^ 8
def u16 (n : Nat) : Nat := n % 2 ^ 16
def u32 (n : Nat) : Nat := n % 2 ^ 32

/-- `snvs_hp_rtc_datetime_t`. -/
abbrev Datetime := Moment

def kYearRangeStart : Nat := 1970
def kYearRangeEnd : Nat := 2099

/-- `daysPerMonth[]`, with February of a leap year or not. -/
def daysPerMonth (leap : Bool) : List Nat :=
  [0, 31, if leap then 29 else 28, 31, 30, 31, 30, 31, 31, 30, 31, 30, 31]

/-- `monthDays[]`. -/
def monthDays : List Nat :=
  [0, 0, 31, 59, 90, 120, 151, 181, 212, 243, 273, 304, 334]

/-- `SNVS_HP_CheckDatetimeFormat`. -/
def checkDatetimeFormat (datetime : Datetime) : Bool :=
  if datetime.year < kYearRangeStart ∨ datetime.year > kYearRangeEnd ∨ datetime.month > 12 ∨ datetime.month < 1 ∨
      datetime.hour ≥ 24 ∨ datetime.minute ≥ 60 ∨ datetime.second ≥ 60 then false
  else
    let leap := (datetime.year &&& 3 = 0 ∧ datetime.year % 100 ≠ 0) ∨ datetime.year % 400 = 0
    if datetime.day > (daysPerMonth leap).getD datetime.month 0 ∨ datetime.day < 1 then false else true

/-- `SNVS_HP_ConvertDatetimeToSeconds`. -/
def convertDatetimeToSeconds (datetime : Datetime) : Nat :=
  let seconds := u32 (wsub32 datetime.year 1970 * 365)
  let seconds := u32 (seconds + wsub32 (datetime.year / 4) (1970 / 4))
  let seconds := u32 (seconds + monthDays.getD datetime.month 0)
  let seconds := u32 (seconds + wsub32 datetime.day 1)
  let seconds := if datetime.year &&& 3 = 0 ∧ datetime.month ≤ 2 then wsub32 seconds 1 else seconds
  u32 (seconds * 86400 + datetime.hour * 3600 + datetime.minute * 60 + datetime.second)

/-- The loop over the years. Each round takes days away, so there are fewer than `days`. -/
def yearLoop : Nat → Nat → Nat → Nat → Nat × Nat
  | 0, days, _, year => (days, year)
  | rounds + 1, days, daysInYear, year =>
    if days > daysInYear then
      let year := u16 (year + 1)
      yearLoop rounds (days - daysInYear) (if year &&& 3 ≠ 0 then 365 else 366) year
    else (days, year)

/-- The loop over the months from `x` on; `month` stays when it does not find one. -/
def monthLoop (daysPerMonth : List Nat) : Nat → Nat → Nat → Nat → Nat × Nat
  | 0, _, days, month => (days, month)
  | rounds + 1, x, days, month =>
    if days ≤ daysPerMonth.getD x 0 then (days, u8 x)
    else monthLoop daysPerMonth rounds (x + 1) (days - daysPerMonth.getD x 0) month

/-- `SNVS_HP_ConvertSecondsToDatetime`. -/
def convertSecondsToDatetime (seconds : Nat) (datetime : Datetime) : Datetime :=
  let days := seconds / 86400 + 1
  let secondsRemaining := seconds % 86400
  let (days, year) := yearLoop days days 365 kYearRangeStart
  let (days, month) := monthLoop (daysPerMonth (year &&& 3 = 0)) 12 1 days datetime.month
  { year := year
    month := month
    day := u8 days
    hour := u8 (secondsRemaining / 3600)
    minute := u8 (secondsRemaining % 3600 / 60)
    second := u8 (secondsRemaining % 3600 % 60) }

section Years

lemma and_three (year : Nat) : year &&& 3 = year % 4 :=
  Nat.and_two_pow_sub_one_eq_mod year 2

/-- Until 2099 every fourth year is a leap year. -/
lemma isLeap_eq {year : Nat} (hge : kYearRangeStart ≤ year) (hle : year ≤ kYearRangeEnd) :
    isLeap year = decide (year &&& 3 = 0) := by
  unfold kYearRangeStart at hge
  unfold kYearRangeEnd at hle
  have hcentury : year % 4 = 0 → year % 100 ≠ 0 ∨ year % 400 = 0 := by omega
  rw [isLeap, and_three]
  by_cases hfour : year % 4 = 0
  · simp only [hfour, decide_true, Bool.true_and]
    simpa using hcentury hfour
  · simp [hfour]

lemma daysOfYears_eq {n : Nat} (hn : n ≤ 130) : daysOfYears kYearRangeStart n = 365 * n + ((1970 + n - 1) / 4 - 492) := by
  induction n with
  | zero => rfl
  | succ n ih =>
    have hle : kYearRangeStart + n ≤ kYearRangeEnd := by
      unfold kYearRangeStart kYearRangeEnd
      omega
    have hleap := isLeap_eq (Nat.le_add_right kYearRangeStart n) hle
    rw [daysOfYears, ih (by omega), yearLength, hleap, and_three]
    unfold kYearRangeStart
    by_cases hfour : (1970 + n) % 4 = 0
    · simp only [hfour, decide_true, if_true]
      omega
    · simp only [hfour, decide_false, Bool.false_eq_true, if_false]
      omega

end Years

section Checks

lemma daysPerMonth_getD (leap : Bool) {month : Nat} (hmonth : month ≤ 12) :
    (daysPerMonth leap).getD month 0 = monthLength leap month := by
  have htable : ∀ leap : Bool, ∀ j : Fin 13, (daysPerMonth leap).getD j.val 0 = monthLength leap j.val := by decide
  exact htable leap ⟨month, Nat.lt_succ_of_le hmonth⟩

/-- The table of the conversion is that of a common year. -/
lemma monthDays_getD (leap : Bool) {month : Nat} (hpos : 0 < month) (hmonth : month ≤ 12) :
    monthDays.getD month 0 + (if leap then 1 else 0) =
      daysBeforeMonth leap month + (if leap ∧ month ≤ 2 then 1 else 0) := by
  have htable : ∀ leap : Bool, ∀ j : Fin 13, 0 < j.val → monthDays.getD j.val 0 + (if leap then 1 else 0) =
      daysBeforeMonth leap j.val + (if leap ∧ j.val ≤ 2 then 1 else 0) := by decide
  exact htable leap ⟨month, Nat.lt_succ_of_le hmonth⟩ hpos

/-- The check accepts the moments of the calendar from 1970 to 2099. -/
theorem checkDatetimeFormat_iff (datetime : Datetime) :
    checkDatetimeFormat datetime = true ↔ datetime.Valid kYearRangeStart ∧ datetime.year ≤ kYearRangeEnd := by
  have hleap : (decide ((datetime.year &&& 3 = 0 ∧ datetime.year % 100 ≠ 0) ∨ datetime.year % 400 = 0)) = isLeap datetime.year := by
    rw [isLeap, and_three]
    have hfour : datetime.year % 400 = 0 → datetime.year % 4 = 0 := by omega
    by_cases h4 : datetime.year % 4 = 0
    · simp [h4]
    · have h400 : datetime.year % 400 ≠ 0 := fun h => h4 (hfour h)
      simp [h4, h400]
  unfold checkDatetimeFormat
  simp only [hleap]
  constructor
  · intro hcheck
    split at hcheck
    · nomatch hcheck
    next hfields =>
      have hmonth : datetime.month ≤ 12 := by omega
      rw [daysPerMonth_getD _ hmonth] at hcheck
      split at hcheck
      · nomatch hcheck
      · exact ⟨⟨by omega, by omega, hmonth, by omega, by omega, by omega, by omega, by omega⟩, by omega⟩
  · rintro ⟨h, hend⟩
    rw [if_neg, daysPerMonth_getD _ h.month_le, if_neg]
    · have := h.day_pos
      have := h.day_le
      omega
    · have := h.year_ge
      have := h.month_pos
      have := h.month_le
      have := h.hour_lt
      have := h.minute_lt
      have := h.second_lt
      omega

end Checks

section Conversions

variable {datetime : Datetime}

/-- The days of the conversion, before it takes the leap day of January and February back. -/
lemma dayCount_eq (h : datetime.Valid kYearRangeStart) (hend : datetime.year ≤ kYearRangeEnd) {n : Nat}
    (hn : datetime.year = kYearRangeStart + n) :
    n * 365 + (datetime.year / 4 - 492) + monthDays.getD datetime.month 0 + (datetime.day - 1) =
      daysOfYears kYearRangeStart n + datetime.dayOfYear +
        (if datetime.year &&& 3 = 0 ∧ datetime.month ≤ 2 then 1 else 0) := by
  have hn130 : n ≤ 130 := by
    unfold kYearRangeStart at hn
    unfold kYearRangeEnd at hend
    omega
  have hleap := isLeap_eq h.year_ge hend
  have hmonth := monthDays_getD (isLeap datetime.year) h.month_pos h.month_le
  have hpos := h.day_pos
  rw [hleap, and_three] at hmonth
  rw [daysOfYears_eq hn130, Moment.dayOfYear, hleap, and_three]
  unfold kYearRangeStart at hn
  by_cases hfour : datetime.year % 4 = 0
  · simp only [hfour, decide_true, if_true, true_and] at hmonth ⊢
    omega
  · simp only [hfour, decide_false, Bool.false_eq_true, if_false, false_and] at hmonth ⊢
    omega

lemma convertDatetimeToSeconds_eq (h : datetime.Valid kYearRangeStart) (hend : datetime.year ≤ kYearRangeEnd) :
    convertDatetimeToSeconds datetime = datetime.seconds kYearRangeStart := by
  obtain ⟨n, hn⟩ : ∃ n, datetime.year = kYearRangeStart + n := ⟨_, (Nat.add_sub_cancel' h.year_ge).symm⟩
  have hn130 : n ≤ 129 := by
    unfold kYearRangeStart at hn
    unfold kYearRangeEnd at hend
    omega
  have hyears := daysOfYears_eq (show n ≤ 130 by omega)
  have hday := h.dayOfYear_lt
  have htime := h.secondOfDay_lt
  have hdays := dayCount_eq h hend hn
  obtain ⟨md, hmd⟩ : ∃ md, md = monthDays.getD datetime.month 0 := ⟨_, rfl⟩
  rw [← hmd] at hdays
  have hyear : 1970 ≤ datetime.year := h.year_ge
  have hbound : daysOfYears kYearRangeStart n + datetime.dayOfYear ≤ 47482 := by
    have hlong : yearLength datetime.year ≤ 366 := by
      unfold yearLength
      split <;> decide
    omega
  have hcount : u32 (u32 (u32 (u32 (wsub32 datetime.year 1970 * 365) + wsub32 (datetime.year / 4) (1970 / 4)) + md) +
      wsub32 datetime.day 1) = n * 365 + (datetime.year / 4 - 492) + md + (datetime.day - 1) := by
    have hn' : datetime.year - 1970 = n := by
      rw [hn]
      exact Nat.add_sub_cancel_left 1970 n
    have hsum : n * 365 + (datetime.year / 4 - 492) + md + (datetime.day - 1) < 2 ^ 32 := by
      rw [hdays]
      split <;> omega
    rw [wsub32_of_le hyear, wsub32_of_le (Nat.div_le_div_right hyear), wsub32_of_le h.day_pos, hn']
    unfold u32
    omega
  have htotal : (if datetime.year &&& 3 = 0 ∧ datetime.month ≤ 2 then
        wsub32 (n * 365 + (datetime.year / 4 - 492) + md + (datetime.day - 1)) 1
      else n * 365 + (datetime.year / 4 - 492) + md + (datetime.day - 1)) =
      daysOfYears kYearRangeStart n + datetime.dayOfYear := by
    rw [hdays]
    split
    · rw [wsub32_of_le (Nat.le_add_left _ _), Nat.add_sub_cancel]
    · rfl
  have hlt : (daysOfYears kYearRangeStart n + datetime.dayOfYear) * 86400 + datetime.secondOfDay < 2 ^ 32 := by omega
  unfold convertDatetimeToSeconds
  dsimp only
  rw [← hmd, hcount, htotal, Moment.seconds, hn, Nat.add_sub_cancel_left]
  rw [Moment.secondOfDay] at hlt ⊢
  rw [Nat.add_assoc, Nat.add_assoc, ← Nat.add_assoc (datetime.hour * 3600)]
  exact Nat.mod_eq_of_lt hlt

lemma yearLoop_spec (rounds : Nat) {days n : Nat} (hpos : 0 < days) (hrounds : days ≤ rounds) (hn : n < 130)
    (hend : daysOfYears kYearRangeStart n + days ≤ daysOfYears kYearRangeStart 130) :
    ∃ days' n', yearLoop rounds days (yearLength (kYearRangeStart + n)) (kYearRangeStart + n) =
        (days', kYearRangeStart + n') ∧
      0 < days' ∧ days' ≤ yearLength (kYearRangeStart + n') ∧ n' < 130 ∧
      daysOfYears kYearRangeStart n' + days' = daysOfYears kYearRangeStart n + days := by
  induction rounds generalizing days n with
  | zero => exact absurd hrounds (Nat.not_le.mpr hpos)
  | succ rounds ih =>
    rw [yearLoop]
    split
    next hlong =>
      have hnext : daysOfYears kYearRangeStart (n + 1) =
          daysOfYears kYearRangeStart n + yearLength (kYearRangeStart + n) := rfl
      have hn' : n + 1 < 130 := by
        by_contra hlast
        have hall : n + 1 = 130 := by omega
        rw [hall] at hnext
        omega
      have hyear : u16 (kYearRangeStart + n + 1) = kYearRangeStart + (n + 1) := by
        unfold kYearRangeStart
        exact Nat.mod_eq_of_lt (by omega)
      have hlength : (if kYearRangeStart + (n + 1) &&& 3 ≠ 0 then 365 else 366) = yearLength (kYearRangeStart + (n + 1)) := by
        have hle : kYearRangeStart + (n + 1) ≤ kYearRangeEnd := by
          unfold kYearRangeStart kYearRangeEnd
          omega
        rw [yearLength, isLeap_eq (Nat.le_add_right _ _) hle]
        simp
      have hpositive : 0 < yearLength (kYearRangeStart + n) := by
        unfold yearLength
        split <;> decide
      dsimp only
      rw [hyear, hlength]
      obtain ⟨days', n', hloop, hpos', hle', hn'', hsum⟩ :=
        ih (show 0 < days - yearLength (kYearRangeStart + n) by omega) (by omega) hn' (by omega)
      exact ⟨days', n', hloop, hpos', hle', hn'', by omega⟩
    next hshort => exact ⟨days, n, rfl, hpos, Nat.le_of_not_lt hshort, hn, rfl⟩

lemma monthLoop_spec (leap : Bool) (month : Nat) (rounds : Nat) {x days : Nat} (hx : 0 < x) (hrounds : rounds + x = 13)
    (hpos : 0 < days) (hend : daysBeforeMonth leap x + days ≤ daysBeforeMonth leap 13) :
    ∃ days' month', monthLoop (daysPerMonth leap) rounds x days month = (days', month') ∧ 0 < month' ∧ month' ≤ 12 ∧
      0 < days' ∧ days' ≤ monthLength leap month' ∧
      daysBeforeMonth leap month' + days' = daysBeforeMonth leap x + days := by
  induction rounds generalizing x days with
  | zero =>
    rw [show x = 13 by omega] at hend
    omega
  | succ rounds ih =>
    rw [monthLoop, daysPerMonth_getD leap (by omega)]
    split
    next hshort =>
      refine ⟨days, u8 x, rfl, ?_⟩
      rw [show u8 x = x from Nat.mod_eq_of_lt (by omega)]
      exact ⟨hx, by omega, hpos, hshort, rfl⟩
    next hlong =>
      have hnext : daysBeforeMonth leap (x + 1) = daysBeforeMonth leap x + monthLength leap x := rfl
      obtain ⟨days', month', hloop, hpos', hle', hday, hfits, hsum⟩ :=
        ih (show 0 < x + 1 from Nat.succ_pos x) (by omega) (show 0 < days - monthLength leap x by omega) (by omega)
      exact ⟨days', month', hloop, hpos', hle', hday, hfits, by omega⟩

/-- The conversion to a date gives the moment of the calendar. -/
lemma convertSecondsToDatetime_spec {seconds : Nat} (hend : seconds < daysOfYears kYearRangeStart 130 * 86400)
    (old : Datetime) :
    ((convertSecondsToDatetime seconds old).Valid kYearRangeStart ∧
      (convertSecondsToDatetime seconds old).year ≤ kYearRangeEnd) ∧
      (convertSecondsToDatetime seconds old).seconds kYearRangeStart = seconds := by
  obtain ⟨days, n, hyears, hpos, hfits, hn, hsum⟩ := yearLoop_spec (seconds / 86400 + 1)
    (show 0 < seconds / 86400 + 1 by omega) (le_refl _) (show 0 < 130 by decide)
    (show daysOfYears kYearRangeStart 0 + (seconds / 86400 + 1) ≤ daysOfYears kYearRangeStart 130 by
      have hzero : daysOfYears kYearRangeStart 0 = 0 := rfl
      omega)
  have hyear : kYearRangeStart + n ≤ kYearRangeEnd := by
    unfold kYearRangeStart kYearRangeEnd
    omega
  have hleap := isLeap_eq (Nat.le_add_right kYearRangeStart n) hyear
  have hzero : daysOfYears kYearRangeStart 0 = 0 := rfl
  have hjanuary : daysBeforeMonth (isLeap (kYearRangeStart + n)) 1 = 0 := rfl
  have hwhole := daysBeforeMonth_year (kYearRangeStart + n)
  obtain ⟨day, month, hmonths, hmonth, hmonth', hday, hday', htotal⟩ := monthLoop_spec (isLeap (kYearRangeStart + n))
    old.month 12 (show 0 < 1 by decide) rfl hpos (by omega)
  have hdays : yearLoop (seconds / 86400 + 1) (seconds / 86400 + 1) 365 kYearRangeStart = (days, kYearRangeStart + n) := hyears
  have hbyte : u8 day = day := by
    have hlong := monthLength_le (isLeap (kYearRangeStart + n)) month
    exact Nat.mod_eq_of_lt (by omega)
  have hresult : convertSecondsToDatetime seconds old =
      { year := kYearRangeStart + n
        month := month
        day := day
        hour := seconds % 86400 / 3600
        minute := seconds % 86400 % 3600 / 60
        second := seconds % 86400 % 3600 % 60 } := by
    have hhour : u8 (seconds % 86400 / 3600) = seconds % 86400 / 3600 := Nat.mod_eq_of_lt (by omega)
    have hminute : u8 (seconds % 86400 % 3600 / 60) = seconds % 86400 % 3600 / 60 := Nat.mod_eq_of_lt (by omega)
    have hsecond : u8 (seconds % 86400 % 3600 % 60) = seconds % 86400 % 3600 % 60 := Nat.mod_eq_of_lt (by omega)
    unfold convertSecondsToDatetime
    simp only [hdays, ← hleap, hmonths, hbyte, hhour, hminute, hsecond]
  rw [hresult]
  refine ⟨⟨⟨Nat.le_add_right _ n, hmonth, hmonth', hday, hday', ?_, ?_, ?_⟩, hyear⟩, ?_⟩
  · show seconds % 86400 / 3600 < 24
    omega
  · show seconds % 86400 % 3600 / 60 < 60
    omega
  · show seconds % 86400 % 3600 % 60 < 60
    omega
  · show (daysOfYears kYearRangeStart (kYearRangeStart + n - kYearRangeStart) +
        (daysBeforeMonth (isLeap (kYearRangeStart + n)) month + (day - 1))) * 86400 +
      (seconds % 86400 / 3600 * 3600 + seconds % 86400 % 3600 / 60 * 60 + seconds % 86400 % 3600 % 60) = seconds
    rw [Nat.add_sub_cancel_left]
    have hnumber : daysOfYears kYearRangeStart n + (daysBeforeMonth (isLeap (kYearRangeStart + n)) month + (day - 1)) =
        seconds / 86400 := by omega
    rw [hnumber]
    omega

end Conversions

/-- The conversions are those of the calendar, and undo each other. -/
theorem datetime_roundtrip :
    (∀ datetime : Datetime, checkDatetimeFormat datetime = true →
      convertDatetimeToSeconds datetime = datetime.seconds 1970 ∧ datetime.seconds 1970 < 2 ^ 32 ∧
        ∀ old, convertSecondsToDatetime (convertDatetimeToSeconds datetime) old = datetime) ∧
    (∀ datetime datetime' : Datetime, checkDatetimeFormat datetime = true → checkDatetimeFormat datetime' = true →
      datetime.Before datetime' → convertDatetimeToSeconds datetime < convertDatetimeToSeconds datetime') ∧
    ∀ (seconds : Nat) (old : Datetime), seconds < Moment.seconds 1970 ⟨2100, 1, 1, 0, 0, 0⟩ →
      checkDatetimeFormat (convertSecondsToDatetime seconds old) = true ∧
        convertDatetimeToSeconds (convertSecondsToDatetime seconds old) = seconds := by
  have hend : daysOfYears kYearRangeStart 130 * 86400 = 4102444800 := by rw [daysOfYears_eq (le_refl 130)]
  have hlimit : Moment.seconds 1970 ⟨2100, 1, 1, 0, 0, 0⟩ = daysOfYears kYearRangeStart 130 * 86400 := by
    have hday : (⟨2100, 1, 1, 0, 0, 0⟩ : Moment).dayOfYear = 0 := rfl
    have htime : (⟨2100, 1, 1, 0, 0, 0⟩ : Moment).secondOfDay = 0 := rfl
    simp only [Moment.seconds, hday, htime, Nat.add_zero, kYearRangeStart, Nat.reduceSub]
  refine ⟨fun datetime hcheck => ?_, fun datetime datetime' hcheck hcheck' hbefore => ?_, fun seconds old hlt => ?_⟩
  · obtain ⟨hvalid, hyear⟩ := (checkDatetimeFormat_iff datetime).mp hcheck
    have hseconds := convertDatetimeToSeconds_eq hvalid hyear
    have hlt : datetime.seconds kYearRangeStart < daysOfYears kYearRangeStart 130 * 86400 := by
      have hnext : daysOfYears kYearRangeStart (datetime.year - kYearRangeStart + 1) ≤ daysOfYears kYearRangeStart 130 := by
        apply daysOfYears_mono
        unfold kYearRangeStart
        unfold kYearRangeEnd at hyear
        omega
      exact lt_of_lt_of_le hvalid.seconds_lt (Nat.mul_le_mul_right 86400 hnext)
    refine ⟨hseconds, ?_, fun old => ?_⟩
    · rw [hend] at hlt
      exact lt_trans hlt (by decide)
    · obtain ⟨⟨hresult, -⟩, hsame⟩ := convertSecondsToDatetime_spec hlt old
      rw [hseconds]
      exact hresult.eq_of_seconds hvalid hsame
  · obtain ⟨hvalid, hyear⟩ := (checkDatetimeFormat_iff datetime).mp hcheck
    obtain ⟨hvalid', hyear'⟩ := (checkDatetimeFormat_iff datetime').mp hcheck'
    rw [convertDatetimeToSeconds_eq hvalid hyear, convertDatetimeToSeconds_eq hvalid' hyear']
    exact hvalid.seconds_lt_of_before hbefore
  · rw [hlimit] at hlt
    obtain ⟨⟨hvalid, hyear⟩, hsame⟩ := convertSecondsToDatetime_spec hlt old
    refine ⟨(checkDatetimeFormat_iff _).mpr ⟨hvalid, hyear⟩, ?_⟩
    rw [convertDatetimeToSeconds_eq hvalid hyear, hsame]

end McuxDrivers.SnvsHp
