import McuxDrivers.SnvsHp.Datetime

/-!
# Setting the SNVS HP real-time counter

`SNVS_HP_RTC_SetDatetime` stops the counter before it checks the date, and a date that is refused leaves it
stopped. `SNVS_HP_RTC_SetAlarm` checks first.
-/

namespace McuxDrivers.SnvsHp

inductive Status
  | success
  | invalidArgument
  | fail
  deriving DecidableEq, Repr

/-- `HPCR`. -/
structure Hpcr where
  rtcEn : Bool
  hptaEn : Bool
  other : Nat
  deriving DecidableEq, Repr

/-- The registers of the real-time counter, without the ticks of the counter. -/
structure Regs where
  hpcr : Hpcr
  hprtcmr : Nat
  hprtclr : Nat
  hptamr : Nat
  hptalr : Nat
  deriving DecidableEq, Repr

/-- `SNVS_HP_RTC_StartTimer`, until the counter runs. -/
def rtcStartTimer (r : Regs) : Regs :=
  { r with hpcr := { r.hpcr with rtcEn := true } }

/-- `SNVS_HP_RTC_StopTimer`, until the counter has stopped. -/
def rtcStopTimer (r : Regs) : Regs :=
  { r with hpcr := { r.hpcr with rtcEn := false } }

/-- `SNVS_HP_RTC_SetDatetime`. -/
def rtcSetDatetime (datetime : Datetime) (r : Regs) : Regs × Status :=
  let tmp := r.hpcr
  let r := rtcStopTimer r
  if !checkDatetimeFormat datetime then (r, .invalidArgument)
  else
    let seconds := convertDatetimeToSeconds datetime
    let r := { r with hprtcmr := seconds >>> 17, hprtclr := u32 (seconds <<< 15) }
    let r := if tmp.rtcEn then rtcStartTimer r else r
    (r, .success)

/-- `SNVS_HP_RTC_SetAlarm`; `currSeconds` is what `SNVS_HP_RTC_GetSeconds` returns. -/
def rtcSetAlarm (currSeconds : Nat) (alarmTime : Datetime) (r : Regs) : Regs × Status :=
  let tmp := r.hpcr
  if !checkDatetimeFormat alarmTime then (r, .invalidArgument)
  else
    let alarmSeconds := convertDatetimeToSeconds alarmTime
    if alarmSeconds < currSeconds then (r, .fail)
    else
      let r := { r with hpcr := { r.hpcr with hptaEn := false } }
      let r := { r with hptamr := alarmSeconds >>> 17, hptalr := u32 (alarmSeconds <<< 15) }
      ({ r with hpcr := tmp }, .success)

/-- A setting that is refused changes nothing, and one that is accepted keeps the counter running or stopped. -/
structure Atomic (r : Regs) (datetime : Datetime) (currSeconds : Nat) : Prop where
  setDatetime : (rtcSetDatetime datetime r).2 ≠ .success → (rtcSetDatetime datetime r).1 = r
  setAlarm : (rtcSetAlarm currSeconds datetime r).2 ≠ .success → (rtcSetAlarm currSeconds datetime r).1 = r
  enabled : (rtcSetDatetime datetime r).2 = .success → (rtcSetDatetime datetime r).1.hpcr.rtcEn = r.hpcr.rtcEn

section Settings

variable {datetime : Datetime}

lemma rtcSetDatetime_refused (hcheck : checkDatetimeFormat datetime = false) (r : Regs) :
    rtcSetDatetime datetime r = (rtcStopTimer r, .invalidArgument) := by
  rw [rtcSetDatetime, hcheck]
  rfl

lemma rtcSetDatetime_accepted (hcheck : checkDatetimeFormat datetime = true) (r : Regs) :
    (rtcSetDatetime datetime r).2 = .success ∧ (rtcSetDatetime datetime r).1.hpcr = r.hpcr := by
  rw [rtcSetDatetime, hcheck]
  cases hrtc : r.hpcr.rtcEn with
  | false =>
    refine ⟨rfl, ?_⟩
    show { r.hpcr with rtcEn := false } = r.hpcr
    rw [← hrtc]
  | true =>
    refine ⟨rfl, ?_⟩
    show { r.hpcr with rtcEn := true } = r.hpcr
    rw [← hrtc]

lemma rtcSetAlarm_refused {currSeconds : Nat} {r : Regs} (h : (rtcSetAlarm currSeconds datetime r).2 ≠ .success) :
    (rtcSetAlarm currSeconds datetime r).1 = r := by
  cases hcheck : checkDatetimeFormat datetime with
  | false => simp [rtcSetAlarm, hcheck]
  | true =>
    by_cases hlate : convertDatetimeToSeconds datetime < currSeconds
    · simp [rtcSetAlarm, hcheck, hlate]
    · exact absurd (by simp [rtcSetAlarm, hcheck, hlate]) h

/-- A counter that is stopped already. -/
lemma rtcStopTimer_eq_iff (r : Regs) : rtcStopTimer r = r ↔ r.hpcr.rtcEn = false := by
  constructor
  · intro h
    rw [← h]
    rfl
  · intro h
    rw [rtcStopTimer, ← h]

end Settings

/-- A date that is refused stops a running counter. -/
theorem rtc_atomic_iff (r : Regs) (datetime : Datetime) (currSeconds : Nat) :
    Atomic r datetime currSeconds ↔ checkDatetimeFormat datetime = true ∨ r.hpcr.rtcEn = false := by
  cases hcheck : checkDatetimeFormat datetime with
  | false =>
    have hrefused := rtcSetDatetime_refused hcheck r
    constructor
    · intro h
      have hsame := h.setDatetime (by rw [hrefused]; nofun)
      rw [hrefused] at hsame
      exact Or.inr ((rtcStopTimer_eq_iff r).mp hsame)
    · rintro (h | h)
      · nomatch h
      · refine ⟨fun _ => ?_, rtcSetAlarm_refused, fun hsuccess => ?_⟩
        · rw [hrefused]
          exact (rtcStopTimer_eq_iff r).mpr h
        · rw [hrefused] at hsuccess
          nomatch hsuccess
  | true =>
    obtain ⟨hsuccess, hhpcr⟩ := rtcSetDatetime_accepted hcheck r
    refine iff_of_true ⟨fun h => absurd hsuccess h, rtcSetAlarm_refused, fun _ => by rw [hhpcr]⟩ (Or.inl rfl)

/-- A running counter, and a month that does not exist. -/
theorem not_rtc_atomic : ¬ ∀ (r : Regs) (datetime : Datetime) (currSeconds : Nat), Atomic r datetime currSeconds := by
  intro h
  have hatomic := h ⟨⟨true, false, 0⟩, 0, 0, 0, 0⟩ ⟨2024, 13, 1, 0, 0, 0⟩ 0
  exact absurd (hatomic.setDatetime (by decide)) (by decide)

end McuxDrivers.SnvsHp
