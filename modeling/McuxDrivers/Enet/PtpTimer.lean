import McuxDrivers.Lib.Runs
import Mathlib.Data.Nat.ModEq

/-!
# The PTP clock of the ENET driver

`ENET_Ptp1588GetTimer`, `ENET_Ptp1588SetTimer` and `ENET_TimeStampIRQHandler` of `fsl_enet.c`. The nanoseconds are counted
by the 1588 timer, which raises the event TS_TIMER when it wraps; the seconds are counted by the interrupt handler. Time
passes between any two register accesses. The `clock` of the state is the abstract clock: the last value that was set
plus the time since then.
-/

namespace McuxDrivers.Enet
open McuxDrivers.Lib

/-- `ENET_NANOSECOND_ONE_SECOND`. -/
def oneSecond : Nat := 1000000000

/-- `enet_ptp_time_t`. -/
structure PtpTime where
  second : Nat
  nanosecond : Nat
deriving DecidableEq

/-- The nanoseconds of a time. -/
def PtpTime.total (time : PtpTime) : Nat :=
  time.second * oneSecond + time.nanosecond

/-- The value of a clock that counts nanoseconds, with 64 bits for the seconds. -/
def ptpTime (clock : Nat) : PtpTime :=
  { second := clock / oneSecond % 2 ^ 64, nanosecond := clock % oneSecond }

structure PtpTimer where
  /-- The 1588 timer. -/
  atvr : Nat
  /-- The bit TS_TIMER of EIR. -/
  tsTimer : Bool
  msTimerSecond : Nat
  /-- The time since the wrap that raised TS_TIMER. -/
  latency : Nat
  clock : Nat
  /-- What `ENET_Ptp1588GetTimer` has returned since the clock was last set. -/
  reads : List PtpTime

namespace PtpTimer

/-- Time passes. -/
def tick (n : Nat) (s : PtpTimer) : PtpTimer :=
  { s with
    atvr := (s.atvr + n) % oneSecond
    tsTimer := s.tsTimer || decide (oneSecond ≤ s.atvr + n)
    latency := if s.tsTimer then s.latency + n else s.atvr + n - oneSecond
    clock := s.clock + n }

/-- `ENET_Ptp1588GetTimer`, with the times before the seconds are read, before the nanoseconds are captured, before EIR is
read, and after that. -/
def getTimer (t₀ t₁ t₂ t₃ : Nat) (s : PtpTimer) : PtpTimer × PtpTime :=
  let s := s.tick t₀
  let second := s.msTimerSecond
  let s := s.tick t₁
  let nanosecond := s.atvr
  let s := s.tick t₂
  let second := if s.tsTimer && decide (nanosecond < oneSecond / 2) then (second + 1) % 2 ^ 64 else second
  (s.tick t₃, { second := second, nanosecond := nanosecond })

/-- `ENET_Ptp1588SetTimer`, with the times before the seconds are written, before the nanoseconds are written, and after
that. -/
def setTimer (t₀ t₁ t₂ : Nat) (time : PtpTime) (s : PtpTimer) : PtpTimer :=
  let s := s.tick t₀
  let s := { s with msTimerSecond := time.second }
  let s := s.tick t₁
  let s := { s with atvr := time.nanosecond, clock := time.second * oneSecond + time.nanosecond, reads := [] }
  s.tick t₂

/-- `ENET_TimeStampIRQHandler`, with the times before EIR is read, before it is cleared, before the seconds are counted,
and after that. -/
def timeStampIRQHandler (t₀ t₁ t₂ t₃ : Nat) (s : PtpTimer) : PtpTimer :=
  let s := s.tick t₀
  if s.tsTimer then
    let s := { s.tick t₁ with tsTimer := false }
    let s := s.tick t₂
    let s := { s with msTimerSecond := (s.msTimerSecond + 1) % 2 ^ 64 }
    s.tick t₃
  else s.tick t₃

end PtpTimer

/-- Time that passes, and the calls with the times between their register accesses. -/
inductive PtpEvent where
  | tick (n : Nat)
  | getTimer (t₀ t₁ t₂ t₃ : Nat)
  | setTimer (t₀ t₁ t₂ : Nat) (time : PtpTime)
  | irq (t₀ t₁ t₂ t₃ : Nat)

/-- One event. -/
def PtpTimer.step (s : PtpTimer) : PtpEvent → PtpTimer
  | .tick n => s.tick n
  | .getTimer t₀ t₁ t₂ t₃ =>
    let (s', time) := s.getTimer t₀ t₁ t₂ t₃
    { s' with reads := s'.reads ++ [time] }
  | .setTimer t₀ t₁ t₂ time => s.setTimer t₀ t₁ t₂ time
  | .irq t₀ t₁ t₂ t₃ => s.timeStampIRQHandler t₀ t₁ t₂ t₃

/-- The time that a call takes. -/
def PtpEvent.duration : PtpEvent → Nat
  | .tick _ => 0
  | .getTimer t₀ t₁ t₂ t₃ => t₀ + t₁ + t₂ + t₃
  | .setTimer t₀ t₁ t₂ _ => t₀ + t₁ + t₂
  | .irq t₀ t₁ t₂ t₃ => t₀ + t₁ + t₂ + t₃

namespace PtpTimer

/-- The times that the driver relies on: a call takes less than half a second, an interrupt is served within half a
second, and the time that is set is one. -/
def Timely (s : PtpTimer) (e : PtpEvent) : Prop :=
  e.duration < oneSecond / 2 ∧ ((s.step e).tsTimer = true → (s.step e).latency < oneSecond / 2) ∧
    match e with
    | .setTimer _ _ _ time => time.second < 2 ^ 64 ∧ time.nanosecond < oneSecond
    | _ => True

/-- No wrap is pending, and none happens, up to the write of the nanoseconds. -/
def NoWrapAtSet (s : PtpTimer) : PtpEvent → Prop
  | .setTimer t₀ t₁ _ _ => s.tsTimer = false ∧ s.atvr + t₀ + t₁ < oneSecond
  | _ => True

/-- A timer that starts at zero. -/
def start : PtpTimer :=
  { atvr := 0, tsTimer := false, msTimerSecond := 0, latency := 0, clock := 0, reads := [] }

section Ticks

/-- The timer has not wrapped again since it raised TS_TIMER, and the seconds lack no more than that wrap. -/
structure Right (s : PtpTimer) : Prop where
  atvr : s.atvr = s.clock % oneSecond
  second : (s.msTimerSecond + s.tsTimer.toNat) % 2 ^ 64 = s.clock / oneSecond % 2 ^ 64
  second_lt : s.msTimerSecond < 2 ^ 64
  latency : s.tsTimer = true → s.latency = s.atvr

variable {s : PtpTimer}

lemma Right.atvr_lt (h : Right s) : s.atvr < oneSecond := by
  rw [h.atvr]
  exact Nat.mod_lt _ (by decide)

lemma tick_tsTimer (n : Nat) : (s.tick n).tsTimer = (s.tsTimer || decide (oneSecond ≤ s.atvr + n)) := rfl

lemma latency_tick_of_pending (h : s.tsTimer = true) (n : Nat) : (s.tick n).latency = s.latency + n := by
  rw [tick, if_pos h]

lemma latency_tick_of_clear (h : s.tsTimer = false) (n : Nat) : (s.tick n).latency = s.atvr + n - oneSecond := by
  rw [tick, if_neg (by rw [h]; exact Bool.false_ne_true)]

lemma tick_add (a b : Nat) : (s.tick a).tick b = s.tick (a + b) := by
  have hatvr : ((s.atvr + a) % oneSecond + b) % oneSecond = (s.atvr + (a + b)) % oneSecond := by
    rw [Nat.mod_add_mod, Nat.add_assoc]
  have hfields : ((s.tick a).tick b).tsTimer = (s.tick (a + b)).tsTimer ∧
      ((s.tick a).tick b).latency = (s.tick (a + b)).latency := by
    by_cases hpending : (s.tick a).tsTimer = true
    · rw [latency_tick_of_pending hpending, tick_tsTimer, hpending, tick_tsTimer]
      rw [tick_tsTimer, Bool.or_eq_true, decide_eq_true_eq] at hpending
      rcases hpending with htimer | hwrap
      · rw [latency_tick_of_pending htimer, latency_tick_of_pending htimer, htimer, Nat.add_assoc]
        exact ⟨rfl, rfl⟩
      · have hwrap' : oneSecond ≤ s.atvr + (a + b) := by omega
        rw [decide_eq_true hwrap', Bool.or_true]
        refine ⟨rfl, ?_⟩
        cases htimer : s.tsTimer with
        | true => rw [latency_tick_of_pending htimer, latency_tick_of_pending htimer, Nat.add_assoc]
        | false =>
          rw [latency_tick_of_clear htimer, latency_tick_of_clear htimer]
          omega
    · rw [Bool.not_eq_true] at hpending
      rw [latency_tick_of_clear hpending, tick_tsTimer, hpending, tick_tsTimer]
      rw [tick_tsTimer, Bool.or_eq_false_iff, decide_eq_false_iff_not] at hpending
      obtain ⟨htimer, hwrap⟩ := hpending
      have hsame : (s.tick a).atvr = s.atvr + a := Nat.mod_eq_of_lt (by omega)
      rw [latency_tick_of_clear htimer, htimer, hsame, Nat.add_assoc]
      exact ⟨rfl, rfl⟩
  rw [tick, PtpTimer.mk.injEq]
  exact ⟨hatvr, hfields.1, rfl, hfields.2, Nat.add_assoc _ _ _, rfl⟩

lemma Right.tick_pending (h : Right s) {n : Nat} (htimer : s.tsTimer = true) (hn : s.atvr + n < oneSecond) :
    Right (s.tick n) := by
  have hatvr := h.atvr
  have hsecond := h.second
  have hclock : (s.clock + n) / oneSecond = s.clock / oneSecond := by
    unfold oneSecond at *
    omega
  have htick : (s.tick n).tsTimer = true := by rw [tick_tsTimer, htimer, Bool.true_or]
  constructor
  · change (s.atvr + n) % oneSecond = (s.clock + n) % oneSecond
    unfold oneSecond at *
    omega
  · change (s.msTimerSecond + (s.tick n).tsTimer.toNat) % 2 ^ 64 = (s.clock + n) / oneSecond % 2 ^ 64
    rw [htick, hclock, ← hsecond, htimer]
  · exact h.second_lt
  · intro _
    rw [latency_tick_of_pending htimer, h.latency htimer]
    exact (Nat.mod_eq_of_lt hn).symm

/-- Without a pending wrap, the timer may wrap once. -/
lemma Right.tick_clear (h : Right s) {n : Nat} (htimer : s.tsTimer = false) (hn : s.atvr + n < 2 * oneSecond) :
    Right (s.tick n) := by
  have hatvr := h.atvr
  have hsecond := h.second
  rw [htimer, Bool.toNat_false, Nat.add_zero] at hsecond
  constructor
  · change (s.atvr + n) % oneSecond = (s.clock + n) % oneSecond
    unfold oneSecond at *
    omega
  · change (s.msTimerSecond + (s.tick n).tsTimer.toNat) % 2 ^ 64 = (s.clock + n) / oneSecond % 2 ^ 64
    rw [tick_tsTimer, htimer, Bool.false_or]
    by_cases hwrap : oneSecond ≤ s.atvr + n
    · have hclock : (s.clock + n) / oneSecond = s.clock / oneSecond + 1 := by
        unfold oneSecond at *
        omega
      rw [decide_eq_true hwrap, hclock, Bool.toNat_true, Nat.add_mod, hsecond, ← Nat.add_mod]
    · have hclock : (s.clock + n) / oneSecond = s.clock / oneSecond := by
        unfold oneSecond at *
        omega
      rw [decide_eq_false hwrap, hclock, Bool.toNat_false, Nat.add_zero, hsecond]
  · exact h.second_lt
  · intro hnew
    rw [tick_tsTimer, htimer, Bool.false_or, decide_eq_true_eq] at hnew
    rw [latency_tick_of_clear htimer]
    change _ = (s.atvr + n) % oneSecond
    unfold oneSecond at *
    omega

/-- Within the latency, time passes without a second wrap. -/
lemma Right.tick_of_latency (h : Right s) {n : Nat}
    (hlate : (s.tick n).tsTimer = true → (s.tick n).latency < oneSecond / 2) : Right (s.tick n) := by
  have hlt := h.atvr_lt
  cases htimer : s.tsTimer with
  | true =>
    have hlatency := h.latency htimer
    have hbound := hlate (by rw [tick_tsTimer, htimer, Bool.true_or])
    rw [latency_tick_of_pending htimer] at hbound
    apply h.tick_pending htimer
    unfold oneSecond at *
    omega
  | false =>
    apply h.tick_clear htimer
    by_contra hge
    have hwrap : oneSecond ≤ s.atvr + n := by omega
    have hbound := hlate (by rw [tick_tsTimer, htimer, Bool.false_or, decide_eq_true hwrap])
    rw [latency_tick_of_clear htimer] at hbound
    unfold oneSecond at *
    omega

/-- A latency that is kept up to some time was kept before. -/
lemma latency_before {n m : Nat} (hlate : (s.tick (n + m)).tsTimer = true → (s.tick (n + m)).latency < oneSecond / 2)
    (htimer : (s.tick n).tsTimer = true) : (s.tick n).latency < oneSecond / 2 := by
  rw [← tick_add] at hlate
  have hbound := hlate (by rw [tick_tsTimer, htimer, Bool.true_or])
  rw [latency_tick_of_pending htimer] at hbound
  omega

end Ticks

/-- The reads are the values of the clock at instants that do not go back. -/
def Ordered (reads : List PtpTime) (clock : Nat) : Prop :=
  ∃ instants : List Nat, reads = instants.map ptpTime ∧ instants.Pairwise (· ≤ ·) ∧ ∀ t ∈ instants, t ≤ clock

lemma Ordered.later {reads : List PtpTime} {clock clock' : Nat} (h : Ordered reads clock) (hle : clock ≤ clock') :
    Ordered reads clock' := by
  obtain ⟨instants, hreads, hsorted, hpast⟩ := h
  exact ⟨instants, hreads, hsorted, fun t ht => (hpast t ht).trans hle⟩

lemma Ordered.read {reads : List PtpTime} {clock t clock' : Nat} (h : Ordered reads clock) (ht : clock ≤ t)
    (hle : t ≤ clock') : Ordered (reads ++ [ptpTime t]) clock' := by
  obtain ⟨instants, rfl, hsorted, hpast⟩ := h
  refine ⟨instants ++ [t], by rw [List.map_append, List.map_singleton], ?_, ?_⟩
  · rw [List.pairwise_append]
    refine ⟨hsorted, List.pairwise_singleton _ _, ?_⟩
    intro a ha b hb
    rw [List.mem_singleton.mp hb]
    exact (hpast a ha).trans ht
  · intro a ha
    rcases List.mem_append.mp ha with ha | ha
    · exact (hpast a ha).trans (ht.trans hle)
    · rw [List.mem_singleton.mp ha]
      exact hle

/-- What holds between the events: the clock is right, and the latency is kept. -/
structure Settled (s : PtpTimer) : Prop where
  right : Right s
  latency : s.tsTimer = true → s.latency < oneSecond / 2
  reads : Ordered s.reads s.clock

variable {s : PtpTimer}

/-- A read gives the value of the clock when the nanoseconds are captured. -/
lemma Settled.getTimer (h : Settled s) {t₀ t₁ t₂ t₃ : Nat} (hcall : t₀ + t₁ + t₂ + t₃ < oneSecond / 2)
    (hlate : (s.tick (t₀ + t₁ + t₂ + t₃)).tsTimer = true → (s.tick (t₀ + t₁ + t₂ + t₃)).latency < oneSecond / 2) :
    s.getTimer t₀ t₁ t₂ t₃ = (s.tick (t₀ + t₁ + t₂ + t₃), ptpTime (s.clock + t₀ + t₁)) := by
  have hlate₁ := latency_before (n := t₀ + t₁) (m := t₂ + t₃) (by rwa [← Nat.add_assoc])
  have hright := h.right.tick_of_latency hlate₁
  have hsecond := hright.second
  have hclock : (s.tick (t₀ + t₁)).clock = s.clock + t₀ + t₁ := (Nat.add_assoc _ _ _).symm
  have hlt : (s.tick (t₀ + t₁)).msTimerSecond < 2 ^ 64 := hright.second_lt
  rw [hclock] at hsecond
  simp only [PtpTimer.getTimer, tick_add]
  refine congrArg (Prod.mk _) ?_
  rw [ptpTime, PtpTime.mk.injEq, hright.atvr, hclock]
  refine ⟨?_, rfl⟩
  have hnano := hright.atvr
  rw [hclock] at hnano
  cases hpending : (s.tick (t₀ + t₁)).tsTimer with
  | true =>
    -- the wrap came before the capture
    have hhalf := hlate₁ hpending
    rw [hright.latency hpending, hnano] at hhalf
    have hflag : (s.tick (t₀ + t₁ + t₂)).tsTimer = true := by
      rw [← tick_add, tick_tsTimer, hpending, Bool.true_or]
    rw [hpending, Bool.toNat_true] at hsecond
    rw [hflag, decide_eq_true hhalf, ← hsecond]
    rfl
  | false =>
    rw [hpending, Bool.toNat_false, Nat.add_zero, Nat.mod_eq_of_lt hlt] at hsecond
    have hno : ((s.tick (t₀ + t₁ + t₂)).tsTimer && decide ((s.clock + t₀ + t₁) % oneSecond < oneSecond / 2)) = false := by
      rw [← tick_add, tick_tsTimer, hpending, Bool.false_or, ← Bool.decide_and, decide_eq_false_iff_not]
      rintro ⟨hwrap, hhalf⟩
      rw [hnano] at hwrap
      unfold oneSecond at *
      omega
    rw [hno, ← hsecond]
    rfl

/-- The clock is right when no wrap is pending at the write of the nanoseconds. -/
lemma setTimer_settled {t₀ t₁ t₂ : Nat} {time : PtpTime} (htime : time.second < 2 ^ 64)
    (hnano : time.nanosecond < oneSecond) (htimer : s.tsTimer = false) (hwrap : s.atvr + t₀ + t₁ < oneSecond)
    (hlate : (s.setTimer t₀ t₁ t₂ time).tsTimer = true → (s.setTimer t₀ t₁ t₂ time).latency < oneSecond / 2) :
    Settled (s.setTimer t₀ t₁ t₂ time) := by
  have hfirst : (s.tick t₀).tsTimer = false := by
    rw [tick_tsTimer, htimer, Bool.false_or, decide_eq_false (by omega)]
  have hatvr : (s.tick t₀).atvr = s.atvr + t₀ := Nat.mod_eq_of_lt (by omega)
  have hset : Right
      { ({ s.tick t₀ with msTimerSecond := time.second } : PtpTimer).tick t₁ with
        atvr := time.nanosecond, clock := time.second * oneSecond + time.nanosecond, reads := [] } := by
    have hclear : (({ s.tick t₀ with msTimerSecond := time.second } : PtpTimer).tick t₁).tsTimer = false := by
      rw [tick_tsTimer, hfirst, Bool.false_or, decide_eq_false]
      change ¬ oneSecond ≤ (s.tick t₀).atvr + t₁
      rw [hatvr]
      omega
    constructor
    · change time.nanosecond = _
      rw [Nat.mul_add_mod_self_right, Nat.mod_eq_of_lt hnano]
    · dsimp only
      rw [hclear, Bool.toNat_false, Nat.add_zero]
      change time.second % 2 ^ 64 = _
      congr 1
      unfold oneSecond at *
      omega
    · exact htime
    · intro hpending
      rw [hclear] at hpending
      cases hpending
  exact ⟨hset.tick_of_latency hlate, hlate, [], rfl, List.Pairwise.nil, by simp⟩

/-- The handler clears the event and counts the second. -/
def countWrap (s : PtpTimer) (t : Nat) : PtpTimer :=
  let s := ({ s with tsTimer := false } : PtpTimer).tick t
  { s with msTimerSecond := (s.msTimerSecond + 1) % 2 ^ 64 }

lemma count_wrap (h : Right s) (htimer : s.tsTimer = true) {t : Nat} (ht : s.atvr + t < oneSecond) :
    Right (s.countWrap t) := by
  have hatvr := h.atvr
  have hsecond := h.second
  rw [htimer, Bool.toNat_true] at hsecond
  have hclear : (s.countWrap t).tsTimer = false := decide_eq_false (show ¬ oneSecond ≤ s.atvr + t by omega)
  constructor
  · change (s.atvr + t) % oneSecond = (s.clock + t) % oneSecond
    unfold oneSecond at *
    omega
  · rw [hclear, Bool.toNat_false, Nat.add_zero]
    change (s.msTimerSecond + 1) % 2 ^ 64 % 2 ^ 64 = (s.clock + t) / oneSecond % 2 ^ 64
    have hclock : (s.clock + t) / oneSecond = s.clock / oneSecond := by
      unfold oneSecond at *
      omega
    rw [Nat.mod_mod, hsecond, hclock]
  · exact Nat.mod_lt _ (by decide)
  · intro hpending
    rw [hclear] at hpending
    cases hpending

/-- The handler counts the wrap that is pending. -/
lemma Settled.irq (h : Settled s) {t₀ t₁ t₂ t₃ : Nat} (hcall : t₀ + t₁ + t₂ + t₃ < oneSecond / 2)
    (hlate : (s.timeStampIRQHandler t₀ t₁ t₂ t₃).tsTimer = true →
      (s.timeStampIRQHandler t₀ t₁ t₂ t₃).latency < oneSecond / 2) : Settled (s.timeStampIRQHandler t₀ t₁ t₂ t₃) := by
  have hlt := h.right.atvr_lt
  cases hpending : (s.tick t₀).tsTimer with
  | false =>
    have hrun : s.timeStampIRQHandler t₀ t₁ t₂ t₃ = s.tick (t₀ + t₃) := by
      rw [timeStampIRQHandler]
      dsimp only
      rw [if_neg (by rw [hpending]; exact Bool.false_ne_true), tick_add]
    rw [hrun] at hlate ⊢
    exact ⟨h.right.tick_of_latency hlate, hlate, h.reads.later (Nat.le_add_right _ _)⟩
  | true =>
    -- the timer wraps no second time before the handler is done
    have hfirst : Right (s.tick t₀) ∧ (s.tick t₀).atvr + t₁ + t₂ + t₃ < oneSecond := by
      cases htimer : s.tsTimer with
      | true =>
        have hlatency := h.latency htimer
        rw [h.right.latency htimer] at hlatency
        have hsum : s.atvr + t₀ < oneSecond := by
          unfold oneSecond at *
          omega
        refine ⟨h.right.tick_pending htimer hsum, ?_⟩
        change (s.atvr + t₀) % oneSecond + t₁ + t₂ + t₃ < oneSecond
        rw [Nat.mod_eq_of_lt hsum]
        unfold oneSecond at *
        omega
      | false =>
        rw [tick_tsTimer, htimer, Bool.false_or, decide_eq_true_eq] at hpending
        refine ⟨h.right.tick_clear htimer (by unfold oneSecond at *; omega), ?_⟩
        change (s.atvr + t₀) % oneSecond + t₁ + t₂ + t₃ < oneSecond
        unfold oneSecond at *
        omega
    obtain ⟨hright₀, hsum⟩ := hfirst
    have hright₁ := hright₀.tick_pending hpending (n := t₁) (by omega)
    have htimer₁ : ((s.tick t₀).tick t₁).tsTimer = true := by rw [tick_tsTimer, hpending, Bool.true_or]
    have hatvr₁ : ((s.tick t₀).tick t₁).atvr = (s.tick t₀).atvr + t₁ := Nat.mod_eq_of_lt (by omega)
    have hcount := count_wrap hright₁ htimer₁ (t := t₂) (by omega)
    have hrun : s.timeStampIRQHandler t₀ t₁ t₂ t₃ = (countWrap ((s.tick t₀).tick t₁) t₂).tick t₃ := by
      rw [timeStampIRQHandler]
      dsimp only
      rw [if_pos hpending]
      rfl
    rw [hrun] at hlate ⊢
    exact ⟨hcount.tick_of_latency hlate, hlate, h.reads.later (by
      change s.clock ≤ s.clock + t₀ + t₁ + t₂ + t₃
      omega)⟩

lemma Settled.step (h : Settled s) (e : PtpEvent) (htimely : Timely s e) (hset : NoWrapAtSet s e) :
    Settled (s.step e) := by
  obtain ⟨hcall, hlate, htime⟩ := htimely
  cases e with
  | tick n => exact ⟨h.right.tick_of_latency hlate, hlate, h.reads.later (Nat.le_add_right _ _)⟩
  | getTimer t₀ t₁ t₂ t₃ =>
    simp only [PtpTimer.step, PtpTimer.getTimer, tick_add] at hlate
    have hget := h.getTimer hcall hlate
    have hstep : s.step (.getTimer t₀ t₁ t₂ t₃) =
        { s.tick (t₀ + t₁ + t₂ + t₃) with reads := s.reads ++ [ptpTime (s.clock + t₀ + t₁)] } := by
      rw [PtpTimer.step, hget]
      rfl
    have hright := h.right.tick_of_latency hlate
    rw [hstep]
    refine ⟨⟨hright.atvr, hright.second, hright.second_lt, hright.latency⟩, hlate, h.reads.read (by omega) ?_⟩
    change _ ≤ s.clock + (t₀ + t₁ + t₂ + t₃)
    omega
  | setTimer t₀ t₁ t₂ time => exact setTimer_settled htime.1 htime.2 hset.1 hset.2 hlate
  | irq t₀ t₁ t₂ t₃ => exact h.irq hcall hlate

lemma settled_start : Settled start :=
  ⟨⟨rfl, rfl, by decide, nofun⟩, nofun, [], rfl, List.Pairwise.nil, by simp⟩

lemma total_ptpTime {clock : Nat} (h : clock < 2 ^ 64 * oneSecond) : (ptpTime clock).total = clock := by
  have hsecond : clock / oneSecond < 2 ^ 64 := (Nat.div_lt_iff_lt_mul (by decide)).mpr h
  rw [PtpTime.total, ptpTime, Nat.mod_eq_of_lt hsecond]
  exact Nat.div_add_mod' clock oneSecond

/-- In every timely run in which no wrap is pending when the time is set, each read gives the value of the clock at an
instant inside of the call, and the reads since the last set do not go back as long as 64 bits hold the seconds. -/
theorem ptpClock_consistent (events : List PtpEvent)
    (hrun : EachStep PtpTimer.step (fun s e => Timely s e ∧ NoWrapAtSet s e) start events) :
    (∀ t₀ t₁ t₂ t₃, Timely (events.foldl PtpTimer.step start) (.getTimer t₀ t₁ t₂ t₃) →
      ((events.foldl PtpTimer.step start).getTimer t₀ t₁ t₂ t₃).2 =
        ptpTime ((events.foldl PtpTimer.step start).clock + t₀ + t₁)) ∧
      ((events.foldl PtpTimer.step start).clock < 2 ^ 64 * oneSecond →
        (events.foldl PtpTimer.step start).reads.Pairwise fun a b => a.total ≤ b.total) := by
  have hsettled : Settled (events.foldl PtpTimer.step start) :=
    hrun.invariant (fun s e hs he => hs.step e he.1 he.2) events settled_start
  constructor
  · intro t₀ t₁ t₂ t₃ htimely
    have hlate := htimely.2.1
    simp only [PtpTimer.step, PtpTimer.getTimer, tick_add] at hlate
    rw [hsettled.getTimer htimely.1 hlate]
  · intro hclock
    obtain ⟨instants, hreads, hsorted, hpast⟩ := hsettled.reads
    rw [hreads, List.pairwise_map]
    refine hsorted.imp_of_mem ?_
    intro a b ha hb hle
    have hb' := hpast b hb
    rw [total_ptpTime (by omega), total_ptpTime (by omega)]
    exact hle

/-- The time is set, a wrap is served, and the time is read in the second after. -/
def servedRun : List PtpEvent :=
  [.setTimer 10 10 10 ⟨5, 999999000⟩, .tick 1000, .irq 5 5 5 5, .getTimer 1 1 1 1]

theorem ptpClock_consistent_served :
    EachStep PtpTimer.step (fun s e => Timely s e ∧ NoWrapAtSet s e) start servedRun ∧
      ((servedRun.foldl PtpTimer.step start).clock < 2 ^ 64 * oneSecond →
        (servedRun.foldl PtpTimer.step start).reads.Pairwise fun a b => a.total ≤ b.total) := by
  have hrun : EachStep PtpTimer.step (fun s e => Timely s e ∧ NoWrapAtSet s e) start servedRun := by
    refine ⟨⟨⟨?_, ?_, ?_⟩, ?_, ?_⟩, ⟨⟨?_, ?_, trivial⟩, trivial⟩, ⟨⟨?_, ?_, trivial⟩, trivial⟩, ⟨⟨?_, ?_, trivial⟩, trivial⟩,
      trivial⟩
    all_goals decide
  exact ⟨hrun, (ptpClock_consistent servedRun hrun).2⟩

/-- A wrap is pending when the time is set to five seconds. The handler counts it afterwards, and the next read is a
second ahead of the clock. -/
theorem ptpClock_not_consistent :
    EachStep PtpTimer.step Timely start
        [.tick 1000000010, .setTimer 1 1 1 ⟨5, 100⟩, .irq 1 1 1 1, .getTimer 1 1 1 1] ∧
      ∀ n ≤ 4, ptpTime (([PtpEvent.tick 1000000010, .setTimer 1 1 1 ⟨5, 100⟩, .irq 1 1 1 1].foldl PtpTimer.step
          start).clock + n) ≠
        (([PtpEvent.tick 1000000010, .setTimer 1 1 1 ⟨5, 100⟩, .irq 1 1 1 1].foldl PtpTimer.step start).getTimer
          1 1 1 1).2 := by
  constructor
  · refine ⟨⟨?_, ?_, trivial⟩, ⟨?_, ?_, ?_⟩, ⟨?_, ?_, trivial⟩, ⟨?_, ?_, trivial⟩, trivial⟩
    all_goals decide
  · decide

end PtpTimer

end McuxDrivers.Enet
