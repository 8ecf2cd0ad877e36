import McuxDrivers.Lib.Runs
import McuxDrivers.Sctimer.Driver

/-!
# What the SCTimer driver has granted

The driver hands out events, and for each half of the counter match and capture registers. The grants of a run are kept in
lists beside the registers. Only the mode register is shared by all the registers of a half.
-/

namespace McuxDrivers.Sctimer
open McuxDrivers.Lib

section Bits

lemma Halves.ofWord_or (l : BitVec 16) (v : BitVec 32) :
    Halves.ofWord (l.setWidth 32 ||| (v <<< 16)) = ⟨l, v.setWidth 16⟩ := by
  rw [Halves.ofWord]
  congr 1
  · ext i hi
    simp
  · ext i hi
    have hlt : 16 + i < 32 := by omega
    have hge : ¬16 + i < 16 := by omega
    simp [hlt, hge, BitVec.getLsbD_eq_getElem (show i < 32 by omega)]

lemma setWidth_one_shiftLeft (n : Nat) : (1#32 <<< n).setWidth 16 = 1#16 <<< n := by
  ext i hi
  simp

lemma getLsbD_one_shiftLeft {k : Nat} (hk : k < 16) (i : Nat) : (1#16 <<< k).getLsbD i = decide (i = k) := by
  rw [← BitVec.twoPow_eq, BitVec.getLsbD_twoPow]
  by_cases hik : i = k
  · simp [hik, hk]
  · simp [hik, Ne.symm hik]

lemma getLsbD_or_shiftLeft {k : Nat} (x : BitVec 16) (hk : k < 16) (i : Nat) :
    (x ||| 1#16 <<< k).getLsbD i = (x.getLsbD i || decide (i = k)) := by
  rw [BitVec.getLsbD_or, getLsbD_one_shiftLeft hk]

end Bits

/-- The half that a counter takes its registers from. -/
def Counter.high : Counter → Bool
  | .H => true
  | .L | .U => false

/-- A match register with its value. -/
structure MatchGrant where
  counter : Counter
  register : Nat
  value : BitVec 32

/-- A capture register with its event. -/
structure CaptureGrant where
  counter : Counter
  register : Nat
  event : Nat

/-- The register is a match register and has its value. -/
def MatchGrant.Kept (g : MatchGrant) (s : Sct) : Prop :=
  match g.counter with
  | .L =>
    (s.matchReg g.register).l = g.value.setWidth 16 ∧ (s.matchRel g.register).l = g.value.setWidth 16 ∧
      s.regMode.l.getLsbD g.register = false
  | .H =>
    (s.matchReg g.register).h = g.value.setWidth 16 ∧ (s.matchRel g.register).h = g.value.setWidth 16 ∧
      s.regMode.h.getLsbD g.register = false
  | .U =>
    s.matchReg g.register = Halves.ofWord g.value ∧ s.matchRel g.register = Halves.ofWord g.value ∧
      s.regMode.l.getLsbD g.register = false

/-- The register is a capture register, and its event is the one that it captures on. -/
def CaptureGrant.Kept (g : CaptureGrant) (s : Sct) : Prop :=
  match g.counter with
  | .L | .U => (s.matchRel g.register).l = 1#16 <<< g.event ∧ s.regMode.l.getLsbD g.register = true
  | .H => (s.matchRel g.register).h = 1#16 <<< g.event ∧ s.regMode.h.getLsbD g.register = true

/-- What the successful calls have handed out. -/
structure Grants where
  events : List Nat
  matched : List MatchGrant
  captured : List CaptureGrant

/-- The registers with their halves. -/
def Grants.registers (g : Grants) : List (Bool × Nat) :=
  g.matched.map (fun m => (m.counter.high, m.register)) ++ g.captured.map (fun c => (c.counter.high, c.register))

/-- The registers and the grants. -/
structure System where
  sct : Sct
  grants : Grants

/-- A call of the application. -/
inductive Call where
  | createAndScheduleEvent (howToMonitor : EventType) (matchValue : BitVec 32) (whichIo : Nat) (whichCounter : Counter)
  | setupPwm (pwmParams : PwmSignalParam) (mode : PwmMode) (pwmFreqHz srcClockHz : BitVec 32)
  | setupCaptureAction (whichCounter : Counter) (event : Nat)
  | increaseState

variable (f : Features)

/-- The registers after a call, and whether it returns `kStatus_Success`. -/
def Sct.call (s : Sct) : Call → Sct × Bool
  | .createAndScheduleEvent howToMonitor matchValue whichIo whichCounter =>
    let result := s.createAndScheduleEvent f howToMonitor matchValue whichIo whichCounter
    (result.1, result.2.isSome)
  | .setupPwm pwmParams mode pwmFreqHz srcClockHz =>
    let result := s.setupPwm f pwmParams mode pwmFreqHz srcClockHz
    (result.1, result.2.isSome)
  | .setupCaptureAction whichCounter event =>
    let result := s.setupCaptureAction f whichCounter event
    (result.1, result.2.isSome)
  | .increaseState =>
    let result := s.increaseState f
    (result.1, result.2.isSome)

namespace Grants

/-- A new event. Unless it watches an input or output alone, the match register in its control register is granted too. -/
def addEvent (g : Grants) (after : Sct) (event : Nat) (howToMonitor : EventType) (matchValue : BitVec 32)
    (whichCounter : Counter) : Grants :=
  { g with
    events := event :: g.events
    matched :=
      if howToMonitor.combMode = 2 then g.matched
      else ⟨whichCounter, (after.evCtrl event).matchSel, matchValue⟩ :: g.matched }

def addCapture (g : Grants) (whichCounter : Counter) (register event : Nat) : Grants :=
  { g with captured := ⟨whichCounter, register, event⟩ :: g.captured }

/-- What a call adds to the grants, read from its results. -/
def after (g : Grants) (s : Sct) : Call → Grants
  | .createAndScheduleEvent howToMonitor matchValue whichIo whichCounter =>
    match s.createAndScheduleEvent f howToMonitor matchValue whichIo whichCounter with
    | (s', some event) => g.addEvent s' event howToMonitor matchValue whichCounter
    | (_, none) => g
  | .setupPwm pwmParams mode pwmFreqHz srcClockHz =>
    match s.setupPwm f pwmParams mode pwmFreqHz srcClockHz with
    | (s', some (periodEvent, pulseEvent)) =>
      let period := s.pwmPeriod mode pwmFreqHz srcClockHz
      (g.addEvent s' periodEvent .matchOnly period .U).addEvent s' pulseEvent .matchOnly
        (Sct.pwmPulsePeriod period pwmParams.dutyCyclePercent) .U
    | (_, none) => g
  | .setupCaptureAction whichCounter event =>
    match s.setupCaptureAction f whichCounter event with
    | (_, some register) => g.addCapture whichCounter register event
    | (_, none) => g
  | .increaseState => g

end Grants

def System.init (config : Config) : System :=
  ⟨Sctimer.init config, ⟨[], [], []⟩⟩

def System.step (s : System) (call : Call) : System :=
  ⟨(s.sct.call f call).1, s.grants.after f s.sct call⟩

/-- The counters that the mode allows. `SCTIMER_CreateAndScheduleEvent` checks its counter, the others rely on the caller. -/
def Call.Allowed (s : Sct) : Call → Prop
  | .createAndScheduleEvent .. => True
  | .setupPwm .. => s.unify = true
  | .setupCaptureAction whichCounter _ => whichCounter = .U ↔ s.unify = true
  | .increaseState => True

/-- No capture register of the high half before another one, no step behind the last state, and not one match register for the
two events of a PWM signal. -/
def Call.Harmless (s : Sct) : Call → Prop
  | .createAndScheduleEvent .. => True
  | .setupPwm .. => f.numberOfEvents < s.currentEvent + 2 ∨ s.currentMatch + 1 ≠ f.numberOfMatchCapture
  | .setupCaptureAction whichCounter _ =>
    whichCounter ≠ .H ∨ f.numberOfMatchCapture ≤ s.currentMatchhigh ∨ s.regMode.h = 0
  | .increaseState => s.currentState + 1 ≠ f.numberOfStates

instance (s : Sct) : (call : Call) → Decidable (call.Allowed s)
  | .createAndScheduleEvent .. => isTrue trivial
  | .setupPwm .. => inferInstanceAs (Decidable (_ = _))
  | .setupCaptureAction .. => inferInstanceAs (Decidable (_ ↔ _))
  | .increaseState => isTrue trivial

instance (s : Sct) : (call : Call) → Decidable (call.Harmless f s)
  | .createAndScheduleEvent .. => isTrue trivial
  | .setupPwm .. => inferInstanceAs (Decidable (_ ∨ _))
  | .setupCaptureAction .. => inferInstanceAs (Decidable (_ ∨ _ ∨ _))
  | .increaseState => inferInstanceAs (Decidable (_ ≠ _))

/-- The event, match, capture and mode registers and the numbers of the driver. -/
def SameResources (s s' : Sct) : Prop :=
  s'.evCtrl = s.evCtrl ∧ s'.evState = s.evState ∧ s'.matchReg = s.matchReg ∧ s'.matchRel = s.matchRel ∧
    s'.regMode = s.regMode ∧ s'.currentEvent = s.currentEvent ∧ s'.currentState = s.currentState ∧
    s'.currentMatch = s.currentMatch ∧ s'.currentMatchhigh = s.currentMatchhigh

/-- The grants are distinct, lie within the device and are still in force, and the current state exists. -/
structure Granted (s : Sct) (g : Grants) : Prop where
  events_nodup : g.events.Nodup
  events_lt : ∀ e ∈ g.events, e < f.numberOfEvents
  registers_nodup : g.registers.Nodup
  registers_lt : ∀ r ∈ g.registers, r.2 < f.numberOfMatchCapture
  matched_kept : ∀ m ∈ g.matched, m.Kept s
  captured_kept : ∀ c ∈ g.captured, c.Kept s
  state_lt : s.currentState < f.numberOfStates

/-- The grants with what is true of the registers that are not yet granted. -/
structure Inv (s : Sct) (g : Grants) : Prop where
  events_nodup : g.events.Nodup
  events_lt : ∀ e ∈ g.events, e < s.currentEvent
  event_le : s.currentEvent ≤ f.numberOfEvents
  registers_nodup : g.registers.Nodup
  registers_lt : ∀ r ∈ g.registers, r.2 < if r.1 then s.currentMatchhigh else s.currentMatch
  match_le : s.currentMatch ≤ f.numberOfMatchCapture
  matchhigh_le : s.currentMatchhigh ≤ f.numberOfMatchCapture
  matched_kept : ∀ m ∈ g.matched, m.Kept s
  captured_kept : ∀ c ∈ g.captured, c.Kept s
  matched_mode : ∀ m ∈ g.matched, m.counter = .U ↔ s.unify = true
  captured_mode : ∀ c ∈ g.captured, c.counter = .U ↔ s.unify = true
  fresh_capCtrl : ∀ k, s.currentMatch ≤ k → (s.matchRel k).l = 0
  fresh_mode : ∀ k, s.currentMatch ≤ k → s.regMode.l.getLsbD k = false
  fresh_modehigh : ∀ k, s.currentMatchhigh ≤ k → s.regMode.h.getLsbD k = false
  state_lt : s.currentState < f.numberOfStates

variable {f} {s : Sct} {g : Grants}

namespace Inv

lemma init (config : Config) : Inv f (Sctimer.init config) ⟨[], [], []⟩ where
  events_nodup := List.nodup_nil
  events_lt := nofun
  event_le := Nat.zero_le _
  registers_nodup := List.nodup_nil
  registers_lt := nofun
  match_le := Nat.zero_le _
  matchhigh_le := Nat.zero_le _
  matched_kept := nofun
  captured_kept := nofun
  matched_mode := nofun
  captured_mode := nofun
  fresh_capCtrl := fun _ _ => rfl
  fresh_mode := fun _ _ => BitVec.getLsbD_zero
  fresh_modehigh := fun _ _ => BitVec.getLsbD_zero
  state_lt := f.states_pos

lemma granted (h : Inv f s g) : Granted f s g where
  events_nodup := h.events_nodup
  events_lt := fun e he => Nat.lt_of_lt_of_le (h.events_lt e he) h.event_le
  registers_nodup := h.registers_nodup
  registers_lt := by
    intro r hr
    have hlt := h.registers_lt r hr
    have := h.match_le
    have := h.matchhigh_le
    split_ifs at hlt <;> omega
  matched_kept := h.matched_kept
  captured_kept := h.captured_kept
  state_lt := h.state_lt

lemma mem_matched {m : MatchGrant} (hm : m ∈ g.matched) : (m.counter.high, m.register) ∈ g.registers :=
  List.mem_append_left _ (List.mem_map_of_mem hm)

lemma mem_captured {c : CaptureGrant} (hc : c ∈ g.captured) : (c.counter.high, c.register) ∈ g.registers :=
  List.mem_append_right _ (List.mem_map_of_mem hc)

/-- The next register of a half is not granted yet. -/
lemma next_not_mem (h : Inv f s g) (high : Bool) :
    (high, if high then s.currentMatchhigh else s.currentMatch) ∉ g.registers := by
  intro hmem
  have hlt := h.registers_lt _ hmem
  exact Nat.lt_irrefl _ hlt

lemma registers_lt_of_le (h : Inv f s g) {next nexthigh : Nat} (hle : s.currentMatch ≤ next)
    (hlehigh : s.currentMatchhigh ≤ nexthigh) : ∀ r ∈ g.registers, r.2 < if r.1 then nexthigh else next := by
  intro r hr
  have hlt := h.registers_lt r hr
  split_ifs at hlt ⊢ <;> omega

lemma low_ne {high : Bool} {k : Nat} (h : Inv f s g) (hmem : (high, k) ∈ g.registers) (hlow : high = false) :
    k ≠ s.currentMatch := by
  subst hlow
  rintro rfl
  exact h.next_not_mem false hmem

lemma high_ne {high : Bool} {k : Nat} (h : Inv f s g) (hmem : (high, k) ∈ g.registers) (hhigh : high = true) :
    k ≠ s.currentMatchhigh := by
  subst hhigh
  rintro rfl
  exact h.next_not_mem true hmem

end Inv

section Kept

variable {v : BitVec 32} {m : MatchGrant} {c : CaptureGrant}

lemma MatchGrant.Kept.useMatchL (h : m.Kept s) (hmode : m.counter ≠ .U)
    (hne : m.counter.high = false → m.register ≠ s.currentMatch) : m.Kept (s.useMatchL v) := by
  obtain ⟨counter, k, value⟩ := m
  cases counter with
  | L => simpa [Kept, Sct.useMatchL, Function.update_of_ne (hne rfl)] using h
  | H =>
    by_cases hk : k = s.currentMatch
    · subst hk
      simpa [Kept, Sct.useMatchL] using h
    · simpa [Kept, Sct.useMatchL, Function.update_of_ne hk] using h
  | U => exact absurd rfl hmode

lemma CaptureGrant.Kept.useMatchL (h : c.Kept s) (hne : c.counter.high = false → c.register ≠ s.currentMatch) :
    c.Kept (s.useMatchL v) := by
  obtain ⟨counter, k, event⟩ := c
  cases counter with
  | L => simpa [Kept, Sct.useMatchL, Function.update_of_ne (hne rfl)] using h
  | U => simpa [Kept, Sct.useMatchL, Function.update_of_ne (hne rfl)] using h
  | H =>
    by_cases hk : k = s.currentMatch
    · subst hk
      simpa [Kept, Sct.useMatchL] using h
    · simpa [Kept, Sct.useMatchL, Function.update_of_ne hk] using h

lemma MatchGrant.Kept.useMatchH (h : m.Kept s) (hmode : m.counter ≠ .U)
    (hne : m.counter.high = true → m.register ≠ s.currentMatchhigh) : m.Kept (s.useMatchH v) := by
  obtain ⟨counter, k, value⟩ := m
  cases counter with
  | L =>
    by_cases hk : k = s.currentMatchhigh
    · subst hk
      simpa [Kept, Sct.useMatchH, Halves.ofWord_or] using h
    · simpa [Kept, Sct.useMatchH, Function.update_of_ne hk] using h
  | H => simpa [Kept, Sct.useMatchH, Function.update_of_ne (hne rfl)] using h
  | U => exact absurd rfl hmode

lemma CaptureGrant.Kept.useMatchH (h : c.Kept s) (hne : c.counter.high = true → c.register ≠ s.currentMatchhigh) :
    c.Kept (s.useMatchH v) := by
  obtain ⟨counter, k, event⟩ := c
  by_cases hk : k = s.currentMatchhigh
  · subst hk
    cases counter with
    | H => exact absurd rfl (hne rfl)
    | L | U => simpa [Kept, Sct.useMatchH, Halves.ofWord_or] using h
  · cases counter <;> simpa [Kept, Sct.useMatchH, Function.update_of_ne hk] using h

lemma MatchGrant.Kept.useMatchU (h : m.Kept s) (hne : m.register ≠ s.currentMatch) : m.Kept (s.useMatchU v) := by
  obtain ⟨counter, k, value⟩ := m
  cases counter <;> simpa [Kept, Sct.useMatchU, Function.update_of_ne hne] using h

lemma CaptureGrant.Kept.useMatchU (h : c.Kept s) (hne : c.register ≠ s.currentMatch) : c.Kept (s.useMatchU v) := by
  obtain ⟨counter, k, event⟩ := c
  cases counter <;> simpa [Kept, Sct.useMatchU, Function.update_of_ne hne] using h

lemma MatchGrant.Kept.useCaptureL {event : Nat} (h : m.Kept s) (hlt : s.currentMatch < 16)
    (hne : m.counter.high = false → m.register ≠ s.currentMatch) : m.Kept (s.useCaptureL event) := by
  obtain ⟨counter, k, value⟩ := m
  cases counter with
  | L | U => simpa [Kept, Sct.useCaptureL, Function.update_of_ne (hne rfl), getLsbD_or_shiftLeft _ hlt, hne rfl] using h
  | H =>
    by_cases hk : k = s.currentMatch
    · subst hk
      simpa [Kept, Sct.useCaptureL] using h
    · simpa [Kept, Sct.useCaptureL, Function.update_of_ne hk] using h

lemma CaptureGrant.Kept.useCaptureL {event : Nat} (h : c.Kept s) (hlt : s.currentMatch < 16)
    (hne : c.counter.high = false → c.register ≠ s.currentMatch) : c.Kept (s.useCaptureL event) := by
  obtain ⟨counter, k, event⟩ := c
  cases counter with
  | L | U => simpa [Kept, Sct.useCaptureL, Function.update_of_ne (hne rfl), getLsbD_or_shiftLeft _ hlt, hne rfl] using h
  | H =>
    by_cases hk : k = s.currentMatch
    · subst hk
      simpa [Kept, Sct.useCaptureL] using h
    · simpa [Kept, Sct.useCaptureL, Function.update_of_ne hk] using h

lemma Sct.regMode_useCaptureH (s : Sct) (event : Nat) :
    (s.useCaptureH event).regMode = ⟨s.regMode.l, 1#16 <<< s.currentMatchhigh⟩ := by
  simp only [Sct.useCaptureH, Halves.ofWord_or, setWidth_one_shiftLeft]

lemma Sct.matchRel_useCaptureH (s : Sct) (event : Nat) :
    (s.useCaptureH event).matchRel =
      Function.update s.matchRel s.currentMatchhigh ⟨(s.matchRel s.currentMatchhigh).l, 1#16 <<< event⟩ := by
  rw [Sct.useCaptureH, Halves.ofWord_or, setWidth_one_shiftLeft]

lemma MatchGrant.Kept.useCaptureH {event : Nat} (h : m.Kept s) (hlt : s.currentMatchhigh < 16) (hmode : m.counter ≠ .U)
    (hne : m.counter.high = true → m.register ≠ s.currentMatchhigh) : m.Kept (s.useCaptureH event) := by
  obtain ⟨counter, k, value⟩ := m
  rw [Kept, Sct.regMode_useCaptureH, Sct.matchRel_useCaptureH]
  cases counter with
  | L =>
    by_cases hk : k = s.currentMatchhigh
    · subst hk
      simpa [Kept, Sct.useCaptureH] using h
    · simpa [Kept, Sct.useCaptureH, Function.update_of_ne hk] using h
  | H =>
    rw [Kept] at h
    simpa [Kept, Sct.useCaptureH, Function.update_of_ne (hne rfl), getLsbD_one_shiftLeft hlt, hne rfl] using ⟨h.1, h.2.1⟩
  | U => exact absurd rfl hmode

/-- The first capture register of the high half leaves those of the low half alone. -/
lemma CaptureGrant.Kept.useCaptureH {event : Nat} (h : c.Kept s) (hfirst : s.regMode.h = 0) : c.Kept (s.useCaptureH event) := by
  obtain ⟨counter, k, event'⟩ := c
  rw [Kept, Sct.regMode_useCaptureH, Sct.matchRel_useCaptureH]
  cases counter with
  | L | U =>
    by_cases hk : k = s.currentMatchhigh
    · subst hk
      simpa [Kept] using h
    · simpa [Kept, Function.update_of_ne hk] using h
  | H => simp [Kept, hfirst] at h

end Kept

namespace Inv

/-- A match register of the low half written and counted, whatever is written. The grants so far are left to the caller. -/
lemma takeLow {counter : Counter} {v : BitVec 32} {reg rel : Halves} {s' : Sct} (h : Inv f s g)
    (hs' : s' = { s with
      matchReg := Function.update s.matchReg s.currentMatch reg
      matchRel := Function.update s.matchRel s.currentMatch rel
      currentMatch := s.currentMatch + 1 })
    (hlow : counter.high = false) (hmode : counter = .U ↔ s.unify = true) (hlt : s.currentMatch < f.numberOfMatchCapture)
    (hnew : MatchGrant.Kept ⟨counter, s.currentMatch, v⟩ s') (hmatched : ∀ m ∈ g.matched, m.Kept s')
    (hcaptured : ∀ c ∈ g.captured, c.Kept s') :
    Inv f s' { g with matched := ⟨counter, s.currentMatch, v⟩ :: g.matched } := by
  subst hs'
  have hregisters : Grants.registers { g with matched := ⟨counter, s.currentMatch, v⟩ :: g.matched } =
      (false, s.currentMatch) :: g.registers := by
    rw [← hlow]
    rfl
  exact {
    events_nodup := h.events_nodup
    events_lt := h.events_lt
    event_le := h.event_le
    registers_nodup := by
      rw [hregisters]
      exact List.nodup_cons.mpr ⟨h.next_not_mem false, h.registers_nodup⟩
    registers_lt := by
      rw [hregisters]
      exact List.forall_mem_cons.mpr ⟨Nat.lt_succ_self _, h.registers_lt_of_le (Nat.le_succ _) (Nat.le_refl _)⟩
    match_le := hlt
    matchhigh_le := h.matchhigh_le
    matched_kept := List.forall_mem_cons.mpr ⟨hnew, hmatched⟩
    captured_kept := hcaptured
    matched_mode := List.forall_mem_cons.mpr ⟨hmode, h.matched_mode⟩
    captured_mode := h.captured_mode
    fresh_capCtrl := by
      intro k hk
      have hne : k ≠ s.currentMatch := Nat.ne_of_gt hk
      simpa [Function.update_of_ne hne] using h.fresh_capCtrl k (Nat.le_of_succ_le hk)
    fresh_mode := fun k hk => h.fresh_mode k (Nat.le_of_succ_le hk)
    fresh_modehigh := h.fresh_modehigh
    state_lt := h.state_lt }

lemma useMatchL (h : Inv f s g) (hmode : s.unify = false) (hlt : s.currentMatch < f.numberOfMatchCapture)
    (v : BitVec 32) : Inv f (s.useMatchL v) { g with matched := ⟨.L, s.currentMatch, v⟩ :: g.matched } := by
  refine h.takeLow rfl rfl (by simp [hmode]) hlt ?_ ?_ ?_
  · simp [MatchGrant.Kept, Sct.useMatchL, h.fresh_mode]
  · intro m hm
    exact (h.matched_kept m hm).useMatchL (by simp [h.matched_mode m hm, hmode]) (h.low_ne (mem_matched hm))
  · intro c hc
    exact (h.captured_kept c hc).useMatchL (h.low_ne (mem_captured hc))

lemma useMatchH (h : Inv f s g) (hmode : s.unify = false) (hlt : s.currentMatchhigh < f.numberOfMatchCapture)
    (v : BitVec 32) : Inv f (s.useMatchH v) { g with matched := ⟨.H, s.currentMatchhigh, v⟩ :: g.matched } where
  events_nodup := h.events_nodup
  events_lt := h.events_lt
  event_le := h.event_le
  registers_nodup := List.nodup_cons.mpr ⟨h.next_not_mem true, h.registers_nodup⟩
  registers_lt := List.forall_mem_cons.mpr
    ⟨Nat.lt_succ_self _, h.registers_lt_of_le (Nat.le_refl _) (Nat.le_succ _)⟩
  match_le := h.match_le
  matchhigh_le := hlt
  matched_kept := by
    refine List.forall_mem_cons.mpr ⟨?_, ?_⟩
    · simp [MatchGrant.Kept, Sct.useMatchH, Halves.ofWord_or, h.fresh_modehigh]
    · intro m hm
      exact (h.matched_kept m hm).useMatchH (by simp [h.matched_mode m hm, hmode]) (h.high_ne (mem_matched hm))
  captured_kept := fun c hc => (h.captured_kept c hc).useMatchH (h.high_ne (mem_captured hc))
  matched_mode := List.forall_mem_cons.mpr ⟨by simp [Sct.useMatchH, hmode], h.matched_mode⟩
  captured_mode := h.captured_mode
  fresh_capCtrl := by
    intro k hk
    by_cases hne : k = s.currentMatchhigh
    · subst hne
      simpa [Sct.useMatchH, Halves.ofWord_or] using h.fresh_capCtrl _ hk
    · simpa [Sct.useMatchH, Function.update_of_ne hne] using h.fresh_capCtrl k hk
  fresh_mode := h.fresh_mode
  fresh_modehigh := fun k hk => h.fresh_modehigh k (Nat.le_of_succ_le hk)
  state_lt := h.state_lt

/-- In the unified mode every grant is one of the low half. -/
lemma unified_ne {counter : Counter} {k : Nat} (h : Inv f s g) (hcounter : counter = .U)
    (hmem : (counter.high, k) ∈ g.registers) : k ≠ s.currentMatch := by
  subst hcounter
  exact h.low_ne hmem rfl

lemma useMatchU (h : Inv f s g) (hmode : s.unify = true) (hlt : s.currentMatch < f.numberOfMatchCapture)
    (v : BitVec 32) : Inv f (s.useMatchU v) { g with matched := ⟨.U, s.currentMatch, v⟩ :: g.matched } := by
  refine h.takeLow rfl rfl (by simp [hmode]) hlt ?_ ?_ ?_
  · simp [MatchGrant.Kept, Sct.useMatchU, h.fresh_mode]
  · intro m hm
    exact (h.matched_kept m hm).useMatchU (h.unified_ne ((h.matched_mode m hm).mpr hmode) (mem_matched hm))
  · intro c hc
    exact (h.captured_kept c hc).useMatchU (h.unified_ne ((h.captured_mode c hc).mpr hmode) (mem_captured hc))

lemma registers_addCapture (g : Grants) (counter : Counter) (register event : Nat) :
    (g.addCapture counter register event).registers.Perm ((counter.high, register) :: g.registers) :=
  List.perm_middle

lemma useCaptureL {counter : Counter} (h : Inv f s g) (hcounter : counter ≠ .H) (hmode : counter = .U ↔ s.unify = true)
    (hlt : s.currentMatch < f.numberOfMatchCapture) (event : Nat) :
    Inv f (s.useCaptureL event) (g.addCapture counter s.currentMatch event) := by
  have hlow : counter.high = false := by
    cases counter
    · rfl
    · exact absurd rfl hcounter
    · rfl
  have hperm := registers_addCapture g counter s.currentMatch event
  rw [hlow] at hperm
  have hlt16 : s.currentMatch < 16 := Nat.lt_of_lt_of_le hlt f.match_le
  exact {
    events_nodup := h.events_nodup
    events_lt := h.events_lt
    event_le := h.event_le
    registers_nodup := hperm.nodup_iff.mpr (List.nodup_cons.mpr ⟨h.next_not_mem false, h.registers_nodup⟩)
    registers_lt := by
      intro r hr
      rcases List.mem_cons.mp (hperm.mem_iff.mp hr) with rfl | hr
      · exact Nat.lt_succ_self _
      · exact h.registers_lt_of_le (Nat.le_succ _) (Nat.le_refl _) r hr
    match_le := hlt
    matchhigh_le := h.matchhigh_le
    matched_kept := fun m hm => (h.matched_kept m hm).useCaptureL hlt16 (h.low_ne (mem_matched hm))
    captured_kept := by
      refine List.forall_mem_cons.mpr ⟨?_, ?_⟩
      · have hcap := h.fresh_capCtrl s.currentMatch (Nat.le_refl _)
        cases counter with
        | H => exact absurd rfl hcounter
        | L | U => simp [CaptureGrant.Kept, Sct.useCaptureL, hcap, getLsbD_or_shiftLeft _ hlt16]
      · intro c hc
        exact (h.captured_kept c hc).useCaptureL hlt16 (h.low_ne (mem_captured hc))
    matched_mode := h.matched_mode
    captured_mode := List.forall_mem_cons.mpr ⟨hmode, h.captured_mode⟩
    fresh_capCtrl := by
      intro k hk
      have hne : k ≠ s.currentMatch := Nat.ne_of_gt hk
      simpa [Sct.useCaptureL, Function.update_of_ne hne] using h.fresh_capCtrl k (Nat.le_of_succ_le hk)
    fresh_mode := by
      intro k hk
      have hne : k ≠ s.currentMatch := Nat.ne_of_gt hk
      simpa [Sct.useCaptureL, getLsbD_or_shiftLeft _ hlt16, hne] using h.fresh_mode k (Nat.le_of_succ_le hk)
    fresh_modehigh := h.fresh_modehigh
    state_lt := h.state_lt }

lemma useCaptureH (h : Inv f s g) (hmode : s.unify = false) (hlt : s.currentMatchhigh < f.numberOfMatchCapture)
    (hfirst : s.regMode.h = 0) (event : Nat) :
    Inv f (s.useCaptureH event) (g.addCapture .H s.currentMatchhigh event) := by
  have hperm := registers_addCapture g .H s.currentMatchhigh event
  have hlt16 : s.currentMatchhigh < 16 := Nat.lt_of_lt_of_le hlt f.match_le
  exact {
    events_nodup := h.events_nodup
    events_lt := h.events_lt
    event_le := h.event_le
    registers_nodup := hperm.nodup_iff.mpr (List.nodup_cons.mpr ⟨h.next_not_mem true, h.registers_nodup⟩)
    registers_lt := by
      intro r hr
      rcases List.mem_cons.mp (hperm.mem_iff.mp hr) with rfl | hr
      · exact Nat.lt_succ_self _
      · exact h.registers_lt_of_le (Nat.le_refl _) (Nat.le_succ _) r hr
    match_le := h.match_le
    matchhigh_le := hlt
    matched_kept := by
      intro m hm
      exact (h.matched_kept m hm).useCaptureH hlt16 (by simp [h.matched_mode m hm, hmode]) (h.high_ne (mem_matched hm))
    captured_kept := by
      refine List.forall_mem_cons.mpr ⟨?_, ?_⟩
      · simp [CaptureGrant.Kept, Sct.regMode_useCaptureH, Sct.matchRel_useCaptureH, getLsbD_one_shiftLeft hlt16]
      · intro c hc
        exact (h.captured_kept c hc).useCaptureH hfirst
    matched_mode := h.matched_mode
    captured_mode := List.forall_mem_cons.mpr ⟨by simp [Sct.useCaptureH, hmode], h.captured_mode⟩
    fresh_capCtrl := by
      intro k hk
      rw [Sct.matchRel_useCaptureH]
      by_cases hne : k = s.currentMatchhigh
      · subst hne
        simpa using h.fresh_capCtrl _ hk
      · simpa [Function.update_of_ne hne] using h.fresh_capCtrl k hk
    fresh_mode := by
      intro k hk
      rw [Sct.regMode_useCaptureH]
      exact h.fresh_mode k hk
    fresh_modehigh := by
      intro k hk
      have hne : k ≠ s.currentMatchhigh := Nat.ne_of_gt hk
      simp [Sct.regMode_useCaptureH, getLsbD_one_shiftLeft hlt16, hne]
    state_lt := h.state_lt }

lemma scheduleCurrent (h : Inv f s g) (hlt : s.currentEvent < f.numberOfEvents) (ctrl : EvCtrl) :
    Inv f (s.scheduleCurrent ctrl).1 { g with events := s.currentEvent :: g.events } :=
  { h with
    events_nodup := by
      refine List.nodup_cons.mpr ⟨?_, h.events_nodup⟩
      intro hmem
      exact Nat.lt_irrefl _ (h.events_lt _ hmem)
    events_lt := by
      refine List.forall_mem_cons.mpr ⟨Nat.lt_succ_self _, ?_⟩
      intro e he
      exact Nat.lt_succ_of_lt (h.events_lt e he)
    event_le := hlt }

/-- The event of a match register reads its number from the control register. -/
lemma scheduleMatch {s' : Sct} {how : EventType} {counter : Counter} {k : Nat} {v : BitVec 32}
    (h : Inv f s' { g with matched := ⟨counter, k, v⟩ :: g.matched }) (hlt : s'.currentEvent < f.numberOfEvents)
    (hk : k < f.numberOfMatchCapture) (hhow : how.combMode ≠ 2) (ioSel : Nat) (hEvent : Bool) :
    Inv f (s'.scheduleCurrent ⟨how, ioSel, k % 16, hEvent⟩).1
      (g.addEvent (s'.scheduleCurrent ⟨how, ioSel, k % 16, hEvent⟩).1 s'.currentEvent how v counter) := by
  have hmod : k % 16 = k := Nat.mod_eq_of_lt (Nat.lt_of_lt_of_le hk f.match_le)
  have hgrants : g.addEvent (s'.scheduleCurrent ⟨how, ioSel, k % 16, hEvent⟩).1 s'.currentEvent how v counter =
      { g with events := s'.currentEvent :: g.events, matched := ⟨counter, k, v⟩ :: g.matched } := by
    simp only [Grants.addEvent, Sct.scheduleCurrent, if_neg hhow, Function.update_self, hmod]
  rw [hgrants]
  exact h.scheduleCurrent hlt _

/-- An event is created with its match register, or nothing happens. -/
lemma createAndScheduleEvent (h : Inv f s g) (how : EventType) (v : BitVec 32) (io : Nat) (counter : Counter) :
    s.createAndScheduleEvent f how v io counter = (s, none) ∨
      ∃ s' e, s.createAndScheduleEvent f how v io counter = (s', some e) ∧ Inv f s' (g.addEvent s' e how v counter) := by
  rw [Sct.createAndScheduleEvent]
  by_cases hevent : s.currentEvent < f.numberOfEvents
  swap
  · left
    rw [if_neg hevent]
  rw [if_pos hevent]
  by_cases hhow : how.combMode = 2
  · right
    rw [if_pos hhow]
    refine ⟨_, _, rfl, ?_⟩
    simp only [Grants.addEvent, if_pos hhow]
    exact h.scheduleCurrent hevent _
  rw [if_neg hhow]
  dsimp only
  generalize (if how.combMode = 0 ∨ how.combMode = 3 then io % 16 else 0) = ioSel
  split_ifs with hL hltL hH hltH hU hltU
  · right
    obtain ⟨rfl, hmode⟩ := hL
    exact ⟨_, _, rfl, (h.useMatchL hmode hltL v).scheduleMatch hevent hltL hhow _ _⟩
  · left; rfl
  · right
    obtain ⟨rfl, hmode⟩ := hH
    exact ⟨_, _, rfl, (h.useMatchH hmode hltH v).scheduleMatch hevent hltH hhow _ _⟩
  · left; rfl
  · right
    obtain ⟨rfl, hmode⟩ := hU
    exact ⟨_, _, rfl, (h.useMatchU hmode hltU v).scheduleMatch hevent hltU hhow _ _⟩
  · left; rfl
  · left; rfl

lemma setupCaptureAction (h : Inv f s g) (counter : Counter) (event : Nat) (hmode : counter = .U ↔ s.unify = true)
    (hfirst : counter ≠ .H ∨ f.numberOfMatchCapture ≤ s.currentMatchhigh ∨ s.regMode.h = 0) :
    s.setupCaptureAction f counter event = (s, none) ∨
      ∃ s' k, s.setupCaptureAction f counter event = (s', some k) ∧ Inv f s' (g.addCapture counter k event) := by
  rw [Sct.setupCaptureAction]
  split_ifs with hcounter hlt hlt
  · right
    have hne : counter ≠ .H := by
      rintro rfl
      simp at hcounter
    exact ⟨_, _, rfl, h.useCaptureL hne hmode hlt event⟩
  · left; rfl
  · right
    have hH : counter = .H := by
      cases counter
      · simp at hcounter
      · rfl
      · simp at hcounter
    subst hH
    have hunify : s.unify = false := by simpa using hmode
    have hzero : s.regMode.h = 0 := (hfirst.resolve_left (not_not.mpr rfl)).resolve_left (Nat.not_le.mpr hlt)
    exact ⟨_, _, rfl, h.useCaptureH hunify hlt hzero event⟩
  · left; rfl

lemma createMatchU {s : Sct} (hmode : s.unify = true) (hevent : s.currentEvent < f.numberOfEvents)
    (hlt : s.currentMatch < f.numberOfMatchCapture) (v : BitVec 32) :
    s.createAndScheduleEvent f .matchOnly v 0 .U =
      (s.useMatchU v).scheduleCurrent ⟨.matchOnly, 0, s.currentMatch % 16, false⟩ := by
  simp [Sct.createAndScheduleEvent, EventType.combMode, hmode, hevent, hlt]

lemma createMatchU_none {s : Sct} (hlt : f.numberOfMatchCapture ≤ s.currentMatch) (v : BitVec 32) :
    s.createAndScheduleEvent f .matchOnly v 0 .U = (s, none) := by
  simp [Sct.createAndScheduleEvent, EventType.combMode, Nat.not_lt.mpr hlt]

/-- The two events of a PWM signal are created with their match registers, or nothing happens. -/
lemma createPwmEvents (h : Inv f s g) (hmode : s.unify = true) (hevent : s.currentEvent + 2 ≤ f.numberOfEvents)
    (hmatch : s.currentMatch + 1 ≠ f.numberOfMatchCapture) (v w : BitVec 32) :
    s.createPwmEvents f v w = (s, none) ∨
      ∃ s' d e, s.createPwmEvents f v w = (s', some (d, e)) ∧
        Inv f s' ((g.addEvent s' d .matchOnly v .U).addEvent s' e .matchOnly w .U) := by
  by_cases hlt : s.currentMatch < f.numberOfMatchCapture
  · right
    have hlt' : s.currentMatch + 1 < f.numberOfMatchCapture := by omega
    have hhow : EventType.matchOnly.combMode ≠ 2 := nofun
    have hfirst := (h.useMatchU hmode hlt v).scheduleMatch (Nat.lt_of_succ_lt hevent) hlt hhow 0 false
    rw [Sct.createPwmEvents, createMatchU hmode (Nat.lt_of_succ_lt hevent) hlt]
    generalize ht : ((s.useMatchU v).scheduleCurrent ⟨.matchOnly, 0, s.currentMatch % 16, false⟩).1 = t at hfirst
    have htmode : t.unify = true := by rw [← ht]; exact hmode
    have htevent : t.currentEvent = s.currentEvent + 1 := by rw [← ht]; rfl
    have htmatch : t.currentMatch = s.currentMatch + 1 := by rw [← ht]; rfl
    rw [← htmatch] at hlt'
    have hevent' : t.currentEvent < f.numberOfEvents := by omega
    have hsecond := (hfirst.useMatchU htmode hlt' w).scheduleMatch hevent' hlt' hhow 0 false
    rw [createMatchU htmode hevent' hlt']
    refine ⟨_, _, _, rfl, ?_⟩
    -- the second event leaves the control register of the first one alone
    have hne : s.currentEvent ≠ t.currentEvent := by omega
    simp only [Grants.addEvent, if_neg hhow, Sct.scheduleCurrent, Sct.useMatchU, Function.update_self,
      Function.update_of_ne hne] at hsecond ⊢
    exact hsecond
  · left
    rw [Sct.createPwmEvents, createMatchU_none (Nat.not_lt.mp hlt), createMatchU_none (Nat.not_lt.mp hlt)]

lemma useBidirection (h : Inv f s g) (mode : PwmMode) : Inv f (s.useBidirection mode) g := by
  rw [Sct.useBidirection]
  split_ifs
  · exact { h with }
  · exact h

lemma setupPwmActions (h : Inv f s g) (pwmParams : PwmSignalParam) (mode : PwmMode) (d e : Nat) :
    Inv f (s.setupPwmActions pwmParams mode d e) g := by
  unfold Sct.setupPwmActions
  split <;> exact { h with }

/-- The actions do not write the control registers of the events. -/
lemma addEvent_setupPwmActions (pwmParams : PwmSignalParam) (mode : PwmMode) (d e event : Nat) (v : BitVec 32) :
    g.addEvent (s.setupPwmActions pwmParams mode d e) event .matchOnly v .U = g.addEvent s event .matchOnly v .U := by
  have hctrl : (s.setupPwmActions pwmParams mode d e).evCtrl = s.evCtrl := by
    unfold Sct.setupPwmActions
    split <;> rfl
  rw [Grants.addEvent, hctrl]
  rfl

lemma setupPwm (h : Inv f s g) (pwmParams : PwmSignalParam) (mode : PwmMode) (freq clock : BitVec 32)
    (hmode : s.unify = true) (hmatch : f.numberOfEvents < s.currentEvent + 2 ∨ s.currentMatch + 1 ≠ f.numberOfMatchCapture) :
    (∃ s', s.setupPwm f pwmParams mode freq clock = (s', none) ∧ SameResources s s' ∧ Inv f s' g) ∨
      ∃ s' d e, s.setupPwm f pwmParams mode freq clock = (s', some (d, e)) ∧
        Inv f s' ((g.addEvent s' d .matchOnly (s.pwmPeriod mode freq clock) .U).addEvent s' e .matchOnly
          (Sct.pwmPulsePeriod (s.pwmPeriod mode freq clock) pwmParams.dutyCyclePercent) .U) := by
  rw [Sct.setupPwm]
  by_cases hevent : s.currentEvent + 2 ≤ f.numberOfEvents
  · rw [if_pos hevent]
    have hmatch' := hmatch.resolve_left (Nat.not_lt.mpr hevent)
    generalize s.pwmPeriod mode freq clock = period
    have hsame : SameResources s (s.useBidirection mode) ∧ (s.useBidirection mode).unify = s.unify := by
      rw [Sct.useBidirection]
      split_ifs <;> exact ⟨⟨rfl, rfl, rfl, rfl, rfl, rfl, rfl, rfl, rfl⟩, rfl⟩
    obtain ⟨hsame, hunify⟩ := hsame
    obtain ⟨-, -, -, -, -, hcurrentEvent, -, hcurrentMatch, -⟩ := id hsame
    rcases (h.useBidirection mode).createPwmEvents (hunify.trans hmode) (hcurrentEvent ▸ hevent) (hcurrentMatch ▸ hmatch')
      period (Sct.pwmPulsePeriod period pwmParams.dutyCyclePercent) with hnone | ⟨s', d, e, hsome, hinv⟩
    · left
      refine ⟨s.useBidirection mode, ?_, hsame, h.useBidirection mode⟩
      simp only [hnone]
    · right
      refine ⟨s'.setupPwmActions pwmParams mode d e, d, e, by simp only [hsome], ?_⟩
      rw [addEvent_setupPwmActions, addEvent_setupPwmActions]
      exact hinv.setupPwmActions pwmParams mode d e
  · left
    exact ⟨s, if_neg hevent, ⟨rfl, rfl, rfl, rfl, rfl, rfl, rfl, rfl, rfl⟩, h⟩

lemma increaseState (h : Inv f s g) (hstate : s.currentState + 1 ≠ f.numberOfStates) : Inv f (s.increaseState f).1 g := by
  have hlt := h.state_lt
  rw [Sct.increaseState, if_neg (Nat.not_le.mpr hlt)]
  exact { h with state_lt := Nat.lt_of_le_of_ne hlt hstate }

/-- A call keeps the grants, and when it fails the registers and the numbers too. -/
lemma call (h : Inv f s g) {call : Call} (hallowed : call.Allowed s) (hharmless : call.Harmless f s) :
    Inv f (s.call f call).1 (g.after f s call) ∧ ((s.call f call).2 = false → SameResources s (s.call f call).1) := by
  have hsame : SameResources s s := ⟨rfl, rfl, rfl, rfl, rfl, rfl, rfl, rfl, rfl⟩
  cases call with
  | createAndScheduleEvent how v io counter =>
    rcases h.createAndScheduleEvent how v io counter with hnone | ⟨s', e, hsome, hinv⟩
    · simp only [Sct.call, Grants.after, hnone]
      exact ⟨h, fun _ => hsame⟩
    · simp only [Sct.call, Grants.after, hsome]
      exact ⟨hinv, nofun⟩
  | setupPwm pwmParams mode freq clock =>
    rcases h.setupPwm pwmParams mode freq clock hallowed hharmless with ⟨s', hnone, hsame', hinv⟩ | ⟨s', d, e, hsome, hinv⟩
    · simp only [Sct.call, Grants.after, hnone]
      exact ⟨hinv, fun _ => hsame'⟩
    · simp only [Sct.call, Grants.after, hsome]
      exact ⟨hinv, nofun⟩
  | setupCaptureAction counter event =>
    rcases h.setupCaptureAction counter event hallowed hharmless with hnone | ⟨s', k, hsome, hinv⟩
    · simp only [Sct.call, Grants.after, hnone]
      exact ⟨h, fun _ => hsame⟩
    · simp only [Sct.call, Grants.after, hsome]
      exact ⟨hinv, nofun⟩
  | increaseState =>
    refine ⟨h.increaseState hharmless, ?_⟩
    have hsucceeds : s.increaseState f = ({ s with currentState := s.currentState + 1 }, some ()) :=
      if_neg (Nat.not_le.mpr h.state_lt)
    simp only [Sct.call, hsucceeds]
    exact nofun

end Inv

/-- In a run of harmless calls the grants stay in force, and a call that fails changes nothing. -/
theorem grants_kept (f : Features) (config : Config) (calls : List Call)
    (hrun : EachStep (System.step f) (fun s call => call.Allowed s.sct ∧ call.Harmless f s.sct) (System.init config) calls) :
    let s := calls.foldl (System.step f) (System.init config)
    Granted f s.sct s.grants ∧
      ∀ call : Call, call.Allowed s.sct → call.Harmless f s.sct → (s.sct.call f call).2 = false →
        SameResources s.sct (s.sct.call f call).1 := by
  have hinv := hrun.invariant (I := fun s => Inv f s.sct s.grants)
    (fun s call h hcond => (h.call hcond.1 hcond.2).1) calls (Inv.init config)
  exact ⟨hinv.granted, fun call hallowed hharmless => (hinv.call hallowed hharmless).2⟩

/-- A device with ten of each. -/
def tenOfEach : Features :=
  ⟨10, 10, 10, by decide, by decide, by decide, by decide⟩

/-- Both halves of register 0, the low one for a match and the high one for a capture, and one match event more. -/
theorem grants_kept_halves :
    Granted tenOfEach
      (([.createAndScheduleEvent .matchOnly 100 0 .L, .setupCaptureAction .H 0, .increaseState,
        .createAndScheduleEvent .matchOnly 200 0 .H] : List Call).foldl (System.step tenOfEach)
          (System.init ⟨false, false, 0, 0⟩)).sct
      (([.createAndScheduleEvent .matchOnly 100 0 .L, .setupCaptureAction .H 0, .increaseState,
        .createAndScheduleEvent .matchOnly 200 0 .H] : List Call).foldl (System.step tenOfEach)
          (System.init ⟨false, false, 0, 0⟩)).grants :=
  (grants_kept tenOfEach ⟨false, false, 0, 0⟩ _ (by decide)).1

/-- The second capture register of the high half takes its role from the first. -/
theorem grants_not_kept :
    ¬∀ (f : Features) (config : Config) (calls : List Call),
      EachStep (System.step f) (fun s call => call.Allowed s.sct) (System.init config) calls →
        let s := calls.foldl (System.step f) (System.init config)
        Granted f s.sct s.grants ∧
          ∀ call : Call, call.Allowed s.sct → (s.sct.call f call).2 = false →
            SameResources s.sct (s.sct.call f call).1 := by
  intro h
  have hrun := h tenOfEach ⟨false, false, 0, 0⟩ [.setupCaptureAction .H 0, .setupCaptureAction .H 1] (by decide)
  have hkept := hrun.1.captured_kept ⟨.H, 0, 0⟩ (List.mem_cons_of_mem _ List.mem_cons_self)
  exact absurd hkept.2 (by decide)

end McuxDrivers.Sctimer
