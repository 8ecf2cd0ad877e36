import McuxDrivers.Lib.Loop
import McuxDrivers.Lib.Traced
import Mathlib.Data.Int.Order.Basic
import Mathlib.Tactic.Ring

/-!
# The baud rate of the LPI2C master

`LPI2C_MasterSetBaudRate` with every operation on unsigned integers traced. The search is written out for the eight
prescalers; the loop that lowers `tmpHigh` runs as in the source.
-/

namespace McuxDrivers.Lpi2c.BaudRate
open McuxDrivers.Lib

/-- The variables of the search. -/
structure Search where
  divider : Nat
  bestPre : Nat
  bestDivider : Nat
  bestclkCycle : Nat
  bestError : Nat

/-- What goes into the fields of `MCFGR1`, `MCCR0` and `MCFGR2`, before the fields cut it off. -/
structure Timing where
  prescale : Nat
  clkhi : Nat
  clklo : Nat
  sethold : Nat
  datavd : Nat
  filtsda : Nat

/-- `absError`. -/
def rateDistance (baudRate computedRate : Nat) : Nat :=
  if baudRate > computedRate then baudRate - computedRate else computedRate - baudRate

section Driver

variable (sourceClock baudRate filtScl : Nat)

/-- `clkCycle` of the search for a divider. -/
def countCycles (divider : Nat) : Traced Nat := do
  let tens ← mulW 32 10 sourceClock
  let rounded ← addW 32 (tens / divider / baudRate) 5
  let cycles ← subW 32 (rounded / 10) ((2 + filtScl) / divider)
  let cycles ← subW 32 cycles 2
  narrow 8 cycles

/-- `divider *= 2U` on `uint8_t`, and the next round. -/
def nextDivider (s : Search) : Traced (Search × Bool) := do
  let divider ← narrow 8 (s.divider * 2)
  pure ({ s with divider := divider }, false)

/-- The rest of a round of the search; the second component is set by the `break`. -/
def judgeCycles (prescale : Nat) (s : Search) (clkCycle : Nat) : Traced (Search × Bool) := do
  let limit ← subW 32 120 ((2 + filtScl) / s.divider)
  if clkCycle > limit then nextDivider s
  else
    let computedRate := sourceClock / s.divider / (clkCycle + 2 + (2 + filtScl) / s.divider)
    let absError := rateDistance baudRate computedRate
    if absError < s.bestError then
      let s := { s with
        bestPre := prescale, bestDivider := s.divider, bestclkCycle := clkCycle, bestError := absError }
      if absError = 0 then pure (s, true) else nextDivider s
    else nextDivider s

def searchLoop : Nat → Nat → Search → Traced Search
  | 0, _, s => pure s
  | count + 1, prescale, s => do
    let clkCycle ← countCycles sourceClock baudRate filtScl s.divider
    let round ← judgeCycles sourceClock baudRate filtScl prescale s clkCycle
    if round.2 then pure round.1 else searchLoop count (prescale + 1) round.1

def search : Traced Search :=
  searchLoop sourceClock baudRate filtScl 8 0
    { divider := 1, bestPre := 0, bestDivider := 1, bestclkCycle := 0, bestError := 0xffffffff }

/-- `tmpHigh` before the loop. -/
def highStart (s : Search) : Traced Nat := do
  let rest ← subW 32 s.bestclkCycle ((2 + filtScl) / s.bestDivider)
  narrow 8 (rest / 2)

/-- What the loop compares `tmpHigh` with. -/
def highBound (s : Search) : Traced Nat := do
  let product ← mulW 32 52 sourceClock
  let rest ← subW 32 s.bestclkCycle (product / baudRate / s.bestDivider / 100)
  addW 32 rest 1

def lowerHigh (bound tmpHigh : Nat) : Nat ⊕ Nat :=
  if tmpHigh > bound then .inl (tmpHigh - 1) else .inr tmpHigh

/-- `SETHOLD` or `DATAVD`, the part of a cycle with `parts`. -/
def holdCycles (parts : Nat) (s : Search) : Traced Nat := do
  let hold ← narrow 8 (sourceClock / baudRate / s.bestDivider / parts)
  let less ← subW 32 hold 1
  narrow 8 less

/-- `FILTSDA` from its value in the register. -/
def raiseFiltSda (filtSda : Nat) (s : Search) : Traced Nat := do
  if sourceClock / baudRate / 20 > s.bestDivider + 2 then
    let least ← subW 32 (sourceClock / baudRate / 20) s.bestDivider
    let least ← subW 32 least 2
    if filtSda < least then
      let low ← narrow 8 (sourceClock / baudRate / 20)
      let low ← subW 32 low s.bestDivider
      let low ← subW 32 low 2
      narrow 8 low
    else pure filtSda
  else pure filtSda

def fields (filtSda : Nat) (s : Search) (tmpHigh : Nat) : Traced Timing := do
  let tmpHold ← holdCycles sourceClock baudRate 2 s
  let tmpDataVd ← holdCycles sourceClock baudRate 4 s
  let filtSda ← raiseFiltSda sourceClock baudRate filtSda s
  let clklo ← subW 32 s.bestclkCycle tmpHigh
  pure { prescale := s.bestPre, clkhi := tmpHigh, clklo := clklo, sethold := tmpHold, datavd := tmpDataVd,
         filtsda := filtSda }

/-- `LPI2C_MasterSetBaudRate`, with the fields `FILTSCL` and `FILTSDA` that it reads. -/
def masterSetBaudRate (filtSda fuel : Nat) : Option (Traced Timing) :=
  let s := search sourceClock baudRate filtScl
  let high := highStart filtScl s.value
  let bound := highBound sourceClock baudRate s.value
  (loop (lowerHigh bound.value) fuel high.value).map fun tmpHigh => do
    let s ← s
    let _ ← high
    let _ ← bound
    fields sourceClock baudRate filtSda s tmpHigh

/-- The rounded number of prescaled clock cycles in a cycle of the bus. -/
def rounded (p : Nat) : Nat :=
  (10 * sourceClock / 2 ^ p / baudRate + 5) / 10

/-- The latency of SCL. -/
def latency (p : Nat) : Nat :=
  (2 + filtScl) / 2 ^ p

/-- `clkCycle` as an integer. -/
def cycleCount (p : Nat) : Int :=
  (rounded sourceClock baudRate p : Int) - latency filtScl p - 2

/-- The prescalers with a count of cycles that the registers can hold. -/
structure Admissible (p : Nat) : Prop where
  prescale : p ≤ 7
  four_le : 4 ≤ cycleCount sourceClock baudRate filtScl p
  le_limit : cycleCount sourceClock baudRate filtScl p ≤ 120 - latency filtScl p

/-- The rate of the bus with the rounded count. -/
def computedRate (p : Nat) : Nat :=
  sourceClock / 2 ^ p / rounded sourceClock baudRate p

def rateError (p : Nat) : Nat :=
  ((computedRate sourceClock baudRate p : Int) - baudRate).natAbs

/-- Legal bus timing, computed without wrapping. -/
structure Legal (t : Traced Timing) : Prop where
  exact : t.wrapped = false
  admissible : Admissible sourceClock baudRate filtScl t.value.prescale
  best : ∀ q, Admissible sourceClock baudRate filtScl q →
    rateError sourceClock baudRate t.value.prescale ≤ rateError sourceClock baudRate q
  cycle : (t.value.clkhi + t.value.clklo : Nat) = cycleCount sourceClock baudRate filtScl t.value.prescale
  clkhi : t.value.clkhi ≤ 63
  clklo : t.value.clklo ≤ 63
  low_ge_high : t.value.clkhi + latency filtScl t.value.prescale ≤ t.value.clklo
  /-- The low period in units of a hundredth is at least 52 of the period of the bus. -/
  low_period : 52 * sourceClock ≤ 100 * ((t.value.clklo + 1) * 2 ^ t.value.prescale * baudRate)
  sethold : t.value.sethold ≤ 63
  datavd : t.value.datavd ≤ 63
  filtsda : t.value.filtsda ≤ 15

end Driver

section Rounds

variable {sourceClock baudRate filtScl : Nat}

/-- The count of cycles is a byte. -/
def Countable (sourceClock baudRate filtScl p : Nat) : Prop :=
  latency filtScl p + 2 ≤ rounded sourceClock baudRate p ∧ rounded sourceClock baudRate p < latency filtScl p + 258

/-- A prescaler that gives the baud rate exactly. -/
structure ExactAt (sourceClock baudRate filtScl p : Nat) : Prop where
  prescale : p ≤ 7
  lower : latency filtScl p + 2 ≤ rounded sourceClock baudRate p
  upper : rounded sourceClock baudRate p ≤ 122
  rate : computedRate sourceClock baudRate p = baudRate

lemma rateDistance_eq_zero {rate : Nat} : rateDistance baudRate rate = 0 ↔ rate = baudRate := by
  unfold rateDistance
  split_ifs <;> omega

lemma latency_le (hf : filtScl ≤ 15) (p : Nat) : latency filtScl p ≤ 17 :=
  (Nat.div_le_self _ _).trans (by omega)

lemma ExactAt.countable {p : Nat} (h : ExactAt sourceClock baudRate filtScl p) :
    Countable sourceClock baudRate filtScl p := by
  have hupper := h.upper
  exact ⟨h.lower, by omega⟩

/-- `clkCycle` wraps around unless the count is a byte. -/
lemma countCycles_wrapped (hsrc : sourceClock ≤ 200000000) (p : Nat) :
    (countCycles sourceClock baudRate filtScl (2 ^ p)).wrapped = false ↔ Countable sourceClock baudRate filtScl p := by
  have htens : 10 * sourceClock < 2 ^ 32 := by omega
  have hquot : 10 * sourceClock / 2 ^ p / baudRate ≤ 10 * sourceClock :=
    (Nat.div_le_self _ _).trans (Nat.div_le_self _ _)
  unfold countCycles Countable
  rw [mulW_exact htens, Traced.pure_bind, addW_exact (by omega), Traced.pure_bind]
  change ((subW 32 (rounded sourceClock baudRate p) (latency filtScl p)) >>= _).wrapped = false ↔ _
  rw [Traced.bind_wrapped_eq_false, subW_wrapped, Traced.bind_wrapped_eq_false, subW_wrapped]
  generalize rounded sourceClock baudRate p = r
  generalize latency filtScl p = l
  constructor
  · rintro ⟨hl, htwo, hbyte⟩
    rw [subW_exact hl, Traced.pure_value] at htwo hbyte
    rw [subW_exact htwo, Traced.pure_value, narrow_wrapped] at hbyte
    omega
  · rintro ⟨hlow, hhigh⟩
    have hl : l ≤ r := by omega
    rw [subW_exact hl, Traced.pure_value]
    refine ⟨hl, by omega, ?_⟩
    rw [subW_exact (by omega), Traced.pure_value, narrow_wrapped]
    omega

lemma countCycles_eq {p : Nat} (hsrc : sourceClock ≤ 200000000) (h : Countable sourceClock baudRate filtScl p) :
    countCycles sourceClock baudRate filtScl (2 ^ p) = pure (rounded sourceClock baudRate p - latency filtScl p - 2) := by
  have hquot : 10 * sourceClock / 2 ^ p / baudRate ≤ 10 * sourceClock :=
    (Nat.div_le_self _ _).trans (Nat.div_le_self _ _)
  obtain ⟨hlow, hhigh⟩ := h
  unfold countCycles
  rw [mulW_exact (by omega), Traced.pure_bind, addW_exact (by omega), Traced.pure_bind]
  change (subW 32 (rounded sourceClock baudRate p) (latency filtScl p)) >>= _ = _
  rw [subW_exact (by omega), Traced.pure_bind, subW_exact (by omega), Traced.pure_bind, narrow_exact (by omega)]

/-- The last doubling of the divider wraps around. -/
lemma nextDivider_cases {s : Search} {p : Nat} (hdivider : s.divider = 2 ^ p) :
    (p < 7 → nextDivider s = pure ({ s with divider := 2 ^ (p + 1) }, false)) ∧
      (7 ≤ p → (nextDivider s).wrapped = true) := by
  unfold nextDivider
  rw [hdivider]
  constructor
  · intro hp
    have hpow : 2 ^ p ≤ 2 ^ 6 := Nat.pow_le_pow_right (by decide) (by omega)
    rw [narrow_exact (by omega), Traced.pure_bind, pow_succ]
  · intro hp
    have hpow : 2 ^ 7 ≤ 2 ^ p := Nat.pow_le_pow_right (by decide) hp
    rw [Traced.bind_wrapped, narrow, decide_eq_true (by omega), Bool.true_or]

variable {s : Search} {p : Nat}

lemma judgeCycles_exact (hf : filtScl ≤ 15) (hdivider : s.divider = 2 ^ p) (herror : 0 < s.bestError)
    (h : ExactAt sourceClock baudRate filtScl p) :
    judgeCycles sourceClock baudRate filtScl p s (rounded sourceClock baudRate p - latency filtScl p - 2) =
      pure ({ s with
        bestPre := p, bestDivider := 2 ^ p,
        bestclkCycle := rounded sourceClock baudRate p - latency filtScl p - 2, bestError := 0 }, true) := by
  obtain ⟨-, hlow, hhigh, hrate⟩ := h
  have hlatency := latency_le hf p
  unfold judgeCycles
  rw [hdivider]
  change subW 32 120 (latency filtScl p) >>= _ = _
  rw [subW_exact (by omega), Traced.pure_bind, if_neg (by omega)]
  have hdivisor : rounded sourceClock baudRate p - latency filtScl p - 2 + 2 + (2 + filtScl) / 2 ^ p =
      rounded sourceClock baudRate p := by
    change _ - _ - 2 + 2 + latency filtScl p = _
    omega
  have hdistance : rateDistance baudRate (sourceClock / 2 ^ p / rounded sourceClock baudRate p) = 0 :=
    rateDistance_eq_zero.mpr hrate
  simp only [hdivisor, hdistance, herror, if_true]

/-- Without an exact rate the search goes on, with the divider doubled. -/
lemma judgeCycles_next (hf : filtScl ≤ 15) (hdivider : s.divider = 2 ^ p) (herror : 0 < s.bestError) (hp : p ≤ 7)
    (hcount : Countable sourceClock baudRate filtScl p) (h : ¬ ExactAt sourceClock baudRate filtScl p) :
    ∃ s' : Search, s'.divider = 2 ^ p ∧ 0 < s'.bestError ∧
      judgeCycles sourceClock baudRate filtScl p s (rounded sourceClock baudRate p - latency filtScl p - 2) =
        nextDivider s' := by
  obtain ⟨hlow, -⟩ := hcount
  have hlatency := latency_le hf p
  unfold judgeCycles
  rw [hdivider]
  change ∃ s' : Search, _ ∧ _ ∧ (subW 32 120 (latency filtScl p) >>= _) = _
  rw [subW_exact (by omega), Traced.pure_bind]
  by_cases hhigh : rounded sourceClock baudRate p ≤ 122
  · rw [if_neg (by omega)]
    have hdivisor : rounded sourceClock baudRate p - latency filtScl p - 2 + 2 + (2 + filtScl) / 2 ^ p =
        rounded sourceClock baudRate p := by
      change _ - _ - 2 + 2 + latency filtScl p = _
      omega
    have hne : rateDistance baudRate (sourceClock / 2 ^ p / rounded sourceClock baudRate p) ≠ 0 :=
      fun hzero => h ⟨hp, hlow, hhigh, rateDistance_eq_zero.mp hzero⟩
    simp only [hdivisor]
    generalize rateDistance baudRate (sourceClock / 2 ^ p / rounded sourceClock baudRate p) = error at hne
    by_cases hbest : error < s.bestError
    · rw [if_pos hbest, if_neg hne]
      exact ⟨_, rfl, Nat.pos_of_ne_zero hne, rfl⟩
    · exact ⟨s, hdivider, herror, if_neg hbest⟩
  · exact ⟨s, hdivider, herror, if_pos (by omega)⟩

/-- `q` is the first exact prescaler from `p` on, and the counts before it are bytes. -/
structure FirstExact (sourceClock baudRate filtScl p q : Nat) : Prop where
  le : p ≤ q
  exact : ExactAt sourceClock baudRate filtScl q
  before : ∀ r, p ≤ r → r < q → Countable sourceClock baudRate filtScl r ∧ ¬ ExactAt sourceClock baudRate filtScl r

lemma FirstExact.succ {q : Nat} (h : FirstExact sourceClock baudRate filtScl p q) (hne : p ≠ q) :
    FirstExact sourceClock baudRate filtScl (p + 1) q :=
  ⟨Nat.lt_of_le_of_ne h.le hne, h.exact, fun r hr hrq => h.before r (by omega) hrq⟩

lemma FirstExact.of_succ {q : Nat} (h : FirstExact sourceClock baudRate filtScl (p + 1) q)
    (hp : Countable sourceClock baudRate filtScl p ∧ ¬ ExactAt sourceClock baudRate filtScl p) :
    FirstExact sourceClock baudRate filtScl p q := by
  refine ⟨(Nat.le_succ p).trans h.le, h.exact, ?_⟩
  intro r hr hrq
  obtain rfl | hlt := Nat.eq_or_lt_of_le hr
  · exact hp
  · exact h.before r hlt hrq

/-- A search that does not wrap around comes to an exact prescaler. -/
lemma searchLoop_wrapped (hsrc : sourceClock ≤ 200000000) (hf : filtScl ≤ 15) (count : Nat) (hcount : p + count = 7)
    (hdivider : s.divider = 2 ^ p) (herror : 0 < s.bestError)
    (h : (searchLoop sourceClock baudRate filtScl (count + 1) p s).wrapped = false) :
    ∃ q, FirstExact sourceClock baudRate filtScl p q := by
  induction count generalizing p s with
  | zero =>
    rw [searchLoop, hdivider, Traced.bind_wrapped_eq_false, countCycles_wrapped hsrc] at h
    obtain ⟨hbyte, h⟩ := h
    by_cases hexact : ExactAt sourceClock baudRate filtScl p
    · exact ⟨p, le_rfl, hexact, fun r hr hrp => absurd hr (Nat.not_le_of_lt hrp)⟩
    · obtain ⟨s', hdivider', -, hnext⟩ := judgeCycles_next hf hdivider herror (by omega) hbyte hexact
      rw [countCycles_eq hsrc hbyte, Traced.pure_value, hnext, Traced.bind_wrapped_eq_false,
        (nextDivider_cases hdivider').2 (by omega)] at h
      exact Bool.noConfusion h.1
  | succ count ih =>
    rw [searchLoop, hdivider, Traced.bind_wrapped_eq_false, countCycles_wrapped hsrc] at h
    obtain ⟨hbyte, h⟩ := h
    by_cases hexact : ExactAt sourceClock baudRate filtScl p
    · exact ⟨p, le_rfl, hexact, fun r hr hrp => absurd hr (Nat.not_le_of_lt hrp)⟩
    · obtain ⟨s', hdivider', herror', hnext⟩ := judgeCycles_next hf hdivider herror (by omega) hbyte hexact
      rw [countCycles_eq hsrc hbyte, Traced.pure_value, hnext, (nextDivider_cases hdivider').1 (by omega),
        Traced.pure_bind] at h
      obtain ⟨q, hq⟩ := ih (s := { s' with divider := 2 ^ (p + 1) }) (by omega) rfl herror' h
      exact ⟨q, hq.of_succ ⟨hbyte, hexact⟩⟩

/-- The search ends with the first exact prescaler. -/
lemma searchLoop_eq {q : Nat} (hsrc : sourceClock ≤ 200000000) (hf : filtScl ≤ 15) (count : Nat)
    (hcount : p + count = 7) (hdivider : s.divider = 2 ^ p) (herror : 0 < s.bestError)
    (h : FirstExact sourceClock baudRate filtScl p q) :
    ∃ s', searchLoop sourceClock baudRate filtScl (count + 1) p s = pure s' ∧ s'.bestPre = q ∧ s'.bestDivider = 2 ^ q ∧
      s'.bestclkCycle = rounded sourceClock baudRate q - latency filtScl q - 2 := by
  induction count generalizing p s with
  | zero =>
    obtain rfl : p = q := by
      have hle := h.le
      have hq := h.exact.prescale
      omega
    rw [searchLoop, hdivider, countCycles_eq hsrc h.exact.countable, Traced.pure_bind,
      judgeCycles_exact hf hdivider herror h.exact]
    exact ⟨_, rfl, rfl, rfl, rfl⟩
  | succ count ih =>
    by_cases hpq : p = q
    · subst hpq
      rw [searchLoop, hdivider, countCycles_eq hsrc h.exact.countable, Traced.pure_bind,
        judgeCycles_exact hf hdivider herror h.exact]
      exact ⟨_, rfl, rfl, rfl, rfl⟩
    · obtain ⟨hbyte, hexact⟩ := h.before p le_rfl (Nat.lt_of_le_of_ne h.le hpq)
      obtain ⟨s', hdivider', herror', hnext⟩ := judgeCycles_next hf hdivider herror (by omega) hbyte hexact
      obtain ⟨s'', hs''⟩ := ih (s := { s' with divider := 2 ^ (p + 1) }) (by omega) rfl herror' (h.succ hpq)
      refine ⟨s'', ?_, hs''.2⟩
      rw [searchLoop, hdivider, countCycles_eq hsrc hbyte, Traced.pure_bind, hnext,
        (nextDivider_cases hdivider').1 (by omega), Traced.pure_bind]
      exact hs''.1

end Rounds

section Fields

variable {sourceClock baudRate filtScl filtSda : Nat}

/-- The loop lowers `tmpHigh` to the bound. -/
lemma lowerHigh_returns (bound high : Nat) : Returns (fun fuel => loop (lowerHigh bound) fuel high) (min high bound) := by
  induction high with
  | zero =>
    apply loop_leave
    rw [lowerHigh, if_neg (Nat.not_lt_zero bound), Nat.zero_min]
  | succ high ih =>
    by_cases hle : high + 1 ≤ bound
    · apply loop_leave
      rw [lowerHigh, if_neg (Nat.not_lt_of_le hle), Nat.min_eq_left hle]
    · rw [show min (high + 1) bound = min high bound by omega]
      refine loop_next ?_ ih
      rw [lowerHigh, if_pos (Nat.lt_of_not_le hle), Nat.add_sub_cancel]

/-- The call ends, and gives the fields for the lowered `tmpHigh`. -/
lemma masterSetBaudRate_returns (sourceClock baudRate filtScl filtSda : Nat) :
    let s := search sourceClock baudRate filtScl
    let high := highStart filtScl s.value
    let bound := highBound sourceClock baudRate s.value
    Returns (masterSetBaudRate sourceClock baudRate filtScl filtSda) (do
      let s ← s
      let _ ← high
      let _ ← bound
      fields sourceClock baudRate filtSda s (min high.value bound.value)) :=
  (lowerHigh_returns _ _).map _

/-- `clkCycle`, where it does not wrap around. -/
def cycles (sourceClock baudRate filtScl p : Nat) : Nat :=
  rounded sourceClock baudRate p - latency filtScl p - 2

/-- The cycles of the source in 0.52 of the period of the bus, rounded down. -/
def share (sourceClock baudRate p : Nat) : Nat :=
  52 * sourceClock / baudRate / 2 ^ p / 100

variable {s : Search} {q : Nat}

/-- An exact rate leaves no doubt about the rounded quotient. -/
lemma ExactAt.quotient (h : ExactAt sourceClock baudRate filtScl q) :
    sourceClock / baudRate / 2 ^ q = rounded sourceClock baudRate q := by
  obtain ⟨-, hlow, -, hrate⟩ := h
  have hround : 10 * sourceClock / 2 ^ q / baudRate / 10 = sourceClock / baudRate / 2 ^ q := by
    rw [Nat.div_div_eq_div_mul, Nat.div_div_eq_div_mul, Nat.div_div_eq_div_mul, ← Nat.mul_assoc,
      Nat.mul_comm (2 ^ q * baudRate), Nat.mul_div_mul_left _ _ (by decide), Nat.mul_comm baudRate]
  have hmul : baudRate * rounded sourceClock baudRate q ≤ sourceClock / 2 ^ q := by
    have hle := Nat.div_mul_le_self (sourceClock / 2 ^ q) (rounded sourceClock baudRate q)
    rwa [show sourceClock / 2 ^ q / rounded sourceClock baudRate q = baudRate from hrate] at hle
  have hle : sourceClock / baudRate / 2 ^ q ≤ rounded sourceClock baudRate q := by
    rw [← hround, rounded]
    exact Nat.div_le_div_right (Nat.le_add_right _ 5)
  obtain hzero | hpos := Nat.eq_zero_or_pos baudRate
  · rw [rounded, hzero, Nat.div_zero] at hlow
    omega
  · refine hle.antisymm ?_
    rw [Nat.div_div_eq_div_mul, Nat.mul_comm, ← Nat.div_div_eq_div_mul]
    rwa [Nat.le_div_iff_mul_le hpos, Nat.mul_comm]

lemma highStart_wrapped (hdivider : s.bestDivider = 2 ^ q) (hclk : s.bestclkCycle ≤ 120) :
    (highStart filtScl s).wrapped = false ↔ latency filtScl q ≤ s.bestclkCycle := by
  unfold highStart
  rw [hdivider]
  change (subW 32 s.bestclkCycle (latency filtScl q) >>= _).wrapped = false ↔ _
  rw [Traced.bind_wrapped_eq_false, subW_wrapped]
  constructor
  · exact And.left
  · intro hle
    rw [subW_exact hle, Traced.pure_value, narrow_wrapped]
    omega

lemma highStart_eq (hdivider : s.bestDivider = 2 ^ q) (hclk : s.bestclkCycle ≤ 120)
    (h : latency filtScl q ≤ s.bestclkCycle) :
    highStart filtScl s = pure ((s.bestclkCycle - latency filtScl q) / 2) := by
  unfold highStart
  rw [hdivider]
  change subW 32 s.bestclkCycle (latency filtScl q) >>= _ = _
  rw [subW_exact h, Traced.pure_bind, narrow_exact (by omega)]

lemma highBound_wrapped (hdivider : s.bestDivider = 2 ^ q) (hclk : s.bestclkCycle ≤ 120) :
    (highBound sourceClock baudRate s).wrapped = false ↔
      52 * sourceClock < 2 ^ 32 ∧ share sourceClock baudRate q ≤ s.bestclkCycle := by
  unfold highBound
  rw [hdivider, Traced.bind_wrapped_eq_false, mulW_wrapped]
  apply and_congr_right
  intro hproduct
  rw [mulW_exact hproduct, Traced.pure_value]
  change (subW 32 s.bestclkCycle (share sourceClock baudRate q) >>= _).wrapped = false ↔ _
  rw [Traced.bind_wrapped_eq_false, subW_wrapped]
  constructor
  · exact And.left
  · intro hle
    rw [subW_exact hle, Traced.pure_value, addW_exact (by omega)]
    exact ⟨hle, rfl⟩

lemma highBound_eq (hdivider : s.bestDivider = 2 ^ q) (hclk : s.bestclkCycle ≤ 120)
    (hproduct : 52 * sourceClock < 2 ^ 32) (h : share sourceClock baudRate q ≤ s.bestclkCycle) :
    highBound sourceClock baudRate s = pure (s.bestclkCycle - share sourceClock baudRate q + 1) := by
  unfold highBound
  rw [hdivider, mulW_exact hproduct, Traced.pure_bind]
  change subW 32 s.bestclkCycle (share sourceClock baudRate q) >>= _ = _
  rw [subW_exact h, Traced.pure_bind, addW_exact (by omega)]

lemma holdCycles_eq {parts : Nat} (hexact : ExactAt sourceClock baudRate filtScl q) (hdivider : s.bestDivider = 2 ^ q)
    (hparts : 0 < parts) (hfour : parts ≤ rounded sourceClock baudRate q) :
    holdCycles sourceClock baudRate parts s = pure (rounded sourceClock baudRate q / parts - 1) := by
  have hupper := hexact.upper
  have hle := Nat.div_le_self (rounded sourceClock baudRate q) parts
  have hpos := Nat.div_pos hfour hparts
  unfold holdCycles
  rw [hdivider, hexact.quotient, narrow_exact (by omega), Traced.pure_bind, subW_exact hpos, Traced.pure_bind,
    narrow_exact (by omega)]

/-- `FILTSDA` is computed without wrapping and fits if and only if the setup time needs no more than the field has. -/
lemma raiseFiltSda_iff (hdivider : s.bestDivider = 2 ^ q) (hq : q ≤ 7) (hsda : filtSda ≤ 15) :
    (raiseFiltSda sourceClock baudRate filtSda s).wrapped = false ∧
      (raiseFiltSda sourceClock baudRate filtSda s).value ≤ 15 ↔ sourceClock / baudRate / 20 ≤ 2 ^ q + 17 := by
  have hpow : 2 ^ q ≤ 2 ^ 7 := Nat.pow_le_pow_right (by decide) hq
  unfold raiseFiltSda
  rw [hdivider]
  generalize sourceClock / baudRate / 20 = t
  generalize 2 ^ q = d at hpow ⊢
  by_cases hneeded : t > d + 2
  · rw [if_pos hneeded, subW_exact (by omega), Traced.pure_bind, subW_exact (by omega), Traced.pure_bind]
    by_cases hraise : filtSda < t - d - 2
    · rw [if_pos hraise]
      by_cases hbyte : t < 2 ^ 8
      · rw [narrow_exact hbyte, Traced.pure_bind, subW_exact (by omega), Traced.pure_bind, subW_exact (by omega),
          Traced.pure_bind, narrow_exact (by omega), Traced.pure_wrapped, Traced.pure_value, and_iff_right rfl]
        omega
      · rw [Traced.bind_wrapped_eq_false, narrow_wrapped]
        omega
    · rw [if_neg hraise, Traced.pure_wrapped, Traced.pure_value, and_iff_right rfl]
      omega
  · rw [if_neg hneeded, Traced.pure_wrapped, Traced.pure_value, and_iff_right rfl]
    omega

end Fields

section Result

variable {sourceClock baudRate filtScl filtSda q : Nat}

/-- What makes the timing legal: `q` is the first exact prescaler, behind counts that are bytes; its own count is not
below four, the latency or the share; the product with 52 fits; the share loses nothing by rounding, or the high
period stays below what it leaves; and the data setup fits `FILTSDA`. -/
structure Suits (sourceClock baudRate filtScl q : Nat) : Prop where
  first : FirstExact sourceClock baudRate filtScl 0 q
  four_le : 4 ≤ cycles sourceClock baudRate filtScl q
  latency_le : latency filtScl q ≤ cycles sourceClock baudRate filtScl q
  product : 52 * sourceClock < 2 ^ 32
  share_le : share sourceClock baudRate q ≤ cycles sourceClock baudRate filtScl q
  low : 100 * 2 ^ q * baudRate ∣ 52 * sourceClock ∨
    share sourceClock baudRate q ≤
      cycles sourceClock baudRate filtScl q - (cycles sourceClock baudRate filtScl q - latency filtScl q) / 2
  setup : sourceClock / baudRate / 20 ≤ 2 ^ q + 17

/-- `CLKHI` of a legal timing. -/
def clkhi (sourceClock baudRate filtScl q : Nat) : Nat :=
  min ((cycles sourceClock baudRate filtScl q - latency filtScl q) / 2)
    (cycles sourceClock baudRate filtScl q - share sourceClock baudRate q + 1)

lemma ExactAt.cycles_eq (h : ExactAt sourceClock baudRate filtScl q) :
    (cycles sourceClock baudRate filtScl q : Int) = cycleCount sourceClock baudRate filtScl q ∧
      cycles sourceClock baudRate filtScl q + latency filtScl q ≤ 120 := by
  obtain ⟨-, hlow, hhigh, -⟩ := h
  unfold cycles cycleCount
  omega

lemma share_eq (sourceClock baudRate q : Nat) :
    share sourceClock baudRate q = 52 * sourceClock / (100 * 2 ^ q * baudRate) := by
  rw [share, Nat.div_div_eq_div_mul, Nat.div_div_eq_div_mul, Nat.mul_comm baudRate, Nat.mul_comm _ 100, Nat.mul_assoc]

lemma ExactAt.baudRate_pos (h : ExactAt sourceClock baudRate filtScl q) : 0 < baudRate := by
  have hlow := h.lower
  by_contra hzero
  rw [rounded, Nat.eq_zero_of_not_pos hzero, Nat.div_zero] at hlow
  omega

lemma ExactAt.share_lt (h : ExactAt sourceClock baudRate filtScl q) : share sourceClock baudRate q < 64 := by
  have hpos : 0 < baudRate * 2 ^ q := Nat.mul_pos h.baudRate_pos (Nat.two_pow_pos q)
  have hquotient := h.quotient
  have hupper := h.upper
  rw [Nat.div_div_eq_div_mul] at hquotient
  have hsource : sourceClock < (rounded sourceClock baudRate q + 1) * (baudRate * 2 ^ q) := by
    apply (Nat.div_lt_iff_lt_mul hpos).mp
    omega
  have hle : (rounded sourceClock baudRate q + 1) * (baudRate * 2 ^ q) ≤ 123 * (baudRate * 2 ^ q) :=
    Nat.mul_le_mul_right _ (by omega)
  rw [share_eq, show 100 * 2 ^ q * baudRate = 100 * (baudRate * 2 ^ q) by ring]
  apply (Nat.div_lt_iff_lt_mul (by omega)).mpr
  omega

/-- The lowered `tmpHigh` leaves enough for the low period if the rounding of the share loses nothing, or if it was
not lowered that far. -/
lemma low_period_iff {n d clk h : Nat} (hd : 0 < d) (hx : n / d ≤ clk) (hh : h ≤ clk) :
    n ≤ d * (clk - min h (clk - n / d + 1) + 1) ↔ d ∣ n ∨ n / d ≤ clk - h := by
  have hfloor := Nat.div_mul_le_self n d
  have hceil := Nat.lt_div_mul_add hd (a := n)
  constructor
  · intro hle
    by_cases hkept : n / d ≤ clk - h
    · exact Or.inr hkept
    · left
      have hlow : clk - min h (clk - n / d + 1) + 1 = n / d := by omega
      rw [hlow, Nat.mul_comm] at hle
      exact ⟨n / d, by rw [Nat.mul_comm]; exact hle.antisymm hfloor⟩
  · rintro (⟨m, rfl⟩ | hkept)
    · rw [Nat.mul_div_cancel_left m hd] at hx ⊢
      exact Nat.mul_le_mul_left d (by omega)
    · calc n ≤ (n / d + 1) * d := by rw [Nat.succ_mul]; omega
        _ = d * (n / d + 1) := Nat.mul_comm _ _
        _ ≤ d * (clk - min h (clk - n / d + 1) + 1) := Nat.mul_le_mul_left d (by omega)

/-- The search with its result, in a form for the variables that the fields are made of. -/
lemma search_eq (hsrc : sourceClock ≤ 200000000) (hf : filtScl ≤ 15)
    (h : FirstExact sourceClock baudRate filtScl 0 q) :
    ∃ s, search sourceClock baudRate filtScl = pure s ∧ s.bestPre = q ∧ s.bestDivider = 2 ^ q ∧
      s.bestclkCycle = cycles sourceClock baudRate filtScl q :=
  searchLoop_eq hsrc hf 7 (by decide) rfl (by decide) h

lemma fields_eq {s : Search} {high : Nat} (hexact : ExactAt sourceClock baudRate filtScl q)
    (hfour : 4 ≤ rounded sourceClock baudRate q) (hdivider : s.bestDivider = 2 ^ q) (hhigh : high ≤ s.bestclkCycle)
    (hraise : (raiseFiltSda sourceClock baudRate filtSda s).wrapped = false) :
    fields sourceClock baudRate filtSda s high = pure
      { prescale := s.bestPre, clkhi := high, clklo := s.bestclkCycle - high,
        sethold := rounded sourceClock baudRate q / 2 - 1, datavd := rounded sourceClock baudRate q / 4 - 1,
        filtsda := (raiseFiltSda sourceClock baudRate filtSda s).value } := by
  unfold fields
  rw [holdCycles_eq hexact hdivider (by decide) (by omega), Traced.pure_bind,
    holdCycles_eq hexact hdivider (by decide) hfour, Traced.pure_bind, Traced.eq_pure hraise, Traced.pure_bind,
    subW_exact hhigh, Traced.pure_bind, Traced.pure_value]

/-- The fields of a legal timing. -/
def legalTiming (sourceClock baudRate filtScl q filtsda : Nat) : Timing :=
  { prescale := q, clkhi := clkhi sourceClock baudRate filtScl q,
    clklo := cycles sourceClock baudRate filtScl q - clkhi sourceClock baudRate filtScl q,
    sethold := rounded sourceClock baudRate q / 2 - 1, datavd := rounded sourceClock baudRate q / 4 - 1,
    filtsda := filtsda }

lemma Suits.returns (hsrc : sourceClock ≤ 200000000) (hf : filtScl ≤ 15) (hsda : filtSda ≤ 15)
    (h : Suits sourceClock baudRate filtScl q) :
    ∃ filtsda ≤ 15, Returns (masterSetBaudRate sourceClock baudRate filtScl filtSda)
      (pure (legalTiming sourceClock baudRate filtScl q filtsda)) := by
  have hexact := h.first.exact
  obtain ⟨-, hsum⟩ := hexact.cycles_eq
  have hfour := h.four_le
  have hlatency := h.latency_le
  obtain ⟨s, hsearch, hpre, hdivider, hclk⟩ := search_eq hsrc hf h.first
  have hclk120 : s.bestclkCycle ≤ 120 := by omega
  have hrounded : 4 ≤ rounded sourceClock baudRate q := by
    unfold cycles at hfour
    omega
  obtain ⟨hwrapped, hfits⟩ := (raiseFiltSda_iff hdivider hexact.prescale hsda).mpr h.setup
  have hreturns := masterSetBaudRate_returns sourceClock baudRate filtScl filtSda
  have hhigh : min ((s.bestclkCycle - latency filtScl q) / 2) (s.bestclkCycle - share sourceClock baudRate q + 1) ≤
      s.bestclkCycle := (min_le_left _ _).trans (by omega)
  simp only [hsearch, Traced.pure_value, Traced.pure_bind, highStart_eq hdivider hclk120 (hclk ▸ hlatency),
    highBound_eq hdivider hclk120 h.product (hclk ▸ h.share_le),
    fields_eq hexact hrounded hdivider hhigh hwrapped] at hreturns
  refine ⟨_, hfits, ?_⟩
  rw [hclk, hpre] at hreturns
  exact hreturns

lemma Suits.legal {filtsda : Nat} (h : Suits sourceClock baudRate filtScl q) (hfits : filtsda ≤ 15) :
    Legal sourceClock baudRate filtScl (pure (legalTiming sourceClock baudRate filtScl q filtsda)) := by
  have hexact := h.first.exact
  obtain ⟨hcycles, hsum⟩ := hexact.cycles_eq
  have hfour := h.four_le
  have hlatency := h.latency_le
  have hshare := h.share_le
  have hshare64 := hexact.share_lt
  have hupper := hexact.upper
  have hle : clkhi sourceClock baudRate filtScl q ≤
      (cycles sourceClock baudRate filtScl q - latency filtScl q) / 2 := min_le_left _ _
  have hchoice : clkhi sourceClock baudRate filtScl q =
      (cycles sourceClock baudRate filtScl q - latency filtScl q) / 2 ∨ clkhi sourceClock baudRate filtScl q =
      cycles sourceClock baudRate filtScl q - share sourceClock baudRate q + 1 := min_choice _ _
  constructor
  case exact => rfl
  case admissible => exact ⟨hexact.prescale, by dsimp only [legalTiming, Traced.pure_value]; omega, by
    dsimp only [legalTiming, Traced.pure_value]; omega⟩
  case best =>
    intro p _
    have hzero : rateError sourceClock baudRate q = 0 := by
      rw [rateError, hexact.rate, sub_self, Int.natAbs_zero]
    exact (le_of_eq hzero).trans (Nat.zero_le _)
  case cycle =>
    have hsplit : clkhi sourceClock baudRate filtScl q +
        (cycles sourceClock baudRate filtScl q - clkhi sourceClock baudRate filtScl q) =
        cycles sourceClock baudRate filtScl q := by omega
    exact (congrArg Nat.cast hsplit).trans hcycles
  case low_period =>
    have hpos : 0 < 100 * 2 ^ q * baudRate :=
      Nat.mul_pos (Nat.mul_pos (by decide) (Nat.two_pow_pos q)) hexact.baudRate_pos
    have hperiod := (low_period_iff hpos (share_eq sourceClock baudRate q ▸ hshare)
      (show (cycles sourceClock baudRate filtScl q - latency filtScl q) / 2 ≤ _ by omega)).mpr
      (share_eq sourceClock baudRate q ▸ h.low)
    rw [← share_eq] at hperiod
    calc 52 * sourceClock ≤ _ := hperiod
      _ = _ := by
        dsimp only [legalTiming, Traced.pure_value]
        rw [clkhi]
        ring
  all_goals
    dsimp only [legalTiming, Traced.pure_value]
    omega

/-- What the fields are when nothing wraps around. -/
lemma fields_of_exact {s : Search} {high : Nat} (h : (fields sourceClock baudRate filtSda s high).wrapped = false)
    (hhigh : high ≤ s.bestclkCycle) :
    (raiseFiltSda sourceClock baudRate filtSda s).wrapped = false ∧
      (fields sourceClock baudRate filtSda s high).value.prescale = s.bestPre ∧
      (fields sourceClock baudRate filtSda s high).value.clklo = s.bestclkCycle - high ∧
      (fields sourceClock baudRate filtSda s high).value.filtsda =
        (raiseFiltSda sourceClock baudRate filtSda s).value := by
  unfold fields at h ⊢
  simp only [Traced.bind_wrapped_eq_false] at h
  obtain ⟨-, -, hraise, -⟩ := h
  refine ⟨hraise, rfl, ?_, rfl⟩
  simp only [Traced.bind_value, subW_exact hhigh, Traced.pure_value]

lemma Legal.suits {t : Traced Timing} (hsrc : sourceClock ≤ 200000000) (hf : filtScl ≤ 15) (hsda : filtSda ≤ 15)
    (hreturns : Returns (masterSetBaudRate sourceClock baudRate filtScl filtSda) t)
    (h : Legal sourceClock baudRate filtScl t) : ∃ q, Suits sourceClock baudRate filtScl q := by
  have hunique := hreturns.unique (masterSetBaudRate_returns sourceClock baudRate filtScl filtSda)
  have hsearched : (search sourceClock baudRate filtScl).wrapped = false := by
    have hwrapped := h.exact
    rw [hunique, Traced.bind_wrapped_eq_false] at hwrapped
    exact hwrapped.1
  obtain ⟨q, hq⟩ := searchLoop_wrapped hsrc hf 7 (Nat.zero_add 7) rfl (by decide) hsearched
  obtain ⟨s, hsearch, hpre, hdivider, hclk⟩ := search_eq hsrc hf hq
  obtain ⟨hcycles, hsum⟩ := hq.exact.cycles_eq
  have hclk120 : s.bestclkCycle ≤ 120 := by omega
  simp only [hsearch, Traced.pure_value, Traced.pure_bind] at hunique
  have hwrapped := h.exact
  rw [hunique, Traced.bind_wrapped_eq_false, highStart_wrapped hdivider hclk120, Traced.bind_wrapped_eq_false,
    highBound_wrapped hdivider hclk120] at hwrapped
  obtain ⟨hlatency, ⟨hproduct, hshare⟩, hfields⟩ := hwrapped
  simp only [highStart_eq hdivider hclk120 hlatency, highBound_eq hdivider hclk120 hproduct hshare, Traced.pure_value,
    Traced.pure_bind] at hunique hfields
  have hhigh : min ((s.bestclkCycle - latency filtScl q) / 2) (s.bestclkCycle - share sourceClock baudRate q + 1) ≤
      s.bestclkCycle := (min_le_left _ _).trans (by omega)
  obtain ⟨hraise, hprescale, hclklo, hfiltsda⟩ := fields_of_exact hfields hhigh
  rw [← hunique] at hprescale hclklo hfiltsda
  have hperiod := h.low_period
  have hadmissible := h.admissible.four_le
  rw [hprescale, hpre] at hadmissible
  rw [hclklo, hprescale, hpre, hclk] at hperiod
  rw [hclk] at hlatency hshare
  refine ⟨q, hq, by omega, hlatency, hproduct, hshare, ?_, ?_⟩
  · have hpos : 0 < 100 * 2 ^ q * baudRate :=
      Nat.mul_pos (Nat.mul_pos (by decide) (Nat.two_pow_pos q)) hq.exact.baudRate_pos
    rw [share_eq]
    apply (low_period_iff hpos (share_eq sourceClock baudRate q ▸ hshare) (by omega)).mp
    rw [← share_eq]
    calc 52 * sourceClock ≤ _ := hperiod
      _ = _ := by ring
  · have hfits := h.filtsda
    rw [hfiltsda] at hfits
    exact (raiseFiltSda_iff hdivider hq.exact.prescale hsda).mp ⟨hraise, hfits⟩

/-- The call gives legal bus timing without wrapping if and only if a prescaler suits the clock, the filter and the
baud rate. -/
theorem legal_iff (hsrc : sourceClock ≤ 200000000) (hf : filtScl ≤ 15) (hsda : filtSda ≤ 15) :
    (∃ t, Returns (masterSetBaudRate sourceClock baudRate filtScl filtSda) t ∧ Legal sourceClock baudRate filtScl t) ↔
      ∃ q, Suits sourceClock baudRate filtScl q := by
  constructor
  · rintro ⟨t, hreturns, hlegal⟩
    exact hlegal.suits hsrc hf hsda hreturns
  · rintro ⟨q, hq⟩
    obtain ⟨filtsda, hfits, hreturns⟩ := hq.returns hsrc hf hsda
    exact ⟨_, hreturns, hq.legal hfits⟩

theorem legal_10MHz :
    ∃ t, Returns (masterSetBaudRate 10000000 100000 0 0) t ∧ Legal 10000000 100000 0 t := by
  apply (legal_iff (by decide) (by decide) (by decide)).mpr
  refine ⟨0, ?_, by decide +kernel, by decide +kernel, by decide, by decide +kernel, Or.inl (by decide), by decide⟩
  exact ⟨le_rfl, ⟨by decide, by decide +kernel, by decide +kernel, by decide +kernel⟩,
    fun r _ hr => absurd hr (Nat.not_lt_zero r)⟩

/-- With a clock of 60 MHz the setup time does not fit `FILTSDA`. -/
theorem not_legal_60MHz :
    ¬ ((∃ p, Admissible 60000000 100000 0 p) →
      ∃ t, Returns (masterSetBaudRate 60000000 100000 0 0) t ∧ Legal 60000000 100000 0 t) := by
  intro h
  obtain ⟨t, hreturns, hlegal⟩ := h ⟨3, by decide, by decide +kernel, by decide +kernel⟩
  have hfits := hlegal.filtsda
  rw [hreturns.unique (masterSetBaudRate_returns 60000000 100000 0 0)] at hfits
  revert hfits
  decide +kernel

end Result

end McuxDrivers.Lpi2c.BaudRate
