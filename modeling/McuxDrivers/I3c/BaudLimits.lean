import Mathlib.Tactic.Ring
import McuxDrivers.I3c.BaudRate

/-!
# The limits of the I3C baud rates

For which requests `I3C_MasterSetBaudRate` writes dividers that fit their fields and keep to the requests.
-/

namespace McuxDrivers.I3c.BaudRate

section Evaluation

lemma quotient_eq {a b : Nat} (hb : b ≠ 0) : quotient a b = .ok (a / b) := if_neg hb

lemma quotient_zero (a : Nat) : quotient a 0 = .error .divisionByZero := rfl

@[simp] lemma ok_bind {α β : Type} (a : α) (f : α → Except Fault β) : (Except.ok a >>= f) = f a := rfl

@[simp] lemma error_bind {α β : Type} (e : Fault) (f : α → Except Fault β) : ((Except.error e : Except Fault α) >>= f) = .error e :=
  rfl

lemma require_bind {β : Type} {p : Prop} [Decidable p] {f : Unit → Except Fault β}
    (h : (require p >>= f) ≠ .error .assertion) : p ∧ (require p >>= f) = f () := by
  by_cases hp : p
  · exact ⟨hp, by rw [require, if_pos hp, ok_bind]⟩
  · rw [require, if_neg hp, error_bind] at h
    exact absurd rfl h

/-- The divider that `findDiv` finds. -/
def divider (least freq request : Nat) : Nat :=
  let div := max least (freq / request)
  if freq / div > request / 10 + request then div + 1 else div

lemma findDiv_eq {least freq request : Nat} (hleast : least ≠ 0) (hrequest : request ≠ 0) :
    findDiv least freq request = .ok (divider least freq request) := by
  have hmax : (if freq / request < least then least else freq / request) = max least (freq / request) := by
    split_ifs <;> omega
  have hdiv : max least (freq / request) ≠ 0 := by omega
  rw [findDiv, quotient_eq hrequest, ok_bind]
  dsimp only
  rw [hmax, quotient_eq hdiv, ok_bind]
  rfl

lemma le_divider (least freq request : Nat) : least ≤ divider least freq request := by
  unfold divider
  dsimp only
  split_ifs <;> omega

/-- A divider does not exceed its request by more than 10 %. -/
lemma div_divider_le {least freq request : Nat} (hleast : least ≠ 0) (hrequest : request ≠ 0) :
    freq / divider least freq request ≤ request / 10 + request := by
  unfold divider
  dsimp only
  split_ifs with h
  · have hpos : 0 < max least (freq / request) := by omega
    have hlt : freq / request < max least (freq / request) + 1 := by omega
    have hfreq : freq < (max least (freq / request) + 1) * request := (Nat.div_lt_iff_lt_mul (by omega)).mp hlt
    have hnext : freq / (max least (freq / request) + 1) < request := by
      rw [Nat.div_lt_iff_lt_mul (by omega), Nat.mul_comm]
      exact hfreq
    omega
  · omega

lemma divider_le_freq {freq request : Nat} (hfreq : freq ≠ 0) (hrequest : request ≠ 0) :
    divider 1 freq request ≤ freq := by
  have hle : freq / request ≤ freq := Nat.div_le_self freq request
  unfold divider
  dsimp only
  split_ifs with h
  · by_contra hnot
    have heq : max 1 (freq / request) = freq := by omega
    rw [heq, Nat.div_self (by omega)] at h
    omega
  · omega

/-- The clock itself is close enough to the request. -/
lemma divider_one_iff {freq request : Nat} (hrequest : request ≠ 0) :
    divider 1 freq request = 1 ↔ freq ≤ request + request / 10 := by
  unfold divider
  dsimp only
  by_cases hsmall : freq / request ≤ 1
  · have hmax : max 1 (freq / request) = 1 := by omega
    rw [hmax, Nat.div_one]
    split_ifs <;> omega
  · have hlarge : 2 * request ≤ freq := by
      have h := Nat.div_mul_le_self freq request
      have h' : 2 * request ≤ freq / request * request := Nat.mul_le_mul_right request (by omega)
      omega
    split_ifs <;> omega

lemma divider_two_iff {freq request : Nat} (hrequest : request ≠ 0) :
    divider 2 (2 * freq) request = 2 ↔ freq ≤ request + request / 10 := by
  unfold divider
  dsimp only
  by_cases hsmall : 2 * freq / request ≤ 2
  · have hmax : max 2 (2 * freq / request) = 2 := by omega
    have hhalf : 2 * freq / 2 = freq := by omega
    rw [hmax, hhalf]
    split_ifs <;> omega
  · have hlarge : 3 * request ≤ 2 * freq := by
      have h := Nat.div_mul_le_self (2 * freq) request
      have h' : 3 * request ≤ 2 * freq / request * request := Nat.mul_le_mul_right request (by omega)
      omega
    split_ifs <;> omega

/-- What `calcErrorRatio` finds, with its overflow. -/
def errorRatio (curFreq desiredFreq : Nat) : Nat :=
  (if curFreq > desiredFreq then (curFreq - desiredFreq) * 100 else (desiredFreq - curFreq) * 100) % 2 ^ 32 / desiredFreq

lemma calcErrorRatio_eq {curFreq desiredFreq : Nat} (hdesired : desiredFreq ≠ 0) :
    calcErrorRatio curFreq desiredFreq = .ok (errorRatio curFreq desiredFreq) := by
  unfold calcErrorRatio errorRatio
  split_ifs
  · exact quotient_eq hdesired
  · exact quotient_eq hdesired

/-- An error below 10 % that has not overflowed. -/
lemma le_of_errorRatio_lt {curFreq desiredFreq : Nat} (hdesired : desiredFreq ≠ 0)
    (hfits : (curFreq - desiredFreq) * 100 < 2 ^ 32) (herror : errorRatio curFreq desiredFreq < errorRateMax) :
    10 * curFreq ≤ 11 * desiredFreq := by
  unfold errorRatio at herror
  split_ifs at herror with hgt
  · rw [Nat.mod_eq_of_lt hfits, Nat.div_lt_iff_lt_mul (by omega), errorRateMax] at herror
    omega
  · omega

end Evaluation

section Limits

/-- A frequency of at most 1.1 times a request: within 10 % of it, or below. -/
def AtMostTenPercentOver (freq request : Nat) : Prop :=
  10 * freq ≤ 11 * request

variable (isODHigh : Bool) (sourceClock : Nat) (r : Requests)

/-- The requests are between 1 Hz and half the source clock, which is a `uint32_t`. -/
structure Requested : Prop where
  sourceClock_lt : sourceClock < 2 ^ 32
  i2c : 1 ≤ r.i2cBaud ∧ r.i2cBaud ≤ sourceClock / 2
  pushPull : 1 ≤ r.i3cPushPullBaud ∧ r.i3cPushPullBaud ≤ sourceClock / 2
  openDrain : 1 ≤ r.i3cOpenDrainBaud ∧ r.i3cOpenDrainBaud ≤ sourceClock / 2

/-- The resulting frequencies in whole Hertz, each from the one before it. -/
def Fields.pushPullFreq (f : Fields) : Nat :=
  sourceClock / 2 / (f.ppBaud + 1)

def Fields.openDrainFreq (f : Fields) : Nat :=
  if isODHigh then 2 * f.pushPullFreq sourceClock / (f.odBaud + 2) else f.pushPullFreq sourceClock / (f.odBaud + 1)

/-- An open-drain low phase has `odBaud + 1` halves of the push-pull period, an I2C period `i2cBaud + 2` such phases. -/
def Fields.i2cFreq (f : Fields) : Nat :=
  2 * f.pushPullFreq sourceClock / ((f.odBaud + 1) * (f.i2cBaud + 2))

/-- The dividers fit their fields and keep to the requests. -/
structure Fields.InLimits (f : Fields) : Prop where
  ppBaud : f.ppBaud < 2 ^ 4
  odBaud : f.odBaud < 2 ^ 8
  i2cBaud : f.i2cBaud < 2 ^ 4
  pushPull : AtMostTenPercentOver (f.pushPullFreq sourceClock) r.i3cPushPullBaud
  openDrain : AtMostTenPercentOver (f.openDrainFreq isODHigh sourceClock) r.i3cOpenDrainBaud
  i2c : AtMostTenPercentOver (f.i2cFreq sourceClock) r.i2cBaud

/-- Unless an assertion fails, there is no division by zero, and the dividers are within the limits. -/
def WellDefined : Prop :=
  match setBaudRate isODHigh sourceClock r with
  | .error .assertion => True
  | .error .divisionByZero => False
  | .ok f => f.InLimits isODHigh sourceClock r

/-- The push-pull divider and frequency that the request calls for. -/
def ppDiv : Nat :=
  divider 1 (sourceClock / 2) r.i3cPushPullBaud

def ppFreq : Nat :=
  sourceClock / 2 / ppDiv sourceClock r

/-- The halves of a push-pull period, the source cycles and the nanoseconds in an open-drain low phase. -/
def lowHalves : Nat :=
  if isODHigh then divider 2 (2 * ppFreq sourceClock r) r.i3cOpenDrainBaud - 1
  else divider 1 (ppFreq sourceClock r) r.i3cOpenDrainBaud

def lowCycles : Nat :=
  ppDiv sourceClock r * lowHalves isODHigh sourceClock r

def lowNs : Nat :=
  lowHalves isODHigh sourceClock r * (nsecPerSec / (2 * ppFreq sourceClock r))

/-- An I2C period has an even number of such phases, or an odd one. -/
def evenDiv : Nat :=
  max 1 (sourceClock / r.i2cBaud / (2 * lowCycles isODHigh sourceClock r))

def oddDiv : Nat :=
  max 1 (sourceClock / r.i2cBaud / (lowCycles isODHigh sourceClock r - 1) / 2)

/-- The error of a period of so many phases. -/
def lowsError (lows : Nat) : Nat :=
  errorRatio (nsecPerSec / (lows * lowNs isODHigh sourceClock r)) r.i2cBaud

/-- The error of a period does not overflow, or the period is right all the same. -/
def ErrorHolds (lows : Nat) : Prop :=
  (nsecPerSec / (lows * lowNs isODHigh sourceClock r) - r.i2cBaud) * 100 < 2 ^ 32 ∨
    AtMostTenPercentOver (2 * ppFreq sourceClock r / (lowHalves isODHigh sourceClock r * lows)) r.i2cBaud

/-- The requests for which the function is well defined. -/
structure Supported : Prop where
  /-- One of the first two clocks is divided. -/
  ratio : r.i3cPushPullBaud + r.i3cPushPullBaud / 10 < sourceClock / 2 ∨
    r.i3cOpenDrainBaud + r.i3cOpenDrainBaud / 10 < sourceClock / 2
  /-- Half a push-pull period has a nanosecond. -/
  nanosecond : 2 * ppFreq sourceClock r ≤ nsecPerSec
  /-- The even period is the better one, and the I2C request is not too slow for it. -/
  even : lowsError isODHigh sourceClock r (2 * evenDiv isODHigh sourceClock r) < errorRateMax →
    lowsError isODHigh sourceClock r (2 * evenDiv isODHigh sourceClock r) <
      lowsError isODHigh sourceClock r (2 * oddDiv isODHigh sourceClock r + 1) →
    sourceClock < 18 * lowCycles isODHigh sourceClock r * r.i2cBaud ∧
      ErrorHolds isODHigh sourceClock r (2 * evenDiv isODHigh sourceClock r)
  odd : lowsError isODHigh sourceClock r (2 * oddDiv isODHigh sourceClock r + 1) < errorRateMax →
    lowsError isODHigh sourceClock r (2 * oddDiv isODHigh sourceClock r + 1) ≤
      lowsError isODHigh sourceClock r (2 * evenDiv isODHigh sourceClock r) →
    sourceClock < 18 * (lowCycles isODHigh sourceClock r - 1) * r.i2cBaud ∧
      ErrorHolds isODHigh sourceClock r (2 * oddDiv isODHigh sourceClock r + 1)
  /-- Neither is within 10 %. -/
  neither : errorRateMax ≤ lowsError isODHigh sourceClock r (2 * evenDiv isODHigh sourceClock r) →
    errorRateMax ≤ lowsError isODHigh sourceClock r (2 * oddDiv isODHigh sourceClock r + 1) →
    sourceClock < 16 * lowCycles isODHigh sourceClock r * r.i2cBaud

end Limits

section Dividers

variable {isODHigh : Bool} {sourceClock : Nat} {r : Requests}

lemma Requested.ppDiv_pos (_ : Requested sourceClock r) : 1 ≤ ppDiv sourceClock r := le_divider _ _ _

lemma Requested.ppFreq_pos (h : Requested sourceClock r) : 1 ≤ ppFreq sourceClock r := by
  obtain ⟨hpos, hle⟩ := h.pushPull
  have hdiv : ppDiv sourceClock r ≤ sourceClock / 2 := divider_le_freq (by omega) (by omega)
  exact (Nat.one_le_div_iff h.ppDiv_pos).mpr hdiv

variable (isODHigh sourceClock r) in
lemma lowHalves_pos : 1 ≤ lowHalves isODHigh sourceClock r := by
  unfold lowHalves
  split_ifs
  · have h := le_divider 2 (2 * ppFreq sourceClock r) r.i3cOpenDrainBaud
    omega
  · exact le_divider _ _ _

lemma Requested.lowHalves_one_iff (h : Requested sourceClock r) :
    lowHalves isODHigh sourceClock r = 1 ↔ ppFreq sourceClock r ≤ r.i3cOpenDrainBaud + r.i3cOpenDrainBaud / 10 := by
  have hpos : r.i3cOpenDrainBaud ≠ 0 := by
    have := h.openDrain
    omega
  unfold lowHalves
  split_ifs
  · rw [← divider_two_iff hpos]
    have hle := le_divider 2 (2 * ppFreq sourceClock r) r.i3cOpenDrainBaud
    omega
  · exact divider_one_iff hpos

/-- All clocks are alike when both requests are close to half the source clock. -/
lemma Requested.lowCycles_one_iff (h : Requested sourceClock r) : lowCycles isODHigh sourceClock r = 1 ↔
    sourceClock / 2 ≤ r.i3cPushPullBaud + r.i3cPushPullBaud / 10 ∧
      sourceClock / 2 ≤ r.i3cOpenDrainBaud + r.i3cOpenDrainBaud / 10 := by
  have hpos : r.i3cPushPullBaud ≠ 0 := by
    have := h.pushPull
    omega
  have hprod : lowCycles isODHigh sourceClock r = 1 ↔ ppDiv sourceClock r = 1 ∧ lowHalves isODHigh sourceClock r = 1 :=
    ⟨fun heq => ⟨Nat.eq_one_of_mul_eq_one_right heq, Nat.eq_one_of_mul_eq_one_left heq⟩,
      fun ⟨hdiv, hhalves⟩ => by rw [lowCycles, hdiv, hhalves]⟩
  rw [hprod, h.lowHalves_one_iff, ppDiv, divider_one_iff hpos]
  apply and_congr_right
  intro hclose
  rw [ppFreq, ppDiv, (divider_one_iff hpos).mpr hclose, Nat.div_one]

variable (isODHigh) in
lemma Requested.lowCycles_pos (h : Requested sourceClock r) : 1 ≤ lowCycles isODHigh sourceClock r :=
  Nat.mul_pos h.ppDiv_pos (lowHalves_pos isODHigh sourceClock r)

lemma Requested.lowNs_eq_zero_iff (h : Requested sourceClock r) :
    lowNs isODHigh sourceClock r = 0 ↔ nsecPerSec < 2 * ppFreq sourceClock r := by
  have hpos : lowHalves isODHigh sourceClock r ≠ 0 := Nat.one_le_iff_ne_zero.mp (lowHalves_pos isODHigh sourceClock r)
  have hfreq := h.ppFreq_pos
  rw [lowNs, Nat.mul_eq_zero, or_iff_right hpos, Nat.div_eq_zero_iff, nsecPerSec]
  omega

/-- The I2C frequency of a period, as the nanoseconds have it, is not below the resulting one. -/
lemma i2cFreq_le_ns (hns : lowNs isODHigh sourceClock r ≠ 0) {lows : Nat} (hlows : lows ≠ 0) :
    2 * ppFreq sourceClock r / (lowHalves isODHigh sourceClock r * lows) ≤
      nsecPerSec / (lows * lowNs isODHigh sourceClock r) := by
  rw [Nat.le_div_iff_mul_le (Nat.mul_pos (by omega) (by omega))]
  have hfreq : 2 * ppFreq sourceClock r / (lowHalves isODHigh sourceClock r * lows) *
      (lowHalves isODHigh sourceClock r * lows) ≤ 2 * ppFreq sourceClock r := Nat.div_mul_le_self _ _
  calc 2 * ppFreq sourceClock r / (lowHalves isODHigh sourceClock r * lows) * (lows * lowNs isODHigh sourceClock r)
      = 2 * ppFreq sourceClock r / (lowHalves isODHigh sourceClock r * lows) *
          (lowHalves isODHigh sourceClock r * lows) * (nsecPerSec / (2 * ppFreq sourceClock r)) := by
        rw [lowNs]
        ring
    _ ≤ 2 * ppFreq sourceClock r * (nsecPerSec / (2 * ppFreq sourceClock r)) := Nat.mul_le_mul_right _ hfreq
    _ ≤ nsecPerSec := Nat.mul_div_le _ _

/-- An error below 10 % means a frequency below 1.1 times the request exactly when it is not the overflow that makes it small. -/
lemma errorHolds_iff (hns : lowNs isODHigh sourceClock r ≠ 0) (hi2c : r.i2cBaud ≠ 0) {lows : Nat} (hlows : lows ≠ 0)
    (herror : lowsError isODHigh sourceClock r lows < errorRateMax) : ErrorHolds isODHigh sourceClock r lows ↔
      AtMostTenPercentOver (2 * ppFreq sourceClock r / (lowHalves isODHigh sourceClock r * lows)) r.i2cBaud := by
  constructor
  · rintro (hfits | hright)
    · have hns := i2cFreq_le_ns hns hlows
      have hclose := le_of_errorRatio_lt hi2c hfits herror
      unfold AtMostTenPercentOver
      omega
    · exact hright
  · exact Or.inr

variable (isODHigh) in
/-- How slow an I2C request is, in its even dividers. -/
lemma evenDiv_le_iff (hi2c : r.i2cBaud ≠ 0) (hcycles : 1 ≤ lowCycles isODHigh sourceClock r) {n : Nat} (hn : 1 ≤ n) :
    evenDiv isODHigh sourceClock r ≤ n ↔ sourceClock < 2 * (n + 1) * lowCycles isODHigh sourceClock r * r.i2cBaud := by
  have hmax : evenDiv isODHigh sourceClock r ≤ n ↔
      sourceClock / r.i2cBaud / (2 * lowCycles isODHigh sourceClock r) < n + 1 := by
    rw [evenDiv]
    omega
  rw [hmax, Nat.div_lt_iff_lt_mul (by omega), Nat.div_lt_iff_lt_mul (by omega)]
  have heq : (n + 1) * (2 * lowCycles isODHigh sourceClock r) * r.i2cBaud =
      2 * (n + 1) * lowCycles isODHigh sourceClock r * r.i2cBaud := by ring
  rw [heq]

variable (isODHigh) in
lemma oddDiv_le_iff (hi2c : r.i2cBaud ≠ 0) (hcycles : 2 ≤ lowCycles isODHigh sourceClock r) {n : Nat} (hn : 1 ≤ n) :
    oddDiv isODHigh sourceClock r ≤ n ↔
      sourceClock < 2 * (n + 1) * (lowCycles isODHigh sourceClock r - 1) * r.i2cBaud := by
  have hmax : oddDiv isODHigh sourceClock r ≤ n ↔
      sourceClock / r.i2cBaud / (lowCycles isODHigh sourceClock r - 1) < 2 * (n + 1) := by
    rw [oddDiv]
    omega
  rw [hmax, Nat.div_lt_iff_lt_mul (by omega), Nat.div_lt_iff_lt_mul (by omega)]

end Dividers

section Outcomes

variable {isODHigh : Bool} {sourceClock : Nat} {r : Requests}

lemma ite_eq_max (n : Nat) : (if n = 0 then 1 else n) = max 1 n := by
  split_ifs <;> omega

lemma periodError_bind {β : Type} {lows ns request : Nat} {f : Nat → Except Fault β} (hrequest : request ≠ 0)
    (h : (periodError lows ns request >>= f) ≠ .error .assertion) :
    (lows * ns = 0 ∧ (periodError lows ns request >>= f) = .error .divisionByZero) ∨
      (lows * ns ≠ 0 ∧ (periodError lows ns request >>= f) = f (errorRatio (nsecPerSec / (lows * ns)) request)) := by
  have hassoc : (periodError lows ns request >>= f) = require (lows * ns ≤ 2 ^ 32 - 1) >>= fun _ =>
      quotient nsecPerSec (lows * ns) >>= fun cur => calcErrorRatio cur request >>= f := by
    rw [periodError, bind_assoc]
    simp only [bind_assoc]
  rw [hassoc] at h ⊢
  obtain ⟨-, hgo⟩ := require_bind h
  rw [hgo]
  by_cases hzero : lows * ns = 0
  · left
    rw [hzero]
    exact ⟨rfl, rfl⟩
  · right
    rw [quotient_eq hzero, ok_bind, calcErrorRatio_eq hrequest, ok_bind]
    exact ⟨hzero, rfl⟩

variable (isODHigh sourceClock r) in
/-- The open-drain frequency as the function computes it. -/
def openDrainRate : Nat :=
  if isODHigh then 2 * ppFreq sourceClock r / (lowHalves isODHigh sourceClock r + 1)
  else ppFreq sourceClock r / lowHalves isODHigh sourceClock r

lemma Requested.findOdBaud (h : Requested sourceClock r) :
    findOdBaud isODHigh (ppFreq sourceClock r) r.i3cOpenDrainBaud =
      .ok (lowHalves isODHigh sourceClock r - 1, openDrainRate isODHigh sourceClock r) := by
  have hpos : r.i3cOpenDrainBaud ≠ 0 := by
    have := h.openDrain
    omega
  unfold BaudRate.findOdBaud openDrainRate lowHalves
  cases isODHigh with
  | true =>
    have hle := le_divider 2 (2 * ppFreq sourceClock r) r.i3cOpenDrainBaud
    have hsucc : divider 2 (2 * ppFreq sourceClock r) r.i3cOpenDrainBaud - 1 + 1 =
        divider 2 (2 * ppFreq sourceClock r) r.i3cOpenDrainBaud := by omega
    simp only [if_true, hsucc]
    rw [findDiv_eq (by decide) hpos, ok_bind, quotient_eq (by omega), ok_bind]
    rfl
  | false =>
    have hle := le_divider 1 (ppFreq sourceClock r) r.i3cOpenDrainBaud
    simp only [Bool.false_eq_true, if_false]
    rw [findDiv_eq (by decide) hpos, ok_bind, quotient_eq (by omega), ok_bind]
    rfl

variable (isODHigh sourceClock r) in
/-- The I2C divider that the function chooses. -/
def i2cChoice : Nat :=
  if lowsError isODHigh sourceClock r (2 * evenDiv isODHigh sourceClock r) < errorRateMax ∨
      lowsError isODHigh sourceClock r (2 * oddDiv isODHigh sourceClock r + 1) < errorRateMax then
    if lowsError isODHigh sourceClock r (2 * evenDiv isODHigh sourceClock r) <
        lowsError isODHigh sourceClock r (2 * oddDiv isODHigh sourceClock r + 1) then
      (evenDiv isODHigh sourceClock r - 1) * 2
    else (oddDiv isODHigh sourceClock r - 1) * 2 + 1
  else if openDrainRate isODHigh sourceClock r / evenDiv isODHigh sourceClock r < r.i2cBaud then
    (evenDiv isODHigh sourceClock r - 1) * 2
  else evenDiv isODHigh sourceClock r * 2

lemma Requested.findI2cBaud_cases (h : Requested sourceClock r)
    (hassert : findI2cBaud sourceClock r.i2cBaud (ppDiv sourceClock r - 1) (lowHalves isODHigh sourceClock r - 1)
      (lowNs isODHigh sourceClock r) (openDrainRate isODHigh sourceClock r) ≠ .error .assertion) :
    ((lowNs isODHigh sourceClock r = 0 ∨ lowCycles isODHigh sourceClock r = 1) ∧
      findI2cBaud sourceClock r.i2cBaud (ppDiv sourceClock r - 1) (lowHalves isODHigh sourceClock r - 1)
        (lowNs isODHigh sourceClock r) (openDrainRate isODHigh sourceClock r) = .error .divisionByZero) ∨
    (lowNs isODHigh sourceClock r ≠ 0 ∧ lowCycles isODHigh sourceClock r ≠ 1 ∧
      findI2cBaud sourceClock r.i2cBaud (ppDiv sourceClock r - 1) (lowHalves isODHigh sourceClock r - 1)
        (lowNs isODHigh sourceClock r) (openDrainRate isODHigh sourceClock r) =
          .ok (i2cChoice isODHigh sourceClock r)) := by
  have hi2c : r.i2cBaud ≠ 0 := by
    have := h.i2c
    omega
  have hdiv := h.ppDiv_pos
  have hhalves := lowHalves_pos isODHigh sourceClock r
  have hcycles := h.lowCycles_pos isODHigh
  have hprod : (ppDiv sourceClock r - 1 + 1) * (lowHalves isODHigh sourceClock r - 1 + 1) =
      lowCycles isODHigh sourceClock r := by
    rw [Nat.sub_add_cancel hdiv, Nat.sub_add_cancel hhalves, lowCycles]
  have heven : (if sourceClock / r.i2cBaud / (2 * lowCycles isODHigh sourceClock r) = 0 then 1
      else sourceClock / r.i2cBaud / (2 * lowCycles isODHigh sourceClock r)) = evenDiv isODHigh sourceClock r :=
    ite_eq_max _
  have hodd : (if sourceClock / r.i2cBaud / (lowCycles isODHigh sourceClock r - 1) / 2 = 0 then 1
      else sourceClock / r.i2cBaud / (lowCycles isODHigh sourceClock r - 1) / 2) = oddDiv isODHigh sourceClock r :=
    ite_eq_max _
  have hevenPos : evenDiv isODHigh sourceClock r ≠ 0 := by
    rw [evenDiv]
    omega
  unfold findI2cBaud at hassert ⊢
  rw [Nat.mul_assoc 2, hprod, quotient_eq hi2c, ok_bind, quotient_eq (by omega), ok_bind] at hassert ⊢
  dsimp only at hassert ⊢
  rw [heven] at hassert ⊢
  rcases periodError_bind hi2c hassert with ⟨hzero, hfault⟩ | ⟨hns, hgo⟩
  · left
    refine ⟨Or.inl ?_, hfault⟩
    rcases Nat.mul_eq_zero.mp hzero with hnone | hnone
    · omega
    · exact hnone
  · rw [hgo] at hassert ⊢
    by_cases hone : lowCycles isODHigh sourceClock r = 1
    · left
      refine ⟨Or.inr hone, ?_⟩
      rw [hone, quotient_zero, error_bind]
    · right
      rw [quotient_eq (by omega), ok_bind, hodd] at hassert ⊢
      have hpositive : (2 * oddDiv isODHigh sourceClock r + 1) * lowNs isODHigh sourceClock r ≠ 0 :=
        Nat.mul_ne_zero (by omega) (Nat.mul_ne_zero_iff.mp hns).2
      rcases periodError_bind hi2c hassert with ⟨hzero, -⟩ | ⟨-, hgo'⟩
      · exact absurd hzero hpositive
      · rw [hgo']
        refine ⟨(Nat.mul_ne_zero_iff.mp hns).2, hone, ?_⟩
        rw [i2cChoice, quotient_eq hevenPos, ok_bind]
        unfold lowsError
        split_ifs <;> rfl

/-- The open-drain frequency is not below that of two low phases. -/
lemma le_openDrainRate :
    ppFreq sourceClock r / lowHalves isODHigh sourceClock r ≤ openDrainRate isODHigh sourceClock r := by
  have hpos := lowHalves_pos isODHigh sourceClock r
  unfold openDrainRate
  split_ifs
  · rw [Nat.le_div_iff_mul_le (by omega)]
    have hmul := Nat.div_mul_le_self (ppFreq sourceClock r) (lowHalves isODHigh sourceClock r)
    have hle : ppFreq sourceClock r / lowHalves isODHigh sourceClock r ≤
        ppFreq sourceClock r / lowHalves isODHigh sourceClock r * lowHalves isODHigh sourceClock r :=
      Nat.le_mul_of_pos_right _ hpos
    rw [Nat.mul_add, Nat.mul_one]
    omega
  · exact le_refl _

variable (isODHigh sourceClock r) in
/-- The frequency of an even period. -/
lemma i2cFreq_even (n : Nat) : 2 * ppFreq sourceClock r / (lowHalves isODHigh sourceClock r * (2 * n)) =
    ppFreq sourceClock r / lowHalves isODHigh sourceClock r / n := by
  rw [Nat.mul_left_comm, Nat.mul_div_mul_left _ _ (by decide), Nat.div_div_eq_div_mul]

/-- The frequency of the even period is that of the source clock. -/
lemma i2cFreq_even_eq (n : Nat) : ppFreq sourceClock r / lowHalves isODHigh sourceClock r / n =
    sourceClock / (2 * n * lowCycles isODHigh sourceClock r) := by
  rw [ppFreq, Nat.div_div_eq_div_mul, Nat.div_div_eq_div_mul, Nat.div_div_eq_div_mul, lowCycles]
  congr 1
  ring

/-- The open-drain clock is too slow for the request only when one low phase for each half is too long. -/
lemma Requested.slow_of_rate_lt (h : Requested sourceClock r)
    (hrate : openDrainRate isODHigh sourceClock r / evenDiv isODHigh sourceClock r < r.i2cBaud) :
    evenDiv isODHigh sourceClock r = 1 ∧ sourceClock < 2 * lowCycles isODHigh sourceClock r * r.i2cBaud := by
  have hi2c : 0 < r.i2cBaud := by
    have := h.i2c
    omega
  have hcycles := h.lowCycles_pos isODHigh
  have hfreq : sourceClock / (2 * evenDiv isODHigh sourceClock r * lowCycles isODHigh sourceClock r) < r.i2cBaud := by
    rw [← i2cFreq_even_eq]
    exact lt_of_le_of_lt (Nat.div_le_div_right le_openDrainRate) hrate
  have hquot : sourceClock / r.i2cBaud / (2 * lowCycles isODHigh sourceClock r) = 0 := by
    by_contra hne
    have heven : evenDiv isODHigh sourceClock r =
        sourceClock / r.i2cBaud / (2 * lowCycles isODHigh sourceClock r) := by
      rw [evenDiv]
      exact max_eq_right (Nat.one_le_iff_ne_zero.mpr hne)
    have hmul := Nat.div_mul_le_self (sourceClock / r.i2cBaud) (2 * lowCycles isODHigh sourceClock r)
    rw [← heven, Nat.le_div_iff_mul_le hi2c] at hmul
    have hle : r.i2cBaud ≤ sourceClock / (2 * evenDiv isODHigh sourceClock r * lowCycles isODHigh sourceClock r) := by
      rw [Nat.le_div_iff_mul_le (Nat.mul_pos (by rw [evenDiv]; omega) hcycles)]
      calc r.i2cBaud * (2 * evenDiv isODHigh sourceClock r * lowCycles isODHigh sourceClock r)
          = evenDiv isODHigh sourceClock r * (2 * lowCycles isODHigh sourceClock r) * r.i2cBaud := by ring
        _ ≤ sourceClock := hmul
    omega
  constructor
  · rw [evenDiv, hquot]
    rfl
  · rw [Nat.div_eq_zero_iff, or_iff_right (by omega), Nat.div_lt_iff_lt_mul hi2c] at hquot
    exact hquot

variable (isODHigh) in
/-- One more low phase for each half is slow enough. -/
lemma Requested.i2cFreq_succ_lt (h : Requested sourceClock r) :
    2 * ppFreq sourceClock r /
      (lowHalves isODHigh sourceClock r * (2 * (evenDiv isODHigh sourceClock r + 1))) < r.i2cBaud := by
  have hi2c : r.i2cBaud ≠ 0 := by
    have := h.i2c
    omega
  have hcycles := h.lowCycles_pos isODHigh
  have hpos : 1 ≤ evenDiv isODHigh sourceClock r := le_max_left _ _
  have hclock := (evenDiv_le_iff isODHigh hi2c hcycles hpos).mp (le_refl _)
  rw [i2cFreq_even, i2cFreq_even_eq, Nat.div_lt_iff_lt_mul (Nat.mul_pos (by omega) hcycles), Nat.mul_comm]
  exact hclock

variable (isODHigh sourceClock r) in
/-- The I2C divider fits its field, and its frequency is close to the request or below. -/
def ChoiceInLimits : Prop :=
  i2cChoice isODHigh sourceClock r < 2 ^ 4 ∧
    AtMostTenPercentOver (2 * ppFreq sourceClock r /
      (lowHalves isODHigh sourceClock r * (i2cChoice isODHigh sourceClock r + 2))) r.i2cBaud

variable (h : Requested sourceClock r)

include h

/-- An even divider. -/
lemma Requested.even_inLimits_iff (hns : lowNs isODHigh sourceClock r ≠ 0)
    (herror : lowsError isODHigh sourceClock r (2 * evenDiv isODHigh sourceClock r) < errorRateMax)
    (hbetter : lowsError isODHigh sourceClock r (2 * evenDiv isODHigh sourceClock r) <
      lowsError isODHigh sourceClock r (2 * oddDiv isODHigh sourceClock r + 1)) :
    ChoiceInLimits isODHigh sourceClock r ↔ sourceClock < 18 * lowCycles isODHigh sourceClock r * r.i2cBaud ∧
      ErrorHolds isODHigh sourceClock r (2 * evenDiv isODHigh sourceClock r) := by
  have hi2c : r.i2cBaud ≠ 0 := by
    have := h.i2c
    omega
  have hpos : 1 ≤ evenDiv isODHigh sourceClock r := le_max_left _ _
  have hchoice : i2cChoice isODHigh sourceClock r = (evenDiv isODHigh sourceClock r - 1) * 2 := by
    rw [i2cChoice, if_pos (Or.inl herror), if_pos hbetter]
  have hlows : (evenDiv isODHigh sourceClock r - 1) * 2 + 2 = 2 * evenDiv isODHigh sourceClock r := by omega
  have hfits : (evenDiv isODHigh sourceClock r - 1) * 2 < 2 ^ 4 ↔ evenDiv isODHigh sourceClock r ≤ 8 := by omega
  rw [ChoiceInLimits, hchoice, hlows, hfits, evenDiv_le_iff isODHigh hi2c (h.lowCycles_pos isODHigh) (by decide),
    errorHolds_iff hns hi2c (by omega) herror]

/-- An odd divider. -/
lemma Requested.odd_inLimits_iff (hns : lowNs isODHigh sourceClock r ≠ 0) (hone : lowCycles isODHigh sourceClock r ≠ 1)
    (herror : lowsError isODHigh sourceClock r (2 * oddDiv isODHigh sourceClock r + 1) < errorRateMax)
    (hbetter : lowsError isODHigh sourceClock r (2 * oddDiv isODHigh sourceClock r + 1) ≤
      lowsError isODHigh sourceClock r (2 * evenDiv isODHigh sourceClock r)) :
    ChoiceInLimits isODHigh sourceClock r ↔ sourceClock < 18 * (lowCycles isODHigh sourceClock r - 1) * r.i2cBaud ∧
      ErrorHolds isODHigh sourceClock r (2 * oddDiv isODHigh sourceClock r + 1) := by
  have hi2c : r.i2cBaud ≠ 0 := by
    have := h.i2c
    omega
  have hcycles := h.lowCycles_pos isODHigh
  have hpos : 1 ≤ oddDiv isODHigh sourceClock r := le_max_left _ _
  have hchoice : i2cChoice isODHigh sourceClock r = (oddDiv isODHigh sourceClock r - 1) * 2 + 1 := by
    rw [i2cChoice, if_pos (Or.inr herror), if_neg (Nat.not_lt.mpr hbetter)]
  have hlows : (oddDiv isODHigh sourceClock r - 1) * 2 + 1 + 2 = 2 * oddDiv isODHigh sourceClock r + 1 := by omega
  have hfits : (oddDiv isODHigh sourceClock r - 1) * 2 + 1 < 2 ^ 4 ↔ oddDiv isODHigh sourceClock r ≤ 8 := by omega
  rw [ChoiceInLimits, hchoice, hlows, hfits, oddDiv_le_iff isODHigh hi2c (by omega) (by decide),
    errorHolds_iff hns hi2c (by omega) herror]

/-- Where neither error is small, the even divider or the next one is always slow enough. -/
lemma Requested.neither_inLimits_iff
    (heven : errorRateMax ≤ lowsError isODHigh sourceClock r (2 * evenDiv isODHigh sourceClock r))
    (hodd : errorRateMax ≤ lowsError isODHigh sourceClock r (2 * oddDiv isODHigh sourceClock r + 1)) :
    ChoiceInLimits isODHigh sourceClock r ↔ sourceClock < 16 * lowCycles isODHigh sourceClock r * r.i2cBaud := by
  have hi2c : r.i2cBaud ≠ 0 := by
    have := h.i2c
    omega
  have hneither : ¬ (lowsError isODHigh sourceClock r (2 * evenDiv isODHigh sourceClock r) < errorRateMax ∨
      lowsError isODHigh sourceClock r (2 * oddDiv isODHigh sourceClock r + 1) < errorRateMax) := by omega
  by_cases hrate : openDrainRate isODHigh sourceClock r / evenDiv isODHigh sourceClock r < r.i2cBaud
  · obtain ⟨hone, hslow⟩ := h.slow_of_rate_lt hrate
    have hchoice : i2cChoice isODHigh sourceClock r = 0 := by
      rw [i2cChoice, if_neg hneither, if_pos hrate, hone]
    have hfreq : 2 * ppFreq sourceClock r / (lowHalves isODHigh sourceClock r * (0 + 2)) < r.i2cBaud := by
      have heq := i2cFreq_even isODHigh sourceClock r 1
      rw [heq]
      rw [hone] at hrate
      exact lt_of_le_of_lt (Nat.div_le_div_right le_openDrainRate) hrate
    have hle : 2 * lowCycles isODHigh sourceClock r * r.i2cBaud ≤ 16 * lowCycles isODHigh sourceClock r * r.i2cBaud :=
      Nat.mul_le_mul_right _ (Nat.mul_le_mul_right _ (by decide))
    rw [ChoiceInLimits, hchoice]
    constructor
    · intro _
      exact lt_of_lt_of_le hslow hle
    · intro _
      refine ⟨by decide, ?_⟩
      unfold AtMostTenPercentOver
      omega
  · have hchoice : i2cChoice isODHigh sourceClock r = evenDiv isODHigh sourceClock r * 2 := by
      rw [i2cChoice, if_neg hneither, if_neg hrate]
    have hlows : evenDiv isODHigh sourceClock r * 2 + 2 = 2 * (evenDiv isODHigh sourceClock r + 1) := by ring
    have hfits : evenDiv isODHigh sourceClock r * 2 < 2 ^ 4 ↔ evenDiv isODHigh sourceClock r ≤ 7 := by omega
    have hfreq := h.i2cFreq_succ_lt isODHigh
    have hclose : AtMostTenPercentOver (2 * ppFreq sourceClock r /
        (lowHalves isODHigh sourceClock r * (2 * (evenDiv isODHigh sourceClock r + 1)))) r.i2cBaud := by
      unfold AtMostTenPercentOver
      omega
    rw [ChoiceInLimits, hchoice, hlows, hfits, and_iff_left hclose,
      evenDiv_le_iff isODHigh hi2c (h.lowCycles_pos isODHigh) (by decide)]

/-- The three ways to choose the I2C divider. -/
lemma Requested.choice_inLimits_iff (hns : lowNs isODHigh sourceClock r ≠ 0)
    (hone : lowCycles isODHigh sourceClock r ≠ 1) : ChoiceInLimits isODHigh sourceClock r ↔
      (lowsError isODHigh sourceClock r (2 * evenDiv isODHigh sourceClock r) < errorRateMax →
        lowsError isODHigh sourceClock r (2 * evenDiv isODHigh sourceClock r) <
          lowsError isODHigh sourceClock r (2 * oddDiv isODHigh sourceClock r + 1) →
        sourceClock < 18 * lowCycles isODHigh sourceClock r * r.i2cBaud ∧
          ErrorHolds isODHigh sourceClock r (2 * evenDiv isODHigh sourceClock r)) ∧
      (lowsError isODHigh sourceClock r (2 * oddDiv isODHigh sourceClock r + 1) < errorRateMax →
        lowsError isODHigh sourceClock r (2 * oddDiv isODHigh sourceClock r + 1) ≤
          lowsError isODHigh sourceClock r (2 * evenDiv isODHigh sourceClock r) →
        sourceClock < 18 * (lowCycles isODHigh sourceClock r - 1) * r.i2cBaud ∧
          ErrorHolds isODHigh sourceClock r (2 * oddDiv isODHigh sourceClock r + 1)) ∧
      (errorRateMax ≤ lowsError isODHigh sourceClock r (2 * evenDiv isODHigh sourceClock r) →
        errorRateMax ≤ lowsError isODHigh sourceClock r (2 * oddDiv isODHigh sourceClock r + 1) →
        sourceClock < 16 * lowCycles isODHigh sourceClock r * r.i2cBaud) := by
  by_cases heven : lowsError isODHigh sourceClock r (2 * evenDiv isODHigh sourceClock r) < errorRateMax ∧
      lowsError isODHigh sourceClock r (2 * evenDiv isODHigh sourceClock r) <
        lowsError isODHigh sourceClock r (2 * oddDiv isODHigh sourceClock r + 1)
  · rw [h.even_inLimits_iff hns heven.1 heven.2]
    constructor
    · intro hlimits
      exact ⟨fun _ _ => hlimits, fun _ hle => absurd heven.2 (Nat.not_lt.mpr hle),
        fun hle => absurd heven.1 (Nat.not_lt.mpr hle)⟩
    · intro hall
      exact hall.1 heven.1 heven.2
  · by_cases hodd : lowsError isODHigh sourceClock r (2 * oddDiv isODHigh sourceClock r + 1) < errorRateMax
    · have hbetter : lowsError isODHigh sourceClock r (2 * oddDiv isODHigh sourceClock r + 1) ≤
          lowsError isODHigh sourceClock r (2 * evenDiv isODHigh sourceClock r) := by
        by_contra hnot
        exact heven ⟨by omega, by omega⟩
      rw [h.odd_inLimits_iff hns hone hodd hbetter]
      constructor
      · intro hlimits
        exact ⟨fun hlt hless => absurd ⟨hlt, hless⟩ heven, fun _ _ => hlimits,
          fun _ hle => absurd hodd (Nat.not_lt.mpr hle)⟩
      · intro hall
        exact hall.2.1 hodd hbetter
    · have heven' : errorRateMax ≤ lowsError isODHigh sourceClock r (2 * evenDiv isODHigh sourceClock r) := by
        by_contra hnot
        exact heven ⟨by omega, by omega⟩
      rw [h.neither_inLimits_iff heven' (Nat.not_lt.mp hodd)]
      constructor
      · intro hlimits
        exact ⟨fun hlt => absurd hlt (Nat.not_lt.mpr heven'), fun hlt => absurd hlt hodd, fun _ _ => hlimits⟩
      · intro hall
        exact hall.2.2 heven' (Nat.not_lt.mp hodd)

/-- The dividers that are written, without a failing assertion. -/
lemma Requested.setBaudRate_cases (hassert : setBaudRate isODHigh sourceClock r ≠ .error .assertion) :
    (ppDiv sourceClock r ≤ ppbaudDivMax ∧ lowHalves isODHigh sourceClock r ≤ odbaudDivMax) ∧
    (((lowNs isODHigh sourceClock r = 0 ∨ lowCycles isODHigh sourceClock r = 1) ∧
        setBaudRate isODHigh sourceClock r = .error .divisionByZero) ∨
      (lowNs isODHigh sourceClock r ≠ 0 ∧ lowCycles isODHigh sourceClock r ≠ 1 ∧
        setBaudRate isODHigh sourceClock r = .ok ⟨ppDiv sourceClock r - 1, lowHalves isODHigh sourceClock r - 1,
          i2cChoice isODHigh sourceClock r⟩)) := by
  have hpushPull : r.i3cPushPullBaud ≠ 0 := by
    have := h.pushPull
    omega
  have hdiv := h.ppDiv_pos
  have hfreq := h.ppFreq_pos
  have hhalves := lowHalves_pos isODHigh sourceClock r
  have hns : (lowHalves isODHigh sourceClock r - 1 + 1) * (nsecPerSec / (2 * ppFreq sourceClock r)) =
      lowNs isODHigh sourceClock r := by
    rw [Nat.sub_add_cancel hhalves, lowNs]
  unfold setBaudRate at hassert ⊢
  rw [findDiv_eq (by decide) hpushPull, ok_bind, ← ppDiv] at hassert ⊢
  obtain ⟨hpp, hgo⟩ := require_bind hassert
  rw [hgo] at hassert ⊢
  dsimp only at hassert ⊢
  rw [quotient_eq (by omega), ok_bind, ← ppFreq, quotient_eq (by omega), ok_bind, h.findOdBaud, ok_bind] at hassert ⊢
  dsimp only at hassert ⊢
  obtain ⟨hod, hgo⟩ := require_bind hassert
  rw [hgo] at hassert ⊢
  obtain ⟨-, hgo⟩ := require_bind hassert
  rw [hgo] at hassert ⊢
  obtain ⟨-, hgo⟩ := require_bind hassert
  rw [hgo, hns] at hassert ⊢
  refine ⟨⟨hpp, by omega⟩, ?_⟩
  have hinner : findI2cBaud sourceClock r.i2cBaud (ppDiv sourceClock r - 1) (lowHalves isODHigh sourceClock r - 1)
      (lowNs isODHigh sourceClock r) (openDrainRate isODHigh sourceClock r) ≠ .error .assertion := by
    intro heq
    rw [heq] at hassert
    exact hassert rfl
  rcases h.findI2cBaud_cases hinner with ⟨hfault, heq⟩ | ⟨hns, hone, heq⟩
  · left
    rw [heq]
    exact ⟨hfault, rfl⟩
  · right
    rw [heq]
    exact ⟨hns, hone, rfl⟩

/-- The push-pull and open-drain dividers always keep to their requests. -/
lemma Requested.inLimits_iff (hpp : ppDiv sourceClock r ≤ ppbaudDivMax)
    (hod : lowHalves isODHigh sourceClock r ≤ odbaudDivMax) (i2cBaud : Nat) :
    (⟨ppDiv sourceClock r - 1, lowHalves isODHigh sourceClock r - 1, i2cBaud⟩ : Fields).InLimits isODHigh sourceClock r ↔
      i2cBaud < 2 ^ 4 ∧ AtMostTenPercentOver (2 * ppFreq sourceClock r /
        (lowHalves isODHigh sourceClock r * (i2cBaud + 2))) r.i2cBaud := by
  have hpushPull : r.i3cPushPullBaud ≠ 0 := by
    have := h.pushPull
    omega
  have hopenDrain : r.i3cOpenDrainBaud ≠ 0 := by
    have := h.openDrain
    omega
  have hdiv := h.ppDiv_pos
  have hhalves := lowHalves_pos isODHigh sourceClock r
  obtain ⟨f, hf⟩ : ∃ f : Fields, f = ⟨ppDiv sourceClock r - 1, lowHalves isODHigh sourceClock r - 1, i2cBaud⟩ := ⟨_, rfl⟩
  have hppFreq : f.pushPullFreq sourceClock = ppFreq sourceClock r := by
    rw [hf, Fields.pushPullFreq, Nat.sub_add_cancel hdiv, ppFreq]
  have hi2cFreq : f.i2cFreq sourceClock =
      2 * ppFreq sourceClock r / (lowHalves isODHigh sourceClock r * (i2cBaud + 2)) := by
    rw [Fields.i2cFreq, hppFreq, hf, Nat.sub_add_cancel hhalves]
  have hpushPullFreq : AtMostTenPercentOver (f.pushPullFreq sourceClock) r.i3cPushPullBaud := by
    have hle : ppFreq sourceClock r ≤ _ := div_divider_le (by decide) hpushPull
    rw [hppFreq, AtMostTenPercentOver]
    omega
  have hopenDrainFreq : AtMostTenPercentOver (f.openDrainFreq isODHigh sourceClock) r.i3cOpenDrainBaud := by
    rw [Fields.openDrainFreq, hppFreq, hf, AtMostTenPercentOver]
    dsimp only
    cases isODHigh with
    | true =>
      have hle : 2 * ppFreq sourceClock r / divider 2 (2 * ppFreq sourceClock r) r.i3cOpenDrainBaud ≤ _ :=
        div_divider_le (by decide) hopenDrain
      have hleast := le_divider 2 (2 * ppFreq sourceClock r) r.i3cOpenDrainBaud
      have heq : lowHalves true sourceClock r - 1 + 2 = divider 2 (2 * ppFreq sourceClock r) r.i3cOpenDrainBaud := by
        simp only [lowHalves, if_true]
        omega
      rw [if_pos rfl, heq]
      omega
    | false =>
      have hle : ppFreq sourceClock r / divider 1 (ppFreq sourceClock r) r.i3cOpenDrainBaud ≤ _ :=
        div_divider_le (by decide) hopenDrain
      have heq : lowHalves false sourceClock r - 1 + 1 = divider 1 (ppFreq sourceClock r) r.i3cOpenDrainBaud := by
        rw [Nat.sub_add_cancel hhalves]
        rfl
      rw [if_neg Bool.false_ne_true, heq]
      omega
  have hppBaud : ppDiv sourceClock r - 1 < 2 ^ 4 := by
    unfold ppbaudDivMax at hpp
    omega
  have hodBaud : lowHalves isODHigh sourceClock r - 1 < 2 ^ 8 := by
    unfold odbaudDivMax at hod
    omega
  rw [← hi2cFreq, ← hf]
  constructor
  · intro hlimits
    have hfits := hlimits.i2cBaud
    rw [hf] at hfits
    exact ⟨hfits, hlimits.i2c⟩
  · rintro ⟨hfits, hi2c⟩
    refine ⟨?_, ?_, ?_, hpushPullFreq, hopenDrainFreq, hi2c⟩
    · rw [hf]
      exact hppBaud
    · rw [hf]
      exact hodBaud
    · rw [hf]
      exact hfits

omit h in
/-- Unless an assertion fails, the baud rates are well defined and within the limits for the supported requests, and for
no others. -/
theorem wellDefined_iff (h : Requested sourceClock r) (hassert : setBaudRate isODHigh sourceClock r ≠ .error .assertion) :
    WellDefined isODHigh sourceClock r ↔ Supported isODHigh sourceClock r := by
  have hratio : lowCycles isODHigh sourceClock r ≠ 1 ↔
      r.i3cPushPullBaud + r.i3cPushPullBaud / 10 < sourceClock / 2 ∨
        r.i3cOpenDrainBaud + r.i3cOpenDrainBaud / 10 < sourceClock / 2 := by
    rw [Ne, h.lowCycles_one_iff]
    omega
  have hnanosecond : lowNs isODHigh sourceClock r ≠ 0 ↔ 2 * ppFreq sourceClock r ≤ nsecPerSec := by
    rw [Ne, h.lowNs_eq_zero_iff, Nat.not_lt]
  obtain ⟨⟨hpp, hod⟩, ⟨hfault, heq⟩ | ⟨hns, hone, heq⟩⟩ := h.setBaudRate_cases hassert
  · rw [WellDefined, heq]
    constructor
    · exact False.elim
    · intro hsupported
      rcases hfault with hzero | hone
      · exact absurd hzero (hnanosecond.mpr hsupported.nanosecond)
      · exact absurd hone (hratio.mpr hsupported.ratio)
  · rw [WellDefined, heq]
    dsimp only
    rw [h.inLimits_iff hpp hod, ← ChoiceInLimits, h.choice_inLimits_iff hns hone]
    constructor
    · rintro ⟨heven, hodd, hneither⟩
      exact ⟨hratio.mp hone, hnanosecond.mp hns, heven, hodd, hneither⟩
    · intro hsupported
      exact ⟨hsupported.even, hsupported.odd, hsupported.neither⟩

end Outcomes

/-- 400 kHz for I2C from 24 MHz. -/
theorem wellDefined_400kHz : WellDefined true 24000000 ⟨400000, 12000000, 4000000⟩ := by
  have hrequested : Requested 24000000 ⟨400000, 12000000, 4000000⟩ := by
    constructor <;> decide
  have hassert : setBaudRate true 24000000 ⟨400000, 12000000, 4000000⟩ ≠ .error .assertion := by
    have hrun : setBaudRate true 24000000 ⟨400000, 12000000, 4000000⟩ = .ok ⟨0, 4, 10⟩ := by rfl
    rw [hrun]
    intro heq
    cases heq
  apply (wellDefined_iff hrequested hassert).mpr
  constructor
  · decide
  · decide
  · exact fun _ _ => ⟨by decide, Or.inl (by decide)⟩
  · exact fun hlt => absurd hlt (by decide)
  · decide

/-- 100 kHz for I2C from the same clocks: the divider is 78, and its field has four bits. -/
theorem not_wellDefined_100kHz : Requested 24000000 ⟨100000, 12000000, 4000000⟩ ∧
    setBaudRate false 24000000 ⟨100000, 12000000, 4000000⟩ = .ok ⟨0, 2, 78⟩ ∧
    ¬ WellDefined false 24000000 ⟨100000, 12000000, 4000000⟩ := by
  have hrun : setBaudRate false 24000000 ⟨100000, 12000000, 4000000⟩ = .ok ⟨0, 2, 78⟩ := by rfl
  refine ⟨by constructor <;> decide, hrun, ?_⟩
  rw [WellDefined, hrun]
  intro hlimits
  exact absurd hlimits.i2cBaud (by decide)

end McuxDrivers.I3c.BaudRate
