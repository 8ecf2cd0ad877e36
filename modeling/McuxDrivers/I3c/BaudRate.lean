import Mathlib.Algebra.Group.Nat.Defs
import Mathlib.Order.Basic

/-!
# The baud rates of the I3C master

`I3C_MasterSetBaudRate` of `fsl_i3c.c`. Frequencies are in Hertz, and `unsigned long` has 32 bits: of the products, only the
percentages of `I3C_CalcErrorRatio` can exceed them. The dividers are given as they are written, before the fields of
`MCONFIG` cut them.
-/

namespace McuxDrivers.I3c.BaudRate

/-- What ends the function before it has written the fields. -/
inductive Fault
  | assertion
  | divisionByZero
  deriving DecidableEq

/-- A division of the source. -/
def quotient (a b : Nat) : Except Fault Nat :=
  if b = 0 then .error .divisionByZero else .ok (a / b)

/-- `assert`. -/
def require (p : Prop) [Decidable p] : Except Fault Unit :=
  if p then .ok () else .error .assertion

/-- `NSEC_PER_SEC`. -/
def nsecPerSec : Nat := 1000000000

/-- `FSL_I3C_ERROR_RATE_MAX`. -/
def errorRateMax : Nat := 10

/-- `FSL_I3C_PPBAUD_DIV_MAX`, for a field of four bits. -/
def ppbaudDivMax : Nat := 16

/-- `FSL_I3C_ODBAUD_DIV_MAX`, for a field of eight bits. -/
def odbaudDivMax : Nat := 256

/-- `i3c_baudrate_hz_t`. -/
structure Requests where
  i2cBaud : Nat
  i3cPushPullBaud : Nat
  i3cOpenDrainBaud : Nat
  deriving DecidableEq

/-- The dividers that are written. -/
structure Fields where
  ppBaud : Nat
  odBaud : Nat
  i2cBaud : Nat
  deriving DecidableEq

/-- `I3C_CalcErrorRatio`. -/
def calcErrorRatio (curFreq desiredFreq : Nat) : Except Fault Nat :=
  if curFreq > desiredFreq then quotient ((curFreq - desiredFreq) * 100 % 2 ^ 32) desiredFreq
  else quotient ((desiredFreq - curFreq) * 100 % 2 ^ 32) desiredFreq

/-- The divider of a clock for a request, at least `least`: one more where the frequency exceeds the request by 10 %. -/
def findDiv (least freq request : Nat) : Except Fault Nat := do
  let div ← quotient freq request
  let div := if div < least then least else div
  let cur ← quotient freq div
  return if cur > request / 10 + request then div + 1 else div

/-- `odBaud` and the open-drain frequency. -/
def findOdBaud (isODHigh : Bool) (freq request : Nat) : Except Fault (Nat × Nat) :=
  if isODHigh then do
    let div ← findDiv 2 (2 * freq) request
    let freq ← quotient (2 * freq) div
    return (div - 2, freq)
  else do
    let div ← findDiv 1 freq request
    let freq ← quotient freq div
    return (div - 1, freq)

/-- The error of an I2C period of so many open-drain low phases, which has to fit 32 bits in nanoseconds. -/
def periodError (lows i3cOdLow_Ns request : Nat) : Except Fault Nat := do
  require (lows * i3cOdLow_Ns ≤ 2 ^ 32 - 1)
  let cur ← quotient nsecPerSec (lows * i3cOdLow_Ns)
  calcErrorRatio cur request

/-- `i2cBaud`, from the dividers so far and the open-drain frequency. -/
def findI2cBaud (sourceClock request ppBaud odBaud i3cOdLow_Ns freq : Nat) : Except Fault Nat := do
  let cycles ← quotient sourceClock request
  let divEven ← quotient cycles (2 * (ppBaud + 1) * (odBaud + 1))
  let divEven := if divEven = 0 then 1 else divEven
  let errRate0 ← periodError (2 * divEven) i3cOdLow_Ns request
  let divOdd ← quotient cycles ((ppBaud + 1) * (odBaud + 1) - 1)
  let divOdd := if divOdd / 2 = 0 then 1 else divOdd / 2
  let errRate1 ← periodError (2 * divOdd + 1) i3cOdLow_Ns request
  if errRate0 < errorRateMax ∨ errRate1 < errorRateMax then
    return if errRate0 < errRate1 then (divEven - 1) * 2 else (divOdd - 1) * 2 + 1
  else
    let cur ← quotient freq divEven
    return if cur < request then (divEven - 1) * 2 else divEven * 2

/-- `I3C_MasterSetBaudRate`, with the ODHPP bit of `MCONFIG`. -/
def setBaudRate (isODHigh : Bool) (sourceClock : Nat) (r : Requests) : Except Fault Fields := do
  let div ← findDiv 1 (sourceClock / 2) r.i3cPushPullBaud
  require (div ≤ ppbaudDivMax)
  let ppBaud := div - 1
  let freq ← quotient (sourceClock / 2) div
  let i3cPPLow_Ns ← quotient nsecPerSec (2 * freq)
  let (odBaud, freq) ← findOdBaud isODHigh freq r.i3cOpenDrainBaud
  require (odBaud < odbaudDivMax)
  require (ppBaud < ppbaudDivMax)
  let temp := (odBaud + 1) * i3cPPLow_Ns
  require (temp ≤ 2 ^ 32 - 1)
  let i2cBaud ← findI2cBaud sourceClock r.i2cBaud ppBaud odBaud temp freq
  return ⟨ppBaud, odBaud, i2cBaud⟩

end McuxDrivers.I3c.BaudRate
