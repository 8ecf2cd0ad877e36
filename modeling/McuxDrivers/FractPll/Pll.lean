import Mathlib.Algebra.Group.Nat.Defs
import Mathlib.Data.Nat.Basic
import Mathlib.Logic.Function.Basic

/-!
# Fractional PLLs

`fsl_fract_pll.c`: the rate functions of a PLL and of its DFS outputs. The constants of the device header are a
`Header`; rates are 64-bit numbers, and the header gives its frequencies as such. A lock bit that is waited for
gets set. A division by zero has no result.
-/

namespace McuxDrivers.FractPll

/-- `CLOCK_NUM_PLL`, `CLOCK_PLL_*` and `ES_*_HZ_PLLVCO`. -/
structure Header where
  numPll : Nat
  frefHz : Nat
  mfd : Nat
  calcAccuracyHz : Nat
  minHzPllvco : Nat
  maxHzPllvco : Nat

/-- `g_pllAttrs`. -/
structure Attrs where
  isFrac : Bool
  numDFS : Nat

/-- `DFS_DIV`: MFI has 8 bits, MFN has 3. -/
@[ext]
structure DfsDiv where
  mfi : Nat
  mfn : Nat
  deriving DecidableEq

/-- `DIV` with its fields MFI, RDIV and ODIV, and the other registers that hold a rate. -/
structure Registers where
  mfi : Nat
  rdiv : Nat
  odiv : Nat
  numerator : Nat
  denominator : Nat
  dfs : Nat → DfsDiv

/-- The PLLs with `s_vcoRates` and `s_vcoRateIsLatched`. -/
structure State where
  pll : Nat → Registers
  vcoRates : Nat → Nat
  vcoRateIsLatched : Nat → Bool

section Rates

variable (header : Header) (attrs : Nat → Attrs)

/-- The rate before `rdiv`. -/
def inputRate (isFrac : Bool) (pll : Registers) : Option Nat :=
  if isFrac then
    let mfn := pll.numerator / 4
    if pll.denominator = 0 then none
    else some ((header.frefHz * pll.mfi % 2 ^ 64 + header.frefHz * mfn % 2 ^ 64 / pll.denominator) % 2 ^ 64)
  else some (header.frefHz * pll.mfi % 2 ^ 64)

/-- `FRACTPLL_GetRate`. -/
def getRate (pllIdx : Nat) (vcoOp : Bool) (s : State) : Option Nat :=
  if pllIdx < header.numPll then
    if vcoOp && s.vcoRateIsLatched pllIdx then some (s.vcoRates pllIdx)
    else
      let pll := s.pll pllIdx
      let rdiv := if pll.rdiv = 0 then 1 else pll.rdiv
      (inputRate header (attrs pllIdx).isFrac pll).map fun rate =>
        if vcoOp then rate / rdiv
        else
          let odiv := if pll.odiv < 2 then pll.odiv + 2 else pll.odiv
          rate / (rdiv * odiv)
  else some 0

/-- The registers that `FRACTPLL_UpdateRate` leaves. -/
def program (isFrac : Bool) (mfi mfn odiv : Nat) (pll : Registers) : Registers where
  mfi := mfi % 2 ^ 9
  rdiv := 0
  odiv := odiv % 2 ^ 8
  numerator := if isFrac then mfn * 4 % 2 ^ 32 else pll.numerator
  denominator := if isFrac then header.mfd % 2 ^ 30 else pll.denominator
  dfs := pll.dfs

/-- `FRACTPLL_UpdateRate`. -/
def updateRate (pllIdx mfi mfn odiv : Nat) (s : State) : State × Bool :=
  if pllIdx < header.numPll then
    ({ s with
        vcoRateIsLatched := Function.update s.vcoRateIsLatched pllIdx false
        pll := Function.update s.pll pllIdx (program header (attrs pllIdx).isFrac mfi mfn odiv (s.pll pllIdx)) }, true)
  else (s, false)

/-- The output divider for a rate. -/
def outputDivider (vcoRate rate : Nat) : Nat :=
  let quotient := vcoRate / rate
  let remain := vcoRate % rate
  if quotient < 2 then 2
  else if quotient ≥ 255 then 255
  else if remain = 0 then quotient % 2 ^ 32
  else (quotient + 1) % 2 ^ 32

/-- The end of `FRACTPLL_SetRate`: the PLL is locked again. -/
def relock (pllIdx vcoRate rate : Nat) (s : State) : State × Bool :=
  let odiv := outputDivider vcoRate rate
  let mfi := vcoRate / header.frefHz % 2 ^ 32
  let mfn :=
    if (attrs pllIdx).isFrac then
      (vcoRate + (2 ^ 64 - mfi * header.frefHz % 2 ^ 64)) % 2 ^ 64 / header.calcAccuracyHz % 2 ^ 32
    else 0
  updateRate header attrs pllIdx mfi mfn odiv s

/-- `FRACTPLL_SetRate`. -/
def setRate (pllIdx : Nat) (vcoOp : Bool) (rate : Nat) (s : State) : State × Bool :=
  if pllIdx < header.numPll ∧ rate ≠ 0 then
    if vcoOp then
      if rate ≥ header.minHzPllvco ∧ rate ≤ header.maxHzPllvco then
        if (attrs pllIdx).numDFS > 0 then relock header attrs pllIdx rate rate s
        else
          ({ s with
              vcoRates := Function.update s.vcoRates pllIdx rate
              vcoRateIsLatched := Function.update s.vcoRateIsLatched pllIdx true }, true)
      else (s, false)
    else
      let vcoRate := s.vcoRates pllIdx
      relock header attrs pllIdx vcoRate rate
        { s with vcoRateIsLatched := Function.update s.vcoRateIsLatched pllIdx false }
  else (s, false)

/-- `FRACTPLL_GetDfsRate`. -/
def getDfsRate (pllIdx dfsIdx : Nat) (div2 : Bool) (s : State) : Option Nat :=
  if pllIdx < header.numPll ∧ dfsIdx < (attrs pllIdx).numDFS then
    let divider := (s.pll pllIdx).dfs dfsIdx
    match getRate header attrs pllIdx true s with
    | none => none
    | some rate =>
      let divisor := (divider.mfi * 5 + divider.mfn) % 2 ^ 32
      if divisor = 0 then none
      else
        let rate := rate * 5 % 2 ^ 64 / divisor
        some (if div2 then rate / 2 else rate)
  else some 0

/-- `FRACTPLL_UpdateDfsRate`. -/
def updateDfsRate (pllIdx dfsIdx mfi mfn : Nat) (s : State) : State × Bool :=
  if pllIdx < header.numPll ∧ dfsIdx < (attrs pllIdx).numDFS then
    let pll := s.pll pllIdx
    let divider : DfsDiv := { mfi := mfi % 2 ^ 8, mfn := mfn % 2 ^ 3 }
    ({ s with pll := Function.update s.pll pllIdx { pll with dfs := Function.update pll.dfs dfsIdx divider } }, true)
  else (s, false)

/-- MFI and MFN for a rate, without the clamps. -/
def dfsQuotient (vcoRate rate : Nat) : DfsDiv :=
  let mfi := vcoRate / rate % 2 ^ 32
  let num := (vcoRate * 5 % 2 ^ 64 + (2 ^ 64 - mfi * rate * 5 % 2 ^ 64)) % 2 ^ 64
  let quotient := num / rate
  let remain := num % rate
  let mfn := quotient % 2 ^ 32
  -- round up to avoid overclocking
  let mfn := if remain ≠ 0 ∧ quotient < 5 then mfn + 1 else mfn
  if mfn = 5 then ⟨(mfi + 1) % 2 ^ 32, 0⟩ else ⟨mfi, mfn⟩

/-- The clamps of MFI and MFN. -/
def dfsClamp (x : DfsDiv) : DfsDiv :=
  let x := if x.mfi < 2 then ⟨2, 0⟩ else x
  if x.mfi > 255 then ⟨255, 4⟩ else x

/-- `FRACTPLL_SetDfsRate`. -/
def setDfsRate (pllIdx dfsIdx rate : Nat) (s : State) : Option (State × Bool) :=
  if pllIdx < header.numPll ∧ rate ≠ 0 then
    if dfsIdx < (attrs pllIdx).numDFS then
      (getRate header attrs pllIdx true s).map fun vcoRate =>
        let x := dfsClamp (dfsQuotient vcoRate rate)
        updateDfsRate header attrs pllIdx dfsIdx x.mfi x.mfn s
    else some (s, false)
  else some (s, false)

end Rates

section Example

/-- A reference of 24 MHz, and rates in steps of 100 Hz. -/
def exampleHeader : Header where
  numPll := 2
  frefHz := 24000000
  mfd := 240000
  calcAccuracyHz := 100
  minHzPllvco := 2500000000
  maxHzPllvco := 5000000000

def resetState : State where
  pll := fun _ => ⟨0, 0, 0, 0, 1, fun _ => ⟨0, 0⟩⟩
  vcoRates := fun _ => 0
  vcoRateIsLatched := fun _ => false

end Example

end McuxDrivers.FractPll
