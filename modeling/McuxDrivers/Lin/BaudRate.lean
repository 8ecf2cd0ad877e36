import McuxDrivers.Lib.Countdown
import McuxDrivers.Lpuart.BaudRate

/-!
# The baud rate of a LIN node

For each oversampling ratio `LIN_LPUART_CalculateBaudRate` takes the divider at or below the wanted one or the next,
whichever is closer. It does not hold the divider to the field of `LIN_LPUART_SetBaudRate`, and its differences are
unsigned.
-/

namespace McuxDrivers.Lin
open McuxDrivers.Lib
open McuxDrivers.Lpuart (calculatedBaud baudError absDiff Divider InRange mul_le_iff_le_div lt_mul_iff_div_lt)

/-- `sbrTemp`. A quotient by a product that is 0 counts as 0. -/
def firstSbr (srcClock_Hz baudRate_Bps osrTemp : Nat) : Nat :=
  let sbrTemp := srcClock_Hz / (baudRate_Bps * osrTemp % 2 ^ 32) % 2 ^ 16
  if sbrTemp = 0 then 1 else sbrTemp

/-- `sbrTemp` and `tempDiff` after the selection. -/
def selectSbr (srcClock_Hz baudRate_Bps osrTemp : Nat) : Nat × Nat :=
  let sbrTemp := firstSbr srcClock_Hz baudRate_Bps osrTemp
  let tempDiff := wsub32 (calculatedBaud srcClock_Hz osrTemp sbrTemp) baudRate_Bps
  let nextDiff := wsub32 baudRate_Bps (calculatedBaud srcClock_Hz osrTemp (sbrTemp + 1))
  if tempDiff > nextDiff then ((sbrTemp + 1) % 2 ^ 16, nextDiff) else (sbrTemp, tempDiff)

/-- One round of the loop. -/
def tryOsr (srcClock_Hz baudRate_Bps : Nat) (d : Divider) (osrTemp : Nat) : Divider :=
  let (sbrTemp, tempDiff) := selectSbr srcClock_Hz baudRate_Bps osrTemp
  if tempDiff ≤ d.baudDiff then ⟨osrTemp, sbrTemp, tempDiff⟩ else d

/-- The loop over the ratios 4 to 32; `out` is what `osr` and `sbr` point at. -/
def bestDivider (srcClock_Hz baudRate_Bps : Nat) (out : Nat × Nat) : Divider :=
  (List.range' 4 29).foldl (tryOsr srcClock_Hz baudRate_Bps) ⟨out.1, out.2, baudRate_Bps⟩

/-- Whether the status is `kStatus_Success`, and what `osr` and `sbr` point at then. -/
def calculateBaudRate (srcClock_Hz baudRate_Bps : Nat) (out : Nat × Nat) : Bool × Nat × Nat :=
  let d := bestDivider srcClock_Hz baudRate_Bps out
  (decide (d.baudDiff < baudRate_Bps / 100 * 3), d.osr, d.sbr)

/-- The fields of `BAUD` that are set here. -/
structure BaudRegister where
  bothEdge : Bool
  osr : Nat
  sbr : Nat
  deriving DecidableEq, Repr

def setBaudRate (baud : BaudRegister) (osr sbr : Nat) : BaudRegister where
  bothEdge := baud.bothEdge || (3 < osr && osr < 8)
  osr := wsub32 osr 1 % 2 ^ 5
  sbr := sbr % 2 ^ 13

/-- The search gives values that the registers hold and a baud rate that is close enough, it finds such values where
there are some, and none of its differences wraps. -/
structure SearchOk (srcClock_Hz baudRate_Bps : Nat) : Prop where
  sound : ∀ out osr sbr, calculateBaudRate srcClock_Hz baudRate_Bps out = (true, osr, sbr) →
    InRange osr sbr ∧ baudError srcClock_Hz baudRate_Bps osr sbr < 3 * (baudRate_Bps / 100)
  complete : ∀ out osr sbr, InRange osr sbr → baudError srcClock_Hz baudRate_Bps osr sbr < 3 * (baudRate_Bps / 100) →
    (calculateBaudRate srcClock_Hz baudRate_Bps out).1 = true
  nonneg : ∀ osr, 4 ≤ osr → osr ≤ 32 →
    baudRate_Bps ≤ calculatedBaud srcClock_Hz osr (firstSbr srcClock_Hz baudRate_Bps osr) ∧
      calculatedBaud srcClock_Hz osr (firstSbr srcClock_Hz baudRate_Bps osr + 1) ≤ baudRate_Bps

/-- The closest divider of this ratio lies beyond the field: 8192 is not too slow, or closer than 8191. -/
def Beyond (srcClock_Hz baudRate_Bps osr : Nat) : Prop :=
  baudRate_Bps ≤ calculatedBaud srcClock_Hz osr 8192 ∨
    baudError srcClock_Hz baudRate_Bps osr 8192 < baudError srcClock_Hz baudRate_Bps osr 8191

/-- The clock is fast enough for every ratio. Where a ratio has its closest divider beyond the field, and one there that
is close enough, a pair in the field is closer, or as close at a larger ratio. -/
structure Fits (srcClock_Hz baudRate_Bps : Nat) : Prop where
  clock : 32 * baudRate_Bps ≤ srcClock_Hz
  field : ∀ osr sbr, 4 ≤ osr → osr ≤ 32 → 8191 < sbr → Beyond srcClock_Hz baudRate_Bps osr →
    baudError srcClock_Hz baudRate_Bps osr sbr < 3 * (baudRate_Bps / 100) →
    ∃ osr' sbr', InRange osr' sbr' ∧
      (baudError srcClock_Hz baudRate_Bps osr' sbr' < baudError srcClock_Hz baudRate_Bps osr sbr ∨
        baudError srcClock_Hz baudRate_Bps osr' sbr' = baudError srcClock_Hz baudRate_Bps osr sbr ∧ osr < osr')

theorem setBaudRate_holds (baud : BaudRegister) {osr sbr : Nat} (h : InRange osr sbr) :
    (setBaudRate baud osr sbr).osr + 1 = osr ∧ (setBaudRate baud osr sbr).sbr = sbr := by
  obtain ⟨hge, hle, hpos, hsbr⟩ := h
  unfold setBaudRate
  dsimp only
  rw [wsub32_of_le (by omega)]
  omega

section Dividers

variable {srcClock_Hz baudRate_Bps osr : Nat}

/-- The dividers that are not too slow are those up to the quotient. -/
lemma le_calculatedBaud_iff (srcClock_Hz : Nat) (hbaud : 0 < baudRate_Bps) (hosr : 0 < osr) {sbr : Nat} (hsbr : 0 < sbr) :
    baudRate_Bps ≤ calculatedBaud srcClock_Hz osr sbr ↔ sbr ≤ srcClock_Hz / (baudRate_Bps * osr) := by
  have hcomm : osr * sbr * baudRate_Bps = sbr * (baudRate_Bps * osr) := by ring
  unfold calculatedBaud
  rw [← mul_le_iff_le_div (Nat.mul_pos hosr hsbr), Nat.le_div_iff_mul_le (Nat.mul_pos hbaud hosr), hcomm]

lemma calculatedBaud_anti (srcClock_Hz : Nat) (hosr : 0 < osr) {sbr sbr' : Nat} (hsbr : 0 < sbr) (hle : sbr ≤ sbr') :
    calculatedBaud srcClock_Hz osr sbr' ≤ calculatedBaud srcClock_Hz osr sbr :=
  Nat.div_le_div_left (Nat.mul_le_mul_left osr hle) (Nat.mul_pos hosr hsbr)

lemma baudError_above {sbr : Nat} (h : baudRate_Bps ≤ calculatedBaud srcClock_Hz osr sbr) :
    baudError srcClock_Hz baudRate_Bps osr sbr = calculatedBaud srcClock_Hz osr sbr - baudRate_Bps := by
  unfold baudError absDiff
  split_ifs <;> omega

lemma baudError_below {sbr : Nat} (h : calculatedBaud srcClock_Hz osr sbr < baudRate_Bps) :
    baudError srcClock_Hz baudRate_Bps osr sbr = baudRate_Bps - calculatedBaud srcClock_Hz osr sbr := by
  unfold baudError absDiff
  split_ifs <;> omega

/-- The error grows away from the wanted baud rate. -/
lemma baudError_le_of_above (hosr : 0 < osr) {sbr sbr' : Nat} (hsbr : 0 < sbr) (hle : sbr ≤ sbr')
    (habove : baudRate_Bps ≤ calculatedBaud srcClock_Hz osr sbr') :
    baudError srcClock_Hz baudRate_Bps osr sbr' ≤ baudError srcClock_Hz baudRate_Bps osr sbr := by
  have hanti := calculatedBaud_anti srcClock_Hz hosr hsbr hle
  rw [baudError_above habove, baudError_above (le_trans habove hanti)]
  omega

lemma baudError_le_of_below (hosr : 0 < osr) {sbr sbr' : Nat} (hsbr : 0 < sbr) (hle : sbr ≤ sbr')
    (hbelow : calculatedBaud srcClock_Hz osr sbr < baudRate_Bps) :
    baudError srcClock_Hz baudRate_Bps osr sbr ≤ baudError srcClock_Hz baudRate_Bps osr sbr' := by
  have hanti := calculatedBaud_anti srcClock_Hz hosr hsbr hle
  rw [baudError_below hbelow, baudError_below (lt_of_le_of_lt hanti hbelow)]
  omega

/-- The divider below the wanted one, or the next one if that is closer. -/
def nearestSbr (srcClock_Hz baudRate_Bps osr : Nat) : Nat :=
  let sbr := srcClock_Hz / (baudRate_Bps * osr)
  if baudError srcClock_Hz baudRate_Bps osr (sbr + 1) < baudError srcClock_Hz baudRate_Bps osr sbr then sbr + 1 else sbr

section Clock

variable (hbaud : 0 < baudRate_Bps) (hclock : 32 * baudRate_Bps ≤ srcClock_Hz) (hge : 4 ≤ osr) (hle : osr ≤ 32)
include hbaud hclock hge hle

lemma quotient_pos : 0 < srcClock_Hz / (baudRate_Bps * osr) := by
  apply Nat.div_pos
  · calc baudRate_Bps * osr ≤ baudRate_Bps * 32 := Nat.mul_le_mul_left _ hle
      _ ≤ srcClock_Hz := by omega
  · exact Nat.mul_pos hbaud (by omega)

/-- The quotient is not too slow, and the next divider is. -/
lemma quotient_above :
    baudRate_Bps ≤ calculatedBaud srcClock_Hz osr (srcClock_Hz / (baudRate_Bps * osr)) :=
  (le_calculatedBaud_iff srcClock_Hz hbaud (by omega) (quotient_pos hbaud hclock hge hle)).mpr (le_refl _)

omit hclock hle in
variable (srcClock_Hz) in
lemma quotient_succ_below :
    calculatedBaud srcClock_Hz osr (srcClock_Hz / (baudRate_Bps * osr) + 1) < baudRate_Bps := by
  by_contra hnot
  have hsucc := (le_calculatedBaud_iff srcClock_Hz hbaud (by omega) (Nat.succ_pos _)).mp (Nat.le_of_not_lt hnot)
  omega

lemma nearestSbr_pos : 0 < nearestSbr srcClock_Hz baudRate_Bps osr := by
  have hpos := quotient_pos hbaud hclock hge hle
  unfold nearestSbr
  dsimp only
  split_ifs <;> omega

lemma nearestSbr_least {sbr : Nat} (hsbr : 0 < sbr) :
    baudError srcClock_Hz baudRate_Bps osr (nearestSbr srcClock_Hz baudRate_Bps osr) ≤
      baudError srcClock_Hz baudRate_Bps osr sbr := by
  have hosr : 0 < osr := by omega
  have habove := quotient_above hbaud hclock hge hle
  have hbelow := quotient_succ_below srcClock_Hz hbaud hge
  obtain ⟨q, hq⟩ : ∃ q, q = srcClock_Hz / (baudRate_Bps * osr) := ⟨_, rfl⟩
  unfold nearestSbr
  rw [← hq] at habove hbelow ⊢
  dsimp only
  rcases Nat.lt_or_ge q sbr with hlt | hge
  · have hnext := baudError_le_of_below hosr (show 0 < q + 1 by omega) hlt hbelow
    split_ifs <;> omega
  · have hlow := baudError_le_of_above hosr hsbr hge habove
    split_ifs <;> omega

lemma beyond_iff : Beyond srcClock_Hz baudRate_Bps osr ↔ 8191 < nearestSbr srcClock_Hz baudRate_Bps osr := by
  have hosr : 0 < osr := by omega
  have hiff := le_calculatedBaud_iff srcClock_Hz hbaud hosr (show 0 < 8192 by decide)
  have hiff' := le_calculatedBaud_iff srcClock_Hz hbaud hosr (show 0 < 8191 by decide)
  have hpos := quotient_pos hbaud hclock hge hle
  unfold Beyond nearestSbr
  obtain ⟨q, hq⟩ : ∃ q, q = srcClock_Hz / (baudRate_Bps * osr) := ⟨_, rfl⟩
  rw [← hq] at hiff hiff' ⊢
  dsimp only
  rw [hiff]
  rcases Nat.lt_trichotomy q 8191 with hlt | rfl | hlt
  · -- both 8191 and 8192 are too slow
    have hslow : calculatedBaud srcClock_Hz osr 8191 < baudRate_Bps := by omega
    have hnot := baudError_le_of_below hosr (by decide) (show 8191 ≤ 8192 by decide) hslow
    split_ifs <;> omega
  · have hsucc : 8191 + 1 = 8192 := rfl
    rw [hsucc]
    split_ifs <;> omega
  · split_ifs <;> omega

end Clock

end Dividers

/-- What the loop has found before the ratio `k`: the last ratio of the least error, or nothing yet. -/
structure Tried (srcClock_Hz baudRate_Bps k : Nat) (d : Divider) : Prop where
  found : d.baudDiff = baudRate_Bps ∨
    4 ≤ d.osr ∧ d.osr < k ∧ d.sbr = nearestSbr srcClock_Hz baudRate_Bps d.osr % 2 ^ 16 ∧
      d.baudDiff = baudError srcClock_Hz baudRate_Bps d.osr (nearestSbr srcClock_Hz baudRate_Bps d.osr)
  least : ∀ osr, 4 ≤ osr → osr < k →
    d.baudDiff ≤ baudError srcClock_Hz baudRate_Bps osr (nearestSbr srcClock_Hz baudRate_Bps osr)
  last : ∀ osr, 4 ≤ osr → osr < k →
    baudError srcClock_Hz baudRate_Bps osr (nearestSbr srcClock_Hz baudRate_Bps osr) = d.baudDiff → osr ≤ d.osr

section Search

variable {srcClock_Hz baudRate_Bps : Nat} (hsrc : srcClock_Hz < 2 ^ 32) (hbaud : 0 < baudRate_Bps)
  (hassert : srcClock_Hz / baudRate_Bps / 4 ≤ 0xFFFF)
include hassert

lemma quotient_le {osr : Nat} (hge : 4 ≤ osr) : srcClock_Hz / (baudRate_Bps * osr) ≤ 0xFFFF := by
  rw [← Nat.div_div_eq_div_mul]
  exact le_trans (Nat.div_le_div_left hge (by decide)) hassert

lemma nearestSbr_le {osr : Nat} (hge : 4 ≤ osr) : nearestSbr srcClock_Hz baudRate_Bps osr ≤ 2 ^ 16 := by
  have hle := quotient_le hassert hge
  unfold nearestSbr
  dsimp only
  split_ifs <;> omega

variable (hclock : 32 * baudRate_Bps ≤ srcClock_Hz)
include hsrc hbaud hclock

lemma firstSbr_eq {osr : Nat} (hge : 4 ≤ osr) (hle : osr ≤ 32) :
    firstSbr srcClock_Hz baudRate_Bps osr = srcClock_Hz / (baudRate_Bps * osr) := by
  have hpos := quotient_pos hbaud hclock hge hle
  have hquot := quotient_le hassert hge
  have hprod : baudRate_Bps * osr < 2 ^ 32 := by
    calc baudRate_Bps * osr ≤ baudRate_Bps * 32 := Nat.mul_le_mul_left _ hle
      _ < 2 ^ 32 := by omega
  unfold firstSbr
  rw [Nat.mod_eq_of_lt hprod, Nat.mod_eq_of_lt (by omega)]
  dsimp only
  rw [if_neg (by omega)]

lemma selectSbr_eq {osr : Nat} (hge : 4 ≤ osr) (hle : osr ≤ 32) :
    selectSbr srcClock_Hz baudRate_Bps osr = (nearestSbr srcClock_Hz baudRate_Bps osr % 2 ^ 16,
      baudError srcClock_Hz baudRate_Bps osr (nearestSbr srcClock_Hz baudRate_Bps osr)) := by
  have habove := quotient_above hbaud hclock hge hle
  have hbelow := quotient_succ_below srcClock_Hz hbaud hge
  have hquot := quotient_le hassert hge
  unfold selectSbr nearestSbr
  rw [firstSbr_eq hsrc hbaud hassert hclock hge hle]
  dsimp only
  rw [wsub32_of_le habove, wsub32_of_le hbelow.le, ← baudError_above habove, ← baudError_below hbelow]
  split_ifs with hcloser
  · rfl
  · rw [Nat.mod_eq_of_lt (by omega)]

lemma tryOsr_eq {osr : Nat} (hge : 4 ≤ osr) (hle : osr ≤ 32) (d : Divider) :
    tryOsr srcClock_Hz baudRate_Bps d osr =
      if baudError srcClock_Hz baudRate_Bps osr (nearestSbr srcClock_Hz baudRate_Bps osr) ≤ d.baudDiff then
        ⟨osr, nearestSbr srcClock_Hz baudRate_Bps osr % 2 ^ 16,
          baudError srcClock_Hz baudRate_Bps osr (nearestSbr srcClock_Hz baudRate_Bps osr)⟩
      else d := by
  unfold tryOsr
  rw [selectSbr_eq hsrc hbaud hassert hclock hge hle]

lemma Tried.tryOsr {k : Nat} {d : Divider} (h : Tried srcClock_Hz baudRate_Bps k d) (hge : 4 ≤ k) (hle : k ≤ 32) :
    Tried srcClock_Hz baudRate_Bps (k + 1) (tryOsr srcClock_Hz baudRate_Bps d k) := by
  rw [tryOsr_eq hsrc hbaud hassert hclock hge hle]
  split_ifs with hcloser
  · constructor
    · exact Or.inr ⟨hge, Nat.lt_succ_self k, rfl, rfl⟩
    · intro osr hosr hlt
      rcases Nat.lt_succ_iff_lt_or_eq.mp hlt with hlt | rfl
      · exact le_trans hcloser (h.least osr hosr hlt)
      · exact le_refl _
    · intro osr _ hlt _
      exact Nat.le_of_lt_succ hlt
  · constructor
    · rcases h.found with hnone | ⟨hosr, hlt, hsbr, hdiff⟩
      · exact Or.inl hnone
      · exact Or.inr ⟨hosr, Nat.lt_succ_of_lt hlt, hsbr, hdiff⟩
    · intro osr hosr hlt
      rcases Nat.lt_succ_iff_lt_or_eq.mp hlt with hlt | rfl
      · exact h.least osr hosr hlt
      · exact (Nat.lt_of_not_le hcloser).le
    · intro osr hosr hlt heq
      rcases Nat.lt_succ_iff_lt_or_eq.mp hlt with hlt | rfl
      · exact h.last osr hosr hlt heq
      · exact absurd heq.le hcloser

lemma Tried.foldl {k : Nat} {d : Divider} (h : Tried srcClock_Hz baudRate_Bps k d) (hge : 4 ≤ k) (n : Nat)
    (hn : k + n ≤ 33) :
    Tried srcClock_Hz baudRate_Bps (k + n) ((List.range' k n).foldl (Lin.tryOsr srcClock_Hz baudRate_Bps) d) := by
  induction n generalizing k d with
  | zero => exact h
  | succ n ih =>
    rw [List.range'_succ, List.foldl_cons, Nat.add_comm n 1, ← Nat.add_assoc]
    apply ih
    · exact h.tryOsr hsrc hbaud hassert hclock hge (by omega)
    · omega
    · omega

lemma bestDivider_tried (out : Nat × Nat) :
    Tried srcClock_Hz baudRate_Bps 33 (bestDivider srcClock_Hz baudRate_Bps out) := by
  have hstart : Tried srcClock_Hz baudRate_Bps 4 ⟨out.1, out.2, baudRate_Bps⟩ := by
    constructor
    · exact Or.inl rfl
    · intro osr hge hlt
      omega
    · intro osr hge hlt
      omega
  exact hstart.foldl hsrc hbaud hassert hclock (le_refl 4) 29 (le_refl 33)

/-- The least error of the loop is the least of all pairs. -/
lemma bestDivider_least (out : Nat × Nat) {osr sbr : Nat} (hge : 4 ≤ osr) (hle : osr ≤ 32) (hsbr : 0 < sbr) :
    (bestDivider srcClock_Hz baudRate_Bps out).baudDiff ≤ baudError srcClock_Hz baudRate_Bps osr sbr :=
  le_trans ((bestDivider_tried hsrc hbaud hassert hclock out).least osr hge (by omega))
    (nearestSbr_least hbaud hclock hge hle hsbr)

end Search

section Exact

variable {srcClock_Hz baudRate_Bps : Nat}

lemma firstSbr_pos (srcClock_Hz baudRate_Bps osr : Nat) : 0 < firstSbr srcClock_Hz baudRate_Bps osr := by
  unfold firstSbr
  dsimp only
  split_ifs <;> omega

/-- The difference of the ratio 32 does not wrap with a slower clock. -/
lemma SearchOk.clock (h : SearchOk srcClock_Hz baudRate_Bps) : 32 * baudRate_Bps ≤ srcClock_Hz := by
  obtain ⟨habove, -⟩ := h.nonneg 32 (by decide) (le_refl _)
  have hpos := firstSbr_pos srcClock_Hz baudRate_Bps 32
  have hle := (mul_le_iff_le_div (Nat.mul_pos (by decide) hpos)).mpr habove
  calc 32 * baudRate_Bps ≤ 32 * firstSbr srcClock_Hz baudRate_Bps 32 * baudRate_Bps :=
        Nat.mul_le_mul_right _ (Nat.le_mul_of_pos_right 32 hpos)
    _ ≤ srcClock_Hz := hle

lemma calculateBaudRate_true_iff {out : Nat × Nat} {osr sbr : Nat} :
    calculateBaudRate srcClock_Hz baudRate_Bps out = (true, osr, sbr) ↔
      (bestDivider srcClock_Hz baudRate_Bps out).baudDiff < 3 * (baudRate_Bps / 100) ∧
        (bestDivider srcClock_Hz baudRate_Bps out).osr = osr ∧ (bestDivider srcClock_Hz baudRate_Bps out).sbr = sbr := by
  unfold calculateBaudRate
  dsimp only
  rw [Prod.mk.injEq, Prod.mk.injEq, decide_eq_true_iff, Nat.mul_comm]

/-- The result has its closest divider in the field: no pair is closer, and none that is as close has a larger
ratio. -/
lemma Fits.in_field (h : Fits srcClock_Hz baudRate_Bps) (hbaud : 0 < baudRate_Bps) {d : Divider}
    (hd : Tried srcClock_Hz baudRate_Bps 33 d) (hge : 4 ≤ d.osr) (hle : d.osr ≤ 32)
    (hdiff : d.baudDiff = baudError srcClock_Hz baudRate_Bps d.osr (nearestSbr srcClock_Hz baudRate_Bps d.osr))
    (hnear : d.baudDiff < 3 * (baudRate_Bps / 100)) : nearestSbr srcClock_Hz baudRate_Bps d.osr ≤ 8191 := by
  by_contra hnot
  have hfar := Nat.lt_of_not_le hnot
  have hbeyond := (beyond_iff hbaud h.clock hge hle).mpr hfar
  obtain ⟨osr, sbr, hr, hcloser⟩ := h.field d.osr _ hge hle hfar hbeyond (hdiff ▸ hnear)
  have hlt : osr < 33 := Nat.lt_succ_of_le hr.osr_le
  have hleast := hd.least osr hr.osr_ge hlt
  have hnearest := nearestSbr_least hbaud h.clock hr.osr_ge hr.osr_le hr.sbr_pos
  rcases hcloser with hless | ⟨heq, hlarger⟩
  · omega
  · have hlast := hd.last osr hr.osr_ge hlt (by omega)
    omega

/-- A result in the field is what the condition asks for. -/
lemma Tried.field {d : Divider} (h : Tried srcClock_Hz baudRate_Bps 33 d) (hbaud : 0 < baudRate_Bps)
    (hclock : 32 * baudRate_Bps ≤ srcClock_Hz) (hge : 4 ≤ d.osr) (hle : d.osr ≤ 32)
    (hdiff : d.baudDiff = baudError srcClock_Hz baudRate_Bps d.osr (nearestSbr srcClock_Hz baudRate_Bps d.osr))
    (hin : nearestSbr srcClock_Hz baudRate_Bps d.osr ≤ 8191) {osr sbr : Nat} (hosr : 4 ≤ osr) (hosr32 : osr ≤ 32)
    (hsbr : 0 < sbr) (hbeyond : Beyond srcClock_Hz baudRate_Bps osr) :
    ∃ osr' sbr', InRange osr' sbr' ∧
      (baudError srcClock_Hz baudRate_Bps osr' sbr' < baudError srcClock_Hz baudRate_Bps osr sbr ∨
        baudError srcClock_Hz baudRate_Bps osr' sbr' = baudError srcClock_Hz baudRate_Bps osr sbr ∧ osr < osr') := by
  have hleast := h.least osr hosr (Nat.lt_succ_of_le hosr32)
  have hnearest := nearestSbr_least hbaud hclock hosr hosr32 hsbr
  refine ⟨d.osr, nearestSbr srcClock_Hz baudRate_Bps d.osr,
    ⟨hge, hle, nearestSbr_pos hbaud hclock hge hle, hin⟩, ?_⟩
  rw [← hdiff]
  rcases Nat.lt_or_ge d.baudDiff (baudError srcClock_Hz baudRate_Bps osr sbr) with hless | hnot
  · exact Or.inl hless
  · right
    have hlast := h.last osr hosr (Nat.lt_succ_of_le hosr32) (by omega)
    have hfar := (beyond_iff hbaud hclock hosr hosr32).mp hbeyond
    have hne : osr ≠ d.osr := by
      intro heq
      rw [heq] at hfar
      omega
    constructor
    · omega
    · omega

end Exact

/-- The search is right exactly for the clocks and baud rates that fit. -/
theorem searchOk_iff_fits (srcClock_Hz baudRate_Bps : Nat) (hsrc : srcClock_Hz < 2 ^ 32) (hbaud : 0 < baudRate_Bps)
    (hassert : srcClock_Hz / baudRate_Bps / 4 ≤ 0xFFFF) :
    SearchOk srcClock_Hz baudRate_Bps ↔ Fits srcClock_Hz baudRate_Bps := by
  constructor
  · intro h
    constructor
    · exact h.clock
    · intro osr sbr hge hle hsbr hbeyond hnear
      have htried := bestDivider_tried hsrc hbaud hassert h.clock (0, 0)
      have hleast := bestDivider_least hsrc hbaud hassert h.clock (0, 0) hge hle (Nat.zero_lt_of_lt hsbr)
      obtain ⟨hr, -⟩ := h.sound (0, 0) _ _ (calculateBaudRate_true_iff.mpr ⟨by omega, rfl, rfl⟩)
      obtain ⟨hosr, -, hmod, hdiff⟩ := htried.found.resolve_left (by omega)
      have hlow := nearestSbr_le hassert hosr
      have hpos := hr.sbr_pos
      have hin := hr.sbr_le
      exact htried.field hbaud h.clock hosr hr.osr_le hdiff (by omega) hge hle (Nat.zero_lt_of_lt hsbr) hbeyond
  · intro h
    constructor
    · intro out osr sbr hfound
      obtain ⟨hnear, rfl, rfl⟩ := calculateBaudRate_true_iff.mp hfound
      have htried := bestDivider_tried hsrc hbaud hassert h.clock out
      obtain ⟨hge, hlt, hmod, hdiff⟩ := htried.found.resolve_left (by omega)
      have hle := Nat.le_of_lt_succ hlt
      have hin := h.in_field hbaud htried hge hle hdiff hnear
      rw [Nat.mod_eq_of_lt (by omega)] at hmod
      rw [hmod, ← hdiff]
      exact ⟨⟨hge, hle, nearestSbr_pos hbaud h.clock hge hle, hin⟩, hnear⟩
    · intro out osr sbr hr hnear
      have hleast := bestDivider_least hsrc hbaud hassert h.clock out hr.osr_ge hr.osr_le hr.sbr_pos
      have hsuccess := calculateBaudRate_true_iff.mpr ⟨lt_of_le_of_lt hleast hnear, rfl, rfl⟩
      rw [hsuccess]
    · intro osr hge hle
      rw [firstSbr_eq hsrc hbaud hassert h.clock hge hle]
      exact ⟨quotient_above hbaud h.clock hge hle, (quotient_succ_below srcClock_Hz hbaud hge).le⟩

/-- A clock that is fast enough for every ratio and slow enough for the ratio 4 fits. -/
theorem fits_of_lt {srcClock_Hz baudRate_Bps : Nat} (hclock : 32 * baudRate_Bps ≤ srcClock_Hz)
    (hslow : srcClock_Hz < 4 * 8191 * baudRate_Bps) : Fits srcClock_Hz baudRate_Bps := by
  constructor
  · exact hclock
  · intro osr sbr hge hle _ hbeyond _
    have hbaud : 0 < baudRate_Bps := by omega
    have hpos : 0 < osr := by omega
    have hquot : srcClock_Hz / (baudRate_Bps * osr) < 8191 := by
      rw [Nat.div_lt_iff_lt_mul (Nat.mul_pos hbaud hpos)]
      calc srcClock_Hz < 8191 * (baudRate_Bps * 4) := by omega
        _ ≤ 8191 * (baudRate_Bps * osr) := Nat.mul_le_mul_left _ (Nat.mul_le_mul_left _ hge)
    have hfar := (beyond_iff hbaud hclock hge hle).mp hbeyond
    unfold nearestSbr at hfar
    dsimp only at hfar
    split_ifs at hfar <;> omega

theorem searchOk_48MHz : SearchOk 48000000 19200 :=
  (searchOk_iff_fits 48000000 19200 (by decide) (by decide) (by decide)).mpr (fits_of_lt (by decide) (by decide))

/-- At 460 kHz the pair of ratio 4 and divider 1 is close enough, but its difference wraps. At 3782707200 Hz the result
does not fit the field. -/
theorem calculateBaudRate_460000 :
    460000 / 115200 / 4 ≤ 0xFFFF ∧ InRange 4 1 ∧ baudError 460000 115200 4 1 < 3 * (115200 / 100) ∧
      calculatedBaud 460000 4 (firstSbr 460000 115200 4) < 115200 ∧
      (calculateBaudRate 460000 115200 (0, 0)).1 = false ∧
      3782707200 < 2 ^ 32 ∧ 3782707200 / 115200 / 4 ≤ 0xFFFF ∧ calculateBaudRate 3782707200 115200 (0, 0) = (true, 4, 8209) ∧
      ¬ InRange 4 8209 ∧ ¬ SearchOk 460000 115200 ∧ ¬ SearchOk 3782707200 115200 := by
  have hr : InRange 4 1 := ⟨by decide, by decide, by decide, by decide⟩
  have hnear : baudError 460000 115200 4 1 < 3 * (115200 / 100) := by decide
  have hfail : (calculateBaudRate 460000 115200 (0, 0)).1 = false := by decide
  have hfound : calculateBaudRate 3782707200 115200 (0, 0) = (true, 4, 8209) := by decide
  have hfar : ¬ InRange 4 8209 := fun h => absurd h.sbr_le (by decide)
  refine ⟨by decide, hr, hnear, by decide, hfail, by decide, by decide, hfound, hfar, ?_, ?_⟩
  · intro h
    exact absurd (h.complete (0, 0) 4 1 hr hnear) (by rw [hfail]; decide)
  · intro h
    exact hfar (h.sound (0, 0) 4 8209 hfound).1

end McuxDrivers.Lin
