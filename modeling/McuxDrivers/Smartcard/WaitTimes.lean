import McuxDrivers.Lib.Runs
import Mathlib.Algebra.Group.Nat.Defs
import Mathlib.Tactic.Ring

/-!
# Waiting times of the EMVSIM

The commands of `SMARTCARD_EMVSIM_Control` that program the waiting times, in the build without
`CARDSIM_EXTRADELAY_USED`. Control bits, thresholds and interrupt masks are left out.
-/

namespace McuxDrivers.Smartcard.WaitTimes
open McuxDrivers.Lib

/-- The fields of `smartcard_card_params_t` that the commands use. -/
structure CardParams where
  fi : Nat
  di : Nat
  currentD : Nat
  wi : Nat
  bwi : Nat
  cwi : Nat
  bgi : Nat
  gtn : Nat
  currentD_lt : currentD < 2 ^ 8
  wi_lt : wi < 2 ^ 8
  bwi_le : bwi ≤ 9
  cwi_le : cwi ≤ 15

inductive TransportType
  | t0Transport
  | t1Transport
  deriving DecidableEq

/-- The context and the registers. `CWT_VAL` has 16 bits, `BWT_VAL` has 32. -/
structure Device where
  cardParams : CardParams
  tType : TransportType
  wtxRequested : Bool
  divisor : Nat
  cwtVal : Nat
  bwtVal : Nat
  bgtVal : Nat
  txGetu : Nat

inductive Control
  | setupATRMode
  | setupT0Mode
  | setupT1Mode
  | resetWaitTimeMultiplier (param : Nat)

/-- `temp16` for T=0, with `SMARTCARD_WWT_ADJUSTMENT`. -/
def workWait (p : CardParams) : Nat :=
  (960 * p.currentD * p.wi + p.currentD * 480 + 160) % 2 ^ 32 % 2 ^ 16

/-- `bwiVal`. -/
def blockWait (p : CardParams) : Nat :=
  (11 + (2 ^ p.bwi + 1) * 960 * p.currentD) % 2 ^ 32

/-- `temp16` for T=1, with `SMARTCARD_CWT_ADJUSTMENT`. -/
def characterWait (p : CardParams) : Nat :=
  if p.currentD = 1 then (2 ^ p.cwi + 15) % 2 ^ 16 else (2 ^ p.cwi + 15 + 3) % 2 ^ 16

/-- The default values of the EMV specification. -/
def CardParams.setDefaults (p : CardParams) : CardParams where
  fi := 372
  di := 1
  currentD := 1
  wi := 0x0A
  bwi := p.bwi
  cwi := p.cwi
  bgi := p.bgi
  gtn := 0
  currentD_lt := by decide
  wi_lt := by decide
  bwi_le := p.bwi_le
  cwi_le := p.cwi_le

/-- `SMARTCARD_EMVSIM_Control`. -/
def control (command : Control) (d : Device) : Device :=
  match command with
  | .setupATRMode =>
    let p := d.cardParams.setDefaults
    { d with
      cardParams := p, divisor := p.fi / p.currentD &&& 0x1FF, cwtVal := workWait p, bwtVal := workWait p
      txGetu := p.gtn, tType := .t0Transport }
  | .setupT0Mode =>
    let wait := workWait d.cardParams
    let p := { d.cardParams with gtn := if d.cardParams.gtn = 0xFF then 0 else d.cardParams.gtn }
    { d with cardParams := p, cwtVal := wait, bwtVal := wait, txGetu := p.gtn, tType := .t0Transport }
  | .setupT1Mode =>
    let p := { d.cardParams with bgi := 22 }
    { d with
      cardParams := p, bwtVal := blockWait d.cardParams, cwtVal := characterWait d.cardParams, bgtVal := p.bgi
      txGetu := p.gtn, tType := .t1Transport }
  | .resetWaitTimeMultiplier param =>
    { d with bwtVal := param % 2 ^ 8 * blockWait d.cardParams % 2 ^ 32, wtxRequested := param > 1 }

/-- What happens to a card: the application takes new parameters from its answers, or gives a command. -/
inductive Event
  | params (p : CardParams)
  | control (command : Control)

/-- The waiting times that EMV expects. -/
structure Expected where
  cwt : Nat
  bwt : Nat

/-- WWT. -/
def CardParams.workExpected (p : CardParams) : Nat :=
  960 * p.currentD * p.wi + 480 * p.currentD

/-- BWT without a multiplier. -/
def CardParams.blockExpected (p : CardParams) : Nat :=
  11 + (2 ^ p.bwi + 1) * 960 * p.currentD

/-- The expectation that the source states at a command. -/
def expect (command : Control) (p : CardParams) (e : Expected) : Expected :=
  match command with
  | .setupATRMode => ⟨p.setDefaults.workExpected, p.setDefaults.workExpected⟩
  | .setupT0Mode => ⟨p.workExpected, p.workExpected⟩
  | .setupT1Mode => ⟨2 ^ p.cwi + 15, p.blockExpected⟩
  | .resetWaitTimeMultiplier wtx => { e with bwt := wtx * p.blockExpected }

/-- A card and what is expected of its timers. -/
structure Session where
  device : Device
  expected : Expected

def step (s : Session) : Event → Session
  | .params p => { s with device := { s.device with cardParams := p } }
  | .control command => ⟨control command s.device, expect command s.device.cardParams s.expected⟩

/-- No timer is shorter than expected, unless it has its greatest value. -/
structure Adequate (s : Session) : Prop where
  cwt : s.expected.cwt ≤ s.device.cwtVal ∨ s.device.cwtVal = 2 ^ 16 - 1
  bwt : s.expected.bwt ≤ s.device.bwtVal ∨ s.device.bwtVal = 2 ^ 32 - 1

/-- The timers that `SMARTCARD_EMVSIM_Init` writes before the first command. -/
def Fresh (s : Session) : Prop :=
  s.device.cwtVal = 0xFFFF ∧ s.device.bwtVal = 0xFFFFFFFF

def Control.isATR : Control → Bool
  | .setupATRMode => true
  | _ => false

/-- The waiting times are right along a run, and a multiplier of 1 restores the block waiting time. -/
structure Right (events : List Event) (s : Session) : Prop where
  adequate : ∀ front, front <+: events → Adequate (front.foldl step s)
  restored : ∀ front, front <+: events → ∀ commands : List Control, (∀ command ∈ commands, command.isATR = false) →
    (control (.resetWaitTimeMultiplier 1)
      (commands.foldl (fun d command => control command d) (control .setupT1Mode (front.foldl step s).device))).bwtVal =
    (control .setupT1Mode (front.foldl step s).device).bwtVal

/-- When the times of an event fit the timers. -/
def Fits (s : Session) : Event → Prop
  | .control .setupT0Mode => 960 * s.device.cardParams.currentD * s.device.cardParams.wi +
      480 * s.device.cardParams.currentD + 160 < 2 ^ 16
  | .control (.resetWaitTimeMultiplier wtx) => wtx < 2 ^ 8 ∧ wtx * s.device.cardParams.blockExpected < 2 ^ 32
  | _ => True

section Times

variable (p : CardParams)

/-- The part of the block waiting time that the card decides. -/
lemma block_factor_le : (2 ^ p.bwi + 1) * p.currentD ≤ 513 * 255 := by
  have hpow : 2 ^ p.bwi ≤ 2 ^ 9 := Nat.pow_le_pow_right (by decide) p.bwi_le
  have hd := p.currentD_lt
  exact Nat.mul_le_mul (by omega) (by omega)

lemma blockExpected_eq : p.blockExpected = 11 + 960 * ((2 ^ p.bwi + 1) * p.currentD) := by
  rw [CardParams.blockExpected]
  ring

lemma blockWait_eq : blockWait p = p.blockExpected := by
  have hfactor := block_factor_le p
  have heq := blockExpected_eq p
  rw [blockWait, ← CardParams.blockExpected, Nat.mod_eq_of_lt]
  omega

lemma blockExpected_pos : 0 < p.blockExpected := by
  rw [blockExpected_eq]
  omega

lemma characterWait_ge : 2 ^ p.cwi + 15 ≤ characterWait p := by
  have hpow : 2 ^ p.cwi ≤ 2 ^ 15 := Nat.pow_le_pow_right (by decide) p.cwi_le
  unfold characterWait
  split
  · rw [Nat.mod_eq_of_lt (by omega)]
  · rw [Nat.mod_eq_of_lt (by omega)]
    omega

/-- The sum for T=0 fits 32 bits. -/
lemma workWait_eq : workWait p = (p.workExpected + 160) % 2 ^ 16 := by
  have hwi := p.wi_lt
  have hd := p.currentD_lt
  have hmul : p.currentD * p.wi ≤ 255 * 255 := Nat.mul_le_mul (by omega) (by omega)
  rw [workWait, CardParams.workExpected, Nat.mul_assoc 960, Nat.mul_comm p.currentD 480,
    Nat.mod_eq_of_lt (show 960 * (p.currentD * p.wi) + 480 * p.currentD + 160 < 2 ^ 32 by omega)]

/-- The time for T=0 is long enough if and only if it fits 16 bits. -/
lemma workWait_ge_iff : p.workExpected ≤ workWait p ↔ p.workExpected + 160 < 2 ^ 16 := by
  rw [workWait_eq]
  constructor
  · intro hle
    by_contra hlarge
    have hmod : (p.workExpected + 160) % 2 ^ 16 < 2 ^ 16 := Nat.mod_lt _ (by decide)
    have hsub := Nat.mod_le (p.workExpected + 160 - 2 ^ 16) (2 ^ 16)
    rw [← Nat.mod_eq_sub_mod (Nat.le_of_not_lt hlarge)] at hsub
    omega
  · intro hfits
    rw [Nat.mod_eq_of_lt hfits]
    omega

lemma multiplier_low {q product : Nat} (hmax : (q * 11 + 960 * product) % 2 ^ 32 = 2 ^ 32 - 1) : q % 64 = 29 := by
  have hlow : (q * 11 + 960 * product) % 64 = (2 ^ 32 - 1) % 64 := by
    rw [← Nat.mod_mod_of_dvd _ (show 64 ∣ 2 ^ 32 by decide), hmax]
  clear hmax
  omega

/-- A product that wraps is never the greatest value: its low bits leave only four multipliers. -/
lemma product_ne_max {q factor : Nat} (hq : q < 2 ^ 8) (hfactor : factor ≤ 513 * 255) :
    (q * 11 + 960 * (q * factor)) % 2 ^ 32 ≠ 2 ^ 32 - 1 := by
  intro hmax
  have hlow := multiplier_low hmax
  have hcases : q = 29 ∨ q = 93 ∨ q = 157 ∨ q = 221 := by
    clear hmax
    omega
  rcases hcases with rfl | rfl | rfl | rfl
  · omega
  · omega
  · omega
  · omega

/-- The time with a multiplier is long enough if and only if nothing wraps. -/
lemma multiplied_ge_iff (wtx : Nat) :
    (wtx * p.blockExpected ≤ wtx % 2 ^ 8 * p.blockExpected % 2 ^ 32 ∨
      wtx % 2 ^ 8 * p.blockExpected % 2 ^ 32 = 2 ^ 32 - 1) ↔ wtx < 2 ^ 8 ∧ wtx * p.blockExpected < 2 ^ 32 := by
  have hmax : wtx % 2 ^ 8 * p.blockExpected % 2 ^ 32 ≠ 2 ^ 32 - 1 := by
    rw [blockExpected_eq, Nat.mul_add, Nat.mul_left_comm]
    exact product_ne_max (Nat.mod_lt _ (by decide)) (block_factor_le p)
  rw [or_iff_left hmax]
  constructor
  · intro hle
    have hwtx : wtx < 2 ^ 8 := by
      by_contra hlarge
      have hless : wtx % 2 ^ 8 < wtx := lt_of_lt_of_le (Nat.mod_lt wtx (by decide)) (Nat.le_of_not_lt hlarge)
      have hprod : wtx % 2 ^ 8 * p.blockExpected < wtx * p.blockExpected :=
        Nat.mul_lt_mul_of_pos_right hless (blockExpected_pos p)
      exact absurd (le_trans hle (Nat.mod_le _ _)) (Nat.not_le_of_lt hprod)
    rw [Nat.mod_eq_of_lt hwtx] at hle
    exact ⟨hwtx, lt_of_le_of_lt hle (Nat.mod_lt _ (by decide))⟩
  · rintro ⟨hwtx, hprod⟩
    rw [Nat.mod_eq_of_lt hwtx, Nat.mod_eq_of_lt hprod]

end Times

section Steps

lemma setDefaults_workExpected (p : CardParams) : p.setDefaults.workExpected = 10080 := by
  simp [CardParams.workExpected, CardParams.setDefaults]

/-- A step that fits leaves timers that are long enough. -/
lemma fits_adequate {s : Session} {e : Event} (h : Adequate s) (hfits : Fits s e) : Adequate (step s e) := by
  cases e with
  | params p => exact ⟨h.cwt, h.bwt⟩
  | control command =>
    cases command with
    | setupATRMode =>
      have hwork : s.device.cardParams.setDefaults.workExpected ≤ workWait s.device.cardParams.setDefaults :=
        (workWait_ge_iff _).mpr (by rw [setDefaults_workExpected]; decide)
      exact ⟨Or.inl hwork, Or.inl hwork⟩
    | setupT0Mode =>
      have hwork := (workWait_ge_iff s.device.cardParams).mpr hfits
      exact ⟨Or.inl hwork, Or.inl hwork⟩
    | setupT1Mode =>
      exact ⟨Or.inl (characterWait_ge s.device.cardParams), Or.inl (blockWait_eq s.device.cardParams).ge⟩
    | resetWaitTimeMultiplier wtx =>
      refine ⟨h.cwt, ?_⟩
      dsimp only [step, control, expect]
      rw [blockWait_eq]
      exact (multiplied_ge_iff _ wtx).mpr hfits

/-- Any other step leaves a block waiting time that is too short. -/
lemma not_fits_not_adequate {s : Session} {e : Event} (hfits : ¬ Fits s e) : ¬ Adequate (step s e) := by
  intro h
  have hbwt := h.bwt
  cases e with
  | params p => exact hfits trivial
  | control command =>
    cases command with
    | setupATRMode => exact hfits trivial
    | setupT0Mode =>
      dsimp only [step, control, expect] at hbwt
      have hless : workWait s.device.cardParams < 2 ^ 16 := by
        rw [workWait_eq]
        exact Nat.mod_lt _ (by decide)
      rcases hbwt with hge | hmax
      · exact hfits ((workWait_ge_iff _).mp hge)
      · omega
    | setupT1Mode => exact hfits trivial
    | resetWaitTimeMultiplier wtx =>
      dsimp only [step, control, expect] at hbwt
      rw [blockWait_eq] at hbwt
      exact hfits ((multiplied_ge_iff _ wtx).mp hbwt)

/-- The commands of a session do not change what the block waiting time depends on, but for `SetupATRMode`. -/
lemma control_block {command : Control} (h : command.isATR = false) (d : Device) :
    (control command d).cardParams.bwi = d.cardParams.bwi ∧
      (control command d).cardParams.currentD = d.cardParams.currentD := by
  cases command with
  | setupATRMode => cases h
  | setupT0Mode => exact ⟨rfl, rfl⟩
  | setupT1Mode => exact ⟨rfl, rfl⟩
  | resetWaitTimeMultiplier wtx => exact ⟨rfl, rfl⟩

lemma controls_block (commands : List Control) (h : ∀ command ∈ commands, command.isATR = false) (d : Device) :
    (commands.foldl (fun d command => control command d) d).cardParams.bwi = d.cardParams.bwi ∧
      (commands.foldl (fun d command => control command d) d).cardParams.currentD = d.cardParams.currentD := by
  induction commands generalizing d with
  | nil => exact ⟨rfl, rfl⟩
  | cons command commands ih =>
    obtain ⟨hbwi, hd⟩ := ih (fun c hc => h c (List.mem_cons_of_mem command hc)) (control command d)
    obtain ⟨hbwi', hd'⟩ := control_block (h command List.mem_cons_self) d
    exact ⟨hbwi.trans hbwi', hd.trans hd'⟩

/-- A multiplier of 1 restores the block waiting time. -/
lemma reset_restores (commands : List Control) (h : ∀ command ∈ commands, command.isATR = false) (d : Device) :
    (control (.resetWaitTimeMultiplier 1)
      (commands.foldl (fun d command => control command d) (control .setupT1Mode d))).bwtVal =
      (control .setupT1Mode d).bwtVal := by
  obtain ⟨hbwi, hd⟩ := controls_block commands h (control .setupT1Mode d)
  have hwait : blockWait (commands.foldl (fun d command => control command d) (control .setupT1Mode d)).cardParams =
      blockWait d.cardParams := by
    unfold blockWait
    rw [hbwi, hd]
    rfl
  have hless : blockWait d.cardParams < 2 ^ 32 := Nat.mod_lt _ (by decide)
  dsimp only [control] at hwait ⊢
  rw [hwait, Nat.mod_eq_of_lt (show 1 < 2 ^ 8 by decide), Nat.one_mul, Nat.mod_eq_of_lt hless]

end Steps

/-- The waiting times follow the EMV formulas in the runs in which they fit the timers, and in no other. -/
theorem right_iff (events : List Event) (s : Session) (hstart : Fresh s) :
    Right events s ↔ EachStep step Fits s events := by
  have hadequate : Adequate s := ⟨Or.inr hstart.1, Or.inr hstart.2⟩
  have hfront := forall_front_iff (P := Adequate) (fun s h => h) (fun s e h _ hfits => fits_adequate h hfits)
    (fun s e _ _ hfits => not_fits_not_adequate hfits) events hadequate (eachStep_true step s events)
  constructor
  · exact fun h => hfront.mp h.adequate
  · intro h
    exact ⟨hfront.mpr h, fun front _ commands hcommands => reset_restores commands hcommands _⟩

section Example

/-- A card of the speed `currentD`, with the default waiting integers. -/
def exampleParams (currentD : Nat) (h : currentD < 2 ^ 8) : CardParams where
  fi := 372
  di := currentD
  currentD := currentD
  wi := 10
  bwi := 4
  cwi := 5
  bgi := 22
  gtn := 0
  currentD_lt := h
  wi_lt := by decide
  bwi_le := by decide
  cwi_le := by decide

def startSession : Session where
  device := ⟨exampleParams 1 (by decide), .t0Transport, false, 372, 0xFFFF, 0xFFFFFFFF, 0, 0⟩
  expected := ⟨0, 0⟩

theorem right_four :
    Right [.control .setupATRMode, .params (exampleParams 4 (by decide)), .control .setupT0Mode, .control .setupT1Mode,
      .control (.resetWaitTimeMultiplier 3)] startSession :=
  (right_iff _ startSession ⟨rfl, rfl⟩).mpr
    ⟨trivial, trivial, by unfold Fits; decide, trivial, by unfold Fits; decide, trivial⟩

/-- At eight times the speed the work waiting time does not fit 16 bits. -/
theorem not_right_eight : ¬ ∀ (events : List Event) (s : Session), Fresh s → Right events s := by
  intro hall
  have hright := hall [.params (exampleParams 8 (by decide)), .control .setupT0Mode] startSession ⟨rfl, rfl⟩
  have hadequate := hright.adequate _ (List.prefix_refl _)
  rw [List.foldl_cons, List.foldl_cons, List.foldl_nil] at hadequate
  exact not_fits_not_adequate (by unfold Fits; decide) hadequate

end Example

end McuxDrivers.Smartcard.WaitTimes
