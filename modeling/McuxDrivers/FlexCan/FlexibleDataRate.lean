import McuxDrivers.FlexCan.Classical

/-!
# Bit timing of CAN FD

The search over the data phase keeps both phases exact, but it neither checks the product of the
two dividers against the nominal divider field nor undoes the data divider it has already written
when it leaves the loop because that divider is too large.
-/

namespace McuxDrivers.FlexCan
open McuxDrivers.Lib

/-- The segments `seg` of a data phase of `tqNum` quanta, each in its register field. -/
structure FdFits (l : FdLayout) (tqNum : Nat) (seg : Segments) : Prop where
  quanta : 1 + seg.propSeg + (seg.phaseSeg1 + 1) + (seg.phaseSeg2 + 1) = tqNum
  phaseSeg1_fits : seg.phaseSeg1 + 1 ≤ fdSeg1Max l
  phaseSeg2_fits : seg.phaseSeg2 + 1 ≤ fdSeg2Max l
  propSeg_fits : seg.propSeg ≤ fdProSegMax l
  jump : seg.rJumpwidth ≤ seg.phaseSeg2

lemma fdTqMax_le (l : FdLayout) : fdTqMax l ≤ 49 := by
  cases l <;> decide

lemma fdTqMin_eq (l : FdLayout) : fdTqMin l = 5 := by
  cases l <;> rfl

lemma fdGetSegments_fits {l : FdLayout} {tqNum : Nat} (bitRateFD : Nat) (hmin : fdTqMin l ≤ tqNum)
    (hmax : tqNum ≤ fdTqMax l) : FdFits l tqNum (fdGetSegments l bitRateFD tqNum) := by
  have hle := fdTqMax_le l
  rw [fdTqMin_eq] at hmin
  obtain ⟨sp, hsp⟩ : ∃ sp, sp = if bitRateFD ≤ 1000000 then 800 else if bitRateFD ≤ 2000000 then 750
      else if bitRateFD ≤ 4000000 then 700 else 625 := ⟨_, rfl⟩
  have hcases : sp = 800 ∨ sp = 750 ∨ sp = 700 ∨ sp = 625 := by
    rw [hsp]
    split_ifs <;> simp
  have hbehind := behindSamplePoint_eq tqNum sp (by omega) (by omega)
  obtain ⟨b, hb⟩ : ∃ b, b = tqNum - tqNum * sp / 1000 := ⟨_, rfl⟩
  have hhalf : 8 * b ≤ 3 * tqNum + 7 := by
    rcases hcases with rfl | rfl | rfl | rfl <;> omega
  -- phase segment 2 after its limits leaves at least two quanta before the sample point
  obtain ⟨c, hc⟩ : ∃ c, c = if b < minTimeSegment2 then minTimeSegment2
      else if b > fdSeg2Max l then fdSeg2Max l else b := ⟨_, rfl⟩
  have hwhole : fdTqMax l ≤ 1 + fdProSegMax l + fdSeg1Max l + fdSeg2Max l ∧ fdSeg1Max l = fdSeg2Max l ∧
      2 ≤ fdSeg2Max l := by
    cases l <;> decide
  have hcle : 2 ≤ c ∧ c ≤ fdSeg2Max l ∧ c + 3 ≤ tqNum := by
    rw [hc, minTimeSegment2]
    split_ifs <;> omega
  obtain ⟨a, d, hlimit, hsum, ha, hd⟩ := limitSegment1_spec (fdSeg1Max l) (fdProSegMax l)
    (show tqNum ≤ 385 by omega) (show c + 1 ≤ tqNum by omega)
  have hdle : 2 ≤ d ∧ d ≤ fdSeg2Max l ∧ 2 ≤ a := by
    rcases hd with rfl | ⟨hlt, rfl⟩ <;> omega
  obtain ⟨pr, p1, hsplit, hpr, hp1⟩ : ∃ pr p1,
      (if a > d + fdProSegMax l then (fdProSegMax l, wsub32 a (fdProSegMax l))
        else if a > d then (wsub32 a d, d) else (0, a)) = (pr, p1) ∧
      (pr + p1 = a ∧ pr ≤ fdProSegMax l) ∧ 1 ≤ p1 ∧ p1 ≤ fdSeg1Max l := by
    split
    next hlong => exact ⟨_, _, rfl, by rw [wsub32_of_le (by omega)]; omega, by rw [wsub32_of_le (by omega)]; omega⟩
    next hshort =>
      split
      next hgt => exact ⟨_, _, rfl, by rw [wsub32_of_le (by omega)]; omega, by omega⟩
      next hle => exact ⟨_, _, rfl, by omega, by omega⟩
  unfold fdGetSegments
  simp only [← hsp, hbehind, ← hb, ← hc, hlimit, hsplit]
  have hjump : wsub32 (if p1 > d then d else p1) 1 ≤ d - 1 := by
    split
    · rw [wsub32_of_le (by omega)]
    · rw [wsub32_of_le (by omega)]
      omega
  rw [wsub32_of_le hp1.1, wsub32_of_le (show 1 ≤ d by omega)]
  exact ⟨by dsimp only; omega, by dsimp only; omega, by dsimp only; omega, by dsimp only; omega, hjump⟩

lemma store_store (c : TimingConfig) (p p' : Nat) (seg seg' : Segments) :
    store (store c p seg) p' seg' = store c p' seg' := rfl

lemma storeData_storeData (c : TimingConfig) (f f' : Nat) (seg seg' : Segments) :
    storeData (storeData c f seg) f' seg' = storeData c f' seg' := rfl

lemma store_storeData (c : TimingConfig) (p f : Nat) (seg seg' : Segments) :
    store (storeData c f seg) p seg' = storeData (store c p seg') f seg := rfl

section Search

variable {l : FdLayout} {bitRate bitRateFD sourceClock : Nat}

lemma Chosen.unique {segments : Nat → Segments} {l : Layout} {bitRate clock k tq p tq' p' : Nat}
    (hrate : 1 ≤ bitRate) (h : Chosen segments l bitRate clock k tq p)
    (h' : Chosen segments l bitRate clock k tq' p') : tq = tq' ∧ p = p' := by
  have hone := h.best tq' p' h'.above h'.max h'.solves
  have hother := h'.best tq p h.above h.max h.solves
  have htq : tq = tq' := by omega
  subst htq
  refine ⟨rfl, ?_⟩
  have habove := h.above
  have hpos : 0 < bitRate * tq := Nat.mul_pos hrate (by omega)
  have heq : bitRate * tq * p = bitRate * tq * p' := by rw [h.solves.2.2, h'.solves.2.2]
  exact Nat.eq_of_mul_eq_mul_left hpos heq

lemma FdLayout.nominal_ne (l : FdLayout) : l.nominal ≠ .ctrl1 := by
  cases l <;> decide

/-- The timing the nominal search chooses for a clock. -/
def NominalChoice (l : FdLayout) (bitRate clock tq p : Nat) : Prop :=
  Chosen (nominalSegments l.nominal) l.nominal bitRate clock (tqMin l.nominal - 1) tq p

lemma nominal_cases (l : FdLayout) {clock : Nat} (hrate : 1 ≤ bitRate) (hrate' : bitRate ≤ 1000000)
    (hclock : clock < 2 ^ 32) (config : TimingConfig) :
    ((∀ tq p, ¬ NominalChoice l bitRate clock tq p) ∧
        calculateImprovedNominalTimingValues l.nominal bitRate clock config = (false, config)) ∨
      ∃ tq p, NominalChoice l bitRate clock tq p ∧
        calculateImprovedNominalTimingValues l.nominal bitRate clock config =
          (true, store config (p - 1) (nominalSegments l.nominal tq)) := by
  have hfits (tq : Nat) (hmin : tqMin l.nominal ≤ tq) (hmax : tq ≤ tqMax l.nominal) :=
    nominalSegments_fits l.nominal_ne hmin hmax
  obtain ⟨s, hsearch, hinv⟩ := search_spec hfits hrate hrate' hclock config
  rw [calculateImprovedNominalTimingValues, hsearch]
  cases hret : s.fgRet with
  | false =>
    left
    refine ⟨?_, by rw [(hinv.fresh hret).2]⟩
    intro tq p hchosen
    have hfound := hinv.found.mpr ⟨tq, p, hchosen.above, hchosen.max, hchosen.solves⟩
    rw [hret] at hfound
    cases hfound
  | true =>
    right
    obtain ⟨tq, p, hchosen, -, hconfig⟩ := hinv.stored hret
    exact ⟨tq, p, hchosen, by rw [hconfig]⟩

/-- The data divider of a quanta count. -/
def dataDivider (bitRateFD sourceClock t : Nat) : Nat :=
  sourceClock / (bitRateFD * t)

/-- A data-phase quanta count that divides the clock exactly. -/
def DividesClock (l : FdLayout) (bitRateFD sourceClock t : Nat) : Prop :=
  fdTqMin l ≤ t ∧ t ≤ fdTqMax l ∧ 0 < sourceClock ∧ bitRateFD * t ∣ sourceClock

/-- A data-phase quanta count whose divider fits and for which the nominal search succeeds, with
`tq` quanta and divider `p`. -/
structure Candidate (l : FdLayout) (bitRate bitRateFD sourceClock t tq p : Nat) : Prop where
  divides : DividesClock l bitRateFD sourceClock t
  fits : dataDivider bitRateFD sourceClock t ≤ 1024
  nominal : NominalChoice l bitRate (bitRateFD * t) tq p

lemma fdPdivMax_eq (l : FdLayout) : fdPdivMax l = 1023 := by
  cases l <;> rfl

lemma pdivMax_le (l : Layout) : pdivMax l ≤ 1023 := by
  cases l <;> decide

/-- What a round on the quanta count `t` does. -/
lemma fdRound_cases {t : Nat} (hrate : 1 ≤ bitRate) (hrate' : bitRate ≤ 1000000) (hfd : 1 ≤ bitRateFD)
    (hfd' : bitRateFD ≤ 8000000) (hsource : sourceClock < 2 ^ 32) (hmin : fdTqMin l ≤ t)
    (hmax : t ≤ fdTqMax l) (s : Bool × TimingConfig) :
    (¬ DividesClock l bitRateFD sourceClock t ∧
        fdRound l bitRate bitRateFD sourceClock t s = (s, false)) ∨
      (DividesClock l bitRateFD sourceClock t ∧ dataDivider bitRateFD sourceClock t > 1024 ∧
        fdRound l bitRate bitRateFD sourceClock t s =
          ((s.1, { s.2 with fpreDivider := dataDivider bitRateFD sourceClock t - 1 }), true)) ∨
      (DividesClock l bitRateFD sourceClock t ∧ dataDivider bitRateFD sourceClock t ≤ 1024 ∧
        (∀ tq p, ¬ NominalChoice l bitRate (bitRateFD * t) tq p) ∧
        fdRound l bitRate bitRateFD sourceClock t s =
          ((s.1, storeData s.2 (dataDivider bitRateFD sourceClock t - 1) (fdGetSegments l bitRateFD t)), false)) ∨
      ∃ tq p, Candidate l bitRate bitRateFD sourceClock t tq p ∧
        fdRound l bitRate bitRateFD sourceClock t s =
          ((true, store (storeData s.2 (dataDivider bitRateFD sourceClock t - 1) (fdGetSegments l bitRateFD t))
            (p * dataDivider bitRateFD sourceClock t - 1) (nominalSegments l.nominal tq)), decide (p = 1)) := by
  rw [fdTqMin_eq] at hmin
  have hle := fdTqMax_le l
  have hpos : 0 < bitRateFD * t := Nat.mul_pos hfd (by omega)
  have hclk : bitRateFD * t < 2 ^ 32 := lt_of_le_of_lt (Nat.mul_le_mul hfd' (hmax.trans hle)) (by decide)
  have hprod : sourceClock / (bitRateFD * t) * (bitRateFD * t) % 2 ^ 32 =
      sourceClock / (bitRateFD * t) * (bitRateFD * t) :=
    Nat.mod_eq_of_lt (lt_of_le_of_lt (Nat.div_mul_le_self _ _) hsource)
  unfold fdRound
  rw [Nat.mod_eq_of_lt hclk]
  dsimp only
  rw [hprod]
  by_cases hdiv : DividesClock l bitRateFD sourceClock t
  · have hsrc : 0 < sourceClock := hdiv.2.2.1
    have hdvd : bitRateFD * t ∣ sourceClock := hdiv.2.2.2
    have hquot : 1 ≤ sourceClock / (bitRateFD * t) := Nat.div_pos (Nat.le_of_dvd hsrc hdvd) hpos
    rw [if_neg (Nat.not_lt.mpr (Nat.le_of_dvd hsrc hdvd)), if_neg (not_not_intro (Nat.div_mul_cancel hdvd)),
      wsub32_of_le hquot, fdPdivMax_eq, ← dataDivider]
    rw [← dataDivider] at hquot
    right
    by_cases hbig : dataDivider bitRateFD sourceClock t > 1024
    · left
      rw [if_pos (by omega)]
      exact ⟨hdiv, hbig, rfl⟩
    · right
      have hfit := Nat.le_of_not_lt hbig
      have hcancel : dataDivider bitRateFD sourceClock t - 1 + 1 = dataDivider bitRateFD sourceClock t :=
        Nat.sub_add_cancel hquot
      have hclock : sourceClock / ((dataDivider bitRateFD sourceClock t - 1 + 1) % 2 ^ 32) = bitRateFD * t := by
        rw [hcancel, Nat.mod_eq_of_lt (by omega)]
        exact Nat.div_div_self hdvd (by omega)
      obtain ⟨config, hconfig⟩ : ∃ config, config = storeData s.2 (dataDivider bitRateFD sourceClock t - 1)
        (fdGetSegments l bitRateFD t) := ⟨_, rfl⟩
      have hpre : config.fpreDivider = dataDivider bitRateFD sourceClock t - 1 := by rw [hconfig]; rfl
      have hstore : storeData { s.2 with fpreDivider := dataDivider bitRateFD sourceClock t - 1 }
          (dataDivider bitRateFD sourceClock t - 1) (fdGetSegments l bitRateFD t) = config := by
        rw [hconfig]
        rfl
      rw [if_neg (by omega), hstore, hpre, hclock, ← hconfig]
      rcases nominal_cases l hrate hrate' hclk config with ⟨hnone, hresult⟩ | ⟨tq, p, hchosen, hresult⟩
      · left
        simp only [hresult, Bool.false_eq_true, if_false]
        exact ⟨hdiv, hfit, hnone, trivial⟩
      · right
        refine ⟨tq, p, ⟨hdiv, hfit, hchosen⟩, ?_⟩
        have hp : 1 ≤ p := hchosen.solves.1
        have hple : p ≤ 1024 := hchosen.solves.2.1.trans (Nat.succ_le_succ (pdivMax_le l.nominal))
        have hmul : 1 ≤ p * dataDivider bitRateFD sourceClock t := Nat.mul_pos hp hquot
        have hmul' : p * dataDivider bitRateFD sourceClock t < 2 ^ 32 :=
          lt_of_le_of_lt (Nat.mul_le_mul hple hfit) (by decide)
        have hp' : (p - 1 + 1) % 2 ^ 32 = p := by omega
        have hq' : (dataDivider bitRateFD sourceClock t - 1 + 1) % 2 ^ 32 =
            dataDivider bitRateFD sourceClock t := by omega
        simp only [hresult, if_true]
        by_cases hone : p = 1
        · subst hone
          simp [store, hpre]
        · have hpne : ¬ p - 1 = 0 := by omega
          simp only [store, hpne, hone, if_false, decide_false, hpre, hp', hq', Nat.mod_eq_of_lt hmul',
            wsub32_of_le hmul]
  · left
    refine ⟨hdiv, ?_⟩
    by_cases hgt : bitRateFD * t > sourceClock
    · rw [if_pos hgt]
    · have hne : sourceClock / (bitRateFD * t) * (bitRateFD * t) ≠ sourceClock :=
        fun h => hdiv ⟨by rw [fdTqMin_eq]; exact hmin, hmax, by omega, Dvd.intro_left _ h⟩
      rw [if_neg hgt, if_pos hne]

/-- A configuration whose nominal phase has `tn` quanta and the divider `m` and whose data phase has
`t` quanta, both exact. -/
structure Phases (l : FdLayout) (bitRate bitRateFD sourceClock tn m t : Nat) (c : TimingConfig) : Prop where
  tn_min : tqMin l.nominal ≤ tn
  tn_max : tn ≤ tqMax l.nominal
  divider : 1 ≤ m
  nominal : bitRate * tn * m = sourceClock
  nominal_stored : c = store c (m - 1) (nominalSegments l.nominal tn)
  divides : DividesClock l bitRateFD sourceClock t
  fits : dataDivider bitRateFD sourceClock t ≤ 1024
  data_stored : c = storeData c (dataDivider bitRateFD sourceClock t - 1) (fdGetSegments l bitRateFD t)

/-- Both phases have the rates asked for, and both timing registers hold the configuration. -/
def TimingExact (l : FdLayout) (bitRate bitRateFD sourceClock : Nat) (c : TimingConfig) : Prop :=
  sourceClock = bitRate * (c.preDivider + 1) * (4 + c.propSeg + c.phaseSeg1 + c.phaseSeg2) ∧
    sourceClock = bitRateFD * (c.fpreDivider + 1) * (3 + c.fpropSeg + c.fphaseSeg1 + c.fphaseSeg2) ∧
    setTimingConfig l.nominal c = exactRegs l.nominal c ∧ setFDTimingConfig l c = exactFdRegs l c

/-- The data-phase register keeps a configuration only if its divider fits. -/
lemma fpreDivider_le_of_exactFdRegs {c : TimingConfig} (h : setFDTimingConfig l c = exactFdRegs l c) :
    c.fpreDivider ≤ 1023 := by
  cases l with
  | fdcbt =>
    simp only [setFDTimingConfig, exactFdRegs, masked, maxFPresDiv, FdTimingRegs.fdcbt.injEq] at h
    omega
  | edcbt =>
    simp only [setFDTimingConfig, exactFdRegs, masked, maxEDPresDiv, FdTimingRegs.edcbt.injEq] at h
    omega

lemma preDivider_le_of_exactRegs {c : TimingConfig}
    (h : setTimingConfig l.nominal c = exactRegs l.nominal c) : c.preDivider ≤ 1023 := by
  cases l with
  | fdcbt =>
    simp only [FdLayout.nominal, setTimingConfig, exactRegs, masked, maxEPresDiv, TimingRegs.cbt.injEq] at h
    omega
  | edcbt =>
    simp only [FdLayout.nominal, setTimingConfig, exactRegs, masked, maxENPresDiv, TimingRegs.encbt.injEq] at h
    omega

lemma setFDTimingConfig_storeData {t f : Nat} {seg : Segments} (h : FdFits l t seg) (hf : f ≤ 1023)
    (c : TimingConfig) :
    setFDTimingConfig l (storeData c f seg) = exactFdRegs l (storeData c f seg) := by
  have h1 := h.phaseSeg1_fits
  have h2 := h.phaseSeg2_fits
  have h3 := h.propSeg_fits
  have h4 := h.jump
  cases l with
  | fdcbt =>
    simp only [fdSeg1Max, fdSeg2Max, fdProSegMax, maxFPSeg1, maxFPSeg2, maxFPropSeg] at h1 h2 h3
    simp only [setFDTimingConfig, exactFdRegs, storeData, masked, maxFPresDiv, maxFRjw, maxFPSeg1, maxFPSeg2,
      maxFPropSeg, FdTimingRegs.fdcbt.injEq]
    exact ⟨by omega, by omega, by omega, by omega, by omega⟩
  | edcbt =>
    simp only [fdSeg1Max, fdSeg2Max, fdProSegMax, maxDTSeg1, maxDTSeg2] at h1 h2 h3
    simp only [setFDTimingConfig, exactFdRegs, storeData, masked, maxEDPresDiv, maxDRjw, maxDTSeg1, maxDTSeg2,
      FdTimingRegs.edcbt.injEq]
    exact ⟨by omega, by omega, by omega, by omega⟩

/-- With both phases exact, only the nominal divider may fail to fit. -/
lemma Phases.timingExact_iff {tn m t : Nat} {c : TimingConfig}
    (h : Phases l bitRate bitRateFD sourceClock tn m t c) (hfd : 1 ≤ bitRateFD) :
    TimingExact l bitRate bitRateFD sourceClock c ↔ m ≤ 1024 := by
  have hfit := nominalSegments_fits l.nominal_ne h.tn_min h.tn_max
  have hfd_fit := fdGetSegments_fits bitRateFD h.divides.1 h.divides.2.1
  have hcancel : m - 1 + 1 = m := Nat.sub_add_cancel h.divider
  have hstored := h.nominal_stored
  have hdata := h.data_stored
  constructor
  · rintro ⟨-, -, hregs, -⟩
    have hle := preDivider_le_of_exactRegs hregs
    rw [hstored] at hle
    simp only [store] at hle
    omega
  · intro hm
    have hquot : 1 ≤ dataDivider bitRateFD sourceClock t := by
      have hmin := h.divides.1
      rw [fdTqMin_eq] at hmin
      exact Nat.div_pos (Nat.le_of_dvd h.divides.2.2.1 h.divides.2.2.2) (Nat.mul_pos hfd (by omega))
    have hfield : presDivFieldMax l.nominal = 1023 := by cases l <;> rfl
    refine ⟨?_, ?_, ?_, ?_⟩
    · have hquanta := hfit.splits.quanta
      rw [hstored]
      simp only [store, hcancel]
      have hsum : 4 + (nominalSegments l.nominal tn).propSeg + (nominalSegments l.nominal tn).phaseSeg1 +
          (nominalSegments l.nominal tn).phaseSeg2 = tn := by omega
      rw [hsum, Nat.mul_right_comm, h.nominal]
    · have hquanta := hfd_fit.quanta
      rw [hdata]
      simp only [storeData, Nat.sub_add_cancel hquot]
      have hsum : 3 + (fdGetSegments l bitRateFD t).propSeg + (fdGetSegments l bitRateFD t).phaseSeg1 +
          (fdGetSegments l bitRateFD t).phaseSeg2 = t := by omega
      rw [hsum, Nat.mul_right_comm, dataDivider, Nat.mul_div_cancel' h.divides.2.2.2]
    · rw [hstored]
      exact setTimingConfig_store hfit (by omega) c
    · rw [hdata]
      have hle := h.fits
      exact setFDTimingConfig_storeData hfd_fit (by omega) c

/-- The state of the search when `k` is the next quanta count: no divider was too large, no nominal
divider was 1, and after a success the nominal fields are those of the least candidate. -/
structure FdInv (l : FdLayout) (bitRate bitRateFD sourceClock k : Nat) (s : Bool × TimingConfig) : Prop where
  small : ∀ t, k < t → DividesClock l bitRateFD sourceClock t → dataDivider bitRateFD sourceClock t ≤ 1024
  noOne : ∀ t tq, k < t → ¬ Candidate l bitRate bitRateFD sourceClock t tq 1
  none : s.1 = false → ∀ t tq p, k < t → ¬ Candidate l bitRate bitRateFD sourceClock t tq p
  least : s.1 = true → ∃ t tq p t', k < t ∧ Candidate l bitRate bitRateFD sourceClock t tq p ∧
    (∀ t₁ tq₁ p₁, k < t₁ → Candidate l bitRate bitRateFD sourceClock t₁ tq₁ p₁ → t ≤ t₁) ∧
    Phases l bitRate bitRateFD sourceClock tq (p * dataDivider bitRateFD sourceClock t) t' s.2

/-- How the search can end. -/
inductive FdOutcome (l : FdLayout) (bitRate bitRateFD sourceClock : Nat) (s : Bool × TimingConfig) : Prop
  | notFound (hret : s.1 = false)
      (hnone : ∀ t tq p, ¬ Candidate l bitRate bitRateFD sourceClock t tq p)
  | common (hret : s.1 = true) (t tq : Nat) (hcand : Candidate l bitRate bitRateFD sourceClock t tq 1)
      (hphases : Phases l bitRate bitRateFD sourceClock tq (dataDivider bitRateFD sourceClock t) t s.2)
  | exhausted (hret : s.1 = true) (t tq p t' : Nat)
      (hinv : FdInv l bitRate bitRateFD sourceClock (fdTqMin l - 1) s)
      (hcand : Candidate l bitRate bitRateFD sourceClock t tq p)
      (hleast : ∀ t₁ tq₁ p₁, Candidate l bitRate bitRateFD sourceClock t₁ tq₁ p₁ → t ≤ t₁)
      (hphases : Phases l bitRate bitRateFD sourceClock tq (p * dataDivider bitRateFD sourceClock t) t' s.2)
  | overrun (hret : s.1 = true) (t tq p t' : Nat) (hcand : Candidate l bitRate bitRateFD sourceClock t tq p)
      (hleast : ∀ t₁ tq₁ p₁, Candidate l bitRate bitRateFD sourceClock t₁ tq₁ p₁ → t ≤ t₁)
      (hone : ∀ t₁ tq₁, ¬ Candidate l bitRate bitRateFD sourceClock t₁ tq₁ 1)
      (hdiv : DividesClock l bitRateFD sourceClock t')
      (hbig : dataDivider bitRateFD sourceClock t' > 1024)
      (hdivider : s.2.fpreDivider = dataDivider bitRateFD sourceClock t' - 1)

/-- Below a quanta count whose divider is too large there is no candidate. -/
lemma not_candidate_below {k t : Nat} (hfd : 1 ≤ bitRateFD)
    (hbig : dataDivider bitRateFD sourceClock k > 1024) (hle : t ≤ k) (tq p : Nat) :
    ¬ Candidate l bitRate bitRateFD sourceClock t tq p := by
  intro hcand
  have hmin := hcand.divides.1
  rw [fdTqMin_eq] at hmin
  have hmono : dataDivider bitRateFD sourceClock k ≤ dataDivider bitRateFD sourceClock t :=
    Nat.div_le_div_left (Nat.mul_le_mul_left bitRateFD hle) (Nat.mul_pos hfd (by omega))
  have hfits := hcand.fits
  omega

/-- The nominal timing of a candidate is exact on the source clock with the product of the dividers. -/
lemma Candidate.phases {t tq p : Nat} (h : Candidate l bitRate bitRateFD sourceClock t tq p)
    (hfd : 1 ≤ bitRateFD) (c : TimingConfig) :
    Phases l bitRate bitRateFD sourceClock tq (p * dataDivider bitRateFD sourceClock t) t
      (store (storeData c (dataDivider bitRateFD sourceClock t - 1) (fdGetSegments l bitRateFD t))
        (p * dataDivider bitRateFD sourceClock t - 1) (nominalSegments l.nominal tq)) := by
  have habove := h.nominal.above
  have hpos := tqMin_pos l.nominal
  have hmin := h.divides.1
  rw [fdTqMin_eq] at hmin
  have hquot : 1 ≤ dataDivider bitRateFD sourceClock t :=
    Nat.div_pos (Nat.le_of_dvd h.divides.2.2.1 h.divides.2.2.2) (Nat.mul_pos hfd (by omega))
  refine ⟨by omega, h.nominal.max, Nat.mul_pos h.nominal.solves.1 hquot, ?_, ?_, h.divides, h.fits, ?_⟩
  · rw [← Nat.mul_assoc, h.nominal.solves.2.2, dataDivider, Nat.mul_div_cancel' h.divides.2.2.2]
  · rw [store_store]
  · rw [store_storeData, storeData_storeData]

/-- Another data phase for a configuration keeps the nominal one. -/
lemma Phases.storeData {tn m t t' : Nat} {c : TimingConfig}
    (h : Phases l bitRate bitRateFD sourceClock tn m t c) (hdiv : DividesClock l bitRateFD sourceClock t')
    (hfits : dataDivider bitRateFD sourceClock t' ≤ 1024) :
    Phases l bitRate bitRateFD sourceClock tn m t'
      (storeData c (dataDivider bitRateFD sourceClock t' - 1) (fdGetSegments l bitRateFD t')) := by
  refine ⟨h.tn_min, h.tn_max, h.divider, h.nominal, ?_, hdiv, hfits, ?_⟩
  · rw [store_storeData, ← h.nominal_stored]
  · rw [storeData_storeData]

/-- A round without a candidate, whose divider is not too large, keeps the state of the search. -/
lemma FdInv.skip {k : Nat} {s s' : Bool × TimingConfig} (h : FdInv l bitRate bitRateFD sourceClock k s)
    (hno : ∀ tq p, ¬ Candidate l bitRate bitRateFD sourceClock k tq p)
    (hsmall : DividesClock l bitRateFD sourceClock k → dataDivider bitRateFD sourceClock k ≤ 1024)
    (hret : s'.1 = s.1) (hphases : ∀ tn m t, Phases l bitRate bitRateFD sourceClock tn m t s.2 →
      ∃ t', Phases l bitRate bitRateFD sourceClock tn m t' s'.2) :
    FdInv l bitRate bitRateFD sourceClock (k - 1) s' := by
  have habove {t tq p : Nat} (hlt : k - 1 < t) (hc : Candidate l bitRate bitRateFD sourceClock t tq p) :
      k < t := by
    have hne : t ≠ k := by
      rintro rfl
      exact hno tq p hc
    omega
  refine ⟨?_, ?_, ?_, ?_⟩
  · intro t hlt hdiv
    by_cases heq : t = k
    · rw [heq] at hdiv ⊢
      exact hsmall hdiv
    · exact h.small t (by omega) hdiv
  · intro t tq hlt hc
    exact h.noOne t tq (habove hlt hc) hc
  · intro hfalse t tq p hlt hc
    exact h.none (hret ▸ hfalse) t tq p (habove hlt hc) hc
  · intro htrue
    obtain ⟨t, tq, p, t', hlt, hc, hleast, hp⟩ := h.least (hret ▸ htrue)
    obtain ⟨t'', hp'⟩ := hphases _ _ _ hp
    refine ⟨t, tq, p, t'', by omega, hc, ?_, hp'⟩
    intro t₁ tq₁ p₁ hlt₁ hc₁
    exact hleast t₁ tq₁ p₁ (habove hlt₁ hc₁) hc₁

/-- A round on `k` either ends the search or keeps its state. -/
lemma fdInv_round {k : Nat} {s : Bool × TimingConfig} (hrate : 1 ≤ bitRate) (hrate' : bitRate ≤ 1000000)
    (hfd : 1 ≤ bitRateFD) (hfd' : bitRateFD ≤ 8000000) (hsource : sourceClock < 2 ^ 32)
    (hmin : fdTqMin l ≤ k) (hmax : k ≤ fdTqMax l) (h : FdInv l bitRate bitRateFD sourceClock k s) :
    ∃ s' leave, fdRound l bitRate bitRateFD sourceClock k s = (s', leave) ∧
      (leave = true → FdOutcome l bitRate bitRateFD sourceClock s') ∧
      (leave = false → FdInv l bitRate bitRateFD sourceClock (k - 1) s') := by
  have hk : 0 < k := by
    rw [fdTqMin_eq] at hmin
    omega
  rcases fdRound_cases hrate hrate' hfd hfd' hsource hmin hmax s with
    ⟨hdiv, hround⟩ | ⟨hdiv, hbig, hround⟩ | ⟨hdiv, hfits, hnone, hround⟩ | ⟨tq, p, hcand, hround⟩
  · refine ⟨s, false, hround, by simp, fun _ => ?_⟩
    exact h.skip (fun tq p hc => hdiv hc.divides) (fun hd => absurd hd hdiv) rfl
      (fun tn m t hp => ⟨t, hp⟩)
  · refine ⟨_, true, hround, fun _ => ?_, by simp⟩
    have hall {t tq p : Nat} (hc : Candidate l bitRate bitRateFD sourceClock t tq p) : k < t :=
      Nat.lt_of_not_le (fun hle => not_candidate_below hfd hbig hle tq p hc)
    cases hret : s.1 with
    | false => exact .notFound rfl (fun t tq p hc => h.none hret t tq p (hall hc) hc)
    | true =>
      obtain ⟨t, tq, p, -, -, hc, hleast, -⟩ := h.least hret
      exact .overrun rfl t tq p k hc (fun t₁ tq₁ p₁ hc₁ => hleast t₁ tq₁ p₁ (hall hc₁) hc₁)
        (fun t₁ tq₁ hc₁ => h.noOne t₁ tq₁ (hall hc₁) hc₁) hdiv hbig rfl
  · refine ⟨_, false, hround, by simp, fun _ => ?_⟩
    exact h.skip (fun tq p hc => hnone tq p hc.nominal) (fun _ => hfits) rfl
      (fun tn m t hp => ⟨k, hp.storeData hdiv hfits⟩)
  · have hphases := hcand.phases hfd s.2
    refine ⟨_, decide (p = 1), hround, fun hone => ?_, fun hne => ?_⟩
    · have hp : p = 1 := of_decide_eq_true hone
      subst hp
      rw [Nat.one_mul] at hphases ⊢
      exact .common rfl k tq hcand hphases
    · have hp : p ≠ 1 := of_decide_eq_false hne
      refine ⟨?_, ?_, by simp, fun _ => ⟨k, tq, p, k, by omega, hcand, fun t₁ _ _ hlt _ => by omega, hphases⟩⟩
      · intro t hlt hdiv
        by_cases heq : t = k
        · rw [heq]
          exact hcand.fits
        · exact h.small t (by omega) hdiv
      · intro t tq₁ hlt hc
        by_cases heq : t = k
        · rw [heq] at hc
          exact hp (Chosen.unique hrate hcand.nominal hc.nominal).2
        · exact h.noOne t tq₁ (by omega) hc

lemma fdOutcome_of_calculate (l : FdLayout) {bitRate bitRateFD sourceClock : Nat} (hrate : 1 ≤ bitRate)
    (hrate' : bitRate ≤ 1000000) (hlt : bitRate < bitRateFD) (hfd' : bitRateFD ≤ 8000000)
    (hsource : sourceClock < 2 ^ 32) (config : TimingConfig) :
    FdOutcome l bitRate bitRateFD sourceClock
      (fdCalculateImprovedTimingValues l bitRate bitRateFD sourceClock config) := by
  have hfd : 1 ≤ bitRateFD := by omega
  rw [fdCalculateImprovedTimingValues, if_pos hlt.ne]
  have hpos : 0 < fdTqMin l := by rw [fdTqMin_eq]; decide
  have hfdMax : fdTqMin l ≤ fdTqMax l := by cases l <;> decide
  have hrange {t tq p : Nat} (hc : Candidate l bitRate bitRateFD sourceClock t tq p) :
      fdTqMin l - 1 < t ∧ t ≤ fdTqMax l := by
    have hmin := hc.divides.1
    exact ⟨by omega, hc.divides.2.1⟩
  apply countdown_rule (I := fun k s => k ≤ fdTqMax l ∧ FdInv l bitRate bitRateFD sourceClock k s) _ _ _
    hpos hfdMax
  · refine ⟨le_refl _, fun t hgt hdiv => ?_, fun t tq hgt hc => ?_, fun _ t tq p hgt hc => ?_, by simp⟩
    · have hle := hdiv.2.1
      omega
    · have hle := (hrange hc).2
      omega
    · have hle := (hrange hc).2
      omega
  · rintro k s hmin ⟨hmax, h⟩ hleave
    obtain ⟨s', leave, hround, hout, -⟩ := fdInv_round hrate hrate' hfd hfd' hsource hmin hmax h
    rw [hround] at hleave ⊢
    exact hout hleave
  · rintro k s hmin ⟨hmax, h⟩ hleave
    obtain ⟨s', leave, hround, -, hnext⟩ := fdInv_round hrate hrate' hfd hfd' hsource hmin hmax h
    rw [hround] at hleave ⊢
    exact ⟨by omega, hnext hleave⟩
  · rintro s ⟨-, h⟩
    cases hret : s.1 with
    | false => exact .notFound hret (fun t tq p hc => h.none hret t tq p (hrange hc).1 hc)
    | true =>
      obtain ⟨t, tq, p, t', -, hc, hleast, hp⟩ := h.least hret
      exact .exhausted hret t tq p t' h hc
        (fun t₁ tq₁ p₁ hc₁ => hleast t₁ tq₁ p₁ (hrange hc₁).1 hc₁) hp

end Search

/-- The inputs on which the search leaves a consistent configuration. Take the least data-phase quanta
count for which both phases can be solved. Either some quanta count gives the nominal phase the divider
of the data phase, or the product of the dividers of the least one fits the nominal divider field and no
quanta count divides the clock with a data divider beyond its field. -/
def FdConsistent (l : FdLayout) (bitRate bitRateFD sourceClock : Nat) : Prop :=
  ∀ t tq p, Candidate l bitRate bitRateFD sourceClock t tq p →
    (∀ t₁ tq₁ p₁, Candidate l bitRate bitRateFD sourceClock t₁ tq₁ p₁ → t ≤ t₁) →
    (∃ t₁ tq₁, Candidate l bitRate bitRateFD sourceClock t₁ tq₁ 1) ∨
      (p * dataDivider bitRateFD sourceClock t ≤ 1024 ∧
        ∀ t₁, DividesClock l bitRateFD sourceClock t₁ → dataDivider bitRateFD sourceClock t₁ ≤ 1024)

/-- `FLEXCAN_FDCalculateImprovedTimingValues` returns true only with an exact configuration that fits the
registers if and only if the inputs are consistent. -/
theorem fdCalculateImprovedTimingValues_exact_iff (l : FdLayout) (bitRate bitRateFD sourceClock : Nat)
    (config : TimingConfig) (hrate : 1 ≤ bitRate) (hrate' : bitRate ≤ 1000000) (hlt : bitRate < bitRateFD)
    (hfd' : bitRateFD ≤ 8000000) (hsource : sourceClock < 2 ^ 32) :
    (∀ c, fdCalculateImprovedTimingValues l bitRate bitRateFD sourceClock config = (true, c) →
        TimingExact l bitRate bitRateFD sourceClock c) ↔
      FdConsistent l bitRate bitRateFD sourceClock := by
  have hout := fdOutcome_of_calculate l hrate hrate' hlt hfd' hsource config
  have hfd : 1 ≤ bitRateFD := by omega
  generalize fdCalculateImprovedTimingValues l bitRate bitRateFD sourceClock config = s at hout
  obtain ⟨ret, c⟩ := s
  -- a successful search is about the configuration `c`
  have hstate {Q : TimingConfig → Prop} (hret : ret = true) : (∀ c', (ret, c) = (true, c') → Q c') ↔ Q c := by
    subst hret
    simp
  cases hout with
  | notFound hret hnone =>
    have hfalse : ret = false := hret
    refine iff_of_true (by simp [hfalse]) ?_
    intro t tq p hcand
    exact absurd hcand (hnone t tq p)
  | common hret t tq hcand hphases =>
    rw [hstate hret]
    exact iff_of_true ((hphases.timingExact_iff hfd).mpr hcand.fits) (fun _ _ _ _ _ => .inl ⟨t, tq, hcand⟩)
  | exhausted hret t tq p t' hinv hcand hleast hphases =>
    rw [hstate hret, hphases.timingExact_iff hfd]
    have hsmall (t₁ : Nat) (hdiv : DividesClock l bitRateFD sourceClock t₁) :
        dataDivider bitRateFD sourceClock t₁ ≤ 1024 := by
      have hmin := hdiv.1
      rw [fdTqMin_eq] at hmin
      exact hinv.small t₁ (by rw [fdTqMin_eq]; omega) hdiv
    constructor
    · intro hle t₂ tq₂ p₂ hcand₂ hleast₂
      have heq : t₂ = t := Nat.le_antisymm (hleast₂ t tq p hcand) (hleast t₂ tq₂ p₂ hcand₂)
      subst heq
      obtain ⟨-, rfl⟩ := Chosen.unique hrate hcand₂.nominal hcand.nominal
      exact .inr ⟨hle, hsmall⟩
    · intro hcons
      rcases hcons t tq p hcand hleast with ⟨t₁, tq₁, hone⟩ | ⟨hle, -⟩
      · have hmin := hone.divides.1
        rw [fdTqMin_eq] at hmin
        exact absurd hone (hinv.noOne t₁ tq₁ (by rw [fdTqMin_eq]; omega))
      · exact hle
  | overrun hret t tq p t' hcand hleast hone hdiv hbig hdivider =>
    rw [hstate hret]
    refine iff_of_false ?_ ?_
    · intro hexact
      have hle := fpreDivider_le_of_exactFdRegs hexact.2.2.2
      simp only at hdivider
      omega
    · intro hcons
      rcases hcons t tq p hcand hleast with ⟨t₁, tq₁, hone'⟩ | ⟨-, hsmall⟩
      · exact hone t₁ tq₁ hone'
      · exact absurd (hsmall t' hdiv) (Nat.not_le.mpr hbig)

theorem fdConsistent_500k_2M : FdConsistent .fdcbt 500000 2000000 80000000 := by
  apply (fdCalculateImprovedTimingValues_exact_iff .fdcbt 500000 2000000 80000000 zeroConfig (by decide)
    (by decide) (by decide) (by decide) (by decide)).mp
  intro c hc
  have hvalue : c = (fdCalculateImprovedTimingValues .fdcbt 500000 2000000 80000000 zeroConfig).2 := by rw [hc]
  rw [hvalue, TimingExact]
  decide +kernel

/-- 1 kbit/s and 1 Mbit/s from 120 MHz: the product of the two dividers is 1200. -/
theorem not_timingExact_1k_1M :
    ¬ ∀ c, fdCalculateImprovedTimingValues .fdcbt 1000 1000000 120000000 zeroConfig = (true, c) →
      TimingExact .fdcbt 1000 1000000 120000000 c := by
  intro h
  have hresult : fdCalculateImprovedTimingValues .fdcbt 1000 1000000 120000000 zeroConfig =
      (true, (fdCalculateImprovedTimingValues .fdcbt 1000 1000000 120000000 zeroConfig).2) := by
    decide +kernel
  have hregs := (h _ hresult).2.2.1
  revert hregs
  decide +kernel

end McuxDrivers.FlexCan
