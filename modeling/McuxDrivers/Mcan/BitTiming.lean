import McuxDrivers.Mcan.Timing

/-!
# Bit timing of CAN FD on MCAN

The two CAN FD searches end, and what they find divides the clock exactly in both phases. Left aside
are the clocks whose divider does not fit in the 16 bits that it is stored in, and three-quanta data
bits above 4 Mbit/s.
-/

namespace McuxDrivers.Mcan
open McuxDrivers.Lib

/-- Segments of a bit of `tqNum` quanta, each in its register field. -/
structure Fits (maxSeg1 maxSeg2 maxSjw tqNum : Nat) (seg : Segments) : Prop where
  quanta : 3 + seg.seg1 + seg.seg2 = tqNum
  seg1_fits : seg.seg1 ≤ maxSeg1
  seg2_fits : seg.seg2 ≤ maxSeg2
  rJumpwidth_fits : seg.rJumpwidth ≤ maxSjw
  jump_le_seg1 : seg.rJumpwidth ≤ seg.seg1
  jump_le_seg2 : seg.rJumpwidth ≤ seg.seg2

lemma limitSegments_fits {maxSeg1 maxSeg2 tqNum seg2 : Nat} (maxSjw : Nat) (hseg2 : seg2 + 3 ≤ tqNum)
    (hmax : tqNum ≤ maxSeg1 + maxSeg2 + 3) (hseg1 : maxSeg1 ≤ 255) (hbyte : maxSeg2 ≤ 255) :
    Fits maxSeg1 maxSeg2 maxSjw tqNum (limitSegments maxSeg1 maxSeg2 maxSjw tqNum seg2) := by
  obtain ⟨b, hb⟩ : ∃ b, b = if seg2 > maxSeg2 then maxSeg2 else seg2 := ⟨_, rfl⟩
  have hble : b ≤ maxSeg2 ∧ b + 3 ≤ tqNum := by
    rw [hb]
    split_ifs <;> omega
  have htemp : wsub32 (wsub32 tqNum b) 3 = tqNum - b - 3 :=
    wsub32_wsub32_of_le (by omega)
  obtain ⟨s1, s2, hsplit, hsum, hs1, hs2⟩ : ∃ s1 s2,
      (if wsub32 (wsub32 tqNum b) 3 > maxSeg1 then (maxSeg1, u8 (wsub32 (wsub32 tqNum maxSeg1) 3))
        else (u8 (wsub32 (wsub32 tqNum b) 3), b)) = (s1, s2) ∧
      3 + s1 + s2 = tqNum ∧ s1 ≤ maxSeg1 ∧ s2 ≤ maxSeg2 := by
    rw [htemp]
    split
    next hlong =>
      have hrest : u8 (wsub32 (wsub32 tqNum maxSeg1) 3) = tqNum - maxSeg1 - 3 := by
        rw [wsub32_wsub32_of_le (by omega), u8]
        exact Nat.mod_eq_of_lt (by omega)
      exact ⟨_, _, rfl, by rw [hrest]; omega, le_refl _, by rw [hrest]; omega⟩
    next hshort =>
      have hrest : u8 (tqNum - b - 3) = tqNum - b - 3 := Nat.mod_eq_of_lt (by omega)
      exact ⟨_, _, rfl, by rw [hrest]; omega, by rw [hrest]; omega, hble.1⟩
  unfold limitSegments
  simp only [← hb, hsplit]
  constructor
  · exact hsum
  · exact hs1
  · exact hs2
  all_goals
    dsimp only
    split_ifs <;> omega

/-- A nominal bit. -/
abbrev NominalFits (tqNum : Nat) (seg : Segments) : Prop :=
  Fits maxNtseg1 maxNtseg2 maxNsjw tqNum seg

/-- A data bit. -/
abbrev DataFits (tqNum : Nat) (seg : Segments) : Prop :=
  Fits maxDtseg1 maxDtseg2 maxDsjw tqNum seg

lemma calculateSegments_fits {tqNum seg2 : Nat} (hseg2 : seg2 + 3 ≤ tqNum) (hmax : tqNum ≤ 385) :
    NominalFits tqNum (calculateSegments tqNum seg2) :=
  limitSegments_fits maxNsjw hseg2 hmax (by decide) (by decide)

lemma fdCalculateSegments_fits {tqNum seg2 : Nat} (hseg2 : seg2 + 3 ≤ tqNum) (hmax : tqNum ≤ 49) :
    DataFits tqNum (fdCalculateSegments tqNum seg2) :=
  limitSegments_fits maxDsjw hseg2 hmax (by decide) (by decide)

/-- A sample point behind at least two quanta leaves a first segment. -/
lemma behindSamplePoint_le {sp tqNum : Nat} (hsp : sp ≤ 999) (hsp' : 625 ≤ sp) (hmax : tqNum ≤ 385)
    (hmin : 2000 ≤ tqNum * sp) : behindSamplePoint sp tqNum + 3 ≤ tqNum := by
  have hle : tqNum * sp ≤ tqNum * 999 := Nat.mul_le_mul_left tqNum hsp
  have hge : tqNum * 625 ≤ tqNum * sp := Nat.mul_le_mul_left tqNum hsp'
  obtain ⟨x, hx⟩ : ∃ x, x = tqNum * sp := ⟨_, rfl⟩
  rw [behindSamplePoint, ← hx, Nat.mod_eq_of_lt (by omega), wsub32_wsub32_of_le (by omega), u8,
    Nat.mod_eq_of_lt (by omega)]
  omega

lemma behindSpecifiedPoint_le {sp tqNum : Nat} (hsp : sp ≤ 990) (hmin : 3 ≤ tqNum)
    (hmax : tqNum ≤ 385) : behindSpecifiedPoint sp tqNum + 3 ≤ tqNum := by
  have hle : tqNum * sp ≤ tqNum * 990 := Nat.mul_le_mul_left tqNum hsp
  obtain ⟨x, hx⟩ : ∃ x, x = tqNum * sp := ⟨_, rfl⟩
  rw [behindSpecifiedPoint, ← hx, Nat.mod_eq_of_lt (show x < 2 ^ 32 by omega),
    wsub32_of_le (show 1 ≤ tqNum by omega)]
  obtain ⟨t, ht⟩ : ∃ t, t = if x % 1000 < 500 then x / 1000 else x / 1000 + 1 := ⟨_, rfl⟩
  rw [← ht]
  obtain ⟨c, hc⟩ : ∃ c, c = if (if t ≤ 2 then 2 else t) > tqNum - 1 then tqNum - 1
      else if t ≤ 2 then 2 else t := ⟨_, rfl⟩
  rw [← hc]
  have hclamp : 2 ≤ c ∧ c + 1 ≤ tqNum := by
    rw [hc]
    split_ifs <;> omega
  rw [wsub32_wsub32_of_le (by omega), u8]
  have hmod := Nat.mod_le (tqNum - c - 1) (2 ^ 8)
  omega

lemma getSegments_fits (baudRate : Nat) {tqNum : Nat} (hmin : 3 ≤ tqNum) (hmax : tqNum ≤ 385) :
    NominalFits tqNum (getSegments baudRate tqNum) := by
  unfold getSegments
  apply calculateSegments_fits _ hmax
  split_ifs
  all_goals exact behindSamplePoint_le (by decide) (by decide) hmax (by omega)

lemma nominalSegments_fits {tqNum : Nat} (hmin : 3 ≤ tqNum) (hmax : tqNum ≤ 385) :
    NominalFits tqNum (nominalSegments tqNum) :=
  calculateSegments_fits (behindSamplePoint_le (by decide) (by decide) hmax (by omega)) hmax

lemma getSpecifiedSegments_fits {sp tqNum : Nat} (hsp : sp ≤ 990) (hmin : 3 ≤ tqNum)
    (hmax : tqNum ≤ 385) : NominalFits tqNum (getSpecifiedSegments sp tqNum) :=
  calculateSegments_fits (behindSpecifiedPoint_le hsp hmin hmax) hmax

/-- At 62.5 % a bit of three quanta has only one before the sample point. -/
lemma fdGetSegments_fits {baudRateFD tqNum : Nat} (hmin : 3 ≤ tqNum) (hmax : tqNum ≤ 49)
    (hshort : ¬ (4000000 < baudRateFD ∧ tqNum = 3)) : DataFits tqNum (fdGetSegments baudRateFD tqNum) := by
  unfold fdGetSegments
  apply fdCalculateSegments_fits _ hmax
  split_ifs
  all_goals exact behindSamplePoint_le (by decide) (by decide) (by omega) (by omega)

lemma fdGetSpecifiedSegments_fits {sp tqNum : Nat} (hsp : sp ≤ 990) (hmin : 3 ≤ tqNum)
    (hmax : tqNum ≤ 49) : DataFits tqNum (fdGetSpecifiedSegments sp tqNum) :=
  fdCalculateSegments_fits (behindSpecifiedPoint_le hsp hmin (by omega)) hmax

section Divider

variable {rate clock tqNum d : Nat}

lemma divider_dvd (hpos : 0 < rate * tqNum) (hlt : rate * tqNum < 2 ^ 32) (hclock : clock < 2 ^ 32)
    (h : divider rate clock tqNum = some d) :
    rate * tqNum ∣ clock ∧ 0 < clock ∧ d = u16 (clock / (rate * tqNum) - 1) := by
  rw [divider, Nat.mod_eq_of_lt hlt] at h
  split at h
  next => cases h
  next hle =>
    have hback : clock / (rate * tqNum) * (rate * tqNum) ≤ clock := Nat.div_mul_le_self _ _
    rw [Nat.mod_eq_of_lt (show clock / (rate * tqNum) * (rate * tqNum) < 2 ^ 32 by omega)] at h
    split at h
    next => cases h
    next hexact =>
      have hdvd : rate * tqNum ∣ clock := Nat.dvd_of_mod_eq_zero (by
        have := Nat.div_add_mod' clock (rate * tqNum)
        omega)
      have hone : 1 ≤ clock / (rate * tqNum) := (Nat.one_le_div_iff hpos).mpr (by omega)
      rw [wsub32_of_le hone] at h
      exact ⟨hdvd, by omega, (Option.some.inj h).symm⟩

lemma divider_exact (hpos : 0 < rate * tqNum) (hlt : rate * tqNum < 2 ^ 32) (hclock : clock < 2 ^ 32)
    (hfits : rate * tqNum ∣ clock → clock ≤ 65536 * (rate * tqNum))
    (h : divider rate clock tqNum = some d) : clock = rate * (d + 1) * tqNum := by
  obtain ⟨hdvd, hclockpos, hd⟩ := divider_dvd hpos hlt hclock h
  have hone : 1 ≤ clock / (rate * tqNum) :=
    (Nat.one_le_div_iff hpos).mpr (Nat.le_of_dvd hclockpos hdvd)
  have hdiv : clock / (rate * tqNum) ≤ 65536 := Nat.div_le_of_le_mul (by
    rw [Nat.mul_comm]
    exact hfits hdvd)
  rw [u16, Nat.mod_eq_of_lt (by omega)] at hd
  have hsucc : d + 1 = clock / (rate * tqNum) := by omega
  calc clock = clock / (rate * tqNum) * (rate * tqNum) := (Nat.div_mul_cancel hdvd).symm
    _ = rate * (d + 1) * tqNum := by
      rw [hsucc]
      ring

end Divider

/-- The nominal fields hold what a round of a search found for the clock. -/
structure NominalFound (segments : Nat → Segments) (baudRate clock : Nat) (c : TimingConfig) : Prop where
  found : ∃ tqNum, 3 ≤ tqNum ∧ tqNum ≤ 385 ∧ divider baudRate clock tqNum = some c.preDivider ∧
    c = store c c.preDivider (segments tqNum)
  fits : c.preDivider ≤ maxNbrp

lemma NominalFound.of_store {segments : Nat → Segments} {baudRate clock tqNum p : Nat} (c : TimingConfig)
    (hmin : 3 ≤ tqNum) (hmax : tqNum ≤ 385) (hdiv : divider baudRate clock tqNum = some p)
    (hp : p ≤ maxNbrp) : NominalFound segments baudRate clock (store c p (segments tqNum)) :=
  ⟨⟨tqNum, hmin, hmax, hdiv, rfl⟩, hp⟩

/-- A search that returns true has stored a round's timing. -/
lemma improvedSearch_found {segments : Nat → Segments}
    (hfits : ∀ tqNum, 3 ≤ tqNum → tqNum ≤ 385 → NominalFits tqNum (segments tqNum)) (baudRate clock : Nat)
    (config : TimingConfig) (hret : (improvedSearch segments baudRate clock config).1 = true) :
    NominalFound segments baudRate clock (improvedSearch segments baudRate clock config).2 := by
  -- the first sample point found is stored, because it is behind a positive share of the bit
  let I : Nat → Search → Prop := fun k s => k ≤ 385 ∧ (s.fgRet = false → s.sp = 1000) ∧
    (s.fgRet = true → NominalFound segments baudRate clock s.config)
  let Q : Search → Prop := fun s => s.fgRet = true → NominalFound segments baudRate clock s.config
  refine countdown_rule (I := I) (Q := Q) ?_ ?_ (fun s h => h.2.2) (by decide) (by decide)
    ⟨le_refl _, fun _ => rfl, fun h => by cases h⟩ hret
  · intro k s hk h
    simp only [improvedRound, Q]
    split
    next => intro hleave; cases hleave
    next p hdiv =>
      split
      next => exact fun _ => h.2.2
      next hp =>
        split
        all_goals intro hleave; cases hleave
  · intro k s hk h
    have hkmax : k ≤ 385 := h.1
    simp only [improvedRound, I]
    split
    next => exact fun _ => ⟨by omega, h.2⟩
    next p hdiv =>
      split
      next => intro hgo; cases hgo
      next hp =>
        split
        next =>
          intro _
          exact ⟨by omega, fun hf => (by cases hf),
            fun _ => NominalFound.of_store s.config hk hkmax hdiv (by omega)⟩
        next hshare =>
          intro _
          refine ⟨by omega, fun hf => (by cases hf), fun _ => ?_⟩
          cases hfg : s.fgRet with
          | true => exact h.2.2 hfg
          | false =>
            exfalso
            have hseg := (hfits k hk hkmax).quanta
            have hsp := h.2.1 hfg
            rw [hsp, Nat.mod_eq_of_lt (by omega)] at hshare
            apply hshare
            exact Nat.div_lt_of_lt_mul (by omega)

lemma calculateSpecifiedTimingValues_found (param : TimingParam) (clock : Nat) (config : TimingConfig)
    (hret : (calculateSpecifiedTimingValues param clock config).1 = true) :
    NominalFound (getSpecifiedSegments param.nominalSP) param.nominalbaudRate clock
      (calculateSpecifiedTimingValues param clock config).2 := by
  let Q : Search → Prop := fun s => s.fgRet = true →
    NominalFound (getSpecifiedSegments param.nominalSP) param.nominalbaudRate clock s.config
  have hfg := (Bool.and_eq_true _ _ ▸ hret).1
  refine countdown_rule (I := fun k s => k ≤ 385 ∧ Q s) (Q := Q) ?_ ?_ (fun s h => h.2) (by decide)
    (by decide) ⟨le_refl _, fun h => by cases h⟩ hfg
  · intro k s hk h
    simp only [specifiedRound, Q]
    split
    next => intro hleave; cases hleave
    next p hdiv =>
      split
      next => exact fun _ => h.2
      next hp =>
        split
        next => exact fun _ _ => NominalFound.of_store s.config hk h.1 hdiv (by omega)
        next =>
          split
          all_goals intro hleave; cases hleave
  · intro k s hk h
    have hkmax : k ≤ 385 := h.1
    simp only [specifiedRound, Q]
    split
    next => exact fun _ => ⟨by omega, h.2⟩
    next p hdiv =>
      split
      next => intro hgo; cases hgo
      next hp =>
        split
        next => intro hgo; cases hgo
        next =>
          split
          next =>
            exact fun _ => ⟨by omega, fun _ => NominalFound.of_store s.config hk hkmax hdiv (by omega)⟩
          next => exact fun _ => ⟨by omega, h.2⟩

/-- `c` is `config` with other data fields. -/
def SameNominal (config c : TimingConfig) : Prop :=
  ∃ d seg, c = storeData { config with datapreDivider := d } seg

/-- The data fields hold what a round of the data loop found for the common divider. -/
structure DataFound (segments : Nat → Segments) (baudRateFD clock preDividerTemp : Nat)
    (c : TimingConfig) : Prop where
  found : ∃ tqNum, 3 ≤ tqNum ∧ tqNum ≤ 49 ∧ divider baudRateFD clock tqNum = some c.datapreDivider ∧
    c = storeData c (segments tqNum)
  fits : c.datapreDivider ≤ maxDbrp
  common : c.datapreDivider = commonDivider c.preDivider preDividerTemp

lemma dataLoop_found (segments : Nat → Segments) (baudRateFD clock pt : Nat) (config : TimingConfig) :
    SameNominal config (dataLoop segments baudRateFD clock pt config).2 ∧
    ((dataLoop segments baudRateFD clock pt config).1 = true →
      DataFound segments baudRateFD clock pt (dataLoop segments baudRateFD clock pt config).2) := by
  let Q : Bool × TimingConfig → Prop := fun s => SameNominal config s.2 ∧
    (s.1 = true → DataFound segments baudRateFD clock pt s.2)
  let I : Nat → Bool × TimingConfig → Prop := fun k s => k ≤ 49 ∧ s.1 = false ∧ SameNominal config s.2
  refine countdown_rule (I := I) (Q := Q) ?_ ?_ (fun s h => ⟨h.2.2, fun hs => by rw [h.2.1] at hs; cases hs⟩)
    (by decide) (by decide) ⟨le_refl _, rfl, 0, ⟨config.dataseg1, config.dataseg2, config.datarJumpwidth⟩, rfl⟩
  · intro k s hk ⟨hkmax, hfalse, d, seg, hsame⟩
    simp only [dataRound, Q]
    split
    next => intro hleave; cases hleave
    next n hdiv =>
      have hkept : SameNominal config { s.2 with datapreDivider := n } :=
        ⟨n, seg, by rw [hsame]; rfl⟩
      split
      next => exact fun _ => ⟨hkept, fun hs => by rw [hfalse] at hs; cases hs⟩
      next hn =>
        split
        next => intro hleave; cases hleave
        next =>
          split
          next hcommon =>
            intro _
            exact ⟨⟨n, segments k, by rw [hsame]; rfl⟩,
              fun _ => ⟨⟨k, hk, hkmax, hdiv, rfl⟩, by dsimp only [storeData]; omega, hcommon⟩⟩
          next => exact fun _ => ⟨hkept, fun hs => by rw [hfalse] at hs; cases hs⟩
  · intro k s hk ⟨hkmax, hfalse, d, seg, hsame⟩
    simp only [dataRound, I]
    split
    next => exact fun _ => ⟨by omega, hfalse, d, seg, hsame⟩
    next n hdiv =>
      split
      next => intro hgo; cases hgo
      next =>
        split
        next => exact fun _ => ⟨by omega, hfalse, n, seg, by rw [hsame]; rfl⟩
        next =>
          split
          all_goals intro hgo; cases hgo

lemma NominalFound.same {segments : Nat → Segments} {baudRate clock : Nat} {config c : TimingConfig}
    (h : NominalFound segments baudRate clock config) (hsame : SameNominal config c) :
    NominalFound segments baudRate clock c := by
  obtain ⟨⟨tqNum, hmin, hmax, hdiv, hstore⟩, hfits⟩ := h
  obtain ⟨d, seg, rfl⟩ := hsame
  refine ⟨⟨tqNum, hmin, hmax, hdiv, ?_⟩, hfits⟩
  exact congrArg (fun c => storeData { c with datapreDivider := d } seg) hstore

/-- What the `while` loop of a CAN FD function found: a nominal timing for the clock divided by
`preDividerTemp`, and a data timing with the product of the two dividers. -/
structure BothFound (segments dataSegments : Nat → Segments) (baudRate baudRateFD clock : Nat)
    (c : TimingConfig) : Prop where
  found : ∃ pt config, pt < 65536 ∧ NominalFound segments baudRate (clock / pt) config ∧
    DataFound dataSegments baudRateFD clock pt config ∧
    c = { config with preDivider := u16 (commonDivider config.preDivider pt) }

section Search

variable {nominal : Nat → TimingConfig → Bool × TimingConfig} {segments dataSegments : Nat → Segments}
  {baudRate baudRateFD clock : Nat}

lemma NominalFound.clock_pos {c : TimingConfig} (hrate : 1 ≤ baudRate) (hrate' : baudRate ≤ 1000000)
    (hclock : clock < 2 ^ 32) (h : NominalFound segments baudRate clock c) : 0 < clock := by
  obtain ⟨tqNum, hmin, hmax, hdiv, -⟩ := h.found
  have hpos : 0 < baudRate * tqNum := Nat.mul_pos hrate (by omega)
  have hlt : baudRate * tqNum ≤ 1000000 * 385 := Nat.mul_le_mul hrate' hmax
  exact (divider_dvd hpos (by omega) hclock hdiv).2.1

/-- One round ends the loop, or goes on with the next `preDividerTemp`, which is not zero before. -/
lemma fdRound_spec (dataSegments : Nat → Segments) (baudRateFD : Nat) (hrate : 1 ≤ baudRate)
    (hrate' : baudRate ≤ 1000000) (hclock : clock < 2 ^ 32)
    (hnominal : ∀ clock config, (nominal clock config).1 = true →
      NominalFound segments baudRate clock (nominal clock config).2) {pt : Nat} (hpt : pt < 65536)
    (config : TimingConfig) :
    (∃ config', pt ≠ 0 ∧
      fdRound nominal dataSegments baudRateFD clock (pt, config) = .inl (u16 (pt + 1), config')) ∨
    ∃ r, fdRound nominal dataSegments baudRateFD clock (pt, config) = .inr r ∧
      (r.1 = true → BothFound segments dataSegments baudRate baudRateFD clock r.2) := by
  obtain ⟨found, c, hc⟩ : ∃ found c, nominal (clock / pt) config = (found, c) := ⟨_, _, rfl⟩
  cases found with
  | false =>
    right
    refine ⟨(false, c), ?_, fun h => by cases h⟩
    rw [fdRound, hc]
    rfl
  | true =>
    have hnom : NominalFound segments baudRate (clock / pt) c := by
      have h := hnominal (clock / pt) config
      rw [hc] at h
      exact h rfl
    have hdata := dataLoop_found dataSegments baudRateFD clock pt c
    obtain ⟨fgRet, c', hloop⟩ : ∃ fgRet c', dataLoop dataSegments baudRateFD clock pt c = (fgRet, c') :=
      ⟨_, _, rfl⟩
    rw [hloop] at hdata
    have hround : fdRound nominal dataSegments baudRateFD clock (pt, config) =
        if fgRet then .inr (true, { c' with preDivider := u16 (commonDivider c'.preDivider pt) })
        else if c'.datapreDivider ≤ maxDbrp ∧ c'.datapreDivider ≠ 0 then .inl (u16 (pt + 1), c')
        else .inr (false, c') := by
      rw [fdRound, hc]
      simp only [hloop, if_true]
    rw [hround]
    cases fgRet with
    | true =>
      right
      exact ⟨_, rfl, fun _ => ⟨pt, c', hpt, hnom.same hdata.1, hdata.2 rfl, rfl⟩⟩
    | false =>
      by_cases hagain : c'.datapreDivider ≤ maxDbrp ∧ c'.datapreDivider ≠ 0
      · left
        refine ⟨c', ?_, by rw [if_neg Bool.false_ne_true, if_pos hagain]⟩
        rintro rfl
        have hpos := hnom.clock_pos hrate hrate' (lt_of_le_of_lt (Nat.div_le_self _ _) hclock)
        rw [Nat.div_zero] at hpos
        omega
      · right
        exact ⟨_, by rw [if_neg Bool.false_ne_true, if_neg hagain], fun h => by cases h⟩

/-- The rounds left before `preDividerTemp` has wrapped to zero, where the search fails. -/
def roundsLeft (s : Nat × TimingConfig) : Nat :=
  if s.1 = 0 then 0 else 65536 - s.1

lemma fdLoop_terminates (dataSegments : Nat → Segments) (baudRateFD : Nat) (hrate : 1 ≤ baudRate) (hrate' : baudRate ≤ 1000000) (hclock : clock < 2 ^ 32)
    (hnominal : ∀ clock config, (nominal clock config).1 = true →
      NominalFound segments baudRate clock (nominal clock config).2) (config : TimingConfig) :
    ∃ r, (∀ fuel, 65536 ≤ fuel →
        loop (fdRound nominal dataSegments baudRateFD clock) fuel (1, config) = some r) ∧
      (r.1 = true → BothFound segments dataSegments baudRate baudRateFD clock r.2) := by
  let I : Nat × TimingConfig → Prop := fun s => s.1 < 65536
  let Q : Bool × TimingConfig → Prop := fun r =>
    r.1 = true → BothFound segments dataSegments baudRate baudRateFD clock r.2
  have hstart : I (1, config) := show 1 < 65536 by decide
  refine loop_terminates (I := I) (Q := Q) roundsLeft ?_ ?_ hstart
  · rintro ⟨pt, config⟩ s' hpt hbody
    rcases fdRound_spec dataSegments baudRateFD hrate hrate' hclock hnominal hpt config with
      ⟨config', hne, hgo⟩ | ⟨r, hleave, -⟩
    · rw [hgo] at hbody
      cases hbody
      refine ⟨Nat.mod_lt _ (by decide), ?_⟩
      have hlt : pt < 65536 := hpt
      have hleft : roundsLeft (pt, config) = 65536 - pt := if_neg hne
      rw [hleft]
      by_cases hlast : pt + 1 = 65536
      · have hwrap : u16 (pt + 1) = 0 := by rw [hlast]; rfl
        rw [hwrap]
        exact Nat.sub_pos_of_lt hlt
      · have hnext : u16 (pt + 1) = pt + 1 := Nat.mod_eq_of_lt (by omega)
        have hleft' : roundsLeft (pt + 1, config') = 65536 - (pt + 1) := if_neg (Nat.succ_ne_zero pt)
        rw [hnext, hleft']
        omega
    · rw [hleave] at hbody
      cases hbody
  · rintro ⟨pt, config⟩ r hpt hbody
    rcases fdRound_spec dataSegments baudRateFD hrate hrate' hclock hnominal hpt config with
      ⟨config', hne, hgo⟩ | ⟨r', hleave, hfound⟩
    · rw [hgo] at hbody
      cases hbody
    · rw [hleave] at hbody
      cases hbody
      exact hfound

end Search

/-- The nominal phase is exact and each of its fields fits. -/
structure NominalExact (baudRate sourceClock : Nat) (c : TimingConfig) : Prop where
  exact : sourceClock = baudRate * (c.preDivider + 1) * (3 + c.seg1 + c.seg2)
  preDivider_fits : c.preDivider ≤ maxNbrp
  seg1_fits : c.seg1 ≤ maxNtseg1
  seg2_fits : c.seg2 ≤ maxNtseg2
  rJumpwidth_fits : c.rJumpwidth ≤ maxNsjw
  jump_le_seg1 : c.rJumpwidth ≤ c.seg1
  jump_le_seg2 : c.rJumpwidth ≤ c.seg2

/-- The data phase is exact and each of its fields fits. -/
structure DataExact (baudRateFD sourceClock : Nat) (c : TimingConfig) : Prop where
  exact : sourceClock = baudRateFD * (c.datapreDivider + 1) * (3 + c.dataseg1 + c.dataseg2)
  datapreDivider_fits : c.datapreDivider ≤ maxDbrp
  dataseg1_fits : c.dataseg1 ≤ maxDtseg1
  dataseg2_fits : c.dataseg2 ≤ maxDtseg2
  datarJumpwidth_fits : c.datarJumpwidth ≤ maxDsjw
  jump_le_dataseg1 : c.datarJumpwidth ≤ c.dataseg1
  jump_le_dataseg2 : c.datarJumpwidth ≤ c.dataseg2

lemma NominalExact.of_fits {baudRate sourceClock tqNum p : Nat} {seg : Segments} (c : TimingConfig)
    (hfits : NominalFits tqNum seg) (hp : p ≤ maxNbrp) (hexact : sourceClock = baudRate * (p + 1) * tqNum) :
    NominalExact baudRate sourceClock (store c p seg) where
  exact := by
    rw [hexact, ← hfits.quanta]
    rfl
  preDivider_fits := hp
  seg1_fits := hfits.seg1_fits
  seg2_fits := hfits.seg2_fits
  rJumpwidth_fits := hfits.rJumpwidth_fits
  jump_le_seg1 := hfits.jump_le_seg1
  jump_le_seg2 := hfits.jump_le_seg2

lemma DataExact.of_fits {baudRateFD sourceClock tqNum : Nat} {seg : Segments} (c : TimingConfig)
    (hfits : DataFits tqNum seg) (hd : c.datapreDivider ≤ maxDbrp)
    (hexact : sourceClock = baudRateFD * (c.datapreDivider + 1) * tqNum) :
    DataExact baudRateFD sourceClock (storeData c seg) where
  exact := by
    rw [hexact, ← hfits.quanta]
    rfl
  datapreDivider_fits := hd
  dataseg1_fits := hfits.seg1_fits
  dataseg2_fits := hfits.seg2_fits
  datarJumpwidth_fits := hfits.rJumpwidth_fits
  jump_le_dataseg1 := hfits.jump_le_seg1
  jump_le_dataseg2 := hfits.jump_le_seg2

lemma NominalFound.exact {segments : Nat → Segments} {baudRate clock : Nat} {c : TimingConfig}
    (hfits : ∀ tqNum, 3 ≤ tqNum → tqNum ≤ 385 → NominalFits tqNum (segments tqNum)) (hrate : 1 ≤ baudRate)
    (hrate' : baudRate ≤ 1000000) (hclock : clock < 2 ^ 32)
    (hwidth : ∀ tqNum, 3 ≤ tqNum → tqNum ≤ 385 → baudRate * tqNum ∣ clock →
      clock ≤ 65536 * (baudRate * tqNum)) (h : NominalFound segments baudRate clock c) :
    NominalExact baudRate clock c := by
  obtain ⟨tqNum, hmin, hmax, hdiv, hstore⟩ := h.found
  have hpos : 0 < baudRate * tqNum := Nat.mul_pos hrate (by omega)
  have hlt : baudRate * tqNum ≤ 1000000 * 385 := Nat.mul_le_mul hrate' hmax
  have hexact := divider_exact hpos (by omega) hclock (hwidth tqNum hmin hmax) hdiv
  rw [hstore]
  exact NominalExact.of_fits c (hfits tqNum hmin hmax) h.fits hexact

lemma commonDivider_succ {p pt : Nat} (hp : p ≤ maxNbrp) (hpt : pt < 65536) (hpos : 0 < pt) :
    commonDivider p pt + 1 = (p + 1) * pt := by
  have hle : (p + 1) * pt ≤ 512 * 65535 := Nat.mul_le_mul (Nat.succ_le_succ hp) (by omega)
  have hone : 1 ≤ (p + 1) * pt := Nat.mul_pos (Nat.succ_pos p) hpos
  rw [commonDivider, Nat.mod_eq_of_lt (by omega), wsub32_of_le hone]
  omega

/-- The data phase makes `preDividerTemp` a divisor of the clock, so that the nominal search was
made on an exact quotient. -/
lemma BothFound.exact {segments dataSegments : Nat → Segments} {baudRate baudRateFD clock : Nat}
    {c : TimingConfig} (hfits : ∀ tqNum, 3 ≤ tqNum → tqNum ≤ 385 → NominalFits tqNum (segments tqNum))
    (hrate : 1 ≤ baudRate) (hrate' : baudRate ≤ 1000000) (hfd : baudRate ≤ baudRateFD)
    (hfd' : baudRateFD ≤ 8000000) (hclock : clock < 2 ^ 32) (hwidth : clock ≤ 196608 * baudRate)
    (h : BothFound segments dataSegments baudRate baudRateFD clock c) :
    NominalExact baudRate clock c ∧ ∃ tqNum, 3 ≤ tqNum ∧ tqNum ≤ 49 ∧
      clock = baudRateFD * (c.datapreDivider + 1) * tqNum ∧ c.datapreDivider ≤ maxDbrp ∧
      c = storeData c (dataSegments tqNum) := by
  obtain ⟨pt, config, hpt, hnom, hdata, rfl⟩ := h.found
  have hquot : clock / pt ≤ clock := Nat.div_le_self _ _
  have hptpos : 0 < pt := by
    by_contra hzero
    have hpos := hnom.clock_pos hrate hrate' (by omega)
    rw [show pt = 0 by omega, Nat.div_zero] at hpos
    omega
  -- no divider of either phase is wider than 16 bits
  have hnomExact : NominalExact baudRate (clock / pt) config := by
    apply hnom.exact hfits hrate hrate' (by omega)
    intro tqNum hmin _ _
    have hthree : baudRate * 3 ≤ baudRate * tqNum := Nat.mul_le_mul_left baudRate hmin
    omega
  obtain ⟨tqNum, hmin, hmax, hdiv, hstore⟩ := hdata.found
  have hthree : baudRate * 3 ≤ baudRateFD * tqNum := Nat.mul_le_mul hfd hmin
  have hlt : baudRateFD * tqNum ≤ 8000000 * 49 := Nat.mul_le_mul hfd' hmax
  have hdataExact := divider_exact (show 0 < baudRateFD * tqNum by omega) (by omega) hclock
    (fun _ => by omega) hdiv
  have hcommon : config.datapreDivider + 1 = (config.preDivider + 1) * pt := by
    rw [hdata.common, commonDivider_succ hnom.fits hpt hptpos]
  have hdvd : pt ∣ clock := by
    rw [hdataExact, hcommon]
    exact ⟨baudRateFD * (config.preDivider + 1) * tqNum, by ring⟩
  have hclockEq : clock = baudRate * (config.datapreDivider + 1) * (3 + config.seg1 + config.seg2) :=
    calc clock = clock / pt * pt := (Nat.div_mul_cancel hdvd).symm
      _ = baudRate * (config.preDivider + 1) * (3 + config.seg1 + config.seg2) * pt := by
        rw [← hnomExact.exact]
      _ = baudRate * (config.datapreDivider + 1) * (3 + config.seg1 + config.seg2) := by
        rw [hcommon]
        ring
  have hfit := hdata.fits
  have hpre : u16 (commonDivider config.preDivider pt) = config.datapreDivider := by
    rw [← hdata.common]
    exact Nat.mod_eq_of_lt (by rw [maxDbrp] at hfit; omega)
  rw [hpre]
  refine ⟨⟨hclockEq, le_trans hfit (by decide), hnomExact.seg1_fits, hnomExact.seg2_fits,
    hnomExact.rJumpwidth_fits, hnomExact.jump_le_seg1, hnomExact.jump_le_seg2⟩,
    tqNum, hmin, hmax, hdataExact, hfit, ?_⟩
  exact congrArg (fun c : TimingConfig => { c with preDivider := config.datapreDivider }) hstore

/-- The data fields of a configuration for equal bit rates. -/
def NoDataPhase (c : TimingConfig) : Prop :=
  c.datapreDivider = 0 ∧ c.datarJumpwidth = 0 ∧ c.dataseg1 = 0 ∧ c.dataseg2 = 0

/-- What a CAN FD function that returns true promises, unless a divider is wider than 16 bits; the
data phase is left aside in the case `short`. -/
structure FdExact (baudRate baudRateFD sourceClock : Nat) (short : Prop) (c : TimingConfig) : Prop where
  switched : baudRate < baudRateFD → sourceClock ≤ 196608 * baudRate →
    NominalExact baudRate sourceClock c ∧ (¬ short → DataExact baudRateFD sourceClock c)
  unswitched : baudRate = baudRateFD →
    (∀ tqNum, 3 ≤ tqNum → tqNum ≤ 385 → baudRate * tqNum ∣ sourceClock →
      sourceClock / (baudRate * tqNum) ≤ 65536) → NominalExact baudRate sourceClock c ∧ NoDataPhase c

lemma withoutDataPhase_exact {segments : Nat → Segments} {baudRate clock : Nat}
    (hfits : ∀ tqNum, 3 ≤ tqNum → tqNum ≤ 385 → NominalFits tqNum (segments tqNum)) (hrate : 1 ≤ baudRate)
    (hrate' : baudRate ≤ 1000000) (hclock : clock < 2 ^ 32) {result : Bool × TimingConfig}
    (hfound : result.1 = true → NominalFound segments baudRate clock result.2)
    (hret : (withoutDataPhase result).1 = true)
    (hwidth : ∀ tqNum, 3 ≤ tqNum → tqNum ≤ 385 → baudRate * tqNum ∣ clock →
      clock / (baudRate * tqNum) ≤ 65536) :
    NominalExact baudRate clock (withoutDataPhase result).2 ∧ NoDataPhase (withoutDataPhase result).2 := by
  obtain ⟨found, c⟩ := result
  cases found with
  | false => cases hret
  | true =>
    have hexact := (hfound rfl).exact hfits hrate hrate' hclock (by
      intro tqNum hmin hmax hdvd
      have hle := Nat.mul_le_mul_right (baudRate * tqNum) (hwidth tqNum hmin hmax hdvd)
      rwa [Nat.div_mul_cancel hdvd] at hle)
    exact ⟨{ hexact with }, rfl, rfl, rfl, rfl⟩

/-- The data bit of three quanta at more than 4 Mbit/s. -/
def ShortDataBit (baudRateFD sourceClock : Nat) (c : TimingConfig) : Prop :=
  4000000 < baudRateFD ∧ sourceClock = baudRateFD * (c.datapreDivider + 1) * 3

section Rates

variable {baudRate baudRateFD sourceClock : Nat}

lemma improved_exact (hrate : 1 ≤ baudRate) (hrate' : baudRate ≤ 1000000) (hfd : baudRate ≤ baudRateFD)
    (hfd' : baudRateFD ≤ 8000000) (hclock : sourceClock < 2 ^ 32) (config : TimingConfig) :
    ∃ r, (∀ fuel, 65536 ≤ fuel →
        fdCalculateImprovedTimingValues fuel baudRate baudRateFD sourceClock config = some r) ∧
      (r.1 = true → FdExact baudRate baudRateFD sourceClock (ShortDataBit baudRateFD sourceClock r.2) r.2) := by
  rcases Nat.lt_or_eq_of_le hfd with hless | heq
  · obtain ⟨r, hr, hboth⟩ := fdLoop_terminates (fdGetSegments baudRateFD) baudRateFD hrate hrate' hclock
      (fun clock config => improvedSearch_found (fun _ => nominalSegments_fits) baudRate clock config) config
    refine ⟨r, ?_, ?_⟩
    · intro fuel hfuel
      rw [fdCalculateImprovedTimingValues, if_pos hless]
      exact hr fuel hfuel
    · intro hret
      refine ⟨fun _ hwidth => ?_, fun heq => by omega⟩
      obtain ⟨hnom, tqNum, hmin, hmax, hexact, hd, hstore⟩ := (hboth hret).exact
        (fun _ => nominalSegments_fits) hrate hrate' hfd hfd' hclock hwidth
      refine ⟨hnom, ?_⟩
      intro hlong
      have hfits : DataFits tqNum (fdGetSegments baudRateFD tqNum) := by
        apply fdGetSegments_fits hmin hmax
        rintro ⟨hfast, rfl⟩
        exact hlong ⟨hfast, hexact⟩
      rw [hstore]
      exact DataExact.of_fits r.2 hfits hd hexact
  · refine ⟨withoutDataPhase (calculateImprovedTimingValues baudRate sourceClock config), ?_, ?_⟩
    · intro fuel _
      rw [fdCalculateImprovedTimingValues, if_neg (by omega)]
    · intro hret
      refine ⟨fun hless => by omega, fun _ hwidth => ?_⟩
      exact withoutDataPhase_exact (fun _ => getSegments_fits baudRate) hrate hrate' hclock
        (improvedSearch_found (fun _ => getSegments_fits baudRate) baudRate sourceClock config) hret hwidth

lemma specified_exact {param : TimingParam} (hrate : 1 ≤ param.nominalbaudRate)
    (hrate' : param.nominalbaudRate ≤ 1000000) (hfd : param.nominalbaudRate ≤ param.databaudRate)
    (hfd' : param.databaudRate ≤ 8000000) (hsp : param.nominalSP ≤ 990) (hsp' : param.dataSP ≤ 990)
    (hclock : sourceClock < 2 ^ 32) (config : TimingConfig) :
    ∃ r, (∀ fuel, 65536 ≤ fuel →
        fdCalculateSpecifiedTimingValues fuel sourceClock config param = some r) ∧
      (r.1 = true → FdExact param.nominalbaudRate param.databaudRate sourceClock False r.2) := by
  rcases Nat.lt_or_eq_of_le hfd with hless | heq
  · obtain ⟨r, hr, hboth⟩ := fdLoop_terminates (fdGetSpecifiedSegments param.dataSP) param.databaudRate hrate
      hrate' hclock (calculateSpecifiedTimingValues_found param) config
    refine ⟨r, ?_, ?_⟩
    · intro fuel hfuel
      rw [fdCalculateSpecifiedTimingValues, if_pos hless]
      exact hr fuel hfuel
    · intro hret
      refine ⟨fun _ hwidth => ?_, fun heq => by omega⟩
      obtain ⟨hnom, tqNum, hmin, hmax, hexact, hd, hstore⟩ := (hboth hret).exact
        (fun _ => getSpecifiedSegments_fits hsp) hrate hrate' hfd hfd' hclock hwidth
      refine ⟨hnom, fun _ => ?_⟩
      rw [hstore]
      exact DataExact.of_fits r.2 (fdGetSpecifiedSegments_fits hsp' hmin hmax) hd hexact
  · refine ⟨withoutDataPhase (calculateSpecifiedTimingValues param sourceClock config), ?_, ?_⟩
    · intro fuel _
      rw [fdCalculateSpecifiedTimingValues, if_neg (by omega)]
    · intro hret
      refine ⟨fun hless => by omega, fun _ hwidth => ?_⟩
      exact withoutDataPhase_exact (fun _ => getSpecifiedSegments_fits hsp) hrate hrate' hclock
        (calculateSpecifiedTimingValues_found param sourceClock config) hret hwidth

/-- Both functions end, and what they return with true is exact. -/
theorem fd_timing_exact (hrate : 1 ≤ baudRate) (hrate' : baudRate ≤ 1000000) (hfd : baudRate ≤ baudRateFD)
    (hfd' : baudRateFD ≤ 8000000) (hclock : sourceClock < 2 ^ 32) (config : TimingConfig) :
    (∃ r, (∀ fuel, 65536 ≤ fuel →
        fdCalculateImprovedTimingValues fuel baudRate baudRateFD sourceClock config = some r) ∧
      (r.1 = true →
        FdExact baudRate baudRateFD sourceClock (ShortDataBit baudRateFD sourceClock r.2) r.2)) ∧
    ∀ busLength propTxRx nominalSP dataSP, busLength < 2 ^ 32 → propTxRx < 2 ^ 32 → 10 ≤ nominalSP →
      nominalSP ≤ 990 → 10 ≤ dataSP → dataSP ≤ 990 →
      ∃ r, (∀ fuel, 65536 ≤ fuel →
          fdCalculateSpecifiedTimingValues fuel sourceClock config
            ⟨busLength, propTxRx, baudRate, nominalSP, baudRateFD, dataSP⟩ = some r) ∧
        (r.1 = true → FdExact baudRate baudRateFD sourceClock False r.2) := by
  refine ⟨improved_exact hrate hrate' hfd hfd' hclock config, ?_⟩
  intro busLength propTxRx nominalSP dataSP _ _ _ hsp _ hsp'
  exact specified_exact hrate hrate' hfd hfd' hsp hsp' hclock config

end Rates

/-- 500 kbit/s and 2 Mbit/s from 80 MHz. -/
theorem fd_timing_exact_80MHz : ∃ c,
    fdCalculateImprovedTimingValues 65536 500000 2000000 80000000 zeroTiming = some (true, c) ∧
      NominalExact 500000 80000000 c ∧ DataExact 2000000 80000000 c := by
  obtain ⟨⟨r, hr, hexact⟩, -⟩ := fd_timing_exact (show 1 ≤ 500000 by decide) (by decide)
    (show 500000 ≤ 2000000 by decide) (by decide) (show 80000000 < 2 ^ 32 by decide) zeroTiming
  have hvalue : fdCalculateImprovedTimingValues 65536 500000 2000000 80000000 zeroTiming =
      some (true, ⟨0, 31, 126, 31, 0, 9, 28, 9⟩) := by decide +kernel
  have hr' := hr 65536 (le_refl _)
  rw [hvalue] at hr'
  obtain rfl := Option.some.inj hr'
  obtain ⟨hnom, hdata⟩ := (hexact rfl).switched (by decide) (by decide)
  exact ⟨_, hvalue, hnom, hdata (fun hshort => absurd hshort.1 (by decide))⟩

/-- With equal bit rates the data fields are zero, and no timing of a data phase. -/
theorem fd_timing_not_exact : ¬ ∀ baudRate baudRateFD sourceClock, 1 ≤ baudRate → baudRate ≤ 1000000 →
    baudRate ≤ baudRateFD → baudRateFD ≤ 8000000 → sourceClock < 2 ^ 32 → ∀ config, ∃ r,
      (∀ fuel, 65536 ≤ fuel →
        fdCalculateImprovedTimingValues fuel baudRate baudRateFD sourceClock config = some r) ∧
      (r.1 = true → NominalExact baudRate sourceClock r.2 ∧ DataExact baudRateFD sourceClock r.2) := by
  intro h
  obtain ⟨r, hr, hexact⟩ := h 500000 500000 80000000 (by decide) (by decide) (by decide) (by decide)
    (by decide) zeroTiming
  have hvalue : fdCalculateImprovedTimingValues 65536 500000 500000 80000000 zeroTiming =
      some (true, ⟨0, 19, 138, 19, 0, 0, 0, 0⟩) := by decide +kernel
  have hr' := hr 65536 (le_refl _)
  rw [hvalue] at hr'
  obtain rfl := Option.some.inj hr'
  exact absurd (hexact rfl).2.exact (by decide)

end McuxDrivers.Mcan
