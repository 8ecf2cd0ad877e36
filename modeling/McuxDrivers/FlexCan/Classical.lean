import McuxDrivers.FlexCan.Timing

/-!
# Exactness of the classical bit timing

Every quanta count splits into segments that fit their register fields, and the search finds a
timing exactly when one exists. Both facts are shared with the nominal phase of CAN FD.
-/

namespace McuxDrivers.FlexCan
open McuxDrivers.Lib

lemma behindSamplePoint_eq (tqNum idealSp : Nat) (htq : tqNum ≤ 385) (hsp : idealSp ≤ 1000) :
    behindSamplePoint tqNum idealSp = tqNum - tqNum * idealSp / 1000 := by
  have hprod : tqNum * idealSp ≤ 385 * 1000 := Nat.mul_le_mul htq hsp
  have hle : tqNum * idealSp / 1000 ≤ tqNum := by
    have hscaled := Nat.mul_le_mul_left tqNum hsp
    omega
  rw [behindSamplePoint, Nat.mod_eq_of_lt (by omega), wsub32_of_le hle]

/-- Limiting phase segment 1 keeps the number of quanta. -/
lemma limitSegment1_spec {tqNum seg2 : Nat} (s1 pm : Nat) (htq : tqNum ≤ 385) (hseg2 : seg2 + 1 ≤ tqNum) :
    ∃ a b, limitSegment1 tqNum s1 pm seg2 = (a, b) ∧ a + b + 1 = tqNum ∧ a ≤ s1 + pm ∧
      (b = seg2 ∨ (seg2 < b ∧ a = s1 + pm)) := by
  have hinner : wsub32 tqNum seg2 = tqNum - seg2 := wsub32_of_le (by omega)
  have houter : wsub32 (tqNum - seg2) 1 = tqNum - seg2 - 1 := wsub32_of_le (by omega)
  unfold limitSegment1
  rw [hinner, houter]
  by_cases hlong : tqNum - seg2 - 1 > s1 + pm
  · have hone : wsub32 tqNum 1 = tqNum - 1 := wsub32_of_le (by omega)
    have hrest : wsub32 (tqNum - 1) (s1 + pm) = tqNum - 1 - (s1 + pm) :=
      wsub32_of_le (by omega)
    rw [if_pos hlong, hone, hrest]
    refine ⟨_, _, rfl, by omega, le_refl _, .inr ⟨by omega, rfl⟩⟩
  · rw [if_neg hlong]
    exact ⟨_, _, rfl, by omega, by omega, .inl rfl⟩

/-- The encodings minus one do not underflow, and the jump width is bounded by both phases. -/
lemma encodeSegments_spec {propSeg phaseSeg1 phaseSeg2 : Nat} (rjwMax : Option Nat) (hp : 1 ≤ propSeg)
    (h1 : 1 ≤ phaseSeg1) (h2 : 1 ≤ phaseSeg2) :
    ∃ r, encodeSegments propSeg phaseSeg1 phaseSeg2 rjwMax =
        ⟨r, phaseSeg1 - 1, phaseSeg2 - 1, propSeg - 1⟩ ∧
      r ≤ phaseSeg1 - 1 ∧ r ≤ phaseSeg2 - 1 ∧ ∀ n ∈ rjwMax, r ≤ n := by
  have hp' : wsub32 propSeg 1 = propSeg - 1 := wsub32_of_le hp
  have h1' : wsub32 phaseSeg1 1 = phaseSeg1 - 1 := wsub32_of_le h1
  have h2' : wsub32 phaseSeg2 1 = phaseSeg2 - 1 := wsub32_of_le h2
  obtain ⟨j, hj⟩ : ∃ j, j = if phaseSeg1 > phaseSeg2 then phaseSeg2 else phaseSeg1 := ⟨_, rfl⟩
  have hjle : 1 ≤ j ∧ j ≤ phaseSeg1 ∧ j ≤ phaseSeg2 := by
    rw [hj]
    split <;> omega
  simp only [encodeSegments, ← hj, hp', h1', h2']
  cases rjwMax with
  | none =>
    have hj' : wsub32 j 1 = j - 1 := wsub32_of_le hjle.1
    exact ⟨j - 1, by rw [← hj'], by omega, by omega, by simp⟩
  | some n =>
    obtain ⟨k, hk⟩ : ∃ k, k = if j > n + 1 then n + 1 else j := ⟨_, rfl⟩
    have hkle : 1 ≤ k ∧ k ≤ j ∧ k ≤ n + 1 := by
      rw [hk]
      split <;> omega
    have hk' : wsub32 k 1 = k - 1 := wsub32_of_le hkle.1
    refine ⟨k - 1, by simp only [← hk, hk'], by omega, by omega, ?_⟩
    intro m hm
    have hmn : n = m := Option.mem_some_iff.mp hm
    omega

/-- The segments `seg` make up `tqNum` quanta, and each fits a field: the phase segments one of
`s1` quanta, the propagation segment one of `pm`. -/
structure Splits (tqNum s1 pm : Nat) (seg : Segments) : Prop where
  quanta : 1 + (seg.propSeg + 1) + (seg.phaseSeg1 + 1) + (seg.phaseSeg2 + 1) = tqNum
  phaseSeg1_fits : seg.phaseSeg1 + 1 ≤ s1
  phaseSeg2_fits : seg.phaseSeg2 + 1 ≤ s1
  propSeg_fits : seg.propSeg + 1 ≤ pm
  phaseSeg2_min : 2 ≤ seg.phaseSeg2 + 1
  jump_phaseSeg1 : seg.rJumpwidth ≤ seg.phaseSeg1
  jump_phaseSeg2 : seg.rJumpwidth ≤ seg.phaseSeg2

/-- Whatever phase segment 2 the search starts from, as long as it leaves room for a longer
segment 1, the balanced segments fit. -/
lemma balanceSegments_splits {tqNum s1 pm seg2 : Nat} (rjwMax : Option Nat) (htq : tqNum ≤ 385)
    (hmin : 2 ≤ seg2) (hfit : seg2 ≤ s1) (hroom : 2 * seg2 + 2 ≤ tqNum) (hmax : tqNum ≤ 1 + pm + 2 * s1)
    (hpm : 1 ≤ pm) (hs1 : s1 + pm ≤ 385) :
    Splits tqNum s1 pm (balanceSegments tqNum s1 pm seg2 rjwMax) ∧
      ∀ n ∈ rjwMax, (balanceSegments tqNum s1 pm seg2 rjwMax).rJumpwidth ≤ n := by
  obtain ⟨a, b, hlimit, hsum, ha, hb⟩ := limitSegment1_spec s1 pm htq
    (show seg2 + 1 ≤ tqNum by omega)
  have hab : b < a ∧ b ≤ s1 ∧ 2 ≤ b := by
    rcases hb with rfl | ⟨hlt, rfl⟩ <;> omega
  unfold balanceSegments
  simp only [hlimit]
  by_cases hlong : a > b + pm
  · have hsub : wsub32 a pm = a - pm := wsub32_of_le (by omega)
    rw [if_pos hlong, hsub]
    obtain ⟨r, henc, hr1, hr2, hrn⟩ := encodeSegments_spec rjwMax hpm
      (show 1 ≤ a - pm by omega) (show 1 ≤ b by omega)
    rw [henc]
    exact ⟨⟨by dsimp only; omega, by dsimp only; omega, by dsimp only; omega, by dsimp only; omega,
      by dsimp only; omega, hr1, hr2⟩, hrn⟩
  · have hsub : wsub32 a b = a - b := wsub32_of_le (by omega)
    rw [if_neg hlong, hsub]
    obtain ⟨r, henc, hr1, hr2, hrn⟩ := encodeSegments_spec rjwMax
      (show 1 ≤ a - b by omega) (show 1 ≤ b by omega) (show 1 ≤ b by omega)
    rw [henc]
    exact ⟨⟨by dsimp only; omega, by dsimp only; omega, by dsimp only; omega, by dsimp only; omega,
      by dsimp only; omega, hr1, hr2⟩, hrn⟩

lemma tqMax_le (l : Layout) : tqMax l ≤ 385 := by
  cases l <;> decide

lemma tqMin_pos (l : Layout) : 0 < tqMin l := by
  cases l <;> decide

lemma tqMin_le_tqMax (l : Layout) : tqMin l ≤ tqMax l := by
  cases l <;> decide

/-- Segments of a layout, with a jump width its register can hold. -/
structure Fits (l : Layout) (tqNum : Nat) (seg : Segments) : Prop where
  splits : Splits tqNum (seg1Max l) (proSegMax l) seg
  jump : l = .ctrl1 → seg.rJumpwidth ≤ maxRjw

/-- Balancing fits in every layout if it starts from at most a quarter of the quanta, rounded up, or
from the least or the longest phase segment 2. -/
lemma balanceSegments_fits {l : Layout} {tqNum seg2 : Nat} {rjwMax : Option Nat} (hmin : tqMin l ≤ tqNum)
    (hmax : tqNum ≤ tqMax l) (hseg2 : 2 ≤ seg2) (hfit : seg2 ≤ seg1Max l) (hroom : 2 * seg2 + 2 ≤ tqNum)
    (hrjw : l = .ctrl1 → rjwMax = some maxRjw) :
    Fits l tqNum (balanceSegments tqNum (seg1Max l) (proSegMax l) seg2 rjwMax) := by
  have hle := tqMax_le l
  have hwhole : tqMax l = 1 + proSegMax l + 2 * seg1Max l := by cases l <;> rfl
  have hpm : 1 ≤ proSegMax l ∧ seg1Max l + proSegMax l ≤ 385 := by cases l <;> decide
  obtain ⟨hsplits, hjump⟩ := balanceSegments_splits rjwMax (by omega) hseg2 hfit hroom
    (by omega) hpm.1 hpm.2
  refine ⟨hsplits, ?_⟩
  intro hl
  exact hjump maxRjw (hrjw hl)

lemma getSegments_fits {l : Layout} {tqNum : Nat} (bitRate : Nat) (hmin : tqMin l ≤ tqNum)
    (hmax : tqNum ≤ tqMax l) : Fits l tqNum (getSegments l bitRate tqNum) := by
  have hle := tqMax_le l
  have h8 : 8 ≤ tqNum := by cases l <;> exact hmin
  obtain ⟨sp, hsp⟩ : ∃ sp, sp = if bitRate = 1000000 then 750 else if bitRate ≥ 800000 then 800 else 875 :=
    ⟨_, rfl⟩
  have hcases : sp = 750 ∨ sp = 800 ∨ sp = 875 := by
    rw [hsp]
    split_ifs <;> simp
  have hbehind := behindSamplePoint_eq tqNum sp (by omega) (by omega)
  obtain ⟨b, hb⟩ : ∃ b, b = tqNum - tqNum * sp / 1000 := ⟨_, rfl⟩
  have hquarter : 4 * b ≤ tqNum + 3 := by
    rcases hcases with rfl | rfl | rfl <;> omega
  -- the two limits on phase segment 2
  obtain ⟨c, hc⟩ : ∃ c, c = if b < minTimeSegment2 then minTimeSegment2 else b := ⟨_, rfl⟩
  have hcle : 2 ≤ c ∧ 2 * c + 2 ≤ tqNum ∧ 4 * c ≤ tqNum + 3 := by
    rw [hc, minTimeSegment2]
    split <;> omega
  obtain ⟨d, hd⟩ : ∃ d, d = if l = .cbt ∧ c > maxEPSeg2 + 1 then maxEPSeg2 + 1 else c := ⟨_, rfl⟩
  have hdle : 2 ≤ d ∧ d ≤ c ∧ (l = .cbt → d ≤ 32) := by
    rw [hd, maxEPSeg2]
    split
    next hlong => exact ⟨by omega, by omega, fun _ => le_refl _⟩
    next hshort =>
      refine ⟨hcle.1, le_refl _, ?_⟩
      intro hl
      exact Nat.le_of_not_lt (fun hlt => hshort ⟨hl, hlt⟩)
  unfold getSegments
  simp only [← hsp, hbehind, ← hb, ← hc, ← hd]
  apply balanceSegments_fits hmin hmax hdle.1
  · cases l with
    | ctrl1 =>
      have h25 : tqNum ≤ 25 := hmax
      have hseg : seg1Max .ctrl1 = 8 := rfl
      omega
    | cbt => exact hdle.2.2 rfl
    | encbt =>
      have hseg : seg1Max .encbt = 128 := rfl
      omega
  · omega
  · intro hl
    rw [if_pos hl]

lemma nominalSegments_fits {l : Layout} {tqNum : Nat} (hl : l ≠ .ctrl1) (hmin : tqMin l ≤ tqNum)
    (hmax : tqNum ≤ tqMax l) : Fits l tqNum (nominalSegments l tqNum) := by
  have hle := tqMax_le l
  have h8 : 8 ≤ tqNum := by cases l <;> exact hmin
  have hbehind := behindSamplePoint_eq tqNum 800 (by omega) (by omega)
  unfold nominalSegments
  rw [hbehind]
  apply balanceSegments_fits hmin hmax
  · omega
  · cases l with
    | ctrl1 => exact absurd rfl hl
    | cbt =>
      have h129 : tqNum ≤ 129 := hmax
      have hseg : seg1Max .cbt = 32 := rfl
      omega
    | encbt =>
      have hseg : seg1Max .encbt = 128 := rfl
      omega
  · omega
  · intro h
    exact absurd h hl

section Search

variable {segments : Nat → Segments} {l : Layout} {bitRate sourceClock : Nat}

/-- A quanta count and a divider that give the bit rate exactly. -/
def Solves (pdivMAX bitRate sourceClock tqNum p : Nat) : Prop :=
  1 ≤ p ∧ p ≤ pdivMAX + 1 ∧ bitRate * tqNum * p = sourceClock

/-- What a round does with a quanta count, when nothing overflows. -/
lemma searchRound_eq {pdivMAX tqNum : Nat} (hclk : bitRate * tqNum < 2 ^ 32) (hpos : 0 < bitRate * tqNum)
    (hsource : sourceClock < 2 ^ 32) (s : Search) :
    searchRound segments pdivMAX bitRate sourceClock tqNum s =
      if 0 < sourceClock ∧ bitRate * tqNum ∣ sourceClock then
        if sourceClock / (bitRate * tqNum) > pdivMAX + 1 then (s, true)
        else if behindShare (segments tqNum) tqNum < s.spTemp then
          ({ fgRet := true, spTemp := behindShare (segments tqNum) tqNum, config :=
              store s.config (sourceClock / (bitRate * tqNum) - 1) (segments tqNum) }, false)
        else ({ s with fgRet := true }, false)
      else (s, false) := by
  have hprod : sourceClock / (bitRate * tqNum) * (bitRate * tqNum) % 2 ^ 32 =
      sourceClock / (bitRate * tqNum) * (bitRate * tqNum) :=
    Nat.mod_eq_of_lt (lt_of_le_of_lt (Nat.div_mul_le_self _ _) hsource)
  unfold searchRound
  rw [Nat.mod_eq_of_lt hclk]
  dsimp only
  rw [hprod]
  by_cases hexact : 0 < sourceClock ∧ bitRate * tqNum ∣ sourceClock
  · have hle := Nat.le_of_dvd hexact.1 hexact.2
    have hquot : 1 ≤ sourceClock / (bitRate * tqNum) := Nat.div_pos hle hpos
    rw [if_neg (Nat.not_lt.mpr hle), if_neg (not_not_intro (Nat.div_mul_cancel hexact.2)),
      wsub32_of_le hquot, if_pos hexact]
    by_cases hbig : sourceClock / (bitRate * tqNum) > pdivMAX + 1
    · rw [if_pos hbig, if_pos (by omega)]
    · rw [if_neg hbig, if_neg (by omega)]
  · rw [if_neg hexact]
    by_cases hgt : bitRate * tqNum > sourceClock
    · rw [if_pos hgt]
    · have hne : sourceClock / (bitRate * tqNum) * (bitRate * tqNum) ≠ sourceClock :=
        fun h => hexact ⟨by omega, Dvd.intro_left _ h⟩
      rw [if_neg hgt, if_pos hne]

/-- The timing a search that has tried the quanta counts above `k` decides for: the one with the
latest sample point, and of several the one with the most quanta. -/
structure Chosen (segments : Nat → Segments) (l : Layout) (bitRate sourceClock k tq p : Nat) : Prop where
  above : k < tq
  max : tq ≤ tqMax l
  solves : Solves (pdivMax l) bitRate sourceClock tq p
  best : ∀ tq' p', k < tq' → tq' ≤ tqMax l → Solves (pdivMax l) bitRate sourceClock tq' p' →
    behindShare (segments tq) tq < behindShare (segments tq') tq' ∨
      (behindShare (segments tq) tq = behindShare (segments tq') tq' ∧ tq' ≤ tq)

/-- The state of the search when `k` is the next quanta count. -/
structure SearchInv (segments : Nat → Segments) (l : Layout) (bitRate sourceClock : Nat)
    (config : TimingConfig) (k : Nat) (s : Search) : Prop where
  found : s.fgRet = true ↔ ∃ tq p, k < tq ∧ tq ≤ tqMax l ∧ Solves (pdivMax l) bitRate sourceClock tq p
  fresh : s.fgRet = false → s.spTemp = 1000 ∧ s.config = config
  stored : s.fgRet = true → ∃ tq p, Chosen segments l bitRate sourceClock k tq p ∧
    s.spTemp = behindShare (segments tq) tq ∧ s.config = store config (p - 1) (segments tq)

lemma solves_iff (pdivMAX sourceClock : Nat) {tqNum : Nat} (hpos : 0 < bitRate * tqNum) :
    (∃ p, Solves pdivMAX bitRate sourceClock tqNum p) ↔
      (0 < sourceClock ∧ bitRate * tqNum ∣ sourceClock) ∧
        sourceClock / (bitRate * tqNum) ≤ pdivMAX + 1 := by
  constructor
  · rintro ⟨p, hp, hle, rfl⟩
    refine ⟨⟨Nat.mul_pos hpos hp, Dvd.intro _ rfl⟩, ?_⟩
    rwa [Nat.mul_div_cancel_left p hpos]
  · rintro ⟨⟨hsource, hdvd⟩, hle⟩
    exact ⟨sourceClock / (bitRate * tqNum), Nat.div_pos (Nat.le_of_dvd hsource hdvd) hpos, hle,
      Nat.mul_div_cancel' hdvd⟩

/-- The divider of a smaller quanta count is larger. -/
lemma not_solves_below {pdivMAX tqNum tq : Nat} (hpos : 0 < bitRate * tqNum) (hle : tq ≤ tqNum)
    (hexact : bitRate * tqNum ∣ sourceClock) (hbig : sourceClock / (bitRate * tqNum) > pdivMAX + 1) (p : Nat) :
    ¬ Solves pdivMAX bitRate sourceClock tq p := by
  rintro ⟨hp, hple, heq⟩
  have hmul := Nat.mul_div_cancel' hexact
  have hcmp : bitRate * tq * p ≤ bitRate * tqNum * (pdivMAX + 1) :=
    Nat.mul_le_mul (Nat.mul_le_mul_left bitRate hle) hple
  have hlt : bitRate * tqNum * (pdivMAX + 1) < bitRate * tqNum * (sourceClock / (bitRate * tqNum)) :=
    Nat.mul_lt_mul_of_pos_left hbig hpos
  omega

/-- Rounds that find nothing keep the state of the search. -/
lemma SearchInv.lower {config : TimingConfig} {k k' : Nat} {s : Search} (hle : k' ≤ k)
    (hno : ∀ tq p, k' < tq → tq ≤ k → ¬ Solves (pdivMax l) bitRate sourceClock tq p)
    (h : SearchInv segments l bitRate sourceClock config k s) :
    SearchInv segments l bitRate sourceClock config k' s := by
  have habove {tq p : Nat} (hlt : k' < tq) (hsol : Solves (pdivMax l) bitRate sourceClock tq p) : k < tq :=
    Nat.lt_of_not_le (fun hcmp => hno tq p hlt hcmp hsol)
  refine ⟨h.found.trans ?_, h.fresh, ?_⟩
  · constructor
    · rintro ⟨tq, p, hlt, hmax, hsol⟩
      exact ⟨tq, p, by omega, hmax, hsol⟩
    · rintro ⟨tq, p, hlt, hmax, hsol⟩
      exact ⟨tq, p, habove hlt hsol, hmax, hsol⟩
  · intro hret
    obtain ⟨tq, p, hchosen, hstored⟩ := h.stored hret
    refine ⟨tq, p, ⟨by have := hchosen.above; omega, hchosen.max, hchosen.solves, ?_⟩, hstored⟩
    intro tq' p' hlt hmax hsol
    exact hchosen.best tq' p' (habove hlt hsol) hmax hsol

/-- A round on a quanta count without an exact divider. -/
lemma searchInv_skip {config : TimingConfig} {k : Nat} {s : Search} (hpos : 0 < bitRate * k)
    (hno : ¬ (0 < sourceClock ∧ bitRate * k ∣ sourceClock))
    (h : SearchInv segments l bitRate sourceClock config k s) :
    SearchInv segments l bitRate sourceClock config (k - 1) s := by
  apply h.lower (by omega)
  intro tq p hlt hle hsol
  have heq : tq = k := by omega
  rw [heq] at hsol
  exact hno ((solves_iff (pdivMax l) sourceClock hpos).mp ⟨p, hsol⟩).1

/-- A round whose divider is too large: no smaller quanta count has a solution. -/
lemma searchInv_leave {config : TimingConfig} {k : Nat} {s : Search} (hpos : 0 < bitRate * k)
    (hmin : tqMin l ≤ k) (hexact : bitRate * k ∣ sourceClock)
    (hbig : sourceClock / (bitRate * k) > pdivMax l + 1)
    (h : SearchInv segments l bitRate sourceClock config k s) :
    SearchInv segments l bitRate sourceClock config (tqMin l - 1) s := by
  apply h.lower (by omega)
  intro tq p _ hle
  exact not_solves_below hpos hle hexact hbig p

/-- The first timing found always beats the initial sample point. -/
lemma behindShare_lt {tq : Nat} (hpos : 0 < tq) (hmax : tq ≤ tqMax l) (hfits : Fits l tq (segments tq)) :
    behindShare (segments tq) tq < 1000 := by
  have hquanta := hfits.splits.quanta
  have hle := tqMax_le l
  rw [behindShare, Nat.div_lt_iff_lt_mul hpos]
  omega

/-- A round with a solution keeps the better of the two timings. -/
lemma searchInv_hit {config : TimingConfig} {k p : Nat} {s : Search} (hpos : 0 < k)
    (hmax : k ≤ tqMax l) (hfits : Fits l k (segments k))
    (hsol : Solves (pdivMax l) bitRate sourceClock k p)
    (h : SearchInv segments l bitRate sourceClock config k s) :
    SearchInv segments l bitRate sourceClock config (k - 1)
      (if behindShare (segments k) k < s.spTemp then
        { fgRet := true, spTemp := behindShare (segments k) k,
          config := store s.config (p - 1) (segments k) }
      else { s with fgRet := true }) := by
  have hfound : ∃ tq p, k - 1 < tq ∧ tq ≤ tqMax l ∧ Solves (pdivMax l) bitRate sourceClock tq p :=
    ⟨k, p, by omega, hmax, hsol⟩
  have hcases {tq' : Nat} (hlt : k - 1 < tq') : tq' = k ∨ k < tq' := by omega
  split
  next hbetter =>
    refine ⟨iff_of_true rfl hfound, by simp, fun _ => ⟨k, p, ⟨by omega, hmax, hsol, ?_⟩, rfl, ?_⟩⟩
    · intro tq' p' hlt hle hsol'
      rcases hcases hlt with rfl | hgt
      · exact .inr ⟨rfl, le_refl _⟩
      · obtain ⟨tq, q, hchosen, hsp, -⟩ := h.stored (h.found.mpr ⟨tq', p', hgt, hle, hsol'⟩)
        have hold := hchosen.best tq' p' hgt hle hsol'
        omega
    · -- storing a second time overwrites the same fields
      cases hret : s.fgRet with
      | false => rw [(h.fresh hret).2]
      | true =>
        obtain ⟨tq, q, -, -, hconfig⟩ := h.stored hret
        rw [hconfig]
        rfl
  next hworse =>
    refine ⟨iff_of_true rfl hfound, by simp, fun _ => ?_⟩
    cases hret : s.fgRet with
    | false =>
      rw [(h.fresh hret).1] at hworse
      exact absurd (behindShare_lt hpos hmax hfits) hworse
    | true =>
      obtain ⟨tq, q, hchosen, hsp, hconfig⟩ := h.stored hret
      have habove := hchosen.above
      refine ⟨tq, q, ⟨by omega, hchosen.max, hchosen.solves, ?_⟩, hsp, hconfig⟩
      intro tq' p' hlt hle hsol'
      rcases hcases hlt with rfl | hgt
      · omega
      · exact hchosen.best tq' p' hgt hle hsol'

/-- A round either leaves the loop with nothing more to find, or goes on. -/
lemma searchInv_round {config : TimingConfig} {k : Nat} {s : Search}
    (hfits : ∀ tq, tqMin l ≤ tq → tq ≤ tqMax l → Fits l tq (segments tq)) (hrate : 1 ≤ bitRate)
    (hrate' : bitRate ≤ 1000000) (hsource : sourceClock < 2 ^ 32) (hmin : tqMin l ≤ k) (hmax : k ≤ tqMax l)
    (h : SearchInv segments l bitRate sourceClock config k s) :
    ∃ s' leave, searchRound segments (pdivMax l) bitRate sourceClock k s = (s', leave) ∧
      SearchInv segments l bitRate sourceClock config (if leave then tqMin l - 1 else k - 1) s' := by
  have hkpos := tqMin_pos l
  have hpos : 0 < bitRate * k := Nat.mul_pos hrate (by omega)
  have hclk : bitRate * k < 2 ^ 32 :=
    lt_of_le_of_lt (Nat.mul_le_mul hrate' (hmax.trans (tqMax_le l))) (by decide)
  rw [searchRound_eq hclk hpos hsource]
  by_cases hexact : 0 < sourceClock ∧ bitRate * k ∣ sourceClock
  · rw [if_pos hexact]
    by_cases hbig : sourceClock / (bitRate * k) > pdivMax l + 1
    · rw [if_pos hbig]
      exact ⟨_, true, rfl, searchInv_leave hpos hmin hexact.2 hbig h⟩
    · rw [if_neg hbig]
      have hsol : Solves (pdivMax l) bitRate sourceClock k (sourceClock / (bitRate * k)) :=
        ⟨Nat.div_pos (Nat.le_of_dvd hexact.1 hexact.2) hpos, Nat.le_of_not_lt hbig,
          Nat.mul_div_cancel' hexact.2⟩
      refine ⟨_, false, ?_, searchInv_hit (by omega) hmax (hfits k hmin hmax) hsol h⟩
      split <;> rfl
  · rw [if_neg hexact]
    exact ⟨_, false, rfl, searchInv_skip hpos hexact h⟩

/-- The result of a search over segments that fit: whether a solution exists, and the stored fields of
one. Without a solution the output is not written. -/
lemma search_spec (hfits : ∀ tq, tqMin l ≤ tq → tq ≤ tqMax l → Fits l tq (segments tq))
    (hrate : 1 ≤ bitRate) (hrate' : bitRate ≤ 1000000) (hsource : sourceClock < 2 ^ 32)
    (config : TimingConfig) :
    ∃ s, search segments l bitRate sourceClock config = (s.fgRet, s.config) ∧
      SearchInv segments l bitRate sourceClock config (tqMin l - 1) s := by
  refine ⟨_, rfl, ?_⟩
  apply countdown_rule (I := fun k s => k ≤ tqMax l ∧ SearchInv segments l bitRate sourceClock config k s)
  · rintro k s hmin ⟨hmax, h⟩ hleave
    obtain ⟨s', leave, hround, h'⟩ := searchInv_round hfits hrate hrate' hsource hmin hmax h
    rw [hround] at hleave ⊢
    subst hleave
    exact h'
  · rintro k s hmin ⟨hmax, h⟩ hleave
    obtain ⟨s', leave, hround, h'⟩ := searchInv_round hfits hrate hrate' hsource hmin hmax h
    rw [hround] at hleave ⊢
    subst hleave
    exact ⟨by omega, h'⟩
  · rintro s ⟨-, h⟩
    exact h
  · exact tqMin_pos l
  · exact tqMin_le_tqMax l
  · refine ⟨le_refl _, ?_, fun _ => ⟨rfl, rfl⟩, by simp⟩
    refine iff_of_false (by simp) ?_
    rintro ⟨tq, p, hlt, hle, -⟩
    omega

end Search

/-- The largest value of the divider field, which for `CBT` exceeds the limit of the search. -/
def presDivFieldMax : Layout → Nat
  | .ctrl1 => maxPresDiv
  | .cbt => maxEPresDiv
  | .encbt => maxENPresDiv

lemma pdivMax_le_field (l : Layout) : pdivMax l ≤ presDivFieldMax l := by
  cases l <;> decide

/-- Fitting segments with a divider in range are written to the register unchanged. -/
lemma setTimingConfig_store {l : Layout} {tqNum p : Nat} {seg : Segments} (h : Fits l tqNum seg)
    (hp : p ≤ presDivFieldMax l + 1) (config : TimingConfig) :
    setTimingConfig l (store config (p - 1) seg) = exactRegs l (store config (p - 1) seg) := by
  obtain ⟨hsplits, hrjw⟩ := h
  have h1 := hsplits.phaseSeg1_fits
  have h2 := hsplits.phaseSeg2_fits
  have h3 := hsplits.propSeg_fits
  have h4 := hsplits.jump_phaseSeg1
  cases l with
  | ctrl1 =>
    have hjump : seg.rJumpwidth ≤ 3 := hrjw rfl
    simp only [seg1Max, proSegMax, presDivFieldMax, maxPSeg1, maxPropSeg, maxPresDiv] at h1 h2 h3 hp
    simp only [setTimingConfig, exactRegs, store, masked, maxPresDiv, maxRjw, maxPSeg1, maxPSeg2, maxPropSeg,
      TimingRegs.ctrl1.injEq]
    exact ⟨by omega, by omega, by omega, by omega, by omega⟩
  | cbt =>
    simp only [seg1Max, proSegMax, presDivFieldMax, maxEPSeg1, maxEPropSeg, maxEPresDiv] at h1 h2 h3 hp
    simp only [setTimingConfig, exactRegs, store, masked, maxEPresDiv, maxERjw, maxEPSeg1, maxEPSeg2,
      maxEPropSeg, TimingRegs.cbt.injEq]
    exact ⟨by omega, by omega, by omega, by omega, by omega⟩
  | encbt =>
    simp only [seg1Max, proSegMax, presDivFieldMax, maxNTSeg1, maxNTSeg2, maxENPresDiv] at h1 h2 h3 hp
    simp only [setTimingConfig, exactRegs, store, masked, maxENPresDiv, maxNRjw, maxNTSeg1, maxNTSeg2,
      TimingRegs.encbt.injEq]
    exact ⟨by omega, by omega, by omega, by omega⟩

/-- The classical bit timing is found exactly when a quanta count and a divider of the layout give the
bit rate, it then is exact, and `FLEXCAN_SetTimingConfig` writes each of its fields unmasked. -/
theorem calculateImprovedTimingValues_exact (l : Layout) (bitRate sourceClock : Nat)
    (config : TimingConfig) (hrate : 1 ≤ bitRate) (hrate' : bitRate ≤ 1000000)
    (hsource : sourceClock < 2 ^ 32) :
    ((calculateImprovedTimingValues l bitRate sourceClock config).1 = true ↔
        ∃ tq p, tqMin l ≤ tq ∧ tq ≤ tqMax l ∧ 1 ≤ p ∧ p ≤ pdivMax l + 1 ∧ bitRate * tq * p = sourceClock) ∧
      ∀ c, calculateImprovedTimingValues l bitRate sourceClock config = (true, c) →
        sourceClock = bitRate * (c.preDivider + 1) *
            (1 + (c.propSeg + 1) + (c.phaseSeg1 + 1) + (c.phaseSeg2 + 1)) ∧
          setTimingConfig l c = exactRegs l c ∧ 2 ≤ c.phaseSeg2 + 1 ∧
          c.rJumpwidth ≤ min c.phaseSeg1 c.phaseSeg2 := by
  have hfits (tq : Nat) (hmin : tqMin l ≤ tq) (hmax : tq ≤ tqMax l) := getSegments_fits bitRate hmin hmax
  obtain ⟨s, hsearch, hinv⟩ := search_spec hfits hrate hrate' hsource config
  have hpos := tqMin_pos l
  rw [calculateImprovedTimingValues, hsearch]
  constructor
  · refine hinv.found.trans ⟨?_, ?_⟩
    · rintro ⟨tq, p, hlt, hle, hsol⟩
      exact ⟨tq, p, by omega, hle, hsol⟩
    · rintro ⟨tq, p, hge, hle, hsol⟩
      exact ⟨tq, p, by omega, hle, hsol⟩
  · rintro c hc
    obtain ⟨hret, rfl⟩ := Prod.mk.inj hc
    obtain ⟨tq, p, ⟨hmin, hmax, ⟨hp, hple, hsol⟩, -⟩, -, hconfig⟩ := hinv.stored hret
    have hfit := getSegments_fits bitRate (show tqMin l ≤ tq by omega) hmax
    rw [hconfig]
    have hfield := pdivMax_le_field l
    refine ⟨?_, setTimingConfig_store hfit (by omega) config, hfit.splits.phaseSeg2_min,
      le_min hfit.splits.jump_phaseSeg1 hfit.splits.jump_phaseSeg2⟩
    have hquanta := hfit.splits.quanta
    have hdiv : p - 1 + 1 = p := Nat.sub_add_cancel hp
    simp only [store, hquanta, hdiv]
    rw [← hsol, Nat.mul_right_comm]

theorem calculateImprovedTimingValues_exact_500k :
    (calculateImprovedTimingValues .ctrl1 500000 8000000 zeroConfig).1 = true ∧
      ∀ c, calculateImprovedTimingValues .ctrl1 500000 8000000 zeroConfig = (true, c) →
        8000000 = 500000 * (c.preDivider + 1) *
          (1 + (c.propSeg + 1) + (c.phaseSeg1 + 1) + (c.phaseSeg2 + 1)) := by
  have hexact := calculateImprovedTimingValues_exact .ctrl1 500000 8000000 zeroConfig (by decide) (by decide)
    (by decide)
  refine ⟨hexact.1.mpr ⟨16, 1, by decide, by decide, by decide, by decide, by decide⟩, ?_⟩
  intro c hc
  exact (hexact.2 c hc).1

end McuxDrivers.FlexCan
