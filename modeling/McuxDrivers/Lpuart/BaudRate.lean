import Mathlib.Data.List.Range
import Mathlib.Tactic.Ring

/-!
# The divider search of `LPUART_Init`

For each oversampling ratio the search tries the divider next to the wanted one. The error is measured
on the baud rate in whole bits per second, where the next divider is not always the best.
-/

namespace McuxDrivers.Lpuart

/-- The absolute difference of two unsigned numbers. -/
def absDiff (a b : Nat) : Nat :=
  if a > b then a - b else b - a

/-- `sbrTemp`. Neither this nor what follows leaves its type. -/
def roundedSbr (srcClock_Hz baudRate_Bps osrTemp : Nat) : Nat :=
  let sbrTemp := (srcClock_Hz * 2 / (baudRate_Bps * osrTemp) + 1) / 2
  if sbrTemp = 0 then 1 else if sbrTemp > 8191 then 8191 else sbrTemp

def calculatedBaud (srcClock_Hz osr sbr : Nat) : Nat :=
  srcClock_Hz / (osr * sbr)

/-- `tempDiff`. -/
def baudError (srcClock_Hz baudRate_Bps osr sbr : Nat) : Nat :=
  absDiff (calculatedBaud srcClock_Hz osr sbr) baudRate_Bps

/-- What the loop remembers. -/
structure Divider where
  osr : Nat
  sbr : Nat
  baudDiff : Nat
  deriving DecidableEq, Repr

/-- One round of the loop. -/
def tryOsr (srcClock_Hz baudRate_Bps : Nat) (d : Divider) (osrTemp : Nat) : Divider :=
  let sbrTemp := roundedSbr srcClock_Hz baudRate_Bps osrTemp
  let tempDiff := baudError srcClock_Hz baudRate_Bps osrTemp sbrTemp
  if tempDiff ≤ d.baudDiff then ⟨osrTemp, sbrTemp, tempDiff⟩ else d

/-- The loop over the ratios 4 to 32. -/
def bestDivider (srcClock_Hz baudRate_Bps : Nat) : Divider :=
  (List.range' 4 29).foldl (tryOsr srcClock_Hz baudRate_Bps) ⟨0, 0, baudRate_Bps⟩

/-- The search; `none` is `kStatus_LPUART_BaudrateNotSupport`. -/
def searchDivider (srcClock_Hz baudRate_Bps : Nat) : Option (Nat × Nat) :=
  let d := bestDivider srcClock_Hz baudRate_Bps
  if d.baudDiff > baudRate_Bps / 100 * 3 then none else some (d.osr, d.sbr)

/-- The values that the registers hold. -/
structure InRange (osr sbr : Nat) : Prop where
  osr_ge : 4 ≤ osr
  osr_le : osr ≤ 32
  sbr_pos : 0 < sbr
  sbr_le : sbr ≤ 8191

/-- `sbr` is next to the wanted divider `srcClock_Hz / (baudRate_Bps * osr)`, and behind it at a tie. -/
structure Nearest (srcClock_Hz baudRate_Bps osr sbr : Nat) : Prop where
  pos : 0 < sbr
  le : sbr ≤ 8191
  next : ∀ t, 0 < t → t ≤ 8191 →
    absDiff (sbr * (baudRate_Bps * osr)) srcClock_Hz ≤ absDiff (t * (baudRate_Bps * osr)) srcClock_Hz
  tie : ∀ t, 0 < t → t ≤ 8191 →
    absDiff (sbr * (baudRate_Bps * osr)) srcClock_Hz = absDiff (t * (baudRate_Bps * osr)) srcClock_Hz → t ≤ sbr

/-- How good an error is: no ratio with its next divider has a smaller one, no divider with a baud rate
that is not too low one that is smaller by more than 1, and no other one that is less than half. -/
structure Best (srcClock_Hz baudRate_Bps diff : Nat) : Prop where
  nearest : ∀ osr sbr, 4 ≤ osr → osr ≤ 32 → Nearest srcClock_Hz baudRate_Bps osr sbr →
    diff ≤ baudError srcClock_Hz baudRate_Bps osr sbr
  above : ∀ osr sbr, InRange osr sbr → baudRate_Bps ≤ calculatedBaud srcClock_Hz osr sbr →
    diff ≤ baudError srcClock_Hz baudRate_Bps osr sbr + 1
  below : ∀ osr sbr, InRange osr sbr → calculatedBaud srcClock_Hz osr sbr < baudRate_Bps →
    diff ≤ 2 * baudError srcClock_Hz baudRate_Bps osr sbr

section Rounding

variable {srcClock_Hz baudRate_Bps osr : Nat}

/-- The rounded quotient is at most half a divisor away. -/
lemma rounded_bounds {c m q : Nat} (hm : 0 < m) (hq : q = (c * 2 / m + 1) / 2) :
    2 * (q * m) ≤ 2 * c + m ∧ 2 * c < 2 * (q * m) + m := by
  have hdiv : m * (c * 2 / m) + c * 2 % m = c * 2 := Nat.div_add_mod _ _
  have hmod : c * 2 % m < m := Nat.mod_lt _ hm
  obtain ⟨k, hk⟩ : ∃ k, k = c * 2 / m := ⟨_, rfl⟩
  rw [← hk] at hdiv hq
  have hlow : 2 * q * m ≤ (k + 1) * m := Nat.mul_le_mul_right m (by omega)
  have hhigh : (k + 1) * m ≤ (2 * q + 1) * m := Nat.mul_le_mul_right m (by omega)
  have hdouble : 2 * q * m = 2 * (q * m) := Nat.mul_assoc 2 q m
  rw [Nat.add_mul, Nat.one_mul, Nat.mul_comm k m] at hlow hhigh
  rw [Nat.add_mul, Nat.one_mul] at hhigh
  omega

lemma nearest_roundedSbr (hbaud : 0 < baudRate_Bps) (hosr : 0 < osr) :
    Nearest srcClock_Hz baudRate_Bps osr (roundedSbr srcClock_Hz baudRate_Bps osr) := by
  obtain ⟨m, hm⟩ : ∃ m, m = baudRate_Bps * osr := ⟨_, rfl⟩
  obtain ⟨q, hq⟩ : ∃ q, q = (srcClock_Hz * 2 / m + 1) / 2 := ⟨_, rfl⟩
  have hpos : 0 < m := hm ▸ Nat.mul_pos hbaud hosr
  obtain ⟨hlow, hhigh⟩ := rounded_bounds hpos hq
  have hsbr : roundedSbr srcClock_Hz baudRate_Bps osr = if q = 0 then 1 else if q > 8191 then 8191 else q := by
    rw [roundedSbr, ← hm, ← hq]
  obtain ⟨s, hs⟩ : ∃ s, s = if q = 0 then 1 else if q > 8191 then 8191 else q := ⟨_, rfl⟩
  have hrange : 0 < s ∧ s ≤ 8191 := by
    rw [hs]
    split_ifs <;> omega
  have hlower (t : Nat) (ht : 0 < t) (hlt : t < s) :
      absDiff (s * m) srcClock_Hz ≤ absDiff (t * m) srcClock_Hz := by
    have hsq : s * m ≤ q * m := by
      apply Nat.mul_le_mul_right
      rw [hs] at hlt ⊢
      split_ifs at hlt ⊢ <;> omega
    have hstep : t * m + m ≤ s * m := by
      rw [← Nat.succ_mul]
      exact Nat.mul_le_mul_right m hlt
    unfold absDiff
    split_ifs <;> omega
  have hupper (t : Nat) (ht : t ≤ 8191) (hlt : s < t) :
      absDiff (s * m) srcClock_Hz < absDiff (t * m) srcClock_Hz := by
    have hqs : q * m ≤ s * m := by
      apply Nat.mul_le_mul_right
      rw [hs] at hlt ⊢
      split_ifs at hlt ⊢ <;> omega
    have hstep : s * m + m ≤ t * m := by
      rw [← Nat.succ_mul]
      exact Nat.mul_le_mul_right m hlt
    unfold absDiff
    split_ifs <;> omega
  rw [hsbr, ← hs]
  constructor
  · exact hrange.1
  · exact hrange.2
  · intro t hpos ht
    rw [← hm]
    rcases Nat.lt_trichotomy t s with hlt | rfl | hlt
    · exact hlower t hpos hlt
    · exact le_refl _
    · exact (hupper t ht hlt).le
  · intro t _ ht heq
    rw [← hm] at heq
    by_contra hlt
    exact absurd heq (hupper t ht (Nat.lt_of_not_le hlt)).ne

lemma Nearest.unique {sbr sbr' : Nat} (h : Nearest srcClock_Hz baudRate_Bps osr sbr)
    (h' : Nearest srcClock_Hz baudRate_Bps osr sbr') : sbr = sbr' := by
  have heq := Nat.le_antisymm (h.next sbr' h'.pos h'.le) (h'.next sbr h.pos h.le)
  exact Nat.le_antisymm (h'.tie sbr h.pos h.le heq.symm) (h.tie sbr' h'.pos h'.le heq)

end Rounding

section Errors

variable {srcClock_Hz baudRate_Bps osr sbr sbr' : Nat}

lemma div_bounds (c : Nat) {p : Nat} (hp : 0 < p) : c / p * p ≤ c ∧ c < c / p * p + p := by
  have hdiv := Nat.div_add_mod' c p
  have hmod := Nat.mod_lt c hp
  omega

lemma mul_le_iff_le_div {b c n : Nat} (hn : 0 < n) : n * b ≤ c ↔ b ≤ c / n := by
  rw [Nat.le_div_iff_mul_le hn, Nat.mul_comm]

lemma lt_mul_iff_div_lt {b c n : Nat} (hn : 0 < n) : c < n * b ↔ c / n < b := by
  rw [Nat.div_lt_iff_lt_mul hn, Nat.mul_comm]

lemma Nearest.product (h : Nearest srcClock_Hz baudRate_Bps osr sbr) (hr : InRange osr sbr') :
    absDiff (osr * sbr * baudRate_Bps) srcClock_Hz ≤ absDiff (osr * sbr' * baudRate_Bps) srcClock_Hz := by
  have hcomm (t : Nat) : osr * t * baudRate_Bps = t * (baudRate_Bps * osr) := by ring
  rw [hcomm, hcomm]
  exact h.next sbr' hr.sbr_pos hr.sbr_le

/-- A divider whose baud rate is not too low has an error that is at most 1 smaller. -/
lemma Nearest.above (h : Nearest srcClock_Hz baudRate_Bps osr sbr) (hbaud : 0 < baudRate_Bps) (hr : InRange osr sbr')
    (habove : baudRate_Bps ≤ calculatedBaud srcClock_Hz osr sbr') :
    baudError srcClock_Hz baudRate_Bps osr sbr ≤ baudError srcClock_Hz baudRate_Bps osr sbr' + 1 := by
  have hosr : 0 < osr := lt_of_lt_of_le (by decide) hr.osr_ge
  have hclose := h.product hr
  obtain ⟨n, hn⟩ : ∃ n, n = osr * sbr := ⟨_, rfl⟩
  obtain ⟨p, hp⟩ : ∃ p, p = osr * sbr' := ⟨_, rfl⟩
  have hnpos : 0 < n := hn ▸ Nat.mul_pos hosr h.pos
  have hppos : 0 < p := hp ▸ Nat.mul_pos hosr hr.sbr_pos
  rw [← hn, ← hp] at hclose
  rw [calculatedBaud, ← hp] at habove
  unfold baudError calculatedBaud
  rw [← hn, ← hp]
  obtain ⟨hnlow, hnhigh⟩ := div_bounds srcClock_Hz hnpos
  obtain ⟨hplow, hphigh⟩ := div_bounds srcClock_Hz hppos
  have hpb := (mul_le_iff_le_div hppos).mpr habove
  rcases Nat.lt_or_ge (srcClock_Hz / n) baudRate_Bps with hlow | hhigh
  · -- the nearest divider lies behind the clock, at most as far as the other lies before it
    obtain ⟨d, hd⟩ : ∃ d, baudRate_Bps = srcClock_Hz / n + d := ⟨_, (Nat.add_sub_cancel' hlow.le).symm⟩
    obtain ⟨e, he⟩ : ∃ e, srcClock_Hz / p = baudRate_Bps + e := ⟨_, (Nat.add_sub_cancel' habove).symm⟩
    have hnb := (lt_mul_iff_div_lt hnpos).mpr hlow
    have hpn : p ≤ n := by
      by_contra hlt
      have := Nat.mul_le_mul_right baudRate_Bps (Nat.le_of_not_le hlt)
      omega
    have hsum : n * baudRate_Bps + p * baudRate_Bps ≤ 2 * srcClock_Hz := by
      unfold absDiff at hclose
      rw [if_pos hnb, if_neg (by omega)] at hclose
      omega
    have hlt : d * n < (e + 2) * n := by
      have hen : (e + 1) * p ≤ (e + 1) * n := Nat.mul_le_mul_left _ hpn
      rw [he] at hphigh
      have hnd : n * baudRate_Bps = srcClock_Hz / n * n + d * n := by
        rw [hd, Nat.mul_add, Nat.mul_comm n, Nat.mul_comm n]
      have hpe : (baudRate_Bps + e) * p + p = p * baudRate_Bps + (e + 1) * p := by ring
      have hne : (e + 2) * n = (e + 1) * n + n := by ring
      omega
    have hde : d < e + 2 := Nat.lt_of_mul_lt_mul_right hlt
    unfold absDiff
    split_ifs <;> omega
  · have hnb := (mul_le_iff_le_div hnpos).mpr hhigh
    have hpn : p ≤ n := by
      unfold absDiff at hclose
      rw [if_neg (by omega), if_neg (by omega)] at hclose
      exact Nat.le_of_mul_le_mul_right (by omega) hbaud
    have hdiv : srcClock_Hz / n ≤ srcClock_Hz / p := Nat.div_le_div_left hpn hppos
    unfold absDiff
    split_ifs <;> omega

/-- A product before the clock, and one behind it that is not closer and at most twice as large. -/
lemma absDiff_div_le {b c n r : Nat} (hn : 0 < n) (hr : 0 < r) (hbefore : n * b ≤ c) (hbehind : c < r * b)
    (hrn : r ≤ 2 * n) (hclose : absDiff (n * b) c ≤ absDiff (r * b) c) :
    absDiff (c / n) b ≤ 2 * absDiff (c / r) b := by
  have hhigh := (mul_le_iff_le_div hn).mp hbefore
  have hlow := (lt_mul_iff_div_lt hr).mp hbehind
  obtain ⟨hnlow, -⟩ := div_bounds c hn
  obtain ⟨hrlow, -⟩ := div_bounds c hr
  obtain ⟨d, hd⟩ : ∃ d, c / n = b + d := ⟨_, (Nat.add_sub_cancel' hhigh).symm⟩
  obtain ⟨e, he⟩ : ∃ e, b = c / r + e := ⟨_, (Nat.add_sub_cancel' hlow.le).symm⟩
  have hle : d * n ≤ 2 * e * n := by
    have hnd : c / n * n = n * b + d * n := by
      rw [hd]
      ring
    have hre : r * b = c / r * r + e * r := by
      rw [he, Nat.mul_add, Nat.mul_comm r, Nat.mul_comm r]
    have hern : e * r ≤ e * (2 * n) := Nat.mul_le_mul_left e hrn
    have hassoc : e * (2 * n) = 2 * e * n := by ring
    unfold absDiff at hclose
    rw [if_neg (by omega), if_pos hbehind] at hclose
    omega
  have hde : d ≤ 2 * e := Nat.le_of_mul_le_mul_right hle hn
  unfold absDiff
  split_ifs <;> omega

/-- A divider whose baud rate is too low has an error that is at least half as large. -/
lemma Nearest.below (h : Nearest srcClock_Hz baudRate_Bps osr sbr) (hr : InRange osr sbr')
    (hbelow : calculatedBaud srcClock_Hz osr sbr' < baudRate_Bps) :
    baudError srcClock_Hz baudRate_Bps osr sbr ≤ 2 * baudError srcClock_Hz baudRate_Bps osr sbr' := by
  have hosr : 0 < osr := lt_of_lt_of_le (by decide) hr.osr_ge
  have hbaud : 0 < baudRate_Bps := Nat.zero_lt_of_lt hbelow
  obtain ⟨n, hn⟩ : ∃ n, n = osr * sbr := ⟨_, rfl⟩
  obtain ⟨p, hp⟩ : ∃ p, p = osr * sbr' := ⟨_, rfl⟩
  have hnpos : 0 < n := hn ▸ Nat.mul_pos hosr h.pos
  have hppos : 0 < p := hp ▸ Nat.mul_pos hosr hr.sbr_pos
  rw [calculatedBaud, ← hp] at hbelow
  unfold baudError calculatedBaud
  rw [← hn, ← hp]
  have hpb := (lt_mul_iff_div_lt hppos).mpr hbelow
  rcases Nat.lt_or_ge srcClock_Hz (n * baudRate_Bps) with hbehind | hbefore
  · -- both lie behind the clock
    have hclose := h.product hr
    rw [← hn, ← hp] at hclose
    have hpn : n ≤ p := by
      unfold absDiff at hclose
      rw [if_pos hbehind, if_pos hpb] at hclose
      exact Nat.le_of_mul_le_mul_right (by omega) hbaud
    have hdiv : srcClock_Hz / p ≤ srcClock_Hz / n := Nat.div_le_div_left hpn hnpos
    have hlow := (lt_mul_iff_div_lt hnpos).mp hbehind
    unfold absDiff
    split_ifs <;> omega
  · -- the divider after the nearest one lies behind the clock, at least as far as the nearest lies before it
    have hlt : sbr < sbr' := by
      by_contra hle
      have : p ≤ n := by
        rw [hn, hp]
        exact Nat.mul_le_mul_left osr (Nat.le_of_not_lt hle)
      have := Nat.mul_le_mul_right baudRate_Bps this
      omega
    have hafter : InRange osr (sbr + 1) := ⟨hr.osr_ge, hr.osr_le, Nat.succ_pos sbr, le_trans hlt hr.sbr_le⟩
    have hclose := h.product hafter
    obtain ⟨r, hq⟩ : ∃ r, r = osr * (sbr + 1) := ⟨_, rfl⟩
    rw [← hn, ← hq] at hclose
    have hrn : r ≤ 2 * n := by
      have hle := Nat.mul_le_mul_left osr (show sbr + 1 ≤ 2 * sbr by have := h.pos; omega)
      have hdouble : osr * (2 * sbr) = 2 * n := by
        rw [hn]
        ring
      omega
    have hrp : r ≤ p := by
      rw [hq, hp]
      exact Nat.mul_le_mul_left osr hlt
    have hrpos : 0 < r := by
      rw [hq]
      exact Nat.mul_pos hosr (Nat.succ_pos sbr)
    have hfar : srcClock_Hz < r * baudRate_Bps := by
      by_contra hnear
      have hgrow : (n + 1) * baudRate_Bps ≤ r * baudRate_Bps := by
        apply Nat.mul_le_mul_right
        rw [hq, hn, Nat.mul_succ]
        omega
      rw [Nat.succ_mul] at hgrow
      unfold absDiff at hclose
      rw [if_neg (by omega), if_neg hnear] at hclose
      omega
    have hlow := (lt_mul_iff_div_lt hrpos).mp hfar
    have hdiv : srcClock_Hz / p ≤ srcClock_Hz / r := Nat.div_le_div_left hrp hrpos
    have hfarther : absDiff (srcClock_Hz / r) baudRate_Bps ≤ absDiff (srcClock_Hz / p) baudRate_Bps := by
      unfold absDiff
      split_ifs <;> omega
    have hhalf := absDiff_div_le hnpos hrpos hbefore hfar hrn hclose
    omega

end Errors

section Search

variable {srcClock_Hz baudRate_Bps : Nat}

/-- What the loop has found: nothing yet, or a pair of the ratios that it has come to. -/
structure Tried (srcClock_Hz baudRate_Bps : Nat) (ratios : List Nat) (d : Divider) : Prop where
  found : d.baudDiff = baudRate_Bps ∨
    d.osr ∈ ratios ∧ d.sbr = roundedSbr srcClock_Hz baudRate_Bps d.osr ∧
      d.baudDiff = baudError srcClock_Hz baudRate_Bps d.osr d.sbr
  least : ∀ osr ∈ ratios,
    d.baudDiff ≤ baudError srcClock_Hz baudRate_Bps osr (roundedSbr srcClock_Hz baudRate_Bps osr)

lemma Tried.tryOsr {ratios : List Nat} {d : Divider} (h : Tried srcClock_Hz baudRate_Bps ratios d) (osrTemp : Nat) :
    Tried srcClock_Hz baudRate_Bps (ratios ++ [osrTemp]) (tryOsr srcClock_Hz baudRate_Bps d osrTemp) := by
  unfold Lpuart.tryOsr
  dsimp only
  split
  next hle =>
    refine ⟨Or.inr ⟨by simp, rfl, rfl⟩, fun osr hosr => ?_⟩
    rcases List.mem_append.mp hosr with hosr | hosr
    · exact le_trans hle (h.least osr hosr)
    · rw [List.mem_singleton.mp hosr]
  next hgt =>
    refine ⟨?_, fun osr hosr => ?_⟩
    · rcases h.found with hnone | ⟨hmem, hfound⟩
      · exact Or.inl hnone
      · exact Or.inr ⟨List.mem_append_left _ hmem, hfound⟩
    · rcases List.mem_append.mp hosr with hosr | hosr
      · exact h.least osr hosr
      · rw [List.mem_singleton.mp hosr]
        omega

lemma Tried.foldl {tried : List Nat} {d : Divider} (h : Tried srcClock_Hz baudRate_Bps tried d) (ratios : List Nat) :
    Tried srcClock_Hz baudRate_Bps (tried ++ ratios) (ratios.foldl (Lpuart.tryOsr srcClock_Hz baudRate_Bps) d) := by
  induction ratios generalizing tried d with
  | nil =>
    rw [List.append_nil]
    exact h
  | cons osr ratios ih =>
    rw [← List.singleton_append, ← List.append_assoc]
    exact ih (h.tryOsr osr)

lemma bestDivider_tried (srcClock_Hz baudRate_Bps : Nat) :
    Tried srcClock_Hz baudRate_Bps (List.range' 4 29) (bestDivider srcClock_Hz baudRate_Bps) := by
  have hstart : Tried srcClock_Hz baudRate_Bps [] ⟨0, 0, baudRate_Bps⟩ := ⟨Or.inl rfl, nofun⟩
  exact hstart.foldl (List.range' 4 29)

/-- The least error of the loop is a good one. -/
lemma bestDivider_best (srcClock_Hz : Nat) {baudRate_Bps : Nat} (hbaud : 0 < baudRate_Bps) :
    Best srcClock_Hz baudRate_Bps (bestDivider srcClock_Hz baudRate_Bps).baudDiff := by
  have hleast (osr : Nat) (hge : 4 ≤ osr) (hle : osr ≤ 32) : (bestDivider srcClock_Hz baudRate_Bps).baudDiff ≤
      baudError srcClock_Hz baudRate_Bps osr (roundedSbr srcClock_Hz baudRate_Bps osr) := by
    apply (bestDivider_tried srcClock_Hz baudRate_Bps).least
    rw [List.mem_range'_1]
    omega
  have hnearest (osr : Nat) (hge : 4 ≤ osr) :
      Nearest srcClock_Hz baudRate_Bps osr (roundedSbr srcClock_Hz baudRate_Bps osr) :=
    nearest_roundedSbr hbaud (by omega)
  constructor
  · intro osr sbr hge hle hsbr
    rw [hsbr.unique (hnearest osr hge)]
    exact hleast osr hge hle
  · intro osr sbr hr habove
    exact le_trans (hleast osr hr.osr_ge hr.osr_le) ((hnearest osr hr.osr_ge).above hbaud hr habove)
  · intro osr sbr hr hbelow
    exact le_trans (hleast osr hr.osr_ge hr.osr_le) ((hnearest osr hr.osr_ge).below hr hbelow)

lemma Best.mono {diff diff' : Nat} (h : Best srcClock_Hz baudRate_Bps diff) (hle : diff' ≤ diff) :
    Best srcClock_Hz baudRate_Bps diff' where
  nearest osr sbr hge hosr hsbr := le_trans hle (h.nearest osr sbr hge hosr hsbr)
  above osr sbr hr habove := le_trans hle (h.above osr sbr hr habove)
  below osr sbr hr hbelow := le_trans hle (h.below osr sbr hr hbelow)

end Search

/-- What the search finds, and what it means that it finds nothing. -/
theorem searchDivider_best (srcClock_Hz baudRate_Bps : Nat) (hbaud : 0 < baudRate_Bps) :
    (∀ osr sbr, searchDivider srcClock_Hz baudRate_Bps = some (osr, sbr) →
      InRange osr sbr ∧ baudError srcClock_Hz baudRate_Bps osr sbr ≤ 3 * (baudRate_Bps / 100) ∧
        Best srcClock_Hz baudRate_Bps (baudError srcClock_Hz baudRate_Bps osr sbr)) ∧
    (searchDivider srcClock_Hz baudRate_Bps = none → Best srcClock_Hz baudRate_Bps (3 * (baudRate_Bps / 100) + 1)) := by
  have hbest := bestDivider_best srcClock_Hz hbaud
  have htried := bestDivider_tried srcClock_Hz baudRate_Bps
  unfold searchDivider
  dsimp only
  split
  next hfar =>
    refine ⟨nofun, fun _ => hbest.mono ?_⟩
    omega
  next hnear =>
    refine ⟨fun osr sbr hfound => ?_, nofun⟩
    obtain ⟨rfl, rfl⟩ := Prod.mk.inj (Option.some.inj hfound)
    obtain ⟨hmem, hsbr, hdiff⟩ := htried.found.resolve_left (by omega)
    rw [List.mem_range'_1] at hmem
    have hnearest : Nearest srcClock_Hz baudRate_Bps (bestDivider srcClock_Hz baudRate_Bps).osr
        (bestDivider srcClock_Hz baudRate_Bps).sbr := by
      rw [hsbr]
      exact nearest_roundedSbr hbaud (by omega)
    rw [← hdiff]
    exact ⟨⟨by omega, by omega, hnearest.pos, hnearest.le⟩, by omega, hbest⟩


theorem searchDivider_best_115200 :
    InRange 30 1 ∧ baudError 3456000 115200 30 1 ≤ 3 * (115200 / 100) ∧
      Best 3456000 115200 (baudError 3456000 115200 30 1) :=
  (searchDivider_best 3456000 115200 (by decide)).1 30 1 (by decide)

/-- 260.02 MHz: for 1000 bit/s the divider behind the one that is found gives the exact rate, and for
99 bit/s the search misses such a divider and fails. -/
theorem not_searchDivider_exact :
    (¬ ∀ srcClock_Hz baudRate_Bps osr sbr : Nat, srcClock_Hz < 2 ^ 32 → 0 < baudRate_Bps → baudRate_Bps < 2 ^ 32 →
      searchDivider srcClock_Hz baudRate_Bps = some (osr, sbr) → ∀ osr' sbr', InRange osr' sbr' →
      baudError srcClock_Hz baudRate_Bps osr sbr ≤ baudError srcClock_Hz baudRate_Bps osr' sbr') ∧
    ¬ ∀ srcClock_Hz baudRate_Bps : Nat, srcClock_Hz < 2 ^ 32 → 0 < baudRate_Bps → baudRate_Bps < 2 ^ 32 →
      searchDivider srcClock_Hz baudRate_Bps = none → ∀ osr' sbr', InRange osr' sbr' →
      3 * (baudRate_Bps / 100) < baudError srcClock_Hz baudRate_Bps osr' sbr' := by
  have hrange : InRange 32 8125 := ⟨by decide, by decide, by decide, by decide⟩
  refine ⟨fun h => ?_, fun h => ?_⟩
  · have hbetter := h 260020000 1000 32 8126 (by decide) (by decide) (by decide) (by decide) 32 8125 hrange
    exact absurd hbetter (by decide)
  · have hmissed := h 25741980 99 (by decide) (by decide) (by decide) (by decide) 32 8125 hrange
    exact absurd hmissed (by decide)

end McuxDrivers.Lpuart
