import McuxDrivers.Lib.SignedArith
import McuxDrivers.Enet.PtpTimer

/-!
# Relative jumps of the PTP clock

`ENET_Ptp1588JumpTimer` of `fsl_enet.c` on `msTimerSecond` and the captured `ATVR`. The time that the call takes is left
out.
-/

namespace McuxDrivers.Enet
open McuxDrivers.Lib

/-- `ENET_Ptp1588JumpTimer`. There is no result where a signed operation overflows. -/
def PtpTime.jumpTimer (time : PtpTime) (nanosecondDiff : Int) : Option PtpTime :=
  if nanosecondDiff ≥ 0 then
    let nanosecondTime := time.nanosecond % oneSecond
    let secondDiff := unsigned 64 nanosecondDiff / oneSecond
    -- the cast to 32 bits comes before the remainder
    let nanosecondTime := (nanosecondTime + unsigned 32 nanosecondDiff % oneSecond) % 2 ^ 32
    let secondDiff := if nanosecondTime ≥ oneSecond then (secondDiff + 1) % 2 ^ 64 else secondDiff
    if 2 ^ 64 - 1 - secondDiff < time.second then some time
    else some ⟨(time.second + secondDiff) % 2 ^ 64, nanosecondTime % oneSecond⟩
  else do
    let nanosecondTime ← checked 32 (time.nanosecond % oneSecond : Nat)
    let sum ← checked 64 (nanosecondDiff + nanosecondTime)
    let secondDiff ← divFloor 64 sum oneSecond
    let nanosecondTime ← checked 32 (nanosecondTime + nanosecondDiff.tmod oneSecond)
    let back ← checked 64 (-secondDiff)
    if time.second < 2 ^ 63 - 1 ∧ (time.second : Int) < back then some ⟨0, 0⟩
    else
      some ⟨(time.second + 2 ^ 64 - unsigned 64 back) % 2 ^ 64, (unsigned 32 nanosecondTime + oneSecond) % 2 ^ 32 % oneSecond⟩

/-- `msTimerSecond` and `ATVR` hold a time. -/
structure PtpTime.Valid (time : PtpTime) : Prop where
  second_lt : time.second < 2 ^ 64
  nanosecond_lt : time.nanosecond < oneSecond

/-- The offset leads to a time that 64 bits of seconds can hold. -/
def PtpTime.Reaches (time : PtpTime) (nanosecondDiff : Int) : Prop :=
  0 ≤ time.total + nanosecondDiff ∧ time.total + nanosecondDiff < 2 ^ 64 * oneSecond

/-- The jump is exact, saturates at zero and is refused at the other end, and the jump back undoes it. -/
structure PtpTime.JumpsExactly (time : PtpTime) (nanosecondDiff : Int) : Prop where
  jumps : ∃ time', time.jumpTimer nanosecondDiff = some time' ∧ time'.nanosecond < oneSecond ∧
    (time.Reaches nanosecondDiff → (time'.total : Int) = time.total + nanosecondDiff) ∧
    (time.total + nanosecondDiff < 0 → time'.total = 0) ∧
    (2 ^ 64 * oneSecond ≤ time.total + nanosecondDiff → time'.total = time.total)
  returns : -2 ^ 63 < nanosecondDiff → time.Reaches nanosecondDiff →
    (time.jumpTimer nanosecondDiff).bind (fun time' => time'.jumpTimer (-nanosecondDiff)) = some time

namespace PtpTime

variable {time : PtpTime}

/-- A jump forwards. -/
lemma jumpTimer_forwards (hvalid : time.Valid) {n : Nat} (hn : n < 2 ^ 63) :
    time.jumpTimer n =
      some (if time.second + n / oneSecond + (time.nanosecond + n % 2 ^ 32 % oneSecond) / oneSecond < 2 ^ 64 then
        ⟨time.second + n / oneSecond + (time.nanosecond + n % 2 ^ 32 % oneSecond) / oneSecond,
          (time.nanosecond + n % 2 ^ 32 % oneSecond) % oneSecond⟩
      else time) := by
  have hsecond := hvalid.second_lt
  have hnano : time.nanosecond % oneSecond = time.nanosecond := Nat.mod_eq_of_lt hvalid.nanosecond_lt
  have hlow : n % 2 ^ 32 % oneSecond < oneSecond := Nat.mod_lt _ (by decide)
  have hwhole : n % 2 ^ 64 = n := Nat.mod_eq_of_lt (by omega)
  have hquot : n / oneSecond < 2 ^ 34 := by
    unfold oneSecond
    omega
  have hns := hvalid.nanosecond_lt
  rw [jumpTimer, if_pos (Int.natCast_nonneg n), unsigned_natCast, unsigned_natCast, hwhole, hnano]
  generalize n / oneSecond = d at hquot
  generalize n % 2 ^ 32 % oneSecond = a at hlow
  unfold oneSecond at *
  have hsum : (time.nanosecond + a) % 2 ^ 32 = time.nanosecond + a := Nat.mod_eq_of_lt (by omega)
  have hcarry : (if time.nanosecond + a ≥ 1000000000 then (d + 1) % 2 ^ 64 else d) =
      d + (time.nanosecond + a) / 1000000000 := by
    split_ifs <;> omega
  simp only [hsum, hcarry]
  by_cases hfits : time.second + d + (time.nanosecond + a) / 1000000000 < 2 ^ 64
  · rw [if_neg (by omega), if_pos hfits, ← Nat.add_assoc, Nat.mod_eq_of_lt hfits]
  · rw [if_pos (by omega), if_neg hfits]

/-- A jump backwards. -/
lemma jumpTimer_backwards (hvalid : time.Valid) {n : Nat} (hpos : 0 < n) (hn : n ≤ 2 ^ 63) :
    time.jumpTimer (-n) =
      some (if time.total < n then ⟨0, 0⟩ else ptpTime (time.total - n)) := by
  have hsecond := hvalid.second_lt
  have hnano : time.nanosecond % oneSecond = time.nanosecond := Nat.mod_eq_of_lt hvalid.nanosecond_lt
  have hns := hvalid.nanosecond_lt
  have hstart : checked 32 (time.nanosecond : Int) = some (time.nanosecond : Int) := by
    unfold oneSecond at hns
    apply checked_of_fits <;> omega
  have hsum : checked 64 (-(n : Int) + time.nanosecond) = some (-(n : Int) + time.nanosecond) := by
    unfold oneSecond at hns
    apply checked_of_fits <;> omega
  have hfloor : divFloor 64 (-(n : Int) + time.nanosecond) oneSecond = some ((-(n : Int) + time.nanosecond) / oneSecond) := by
    unfold oneSecond at *
    apply divFloor_eq <;> omega
  rw [jumpTimer, if_neg (by omega), hnano, hstart]
  simp only [Option.bind_eq_bind, Option.bind_some, hsum, hfloor]
  -- the whole seconds of the offset, and the borrow
  obtain ⟨back, hback, hquot⟩ : ∃ back : Nat, (-(n : Int) + time.nanosecond) / oneSecond = -(back : Int) ∧
      back = n / oneSecond + if time.nanosecond < n % oneSecond then 1 else 0 := by
    refine ⟨_, ?_, rfl⟩
    unfold oneSecond at *
    split_ifs <;> omega
  have hrem : (-(n : Int)).tmod oneSecond = -((n % oneSecond : Nat) : Int) := by
    rw [Int.neg_tmod, ← Int.ofNat_tmod]
  have hlow : n % oneSecond < oneSecond := Nat.mod_lt _ (by decide)
  have hnext : checked 32 (time.nanosecond + (-(n : Int)).tmod oneSecond) =
      some ((time.nanosecond : Int) - (n % oneSecond : Nat)) := by
    rw [hrem, ← Int.sub_eq_add_neg]
    unfold oneSecond at *
    apply checked_of_fits <;> omega
  have hneg : checked 64 (back : Int) = some (back : Int) := by
    unfold oneSecond at *
    apply checked_of_fits <;> split_ifs at hquot <;> omega
  rw [hback, Int.neg_neg, hneg, hnext]
  simp only [Option.bind_some, unsigned_natCast]
  have hbelow : (time.second < 2 ^ 63 - 1 ∧ (time.second : Int) < back) ↔ time.total < n := by
    unfold PtpTime.total
    unfold oneSecond at *
    split_ifs at hquot <;> omega
  by_cases hless : time.total < n
  · rw [if_pos (hbelow.mpr hless), if_pos hless]
  · rw [if_neg (mt hbelow.mp hless), if_neg hless]
    have hseconds : (time.second + 2 ^ 64 - back % 2 ^ 64) % 2 ^ 64 = (time.total - n) / oneSecond % 2 ^ 64 := by
      unfold PtpTime.total at *
      unfold oneSecond at *
      split_ifs at hquot <;> omega
    have hnanos : (unsigned 32 ((time.nanosecond : Int) - (n % oneSecond : Nat)) + oneSecond) % 2 ^ 32 % oneSecond =
        (time.total - n) % oneSecond := by
      unfold PtpTime.total at *
      unfold unsigned
      unfold oneSecond at *
      omega
    rw [hseconds, hnanos, ptpTime]

/-- The cast to 32 bits does not change the remainder. -/
def LowExact (n : Nat) : Prop :=
  n % 2 ^ 32 % oneSecond = n % oneSecond

lemma Valid.total_lt (hvalid : time.Valid) : time.total < 2 ^ 64 * oneSecond := by
  have hsecond := hvalid.second_lt
  have hns := hvalid.nanosecond_lt
  unfold PtpTime.total
  unfold oneSecond at *
  omega

lemma Valid.ptpTime_total (hvalid : time.Valid) : ptpTime time.total = time := by
  obtain ⟨hsecond, hns⟩ := hvalid
  have hquot : time.total / oneSecond % 2 ^ 64 = time.second := by
    unfold PtpTime.total
    unfold oneSecond at *
    omega
  have hrem : time.total % oneSecond = time.nanosecond := by
    unfold PtpTime.total
    unfold oneSecond at *
    omega
  rw [ptpTime, hquot, hrem]

lemma valid_ptpTime (clock : Nat) : (ptpTime clock).Valid where
  second_lt := Nat.mod_lt _ (by decide)
  nanosecond_lt := Nat.mod_lt _ (by decide)

/-- A jump forwards with a right remainder. -/
lemma jumpTimer_exact (hvalid : time.Valid) {n : Nat} (hn : n < 2 ^ 63) (hlow : LowExact n) :
    time.jumpTimer n = some (if time.total + n < 2 ^ 64 * oneSecond then ptpTime (time.total + n) else time) := by
  obtain ⟨hsecond, hns⟩ := hvalid
  rw [jumpTimer_forwards ⟨hsecond, hns⟩ hn, hlow]
  have hquot : time.second + n / oneSecond + (time.nanosecond + n % oneSecond) / oneSecond =
      (time.total + n) / oneSecond := by
    unfold PtpTime.total
    unfold oneSecond at *
    omega
  have hrem : (time.nanosecond + n % oneSecond) % oneSecond = (time.total + n) % oneSecond := by
    unfold PtpTime.total
    unfold oneSecond at *
    omega
  have hfits : (time.total + n) / oneSecond < 2 ^ 64 ↔ time.total + n < 2 ^ 64 * oneSecond :=
    Nat.div_lt_iff_lt_mul (by decide)
  rw [hquot, hrem]
  by_cases hlt : time.total + n < 2 ^ 64 * oneSecond
  · rw [if_pos (hfits.mpr hlt), if_pos hlt, ptpTime, Nat.mod_eq_of_lt (hfits.mpr hlt)]
  · rw [if_neg (mt hfits.mp hlt), if_neg hlt]

/-- A jump forwards with a wrong remainder misses the time, unless it is refused. -/
lemma jumpTimer_inexact (hvalid : time.Valid) {n : Nat} (hn : n < 2 ^ 63) (hlow : ¬ LowExact n) {time' : PtpTime}
    (hjump : time.jumpTimer n = some time') :
    (time'.total ≠ time.total + n ∧ time'.total ≠ time.total) ∨
      (time' = time ∧ 2 ^ 64 ≤ time.second + n / oneSecond + (time.nanosecond + n % 2 ^ 32 % oneSecond) / oneSecond) := by
  obtain ⟨hsecond, hns⟩ := hvalid
  have hrem : n % 2 ^ 32 % oneSecond < oneSecond := Nat.mod_lt _ (by decide)
  have hlarge : 2 ^ 32 ≤ n := by
    by_contra hsmall
    apply hlow
    rw [LowExact, Nat.mod_eq_of_lt (Nat.lt_of_not_le hsmall)]
  rw [jumpTimer_forwards ⟨hsecond, hns⟩ hn] at hjump
  unfold LowExact at hlow
  by_cases hfits : time.second + n / oneSecond + (time.nanosecond + n % 2 ^ 32 % oneSecond) / oneSecond < 2 ^ 64
  · rw [if_pos hfits] at hjump
    rw [← Option.some.inj hjump]
    left
    unfold PtpTime.total
    simp only
    generalize n % 2 ^ 32 % oneSecond = a at *
    unfold oneSecond at *
    constructor <;> omega
  · rw [if_neg hfits] at hjump
    exact Or.inr ⟨(Option.some.inj hjump).symm, Nat.le_of_not_lt hfits⟩

/-- The seconds overflow, and they also do with the remainder after the cast. -/
def BothOverflow (time : PtpTime) (n : Nat) : Prop :=
  2 ^ 64 * oneSecond ≤ time.total + n ∧
    2 ^ 64 ≤ time.second + n / oneSecond + (time.nanosecond + n % 2 ^ 32 % oneSecond) / oneSecond

lemma jumpTimer_forwards_nanosecond_lt (hvalid : time.Valid) {n : Nat} (hn : n < 2 ^ 63) {time' : PtpTime}
    (hjump : time.jumpTimer n = some time') : time'.nanosecond < oneSecond := by
  rw [jumpTimer_forwards hvalid hn, Option.some.injEq] at hjump
  rw [← hjump]
  split_ifs
  · exact Nat.mod_lt _ (by decide)
  · exact hvalid.nanosecond_lt

/-- The jump forwards and back again. -/
lemma jumpTimer_back (hvalid : time.Valid) {n : Nat} (hn : n < 2 ^ 63) (hlow : LowExact n)
    (hlt : time.total + n < 2 ^ 64 * oneSecond) :
    (time.jumpTimer n).bind (fun time' => time'.jumpTimer (-n)) = some time := by
  rw [jumpTimer_exact hvalid hn hlow, if_pos hlt, Option.bind_some]
  have htotal := PtpTimer.total_ptpTime hlt
  rcases Nat.eq_zero_or_pos n with rfl | hpos
  · have hstay := jumpTimer_exact (valid_ptpTime (time.total + 0)) hn hlow
    rw [htotal, if_pos hlt] at hstay
    have hzero : -((0 : Nat) : Int) = (0 : Nat) := rfl
    rw [hzero, hstay, Nat.add_zero, hvalid.ptpTime_total]
  · rw [jumpTimer_backwards (valid_ptpTime _) hpos (Nat.le_of_lt hn), htotal, if_neg (by omega), Nat.add_sub_cancel,
      hvalid.ptpTime_total]

/-- The jump backwards and forth again returns exactly when the cast does not change the remainder. -/
lemma jumpTimer_forth_iff (hvalid : time.Valid) {n : Nat} (hpos : 0 < n) (hn : n < 2 ^ 63) (hle : n ≤ time.total) :
    (time.jumpTimer (-n)).bind (fun time' => time'.jumpTimer n) = some time ↔ LowExact n := by
  have hlt := hvalid.total_lt
  have htotal : (ptpTime (time.total - n)).total = time.total - n := PtpTimer.total_ptpTime (by omega)
  rw [jumpTimer_backwards hvalid hpos (Nat.le_of_lt hn), if_neg (Nat.not_lt.mpr hle), Option.bind_some]
  constructor
  · intro hreturn
    by_contra hlow
    rcases jumpTimer_inexact (valid_ptpTime _) hn hlow hreturn with ⟨hmiss, -⟩ | ⟨hstay, -⟩
    · rw [htotal] at hmiss
      omega
    · rw [← hstay] at htotal
      omega
  · intro hlow
    rw [jumpTimer_exact (valid_ptpTime _) hn hlow, htotal, Nat.sub_add_cancel hle, if_pos hlt, hvalid.ptpTime_total]

lemma jumpsExactly_forwards_iff (hvalid : time.Valid) {n : Nat} (hn : n < 2 ^ 63) :
    time.JumpsExactly n ↔ LowExact n ∨ BothOverflow time n := by
  have hreaches : time.Reaches n ↔ time.total + n < 2 ^ 64 * oneSecond := by
    unfold Reaches
    omega
  constructor
  · intro hexact
    by_contra hnot
    obtain ⟨hlow, hboth⟩ := not_or.mp hnot
    obtain ⟨time', hjump, -, hreach, -, hstay⟩ := hexact.jumps
    have hlarge : 0 < n := by
      apply Nat.pos_of_ne_zero
      rintro rfl
      exact hlow rfl
    by_cases hlt : time.total + n < 2 ^ 64 * oneSecond
    · have htotal := hreach (hreaches.mpr hlt)
      rcases jumpTimer_inexact hvalid hn hlow hjump with ⟨hmiss, -⟩ | ⟨rfl, -⟩ <;> omega
    · have htotal := hstay (by omega)
      rcases jumpTimer_inexact hvalid hn hlow hjump with ⟨-, hmiss⟩ | ⟨-, hoverflow⟩
      · exact hmiss htotal
      · exact hboth ⟨Nat.le_of_not_lt hlt, hoverflow⟩
  · intro hor
    have hresult : time.jumpTimer n =
        some (if time.total + n < 2 ^ 64 * oneSecond then ptpTime (time.total + n) else time) := by
      rcases hor with hlow | ⟨hover, hcast⟩
      · exact jumpTimer_exact hvalid hn hlow
      · rw [jumpTimer_forwards hvalid hn, if_neg (Nat.not_lt.mpr hcast), if_neg (Nat.not_lt.mpr hover)]
    constructor
    · refine ⟨_, hresult, jumpTimer_forwards_nanosecond_lt hvalid hn hresult, ?_, ?_, ?_⟩
      · intro hreach
        rw [if_pos (hreaches.mp hreach), PtpTimer.total_ptpTime (hreaches.mp hreach), Int.natCast_add]
      · intro hneg
        omega
      · intro hover
        rw [if_neg (by omega)]
    · intro _ hreach
      have hlt := hreaches.mp hreach
      apply jumpTimer_back hvalid hn _ hlt
      exact hor.resolve_right (fun hboth => Nat.not_lt.mpr hboth.1 hlt)

lemma jumpsExactly_backwards_iff (hvalid : time.Valid) {n : Nat} (hpos : 0 < n) (hn : n ≤ 2 ^ 63) :
    time.JumpsExactly (-n) ↔ (n < 2 ^ 63 → n ≤ time.total → LowExact n) := by
  have hlt := hvalid.total_lt
  have hreaches : time.Reaches (-n) ↔ n ≤ time.total := by
    unfold Reaches
    omega
  constructor
  · intro hexact hsmall hle
    have hreturn := hexact.returns (by omega) (hreaches.mpr hle)
    rw [Int.neg_neg] at hreturn
    exact (jumpTimer_forth_iff hvalid hpos hsmall hle).mp hreturn
  · intro hcond
    constructor
    · refine ⟨_, jumpTimer_backwards hvalid hpos hn, ?_, ?_, ?_, ?_⟩
      · split_ifs
        · decide
        · exact (valid_ptpTime _).nanosecond_lt
      · intro hreach
        have hle := hreaches.mp hreach
        rw [if_neg (Nat.not_lt.mpr hle), PtpTimer.total_ptpTime (by omega), Int.natCast_sub hle, Int.sub_eq_add_neg]
      · intro hneg
        rw [if_pos (by omega)]
        rfl
      · intro hover
        omega
    · intro hsmall hreach
      have hle := hreaches.mp hreach
      rw [Int.neg_neg]
      exact (jumpTimer_forth_iff hvalid hpos (by omega) hle).mpr (hcond (by omega) hle)

end PtpTime

/-- The relative jump is exact when the cast does not change the remainder of an offset forwards, nor that of the way back
from an offset backwards, or when the seconds overflow anyway. -/
theorem jumpsExactly_iff {time : PtpTime} {nanosecondDiff : Int} (hvalid : time.Valid) (hlow : -2 ^ 63 ≤ nanosecondDiff)
    (hhigh : nanosecondDiff < 2 ^ 63) :
    time.JumpsExactly nanosecondDiff ↔
      (0 ≤ nanosecondDiff →
        PtpTime.LowExact nanosecondDiff.toNat ∨ PtpTime.BothOverflow time nanosecondDiff.toNat) ∧
      (-2 ^ 63 < nanosecondDiff → nanosecondDiff < 0 → 0 ≤ time.total + nanosecondDiff →
        PtpTime.LowExact (-nanosecondDiff).toNat) := by
  by_cases hsign : 0 ≤ nanosecondDiff
  · obtain ⟨n, rfl⟩ := Int.eq_ofNat_of_zero_le hsign
    rw [PtpTime.jumpsExactly_forwards_iff hvalid (by omega), Int.toNat_natCast]
    constructor
    · intro hor
      exact ⟨fun _ => hor, fun _ hneg => absurd hneg (Int.not_lt.mpr hsign)⟩
    · intro hcond
      exact hcond.1 hsign
  · obtain ⟨n, hn⟩ := Int.eq_ofNat_of_zero_le (a := -nanosecondDiff) (by omega)
    obtain rfl : nanosecondDiff = -(n : Int) := by omega
    rw [PtpTime.jumpsExactly_backwards_iff hvalid (by omega) (by omega), Int.neg_neg, Int.toNat_natCast]
    constructor
    · intro hcond
      exact ⟨fun hpos => absurd hpos hsign, fun _ _ hle => hcond (by omega) (by omega)⟩
    · intro hcond hsmall hle
      exact hcond.2 (by omega) (by omega) (by omega)

theorem jumpsExactly_back_second :
    PtpTime.JumpsExactly ⟨5, 300⟩ (-1000000000) ↔
      (0 ≤ (-1000000000 : Int) →
        PtpTime.LowExact (-1000000000 : Int).toNat ∨ PtpTime.BothOverflow ⟨5, 300⟩ (-1000000000 : Int).toNat) ∧
      (-2 ^ 63 < (-1000000000 : Int) → (-1000000000 : Int) < 0 →
        0 ≤ ((PtpTime.total ⟨5, 300⟩ : Nat) : Int) + -1000000000 → PtpTime.LowExact (-(-1000000000 : Int)).toNat) :=
  jumpsExactly_iff ⟨by decide, by decide⟩ (by decide) (by decide)

/-- Five seconds forwards from zero lead to 5.705032704 s. -/
theorem jumpTimer_five_seconds : ¬ PtpTime.JumpsExactly ⟨0, 0⟩ 5000000000 := by
  intro hexact
  obtain ⟨time', hjump, -, hreach, -⟩ := hexact.jumps
  have hresult : PtpTime.jumpTimer ⟨0, 0⟩ 5000000000 = some ⟨5, 705032704⟩ := by decide
  rw [hresult, Option.some.injEq] at hjump
  rw [← hjump] at hreach
  exact absurd (hreach ⟨by decide, by decide⟩) (by decide)

end McuxDrivers.Enet
