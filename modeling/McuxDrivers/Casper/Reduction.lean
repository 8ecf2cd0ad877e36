import McuxDrivers.Lib.Montgomery
import McuxDrivers.Casper.Driver
import Mathlib.Data.Nat.Bitwise
import Mathlib.Data.Nat.Prime.Basic
import Mathlib.Tactic.IntervalCases

/-!
# Montgomery multiplication in the CASPER driver

`MultprecGenNp64` computes the constant of the reduction, and `MultprecCiosMul` multiplies and reduces, or
only reduces, what is below a power of the word size.
-/

namespace McuxDrivers.Casper
open McuxDrivers.Lib

lemma wsub64_modEq {a b : Nat} (hb : b < 2 ^ 64) : (wsub64 a b : ℤ) ≡ a - b [ZMOD 2 ^ 64] := by
  unfold wsub64
  split_ifs with hle
  · rw [Nat.cast_sub hle]
  · rw [Nat.cast_sub (by omega), Nat.cast_sub (by omega)]
    exact Int.modEq_iff_dvd.mpr ⟨-1, by push_cast; ring⟩

section Constant

variable {nmod0 : Nat} (hodd : nmod0 % 2 = 1)

/-- A `COMP_NPN_1` doubles the number of correct bits of the inverse. -/
lemma compNpn1_dvd {k x : Nat} (hk : k + k ≤ 64) (h : (2 : ℤ) ^ k ∣ nmod0 * x - 1) :
    (2 : ℤ) ^ (k + k) ∣ nmod0 * (compNpn1 nmod0 x : ℤ) - 1 := by
  have hwrap : (compNpn1 nmod0 x : ℤ) ≡ (2 - nmod0 * x) * x [ZMOD 2 ^ 64] := by
    unfold compNpn1
    push_cast
    refine (Int.mod_modEq _ _).trans ?_
    refine Int.ModEq.mul_right _ ?_
    refine (wsub64_modEq (Nat.mod_lt _ (by decide))).trans ?_
    push_cast
    exact Int.ModEq.sub_left _ (Int.mod_modEq _ _)
  have hnewton := newton_dvd h
  rw [← pow_add] at hnewton
  have hdvd : (2 : ℤ) ^ (k + k) ∣ 2 ^ 64 := pow_dvd_pow 2 hk
  have hmod := ((hwrap.of_dvd hdvd).mul_left (nmod0 : ℤ)).sub_right 1
  exact hmod.dvd_iff.mpr hnewton

include hodd

/-- The first approximation is an inverse to four bits. -/
lemma nprime_start_dvd :
    (2 : ℤ) ^ 4 ∣ nmod0 * (((((2 + nmod0) % 2 ^ 64 &&& 4) * 2 + nmod0) % 2 ^ 64 : Nat) : ℤ) - 1 := by
  have hbit : (2 + nmod0) % 2 ^ 64 &&& 4 = (nmod0 + 2) / 4 % 2 * 4 := by
    have hand := Nat.and_two_pow ((2 + nmod0) % 2 ^ 64) 2
    rw [Nat.testBit_eq_decide_div_mod_eq] at hand
    refine hand.trans ?_
    by_cases h : (2 + nmod0) % 2 ^ 64 / 2 ^ 2 % 2 = 1
    · rw [decide_eq_true h, Bool.toNat_true]
      omega
    · rw [decide_eq_false h, Bool.toNat_false]
      omega
  have hmod : nmod0 * (((((2 + nmod0) % 2 ^ 64 &&& 4) * 2 + nmod0) % 2 ^ 64)) % 2 ^ 4 = 1 := by
    have hlow : (((2 + nmod0) % 2 ^ 64 &&& 4) * 2 + nmod0) % 2 ^ 64 % 2 ^ 4 =
        ((nmod0 % 16 + 2) / 4 % 2 * 8 + nmod0 % 16) % 16 := by
      rw [hbit]
      omega
    have hlt : nmod0 % 16 < 16 := Nat.mod_lt _ (by decide)
    have hodd' : nmod0 % 16 % 2 = 1 := by omega
    rw [Nat.mul_mod, hlow, show nmod0 % 2 ^ 4 = nmod0 % 16 from rfl]
    generalize nmod0 % 16 = r at hlt hodd'
    interval_cases r <;> simp_all
  have hdvd := (Nat.modEq_iff_dvd (n := 2 ^ 4)).mp (show 1 ≡ _ [MOD 2 ^ 4] from hmod.symm)
  push_cast at hdvd
  exact hdvd

/-- `MultprecGenNp64` gives the negative inverse. -/
theorem multprecGenNp64_dvd : 2 ^ 64 ∣ multprecGenNp64 nmod0 * nmod0 + 1 := by
  have hinv := compNpn1_dvd le_rfl (compNpn1_dvd (by decide) (compNpn1_dvd (by decide) (compNpn1_dvd (by decide)
    (nprime_start_dvd hodd))))
  unfold multprecGenNp64
  simp only
  have hlt : compNpn1 nmod0 (compNpn1 nmod0 (compNpn1 nmod0 (compNpn1 nmod0
      ((((2 + nmod0) % 2 ^ 64 &&& 4) * 2 + nmod0) % 2 ^ 64)))) < 2 ^ 64 := Nat.mod_lt _ (by decide)
  generalize compNpn1 nmod0 (compNpn1 nmod0 (compNpn1 nmod0 (compNpn1 nmod0
      ((((2 + nmod0) % 2 ^ 64 &&& 4) * 2 + nmod0) % 2 ^ 64)))) = x at *
  have hneg : (((2 ^ 64 - 1 - x + 1) % 2 ^ 64 : Nat) : ℤ) ≡ -x [ZMOD 2 ^ 64] := by
    rw [show 2 ^ 64 - 1 - x + 1 = 2 ^ 64 - x by omega, Int.natCast_emod, Nat.cast_sub hlt.le]
    refine (Int.mod_modEq _ _).trans ?_
    exact Int.modEq_iff_dvd.mpr ⟨-1, by push_cast; ring⟩
  have hcong := (hneg.mul_right (nmod0 : ℤ)).add_right 1
  have hzero : (2 : ℤ) ^ 64 ∣ -x * nmod0 + 1 := by
    have h := Int.dvd_neg.mpr hinv
    rwa [show -((nmod0 : ℤ) * x - 1) = -x * nmod0 + 1 by ring] at h
  have hdvd := hcong.dvd_iff.mpr hzero
  exact_mod_cast hdvd

omit hodd in
lemma lowDword_eq (nmod : Nat → UInt32) : lowDword nmod = limbs (2 ^ 32) (fun i => (nmod i).toNat) 0 2 := by
  have hlow : (nmod 0).toNat < 2 ^ 32 := (nmod 0).toNat_lt
  rw [limbs_add_two, limbs, pow_zero, Nat.mul_one, Nat.add_zero, lowDword, Nat.lor_comm, Nat.mul_comm,
    ← Nat.two_pow_add_eq_or_of_lt hlow, Nat.mul_comm]

omit hodd in
/-- The constant is -1 over the two lowest words of the modulus. -/
theorem multprecGenNp64_neg_one (nmod : Nat → UInt32) (hodd : lowDword nmod % 2 = 1) :
    limbs (2 ^ 32) (fun i => (nmod i).toNat) 0 2 * multprecGenNp64 (lowDword nmod) ≡ 2 ^ 64 - 1 [MOD 2 ^ 64] ∧
      multprecGenNp64 (lowDword nmod) < 2 ^ 64 := by
  have hdvd := multprecGenNp64_dvd hodd
  rw [← lowDword_eq, Nat.mul_comm]
  refine ⟨?_, Nat.mod_lt _ (by decide)⟩
  generalize multprecGenNp64 (lowDword nmod) * lowDword nmod = x at hdvd
  unfold Nat.ModEq
  omega

omit hodd in
theorem multprecGenNp64_neg_one_three :
    limbs (2 ^ 32) (fun _ => (3 : UInt32).toNat) 0 2 * multprecGenNp64 (lowDword (fun _ => 3)) ≡ 2 ^ 64 - 1 [MOD 2 ^ 64] ∧
      multprecGenNp64 (lowDword (fun _ => 3)) < 2 ^ 64 :=
  multprecGenNp64_neg_one (fun _ => 3) (by decide)

omit hodd in
/-- The constant of the lowest double word is that of the modulus. -/
theorem multprecGenNp64_dvd_modulus {nmod : Nat} (hodd : nmod % 2 = 1) :
    2 ^ 64 ∣ multprecGenNp64 (nmod % 2 ^ 64) * nmod + 1 := by
  have hlow := multprecGenNp64_dvd (by omega : nmod % 2 ^ 64 % 2 = 1)
  have hcong : multprecGenNp64 (nmod % 2 ^ 64) * (nmod % 2 ^ 64) + 1 ≡
      multprecGenNp64 (nmod % 2 ^ 64) * nmod + 1 [MOD 2 ^ 64] :=
    ((Nat.mod_modEq nmod (2 ^ 64)).mul_left _).add_right 1
  exact (hcong.dvd_iff dvd_rfl).mp hlow

end Constant

section Rounds

variable {d nmod np64 : Nat} (hnmod : nmod < (2 ^ 64) ^ d)

/-- The driver infers the carry of a sum correctly when what is added has a word less than the sum. -/
lemma fullSum_eq {w x : Nat} (hw : w < (2 ^ 64) ^ (d + 1)) (hx : x ≤ ((2 ^ 64) ^ d - 1) * (2 ^ 64 - 1)) :
    (fullSum d w x).1 + (2 ^ 64) ^ (d + 1) * (fullSum d w x).2 = w + x ∧ (fullSum d w x).2 ≤ 1 ∧
      (fullSum d w x).1 < (2 ^ 64) ^ (d + 1) := by
  have hp : 0 < (2 ^ 64) ^ d := by positivity
  have hpow : (2 ^ 64) ^ (d + 1) = (2 ^ 64) ^ d * 2 ^ 64 := Nat.pow_succ _ _
  unfold fullSum
  dsimp only
  rw [hpow] at hw ⊢
  generalize (2 ^ 64) ^ d = p at *
  have hx' : x + p ≤ p * 2 ^ 64 := by
    obtain ⟨k, rfl⟩ : ∃ k, p = k + 1 := ⟨p - 1, by omega⟩
    rw [Nat.add_sub_cancel] at hx
    omega
  by_cases hwrap : w + x < p * 2 ^ 64
  · rw [Nat.mod_eq_of_lt hwrap, if_neg (not_lt.mpr (Nat.div_le_div_right (Nat.le_add_right w x)))]
    exact ⟨by omega, by omega, hwrap⟩
  · have hsum : (w + x) % (p * 2 ^ 64) = w + x - p * 2 ^ 64 := by
      rw [Nat.mod_eq_sub_mod (by omega), Nat.mod_eq_of_lt (by omega)]
    have hless : (w + x - p * 2 ^ 64) / p < w / p := by
      rw [Nat.div_lt_iff_lt_mul hp]
      have hfloor := Nat.lt_div_mul_add hp (a := w)
      omega
    rw [hsum, if_pos hless]
    exact ⟨by omega, by omega, by omega⟩

/-- The multiple of the modulus that clears the lowest word. -/
lemma dvd_add_m64 {w : Nat} (hnp : 2 ^ 64 ∣ np64 * nmod + 1) : 2 ^ 64 ∣ w + w % 2 ^ 64 * np64 % 2 ^ 64 * nmod := by
  have hcong : w + w % 2 ^ 64 * np64 % 2 ^ 64 * nmod ≡ w + w * np64 * nmod [MOD 2 ^ 64] :=
    ((Nat.mod_modEq _ _).trans ((Nat.mod_modEq _ _).mul_right _)).mul_right _ |>.add_left _
  have hdvd : 2 ^ 64 ∣ w + w * np64 * nmod := by
    have h := hnp.mul_left w
    rwa [show w * (np64 * nmod + 1) = w + w * np64 * nmod by ring] at h
  exact (hcong.dvd_iff dvd_rfl).mpr hdvd

lemma mul_word_le {x y : Nat} (hx : x < (2 ^ 64) ^ d) (hy : y < 2 ^ 64) :
    x * y ≤ ((2 ^ 64) ^ d - 1) * (2 ^ 64 - 1) :=
  Nat.mul_le_mul (Nat.le_pred_of_lt hx) (Nat.le_pred_of_lt hy)

include hnmod

/-- The second half of a round drops the lowest word of a sum with the modulus. -/
lemma ciosReduce_eq (hnp : 2 ^ 64 ∣ np64 * nmod + 1) {w c : Nat} (hw : w < (2 ^ 64) ^ (d + 1)) (hc : c ≤ 1) :
    let m64 := w % 2 ^ 64 * np64 % 2 ^ 64
    let sum := fullSum d w (m64 * nmod)
    (sum.1 / 2 ^ 64 + (2 ^ 64) ^ d * ((c + sum.2) % 2 ^ 64)) * 2 ^ 64 =
      w + (2 ^ 64) ^ (d + 1) * c + m64 * nmod := by
  intro m64 sum
  have hm : m64 < 2 ^ 64 := Nat.mod_lt _ (by decide)
  have hle : m64 * nmod ≤ ((2 ^ 64) ^ d - 1) * (2 ^ 64 - 1) := by
    rw [Nat.mul_comm]
    exact mul_word_le hnmod hm
  obtain ⟨hsum, hcarry, -⟩ := fullSum_eq hw hle
  have hdvd : 2 ^ 64 ∣ w + m64 * nmod := dvd_add_m64 hnp
  change sum.1 + (2 ^ 64) ^ (d + 1) * sum.2 = w + m64 * nmod at hsum
  change sum.2 ≤ 1 at hcarry
  clear_value sum m64
  have hpow : (2 ^ 64) ^ (d + 1) = (2 ^ 64) ^ d * 2 ^ 64 := Nat.pow_succ _ _
  have hlow : 2 ^ 64 ∣ sum.1 := by
    rw [← hsum, hpow, Nat.mul_right_comm] at hdvd
    exact (Nat.dvd_add_left (Nat.dvd_mul_left _ _)).mp hdvd
  rw [Nat.mod_eq_of_lt (by omega : c + sum.2 < 2 ^ 64), Nat.add_mul, Nat.div_mul_cancel hlow]
  rw [hpow] at hsum ⊢
  generalize (2 ^ 64) ^ d = p at *
  linarith

/-- A round of `MultprecCiosMul` is a round of the reduction. -/
lemma ciosStep_round (hnp : 2 ^ 64 ∣ np64 * nmod + 1) {ab : Option (Nat × Nat)} {i : Nat} {s : CiosState}
    (hw : s.w < (2 ^ 64) ^ (d + 1)) (ha : (ab.getD (0, 0)).1 < (2 ^ 64) ^ d) (hupper : ab = none → s.upper = 0) :
    (∃ m < 2 ^ 64, (ciosStep d ab nmod np64 i s).w * 2 ^ 64 =
      s.w + (ab.getD (0, 0)).1 * ((ab.getD (0, 0)).2 / (2 ^ 64) ^ i % 2 ^ 64) + m * nmod) ∧
      (ab = none → (ciosStep d ab nmod np64 i s).upper = 0) := by
  have hm (w : Nat) : w % 2 ^ 64 * np64 % 2 ^ 64 < 2 ^ 64 := Nat.mod_lt _ (by decide)
  cases ab with
  | none =>
    have hu := hupper rfl
    refine ⟨⟨_, hm s.w, ?_⟩, fun _ => hu⟩
    have hred := ciosReduce_eq hnmod hnp hw (Nat.zero_le 1)
    rw [← hu, hu, Nat.mul_zero] at hred
    rw [Option.getD_none, Nat.zero_mul]
    unfold ciosStep
    simp only [hu]
    exact hred
  | some f =>
    obtain ⟨a, b⟩ := f
    rw [Option.getD_some] at ha ⊢
    dsimp only at ha ⊢
    obtain ⟨hsum, hcarry, hlt⟩ := fullSum_eq hw (mul_word_le ha (Nat.mod_lt (b / (2 ^ 64) ^ i) (by decide)))
    refine ⟨⟨_, hm (fullSum d s.w (a * (b / (2 ^ 64) ^ i % 2 ^ 64))).1, ?_⟩, fun h => by cases h⟩
    rw [← hsum]
    exact ciosReduce_eq hnmod hnp hlt hcarry

/-- What the rounds of `MultprecCiosMul` compute, from `w` in the output buffer. -/
lemma ciosLoop_run (hnp : 2 ^ 64 ∣ np64 * nmod + 1) (ab : Option (Nat × Nat)) {w : Nat}
    (hw : w + (ab.getD (0, 0)).1 < (2 ^ 64) ^ d) (count i : Nat) (s : CiosState)
    (hrun : MontgomeryRun ((2 ^ 64) ^ i) nmod (w + (ab.getD (0, 0)).1 * ((ab.getD (0, 0)).2 % (2 ^ 64) ^ i)) s.w)
    (hupper : ab = none → s.upper = 0) :
    MontgomeryRun ((2 ^ 64) ^ (i + count)) nmod
      (w + (ab.getD (0, 0)).1 * ((ab.getD (0, 0)).2 % (2 ^ 64) ^ (i + count)))
      (ciosLoop d ab nmod np64 count i s).w := by
  induction count generalizing i s with
  | zero => exact hrun
  | succ count ih =>
    have hfit : s.w < (2 ^ 64) ^ (d + 1) := by
      have hle := hrun.le_add (Nat.mod_lt _ (by positivity))
      have hpow : (2 ^ 64) ^ (d + 1) = (2 ^ 64) ^ d * 2 ^ 64 := Nat.pow_succ _ _
      omega
    obtain ⟨⟨m, hm, hround⟩, hupper'⟩ := ciosStep_round hnmod hnp (i := i) hfit (by omega) hupper
    have hnext := ih (i + 1) (ciosStep d ab nmod np64 i s) ?_ hupper'
    · rw [Nat.add_right_comm] at hnext
      exact hnext
    · have hstep := hrun.round hm hround
      rw [← Nat.pow_succ (2 ^ 64) i] at hstep
      rw [Nat.mod_pow_succ]
      convert hstep using 1
      ring

end Rounds

/-- The comparison leaves out the lowest word. -/
lemma largerWords_iff (w nmod i : Nat) :
    largerWords w nmod i = true ↔ nmod / 2 ^ 32 % (2 ^ 32) ^ i < w / 2 ^ 32 % (2 ^ 32) ^ i := by
  induction i with
  | zero => simp [largerWords, Nat.mod_one]
  | succ i ih =>
    have hword (x : Nat) : x / 2 ^ 32 / (2 ^ 32) ^ i % 2 ^ 32 = word x (i + 1) := by
      unfold word
      rw [Nat.div_div_eq_div_mul, Nat.mul_comm, ← Nat.pow_succ]
    have hlow (x : Nat) : x / 2 ^ 32 % (2 ^ 32) ^ i < (2 ^ 32) ^ i := Nat.mod_lt _ (by positivity)
    have hsplit (x : Nat) : x / 2 ^ 32 % (2 ^ 32) ^ (i + 1) =
        x / 2 ^ 32 % (2 ^ 32) ^ i + (2 ^ 32) ^ i * word x (i + 1) := by
      rw [Nat.mod_pow_succ, hword]
    rw [largerWords, hsplit, hsplit]
    have hw := hlow w
    have hn := hlow nmod
    generalize word w (i + 1) = a, word nmod (i + 1) = b, (2 ^ 32) ^ i = p at *
    split_ifs with hne
    · rw [decide_eq_true_eq]
      constructor
      · intro hgt
        have hmul := Nat.mul_le_mul_left p hgt
        rw [Nat.mul_succ] at hmul
        omega
      · intro hlt
        by_contra hle
        have hmul := Nat.mul_le_mul_left p (by omega : a + 1 ≤ b)
        rw [Nat.mul_add, Nat.mul_one] at hmul
        omega
    · rw [ih, not_ne_iff.mp hne]
      omega

lemma pow_words (d : Nat) : (2 ^ 32) ^ (2 * d) = (2 ^ 64) ^ d := by
  rw [Nat.pow_mul]
  exact congrArg (· ^ d) (by norm_num)

lemma pow_upper_words {d : Nat} (hd : 0 < d) : (2 ^ 32) ^ (2 * d - 1) * 2 ^ 32 = (2 ^ 64) ^ d := by
  rw [← pow_words, ← Nat.pow_succ, Nat.succ_eq_add_one, Nat.sub_add_cancel (by omega)]

lemma coprime_pow_of_odd {d nmod : Nat} (hodd : nmod % 2 = 1) : Nat.Coprime ((2 ^ 64) ^ d) nmod := by
  have htwo : Nat.Coprime 2 nmod := Nat.coprime_two_left.mpr (Nat.odd_iff.mpr hodd)
  exact (htwo.pow_left 64).pow_left d

section Multiplication

variable {d nmod np64 : Nat} (hd : 0 < d) (hnmod : nmod < (2 ^ 64) ^ d)

/-- The subtraction at the end of `MultprecCiosMul`. -/
def ciosFinish (d nmod t : Nat) : Nat :=
  let j : Bool := if word t (2 * d) ≠ 0 then true else largerWords t nmod (2 * d - 1)
  if j then (t + (2 ^ 64) ^ d - nmod) % (2 ^ 64) ^ d else t % (2 ^ 64) ^ d

lemma multprecCiosMul_eq (d w : Nat) (ab : Option (Nat × Nat)) (nmod np64 : Nat) :
    multprecCiosMul d w ab nmod np64 =
      ciosFinish d nmod (ciosLoop d ab nmod np64 d 0 { w := if ab.isSome then 0 else w, upper := 0 }).w :=
  rfl

include hnmod in
lemma word_ne_zero_iff {t : Nat} (ht : t < (2 ^ 64) ^ d + nmod) : word t (2 * d) ≠ 0 ↔ (2 ^ 64) ^ d ≤ t := by
  have hpos : 0 < (2 ^ 64) ^ d := by positivity
  unfold word
  rw [pow_words]
  generalize (2 ^ 64) ^ d = p at *
  have hlt : t / p < 2 := by
    rw [Nat.div_lt_iff_lt_mul hpos]
    omega
  rw [Nat.mod_eq_of_lt (by omega), Nat.ne_zero_iff_zero_lt, Nat.div_pos_iff]
  exact ⟨fun h => h.2, fun h => ⟨hpos, h⟩⟩

include hd hnmod

lemma largerWords_upper_iff {t : Nat} (ht : t < (2 ^ 64) ^ d) :
    largerWords t nmod (2 * d - 1) = true ↔ nmod / 2 ^ 32 < t / 2 ^ 32 := by
  have hsplit := pow_upper_words hd
  have hword {x : Nat} (hx : x < (2 ^ 64) ^ d) : x / 2 ^ 32 % (2 ^ 32) ^ (2 * d - 1) = x / 2 ^ 32 :=
    Nat.mod_eq_of_lt (by rw [Nat.div_lt_iff_lt_mul (by decide), hsplit]; exact hx)
  rw [largerWords_iff, hword ht, hword hnmod]

/-- The result is what it was or, where that is larger than the modulus, the modulus less. -/
lemma ciosFinish_cases {t : Nat} (ht : t < (2 ^ 64) ^ d + nmod) :
    ciosFinish d nmod t < (2 ^ 64) ^ d ∧
      (ciosFinish d nmod t = t ∨ nmod < t ∧ ciosFinish d nmod t = t - nmod) := by
  unfold ciosFinish
  dsimp only
  have hupper := word_ne_zero_iff hnmod ht
  by_cases hlarge : (2 ^ 64) ^ d ≤ t
  · rw [if_pos (hupper.mpr hlarge), if_pos rfl, wrapped_sub (by omega) ht]
    exact ⟨by omega, Or.inr ⟨by omega, rfl⟩⟩
  · rw [if_neg (hupper.not.mpr hlarge)]
    by_cases hlarger : largerWords t nmod (2 * d - 1) = true
    · have hgt := (largerWords_upper_iff hd hnmod (not_le.mp hlarge)).mp hlarger
      have hlt : nmod < t := by omega
      rw [if_pos hlarger, wrapped_sub hlt.le ht]
      exact ⟨by omega, Or.inr ⟨hlt, rfl⟩⟩
    · rw [if_neg hlarger, Nat.mod_eq_of_lt (not_le.mp hlarge)]
      exact ⟨by omega, Or.inl rfl⟩

lemma ciosFinish_modEq {t : Nat} (ht : t < (2 ^ 64) ^ d + nmod) : ciosFinish d nmod t ≡ t [MOD nmod] := by
  obtain ⟨-, heq | ⟨hgt, heq⟩⟩ := ciosFinish_cases hd hnmod ht
  · rw [heq]
  · rw [heq]
    exact (Nat.modEq_iff_dvd' (Nat.sub_le _ _)).mpr ⟨1, by omega⟩

lemma ciosFinish_of_le {t : Nat} (ht : t ≤ nmod) : ciosFinish d nmod t = t := by
  rcases (ciosFinish_cases hd hnmod (by omega : t < (2 ^ 64) ^ d + nmod)).2 with heq | ⟨hlt, -⟩
  · exact heq
  · omega

/-- The subtraction reduces unless only the lowest words differ. -/
lemma ciosFinish_lt_iff {t : Nat} (ht : t < 2 * nmod) :
    ciosFinish d nmod t < nmod ↔ ¬ ∃ s, s + nmod % 2 ^ 32 < 2 ^ 32 ∧ t = s + nmod := by
  have hsplit := pow_upper_words hd
  have hupper := word_ne_zero_iff hnmod (by omega : t < (2 ^ 64) ^ d + nmod)
  unfold ciosFinish
  dsimp only
  by_cases hlarge : (2 ^ 64) ^ d ≤ t
  · rw [if_pos (hupper.mpr hlarge), if_pos rfl, wrapped_sub (by omega) (by omega)]
    refine iff_of_true (by omega) ?_
    rintro ⟨s, hs, rfl⟩
    omega
  · have hlower := largerWords_upper_iff hd hnmod (not_le.mp hlarge)
    rw [if_neg (hupper.not.mpr hlarge)]
    by_cases hlarger : largerWords t nmod (2 * d - 1) = true
    · have hgt := hlower.mp hlarger
      rw [if_pos hlarger, wrapped_sub (by omega) (by omega)]
      refine iff_of_true (by omega) ?_
      rintro ⟨s, hs, rfl⟩
      omega
    · have hle := hlower.not.mp hlarger
      rw [if_neg hlarger, Nat.mod_eq_of_lt (not_le.mp hlarge)]
      constructor
      · rintro hlt ⟨s, -, rfl⟩
        omega
      · intro hnone
        by_contra hge
        exact hnone ⟨t - nmod, by omega, by omega⟩
variable (hodd : nmod % 2 = 1) (hnp : 2 ^ 64 ∣ np64 * nmod + 1)

include hodd hnp

/-- `MultprecCiosMul` of two factors. -/
theorem multprecCiosMul_mul {a b w : Nat} (ha : a < (2 ^ 64) ^ d) (hb : b < (2 ^ 64) ^ d) :
    multprecCiosMul d w (some (a, b)) nmod np64 < (2 ^ 64) ^ d ∧
      multprecCiosMul d w (some (a, b)) nmod np64 * (2 ^ 64) ^ d ≡ a * b [MOD nmod] ∧
      (multprecCiosMul d w (some (a, b)) nmod np64 = 0 ↔ a * b = 0) := by
  have hrun := ciosLoop_run hnmod hnp (some (a, b)) (w := 0) (by rw [Nat.zero_add]; exact ha) d 0
    { w := 0, upper := 0 } (by simpa [Nat.mod_one] using MontgomeryRun.start 0 nmod) (fun _ => rfl)
  rw [multprecCiosMul_eq, Option.isSome_some, if_pos rfl]
  rw [Nat.zero_add, Option.getD_some, Nat.zero_add, Nat.mod_eq_of_lt hb] at hrun
  dsimp only at hrun
  generalize (ciosLoop d (some (a, b)) nmod np64 d 0 { w := 0, upper := 0 }).w = t at *
  have hle : t ≤ 0 + a + nmod := by
    rw [← Nat.zero_add (a * b)] at hrun
    exact hrun.le_add hb
  have hzero := hrun.eq_zero_iff (coprime_pow_of_odd hodd)
  obtain ⟨hlt, hcases⟩ := ciosFinish_cases hd hnmod (by omega : t < (2 ^ 64) ^ d + nmod)
  refine ⟨hlt, ?_, ?_⟩
  · exact ((ciosFinish_modEq hd hnmod (by omega)).mul_right _).trans hrun.modEq
  · rw [← hzero]
    omega

/-- `MultprecCiosMul` without factors reduces what is in the output buffer. -/
theorem multprecCiosMul_reduce {w : Nat} (hw : w < (2 ^ 64) ^ d) :
    multprecCiosMul d w none nmod np64 ≤ nmod ∧
      multprecCiosMul d w none nmod np64 * (2 ^ 64) ^ d ≡ w [MOD nmod] ∧
      (multprecCiosMul d w none nmod np64 = 0 ↔ w = 0) := by
  have hrun := ciosLoop_run hnmod hnp none (w := w) (by simpa using hw) d 0 { w := w, upper := 0 }
    (by simpa [Nat.mod_one] using MontgomeryRun.start w nmod) (fun _ => rfl)
  rw [multprecCiosMul_eq, Option.isSome_none, if_neg Bool.false_ne_true]
  rw [Nat.zero_add, Option.getD_none, Nat.zero_mul, Nat.add_zero] at hrun
  generalize (ciosLoop d none nmod np64 d 0 { w := w, upper := 0 }).w = t at *
  have hle : t ≤ nmod := hrun.le_modulus hw
  rw [ciosFinish_of_le hd hnmod hle]
  exact ⟨hle, hrun.modEq, hrun.eq_zero_iff (coprime_pow_of_odd hodd)⟩

end Multiplication

/-- What a `MultprecCiosMul` multiplies or reduces. -/
def ciosOperand (w : Nat) (ab : Option (Nat × Nat)) : Nat :=
  ab.elim w (fun f => f.1 * f.2)

/-- The state before the rounds of `MultprecCiosMul`. -/
def ciosStart (w : Nat) (ab : Option (Nat × Nat)) : CiosState :=
  { w := if ab.isSome then 0 else w, upper := 0 }

/-- `MultprecCiosMul` loses no carry, and reduces unless the residue is the excess over the modulus in the lowest
word. -/
theorem multprecCiosMul_reduced_iff {d nmod np64 w : Nat} {ab : Option (Nat × Nat)} (hd : 0 < d)
    (hodd : nmod % 2 = 1) (hnmod : nmod < (2 ^ 64) ^ d) (htop : (2 ^ 64) ^ d ≤ 2 * nmod)
    (hnp : 2 ^ 64 ∣ np64 * nmod + 1) (hab : ∀ f ∈ ab, f.1 < nmod ∧ f.2 < nmod) (hw : w < (2 ^ 64) ^ d) :
    multprecCiosMul d w ab nmod np64 < nmod ∧
        multprecCiosMul d w ab nmod np64 * (2 ^ 64) ^ d ≡ ciosOperand w ab [MOD nmod] ∧
        (∀ i ≤ d, MontgomeryRun ((2 ^ 64) ^ i) nmod
          ((ciosStart w ab).w + (ab.getD (0, 0)).1 * ((ab.getD (0, 0)).2 % (2 ^ 64) ^ i))
          (ciosLoop d ab nmod np64 i 0 (ciosStart w ab)).w) ∧
        2 ^ 64 ∣ multprecGenNp64 (nmod % 2 ^ 64) * nmod + 1 ↔
      ¬ ∃ r, r + nmod % 2 ^ 32 < 2 ^ 32 ∧ r * (2 ^ 64) ^ d < ciosOperand w ab ∧
        r * (2 ^ 64) ^ d ≡ ciosOperand w ab [MOD nmod] := by
  have hfit : (ciosStart w ab).w + (ab.getD (0, 0)).1 < (2 ^ 64) ^ d := by
    cases ab with
    | none => simpa [ciosStart] using hw
    | some f => simpa [ciosStart] using (hab f rfl).1.trans hnmod
  have hrounds (i : Nat) := ciosLoop_run hnmod hnp ab hfit i 0 (ciosStart w ab)
    (by simpa [Nat.mod_one] using MontgomeryRun.start (ciosStart w ab).w nmod) (fun _ => rfl)
  have hoperand : (ciosStart w ab).w + (ab.getD (0, 0)).1 * ((ab.getD (0, 0)).2 % (2 ^ 64) ^ d) = ciosOperand w ab := by
    cases ab with
    | none => simp [ciosStart, ciosOperand]
    | some f =>
      rw [Option.getD_some, Nat.mod_eq_of_lt ((hab f rfl).2.trans hnmod)]
      simp [ciosStart, ciosOperand]
  have hx : ciosOperand w ab < (2 ^ 64) ^ d * nmod := by
    cases ab with
    | none => exact hw.trans_le (Nat.le_mul_of_pos_right _ (by omega))
    | some f => exact Nat.mul_lt_mul_of_lt_of_le ((hab f rfl).1.trans hnmod) (hab f rfl).2.le (by omega)
  have hrun := hrounds d
  rw [Nat.zero_add, hoperand] at hrun
  have hresult : multprecCiosMul d w ab nmod np64 = ciosFinish d nmod (ciosLoop d ab nmod np64 d 0 (ciosStart w ab)).w :=
    multprecCiosMul_eq d w ab nmod np64
  have ht := hrun.lt_two_mul hx
  have hcong : multprecCiosMul d w ab nmod np64 * (2 ^ 64) ^ d ≡ ciosOperand w ab [MOD nmod] := by
    rw [hresult]
    exact ((ciosFinish_modEq hd hnmod (by omega)).mul_right _).trans hrun.modEq
  have hlarge : 2 ^ 64 ≤ 2 * nmod := (Nat.le_self_pow hd.ne' _).trans htop
  have hexcess (s : Nat) (hs : s + nmod % 2 ^ 32 < 2 ^ 32) :=
    hrun.eq_add_iff (coprime_pow_of_odd hodd) hx (by omega : s < nmod)
  rw [hresult, ciosFinish_lt_iff hd hnmod ht, ← hresult]
  constructor
  · rintro ⟨hnone, -⟩ ⟨s, hs, hres⟩
    exact hnone ⟨s, hs, (hexcess s hs).mpr hres⟩
  · intro hnone
    refine ⟨?_, hcong, fun i _ => ?_, multprecGenNp64_dvd_modulus hodd⟩
    · rintro ⟨s, hs, heq⟩
      exact hnone ⟨s, hs, (hexcess s hs).mp heq⟩
    · have hround := hrounds i
      rwa [Nat.zero_add] at hround

/-- A product of 9 for the modulus `(2 ^ 32 - 1) ^ 2`. -/
theorem multprecCiosMul_reduced_iff_nine :
    multprecCiosMul 1 0 (some (3, 3)) ((2 ^ 32 - 1) ^ 2) (multprecGenNp64 ((2 ^ 32 - 1) ^ 2)) < (2 ^ 32 - 1) ^ 2 := by
  apply And.left
  apply (multprecCiosMul_reduced_iff (by decide) (by decide) (by decide) (by decide) (by decide +kernel)
    (by decide) (by decide)).mpr
  rintro ⟨r, -, hlt, hcong⟩
  have hzero : r = 0 := by
    have hlt' : r * (2 ^ 64) ^ 1 < 9 := hlt
    omega
  subst hzero
  exact absurd hcong (by decide)

/-- Where the product of the factors is the modulus, the result is the modulus. -/
theorem multprecCiosMul_not_reduced :
    let nmod := (2 ^ 32 - 1) ^ 2
    nmod % 2 = 1 ∧ 2 ^ 63 ≤ nmod ∧ nmod < 2 ^ 64 ∧ 2 ^ 64 ∣ multprecGenNp64 nmod * nmod + 1 ∧ 2 ^ 32 - 1 < nmod ∧
      multprecCiosMul 1 0 (some (2 ^ 32 - 1, 2 ^ 32 - 1)) nmod (multprecGenNp64 nmod) = nmod := by
  decide +kernel

end McuxDrivers.Casper
