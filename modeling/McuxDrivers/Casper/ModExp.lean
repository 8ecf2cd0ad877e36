import McuxDrivers.Casper.Product
import McuxDrivers.Casper.Reduction

/-!
# The modular exponentiation

The rounds of `RSA_MontSignatureToPlaintextFast` square and multiply, but read the exponent through an
eight-bit mask. The last reduction leaves the modulus in place of 0.
-/

namespace McuxDrivers.Casper
open McuxDrivers.Lib

/-- The exponent that the rounds read: the highest bit and the lowest eight. -/
def effectiveExponent (expPubkey : Nat) : Nat :=
  2 ^ Nat.log2 expPubkey + expPubkey % 2 ^ Nat.log2 expPubkey % 2 ^ 8

/-- `c` is a Montgomery form of `x` to the power of `k`. -/
def Represents (d nmod x k c : Nat) : Prop :=
  c < (2 ^ 64) ^ d ∧ c ≡ x ^ k * (2 ^ 64) ^ d [MOD nmod] ∧ (c = 0 ↔ x = 0)

section Exponent

variable {d nmod np64 x : Nat} (hd : 0 < d) (hnmod : nmod < (2 ^ 64) ^ d) (hodd : nmod % 2 = 1)
  (hnp : 2 ^ 64 ∣ np64 * nmod + 1)

include hd hnmod hodd hnp

lemma Represents.mul {a b j k : Nat} (w : Nat) (ha : Represents d nmod x j a) (hb : Represents d nmod x k b) :
    Represents d nmod x (j + k) (multprecCiosMul d w (some (a, b)) nmod np64) := by
  obtain ⟨halt, hamod, hazero⟩ := ha
  obtain ⟨hblt, hbmod, hbzero⟩ := hb
  obtain ⟨hlt, hmod, hzero⟩ := multprecCiosMul_mul (w := w) hd hnmod hodd hnp halt hblt
  refine ⟨hlt, ?_, ?_⟩
  · have hprod := hmod.trans (hamod.mul hbmod)
    rw [show x ^ j * (2 ^ 64) ^ d * (x ^ k * (2 ^ 64) ^ d) = x ^ (j + k) * (2 ^ 64) ^ d * (2 ^ 64) ^ d by ring] at hprod
    exact hprod.cancel_right_of_coprime (coprime_pow_of_odd hodd).symm
  · rw [hzero, Nat.mul_eq_zero, hazero, hbzero, or_self]

/-- The buffer that holds the power so far. -/
def MsgRet.power (s : MsgRet) : Nat :=
  if s.bidx then s.tempBase else s.base

/-- The bit of the exponent that a round reads. -/
def exponentBit (expPubkey bitpos : Nat) : Nat :=
  if expPubkey &&& 2 ^ bitpos % 2 ^ 8 ≠ 0 then 1 else 0

omit hd hnmod hodd hnp in
/-- A bit above the lowest eight reads as 0. -/
lemma exponentBit_sum (e bitpos k : Nat) :
    (2 * k + exponentBit e bitpos) * 2 ^ bitpos + e % 2 ^ bitpos % 2 ^ 8 =
      k * 2 ^ (bitpos + 1) + e % 2 ^ (bitpos + 1) % 2 ^ 8 := by
  rcases Nat.lt_or_ge bitpos 8 with hlow | hhigh
  · have hbit : exponentBit e bitpos = e / 2 ^ bitpos % 2 := by
      unfold exponentBit
      rw [Nat.mod_eq_of_lt (Nat.pow_lt_pow_right (by decide) hlow), Nat.and_two_pow, Nat.testBit_eq_decide_div_mod_eq]
      have hpos : 0 < 2 ^ bitpos := by positivity
      by_cases hone : e / 2 ^ bitpos % 2 = 1
      · rw [decide_eq_true hone, Bool.toNat_true, Nat.one_mul, if_pos hpos.ne', hone]
      · rw [decide_eq_false hone, Bool.toNat_false, Nat.zero_mul, if_neg (not_ne_iff.mpr rfl)]
        omega
    have hfit {i : Nat} (hi : i ≤ 8) : e % 2 ^ i % 2 ^ 8 = e % 2 ^ i :=
      Nat.mod_eq_of_lt ((Nat.mod_lt _ (by positivity)).trans_le (Nat.pow_le_pow_right (by decide) hi))
    rw [hfit hlow.le, hfit hlow, Nat.mod_pow_succ, hbit, pow_succ]
    ring
  · have hdvd {i : Nat} (hi : 8 ≤ i) : 2 ^ 8 ∣ 2 ^ i := Nat.pow_dvd_pow 2 hi
    have hbit : exponentBit e bitpos = 0 := by
      unfold exponentBit
      rw [Nat.mod_eq_zero_of_dvd (hdvd hhigh), Nat.and_zero, if_neg (not_ne_iff.mpr rfl)]
    rw [Nat.mod_mod_of_dvd _ (hdvd hhigh), Nat.mod_mod_of_dvd _ (hdvd (by omega)), hbit, pow_succ]
    ring

lemma exponentStep_spec {s : MsgRet} {k : Nat} (e bitpos : Nat) (hresult : Represents d nmod x 1 s.result)
    (hpower : Represents d nmod x k s.power) :
    (exponentStep d nmod np64 e bitpos s).result = s.result ∧
      Represents d nmod x (2 * k + exponentBit e bitpos) (exponentStep d nmod np64 e bitpos s).power := by
  obtain ⟨result, base, tempBase, bidx⟩ := s
  have hsquare (w : Nat) := Represents.mul hd hnmod hodd hnp w hpower hpower
  have hmul {c : Nat} (w : Nat) (hc : Represents d nmod x (k + k) c) := Represents.mul hd hnmod hodd hnp w hresult hc
  rw [two_mul]
  unfold exponentStep exponentBit
  by_cases hbit : e &&& 2 ^ bitpos % 2 ^ 8 ≠ 0
  · rw [if_pos hbit, if_pos hbit, Nat.add_comm]
    cases bidx with
    | true => exact ⟨rfl, hmul _ (hsquare base)⟩
    | false => exact ⟨rfl, hmul _ (hsquare tempBase)⟩
  · rw [if_neg hbit, if_neg hbit]
    cases bidx with
    | true => exact ⟨rfl, hsquare base⟩
    | false => exact ⟨rfl, hsquare tempBase⟩

lemma exponentLoop_spec (e bitpos : Nat) (s : MsgRet) (k : Nat) (hresult : Represents d nmod x 1 s.result)
    (hpower : Represents d nmod x k s.power) :
    Represents d nmod x (k * 2 ^ bitpos + e % 2 ^ bitpos % 2 ^ 8) (exponentLoop d nmod np64 e bitpos s).power := by
  induction bitpos generalizing s k with
  | zero =>
    rw [pow_zero, Nat.mul_one, Nat.mod_one]
    exact hpower
  | succ bitpos ih =>
    obtain ⟨hresult', hpower'⟩ := exponentStep_spec hd hnmod hodd hnp e bitpos hresult hpower
    have hnext := ih (exponentStep d nmod np64 e bitpos s) _ (by rwa [hresult']) hpower'
    rw [exponentBit_sum] at hnext
    exact hnext

end Exponent

/-- `RSA_MontSignatureToPlaintextFast` gives the power for the exponent it reads, with the modulus itself in place
of 0 where the signature is not 0. -/
theorem rsaMontSignatureToPlaintextFast_eq {d nmod x c e t : Nat} (hd : 0 < d) (hnmod : nmod < (2 ^ 64) ^ d)
    (hodd : nmod % 2 = 1) (hx : x < nmod) (hc : Represents d nmod x 1 c) :
    rsaMontSignatureToPlaintextFast d c e nmod t =
      if x ≠ 0 ∧ nmod ∣ x ^ effectiveExponent e then nmod else x ^ effectiveExponent e % nmod := by
  have hnp := multprecGenNp64_dvd_modulus hodd
  have hloop := exponentLoop_spec hd hnmod hodd hnp e (Nat.log2 e)
    { result := c, base := c, tempBase := t, bidx := false } 1 hc hc
  rw [Nat.one_mul] at hloop
  obtain ⟨hlt, hmod, hzero⟩ := hloop
  obtain ⟨hle, hmod', hzero'⟩ := multprecCiosMul_reduce hd hnmod hodd hnp hlt
  have hpower : rsaMontSignatureToPlaintextFast d c e nmod t ≡ x ^ effectiveExponent e [MOD nmod] :=
    (hmod'.trans hmod).cancel_right_of_coprime (coprime_pow_of_odd hodd).symm
  change rsaMontSignatureToPlaintextFast d c e nmod t ≤ nmod at hle
  change rsaMontSignatureToPlaintextFast d c e nmod t = 0 ↔ _ at hzero'
  rw [hzero] at hzero'
  generalize rsaMontSignatureToPlaintextFast d c e nmod t = z at *
  split_ifs with hdvd
  · have hz : z ≠ 0 := fun h => hdvd.1 (hzero'.mp h)
    have hdvd' : nmod ∣ z := (hpower.dvd_iff dvd_rfl).mpr hdvd.2
    exact Nat.le_antisymm hle (Nat.le_of_dvd (Nat.pos_of_ne_zero hz) hdvd')
  · have hz : z ≠ nmod := by
      rintro rfl
      exact hdvd ⟨fun h => by have := hzero'.mpr h; omega, (hpower.dvd_iff dvd_rfl).mp dvd_rfl⟩
    rw [← hpower, Nat.mod_eq_of_lt (by omega)]

/-- The number in the `n` words of a buffer. -/
def number (n : Nat) (words : Nat → UInt32) : Nat :=
  limbs (2 ^ 32) (fun k => (words k).toNat) 0 n

/-- No round of the division that prepares the signature goes wrong. -/
def DivisionSound (n signature pubN : Nat) : Prop :=
  ∀ i ≤ n, ¬ MissedDigit n (roundDividend (2 ^ 32) pubN (signature * ((2 ^ 32) ^ n - pubN)) i) pubN

/-- The RAM behind the product holds 0 wherever the modulus has a double word of ones. -/
def RamCleared (n : Nat) (pubN ram : Nat → UInt32) : Prop :=
  ∀ j, 2 ≤ j → j < n → j % 2 = 0 → pubN j = 0xFFFFFFFF → pubN (j + 1) = 0xFFFFFFFF →
    ram (j + n) = 0 ∧ ram (j + n + 1) = 0

section Words

variable {wordLen : Nat} {signature pubN ram : Nat → UInt32} (hlen : 2 ≤ wordLen) (heven : wordLen % 2 = 0)
  (hodd : (pubN 0).toNat % 2 = 1) (htop : 2 ^ 31 ≤ (pubN (wordLen - 1)).toNat)
  (hsig : number wordLen signature < number wordLen pubN)
  (hdiv : DivisionSound wordLen (number wordLen signature) (number wordLen pubN)) (hram : RamCleared wordLen pubN ram)

include hlen heven hodd htop hsig hdiv hram

/-- What `CASPER_ModExp` writes. -/
theorem number_modExp (pubE : Nat) :
    limbs (2 ^ 32) (modExp wordLen signature pubN pubE ram) 0 wordLen =
      if number wordLen signature ≠ 0 ∧ number wordLen pubN ∣ number wordLen signature ^ effectiveExponent pubE
      then number wordLen pubN
      else number wordLen signature ^ effectiveExponent pubE % number wordLen pubN := by
  have hword (w : Nat → UInt32) (k : Nat) : (w k).toNat < 2 ^ 32 := (w k).toNat_lt
  have hpow : (2 ^ 64) ^ (wordLen / 2) = (2 ^ 32) ^ wordLen := by
    rw [← pow_words, show 2 * (wordLen / 2) = wordLen by omega]
  have hnmod : number wordLen pubN < (2 ^ 64) ^ (wordLen / 2) := by
    rw [hpow]
    exact limbs_lt (fun k _ _ => hword pubN k)
  have hnodd : number wordLen pubN % 2 = 1 := by
    obtain ⟨m, rfl⟩ : ∃ m, wordLen = m + 1 := ⟨wordLen - 1, by omega⟩
    unfold number
    rw [limbs_succ']
    omega
  have hcleared (j : Nat) (hj : 2 ≤ j) (hjn : j < wordLen) (hj2 : j % 2 = 0) (h0 : (pubN j).toNat = 2 ^ 32 - 1)
      (h1 : (pubN (j + 1)).toNat = 2 ^ 32 - 1) : (ram (j + wordLen)).toNat = 0 ∧ (ram (j + wordLen + 1)).toNat = 0 := by
    obtain ⟨hr0, hr1⟩ := hram j hj hjn hj2 (UInt32.toNat_inj.mp h0) (UInt32.toNat_inj.mp h1)
    rw [hr0, hr1]
    exact ⟨rfl, rfl⟩
  have hbase : limbs (2 ^ 32) _ 0 wordLen = number wordLen signature * _ % number wordLen pubN :=
    multprecMontPrepareX_eq (hword pubN) hodd hlen heven htop (hword ram) (hword signature) hcleared hdiv
  have hrep : Represents (wordLen / 2) (number wordLen pubN) (number wordLen signature) 1
      (number wordLen signature * (2 ^ 64) ^ (wordLen / 2) % number wordLen pubN) := by
    refine ⟨(Nat.mod_lt _ (by omega)).trans hnmod, ?_, ?_⟩
    · rw [pow_one]
      exact Nat.mod_modEq _ _
    · rw [← Nat.dvd_iff_mod_eq_zero, (coprime_pow_of_odd hnodd).symm.dvd_mul_right]
      exact ⟨fun h => Nat.eq_zero_of_dvd_of_lt h hsig, fun h => h ▸ dvd_zero _⟩
  rw [hpow, ← hbase] at hrep
  have hresult := rsaMontSignatureToPlaintextFast_eq (e := pubE)
    (t := limbs (2 ^ 32) (fun k => (ram k).toNat) 0 wordLen) (by omega) hnmod hnodd hsig hrep
  change rsaSignatureToPlaintextFast wordLen _ pubE _ _ = _ at hresult
  have hfit : rsaSignatureToPlaintextFast wordLen (fun k => (signature k).toNat) pubE (fun k => (pubN k).toNat)
      (fun k => (ram k).toNat) < (2 ^ 32) ^ wordLen := by
    rw [hresult, ← hpow]
    split_ifs
    · exact hnmod
    · exact (Nat.mod_lt _ (by omega)).trans hnmod
  rw [← hresult]
  refine (limbs_digits (2 ^ 32) wordLen _).trans (Nat.mod_eq_of_lt hfit)

/-- `CASPER_ModExp` is exact if no round of the division goes wrong and the RAM holds 0 where it must, apart from
the bits of the exponent that it does not read and from a power of 0, which comes out as the modulus. -/
theorem modExp_exact_iff (pubE : Nat) :
    limbs (2 ^ 32) (modExp wordLen signature pubN pubE ram) 0 wordLen =
        number wordLen signature ^ pubE % number wordLen pubN ↔
      number wordLen signature ^ effectiveExponent pubE ≡ number wordLen signature ^ pubE [MOD number wordLen pubN] ∧
        (number wordLen signature = 0 ∨ ¬ number wordLen pubN ∣ number wordLen signature ^ pubE) := by
  rw [number_modExp hlen heven hodd htop hsig hdiv hram]
  have hpos : 0 < number wordLen pubN := Nat.zero_lt_of_lt hsig
  split_ifs with hzero
  · constructor
    · intro h
      have hlt := Nat.mod_lt (number wordLen signature ^ pubE) hpos
      omega
    · rintro ⟨hcong, hone | hndvd⟩
      · exact absurd hone hzero.1
      · exact absurd ((hcong.dvd_iff dvd_rfl).mp hzero.2) hndvd
  · constructor
    · intro h
      refine ⟨h, ?_⟩
      by_contra hno
      push Not at hno
      exact hzero ⟨hno.1, (Nat.ModEq.dvd_iff h dvd_rfl).mpr hno.2⟩
    · intro h
      exact h.1

end Words

/-- The words of `2`. -/
def twoWords (k : Nat) : UInt32 :=
  if k = 0 then 2 else 0

/-- The words of `2 ^ 63 + 1`. -/
def modulusWords (k : Nat) : UInt32 :=
  if k = 0 then 1 else if k = 1 then 0x80000000 else 0

lemma divisionSound_two : DivisionSound 2 (number 2 twoWords) (number 2 modulusWords) := by
  unfold DivisionSound
  decide

lemma ramCleared_two (pubN ram : Nat → UInt32) : RamCleared 2 pubN ram :=
  fun _ hj hlt => absurd hj (by omega)

theorem modExp_exact_iff_two :
    limbs (2 ^ 32) (modExp 2 twoWords modulusWords 3 (fun _ => 0)) 0 2 =
      number 2 twoWords ^ 3 % number 2 modulusWords :=
  (modExp_exact_iff (by decide) (by decide) (by decide) (by decide) (by decide) divisionSound_two
    (ramCleared_two _ _) 3).mpr ⟨by decide, by decide⟩

/-- With the exponent `0x300` the driver computes the power for `0x200`. -/
theorem modExp_not_exact : ¬ ∀ (wordLen pubE : Nat) (signature pubN ram : Nat → UInt32), 2 ≤ wordLen → wordLen ≤ 128 →
    wordLen % 2 = 0 → (pubN 0).toNat % 2 = 1 → 2 ^ 31 ≤ (pubN (wordLen - 1)).toNat →
    number wordLen signature < number wordLen pubN → 1 ≤ pubE → pubE < 2 ^ 32 →
    limbs (2 ^ 32) (modExp wordLen signature pubN pubE ram) 0 wordLen =
      number wordLen signature ^ pubE % number wordLen pubN := by
  intro h
  have hexact := h 2 0x300 twoWords modulusWords (fun _ => 0) (by decide) (by decide) (by decide) (by decide)
    (by decide) (by decide) (by decide) (by decide)
  rw [number_modExp (by decide) (by decide) (by decide) (by decide) (by decide) divisionSound_two
    (ramCleared_two _ _)] at hexact
  revert hexact
  decide +kernel

end McuxDrivers.Casper
