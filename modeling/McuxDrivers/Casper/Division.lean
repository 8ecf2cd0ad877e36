import McuxDrivers.Lib.LongDivision
import McuxDrivers.Casper.Driver

/-!
# The division of the CASPER driver

`MultprecModulo` is Knuth's algorithm with quotient digits computed in halves. Each round leaves the
remainder of its dividend, except when the upper words of dividend and divisor agree, the next word is
small and the quotient digit is the largest there is: then the digit is one too small.
-/

namespace McuxDrivers.Casper
open McuxDrivers.Lib

lemma or_eq_add {x d : Nat} (hd : d < 2 ^ 16) : x * 2 ^ 16 ||| d = x * 2 ^ 16 + d := by
  rw [Nat.mul_comm, ← Nat.two_pow_add_eq_or_of_lt hd]

lemma wsub64_of_le {a b : Nat} (hle : b ≤ a) : wsub64 a b = a - b :=
  if_pos hle

section Halves

variable {v u d : Nat} (hv : 2 ^ 31 ≤ v) (hlt : v < 2 ^ 32) (hd : d < 2 ^ 16)

include hv hlt hd

lemma overDivided_iff {q r : Nat} (hq : q ≤ 2 ^ 16 + 1) (hr : r < 2 ^ 16) (hsum : r + q * (v / 2 ^ 16) = u) :
    overDivided (v % 2 ^ 16) d q r = true ↔ (u * 2 ^ 16 + d) / v < q := by
  have hvl : v % 2 ^ 16 < 2 ^ 16 := Nat.mod_lt _ (by decide)
  have hprod : q * (v % 2 ^ 16) < 2 ^ 32 := by
    calc q * (v % 2 ^ 16) ≤ (2 ^ 16 + 1) * (2 ^ 16 - 1) := Nat.mul_le_mul hq (by omega)
      _ < 2 ^ 32 := by decide
  have hsplit : v / 2 ^ 16 * 2 ^ 16 + v % 2 ^ 16 = v := Nat.div_add_mod' v (2 ^ 16)
  have htest := estimate_test (d := d) (by omega : 0 < v / 2 ^ 16 * 2 ^ 16 + v % 2 ^ 16) hsum
  rw [hsplit] at htest
  unfold overDivided
  rw [Nat.mod_eq_of_lt hprod, Nat.mod_eq_of_lt (by omega : r * 2 ^ 16 < 2 ^ 32), or_eq_add hd]
  simp only [gt_iff_lt, decide_eq_true_eq]
  exact htest

/-- An estimate that is one or two too large is corrected. -/
lemma correctHalf_eq {t q r : Nat} (ht : (u * 2 ^ 16 + d) / v = t) (hq : q ≤ 2 ^ 16 + 1) (hr : r < 2 ^ 16)
    (hsum : r + q * (v / 2 ^ 16) = u) (hover : t < q) (htwo : q ≤ t + 2) :
    (if (r + v / 2 ^ 16) % 2 ^ 32 < 0x10000 ∧
        overDivided (v % 2 ^ 16) d (wsub32 q 1) ((r + v / 2 ^ 16) % 2 ^ 32) = true
      then wsub32 (wsub32 q 1) 1 else wsub32 q 1) = t := by
  have hvl : v % 2 ^ 16 < 2 ^ 16 := Nat.mod_lt _ (by decide)
  have hsplit : v / 2 ^ 16 * 2 ^ 16 + v % 2 ^ 16 = v := Nat.div_add_mod' v (2 ^ 16)
  obtain ⟨p, rfl⟩ : ∃ p, q = p + 1 := ⟨q - 1, by omega⟩
  have hsum' : r + v / 2 ^ 16 + p * (v / 2 ^ 16) = u := by
    rw [← hsum]
    ring
  rw [Nat.mod_eq_of_lt (by omega : r + v / 2 ^ 16 < 2 ^ 32), wsub32_of_le (Nat.le_add_left 1 p),
    Nat.add_sub_cancel]
  -- with a rest of more than 16 bits the estimate would pass the test
  have hsmall : t < p → r + v / 2 ^ 16 < 2 ^ 16 := by
    intro hp
    have htest := @estimate_test (2 ^ 16) (v / 2 ^ 16) (v % 2 ^ 16) u d p _ (by omega) hsum'
    rw [hsplit, ht] at htest
    have hlow := htest.mpr hp
    have hprod : p * (v % 2 ^ 16) ≤ 2 ^ 16 * 2 ^ 16 := Nat.mul_le_mul (by omega) hvl.le
    omega
  by_cases hp : t < p
  · have htest := (overDivided_iff hv hlt hd (by omega) (hsmall hp) hsum').mpr (ht.trans_lt hp)
    rw [if_pos ⟨hsmall hp, htest⟩, wsub32_of_le (by omega)]
    omega
  · rw [if_neg]
    · omega
    · rintro ⟨hrest, htest⟩
      have hlt' := (overDivided_iff hv hlt hd (by omega) hrest hsum').mp htest
      exact hp (ht.symm.trans_lt hlt')

lemma divideHalf_eq (hu : u < v) : divideHalf v u d = ((u * 2 ^ 16 + d) / v, (u * 2 ^ 16 + d) % v) := by
  have hsplit : v / 2 ^ 16 * 2 ^ 16 + v % 2 ^ 16 = v := Nat.div_add_mod' v (2 ^ 16)
  have hvl : v % 2 ^ 16 < 2 ^ 16 := Nat.mod_lt _ (by decide)
  have hvh : 0 < v / 2 ^ 16 := by omega
  have hlower := @quotient_le_estimate (2 ^ 16) (v / 2 ^ 16) (v % 2 ^ 16) u d hvh hd
  have hupper := @estimate_le_quotient_add_two (2 ^ 16) (v / 2 ^ 16) (v % 2 ^ 16) u d hvl hd (by omega) (by omega)
  rw [hsplit] at hlower hupper
  have hdigit : (u * 2 ^ 16 + d) / v < 2 ^ 16 := by
    rw [Nat.div_lt_iff_lt_mul (by omega)]
    omega
  have hrest : u % (v / 2 ^ 16) < 2 ^ 16 := (Nat.mod_lt _ hvh).trans (by omega)
  have hsum : u % (v / 2 ^ 16) + u / (v / 2 ^ 16) * (v / 2 ^ 16) = u := Nat.mod_add_div' u _
  have hsub : wsub32 u (u / (v / 2 ^ 16) * (v / 2 ^ 16) % 2 ^ 32) = u % (v / 2 ^ 16) := by
    rw [Nat.mod_eq_of_lt (by omega), wsub32_of_le (by omega)]
    omega
  have hquot : (u * 2 ^ 16 + d) / v * v + (u * 2 ^ 16 + d) % v = u * 2 ^ 16 + d := Nat.div_add_mod' _ v
  have hmod : (u * 2 ^ 16 + d) % v < v := Nat.mod_lt _ (by omega)
  have htest := overDivided_iff hv hlt hd (by omega) hrest hsum
  have hcorrect := correctHalf_eq hv hlt hd rfl (by omega) hrest hsum
  generalize (u * 2 ^ 16 + d) / v = t at *
  unfold divideHalf
  simp only [hsub, htest]
  have hq : (if u / (v / 2 ^ 16) = 0x10000 ∨ t < u / (v / 2 ^ 16) then
        if (u % (v / 2 ^ 16) + v / 2 ^ 16) % 2 ^ 32 < 0x10000 ∧
            overDivided (v % 2 ^ 16) d (wsub32 (u / (v / 2 ^ 16)) 1) ((u % (v / 2 ^ 16) + v / 2 ^ 16) % 2 ^ 32) = true
          then wsub32 (wsub32 (u / (v / 2 ^ 16)) 1) 1 else wsub32 (u / (v / 2 ^ 16)) 1
      else u / (v / 2 ^ 16)) = t := by
    by_cases hover : t < u / (v / 2 ^ 16)
    · rw [if_pos (Or.inr hover)]
      exact hcorrect hover hupper
    · rw [if_neg (by omega)]
      omega
  rw [hq, or_eq_add hd, wsub64_of_le (by omega), if_neg (by omega)]
  exact Prod.ext rfl (by omega)

end Halves

section Digits

variable {v v2 un u1 u2 : Nat} (hv : 2 ^ 31 ≤ v) (hlt : v < 2 ^ 32)

include hv hlt

lemma halves_eq (hun : un < v) (hu1 : u1 < 2 ^ 32) :
    let upper := divideHalf v un (u1 / 2 ^ 16 % 2 ^ 16)
    let lower := divideHalf v upper.2 (u1 % 2 ^ 16)
    (lower.1 ||| upper.1 * 2 ^ 16 % 2 ^ 32, lower.2) = ((un * 2 ^ 32 + u1) / v, (un * 2 ^ 32 + u1) % v) := by
  intro upper lower
  have hupper : upper = _ := divideHalf_eq hv hlt (Nat.mod_lt _ (by decide)) hun
  have hrest : upper.2 < v := by
    rw [hupper]
    exact Nat.mod_lt _ (by omega)
  have hlower : lower = _ := divideHalf_eq hv hlt (Nat.mod_lt _ (by decide)) hrest
  have hpos : 0 < v := by omega
  have hsplit : un * 2 ^ 32 + u1 = (un * 2 ^ 16 + u1 / 2 ^ 16 % 2 ^ 16) * 2 ^ 16 + u1 % 2 ^ 16 := by omega
  have hdigit : upper.1 < 2 ^ 16 := by
    rw [hupper, Nat.div_lt_iff_lt_mul hpos]
    omega
  have hdigit' : lower.1 < 2 ^ 16 := by
    rw [hlower, Nat.div_lt_iff_lt_mul hpos]
    omega
  have hquot : upper.1 * v + upper.2 = un * 2 ^ 16 + u1 / 2 ^ 16 % 2 ^ 16 := by
    rw [hupper]
    exact Nat.div_add_mod' _ v
  have hquot' : lower.1 * v + lower.2 = upper.2 * 2 ^ 16 + u1 % 2 ^ 16 := by
    rw [hlower]
    exact Nat.div_add_mod' _ v
  have hlast : lower.2 < v := by
    rw [hlower]
    exact Nat.mod_lt _ hpos
  clear_value upper lower
  have hwhole : un * 2 ^ 32 + u1 = (upper.1 * 2 ^ 16 + lower.1) * v + lower.2 := by
    rw [hsplit, ← hquot]
    linarith
  rw [hwhole, Nat.mod_eq_of_lt (by omega : upper.1 * 2 ^ 16 < 2 ^ 32), Nat.or_comm, or_eq_add hdigit',
    Nat.mul_comm _ v, Nat.mul_add_div hpos, Nat.mul_add_mod, Nat.div_eq_of_lt hlast, Nat.mod_eq_of_lt hlast,
    Nat.add_zero]

/-- The correction with the second word of the divisor makes a digit exact that is at most `fuel` too large. -/
lemma correctDigit_eq {t u : Nat} (hu : u < v * 2 ^ 32) (hv2 : v2 < 2 ^ 32)
    (ht : (u * 2 ^ 32 + u2) / (v * 2 ^ 32 + v2) = t) (fuel q r : Nat) (hsum : r + q * v = u) (hle : t ≤ q)
    (hfuel : q ≤ t + fuel) (hr : r < 2 ^ 32) : correctDigit v v2 u2 false fuel q r = t := by
  induction fuel generalizing q r with
  | zero => exact Nat.le_antisymm hfuel hle
  | succ fuel ih =>
    have htest (p s : Nat) (hp : s + p * v = u) := @estimate_test (2 ^ 32) v v2 u u2 p s (by omega) hp
    rw [ht] at htest
    have hover : (q * v2 > 2 ^ 32 * r + u2) ↔ t < q := by
      rw [← htest q r hsum, Nat.mul_comm r]
    unfold correctDigit
    simp only [Bool.false_eq_true, false_or, hover]
    by_cases hq : t < q
    · obtain ⟨p, rfl⟩ : ∃ p, q = p + 1 := ⟨q - 1, by omega⟩
      have hsum' : r + v + p * v = u := by
        rw [← hsum]
        ring
      have hp : p < 2 ^ 32 := by
        refine Nat.lt_of_mul_lt_mul_right (a := v) ?_
        rw [Nat.mul_comm (2 ^ 32)]
        omega
      rw [if_pos hq, wsub32_of_le (Nat.le_add_left 1 p), Nat.add_sub_cancel]
      by_cases hwrap : r + v < 2 ^ 32
      · rw [Nat.mod_eq_of_lt hwrap, if_neg (by omega)]
        exact ih p (r + v) hsum' (by omega) (by omega) hwrap
      · -- with a rest of more than a word the digit passes the test
        have hprod : p * v2 ≤ 2 ^ 32 * 2 ^ 32 := Nat.mul_le_mul hp.le hv2.le
        have hexact := (htest p (r + v) hsum').not.mp (by omega)
        rw [if_pos (by omega)]
        omega
    · rw [if_neg hq]
      omega

lemma quotientDigit_of_lt (hv2 : v2 < 2 ^ 32) (hun : un < v) (hu1 : u1 < 2 ^ 32) (hu2 : u2 < 2 ^ 32) :
    quotientDigit v v2 un u1 u2 = ((un * 2 ^ 32 + u1) * 2 ^ 32 + u2) / (v * 2 ^ 32 + v2) := by
  have hpos : 0 < v := by omega
  have hover : ¬ wsub32 un v ≤ un := by
    unfold wsub32
    rw [if_neg (by omega)]
    omega
  have hu : un * 2 ^ 32 + u1 < v * 2 ^ 32 := by
    omega
  have hhalves := halves_eq hv hlt hun hu1
  simp only [Prod.mk.injEq] at hhalves
  have hlower := @quotient_le_estimate (2 ^ 32) v v2 (un * 2 ^ 32 + u1) u2 hpos hu2
  have hupper := @estimate_le_quotient_add_two (2 ^ 32) v v2 (un * 2 ^ 32 + u1) u2 hv2 hu2 (by omega)
    (hu.trans_le (Nat.le_add_right _ _))
  unfold quotientDigit
  simp only [hover, decide_false, Bool.false_eq_true, if_false, hhalves.1, hhalves.2]
  exact correctDigit_eq hv hlt hu hv2 rfl 2 _ _ (Nat.mod_add_div' _ v) hlower hupper
    ((Nat.mod_lt _ hpos).trans hlt)

/-- The digit for equal upper words is not tested. -/
lemma quotientDigit_of_eq (hu1 : u1 < 2 ^ 32) :
    quotientDigit v v2 v u1 u2 = if u1 + v < 2 ^ 32 then 2 ^ 32 - 2 else 2 ^ 32 - 1 := by
  have hover : wsub32 v v = 0 := by
    rw [wsub32_of_le le_rfl, Nat.sub_self]
  have hhalves := halves_eq hv hlt (by omega : 0 < v) hu1
  simp only [Prod.mk.injEq, Nat.zero_mul, Nat.zero_add] at hhalves
  unfold quotientDigit
  simp only [hover, Nat.zero_le, decide_true, if_true, hhalves.1, hhalves.2, correctDigit, true_or]
  by_cases hlarge : v ≤ u1
  · have hquot : u1 / v = 1 := Nat.div_eq_of_lt_le (by omega) (by omega)
    have hrest : u1 % v = u1 - v := by
      rw [Nat.mod_eq_sub_mod hlarge, Nat.mod_eq_of_lt (by omega)]
    have hdigit : wsub32 (wsub32 1 1) 1 = 2 ^ 32 - 1 := rfl
    rw [hrest, hquot, hdigit, ite_self, if_neg (by omega), if_neg (by omega)]
  · rw [Nat.div_eq_of_lt (by omega), Nat.mod_eq_of_lt (not_le.mp hlarge)]
    have hdigit : wsub32 0 1 = 2 ^ 32 - 1 := rfl
    have hdigit' : wsub32 (2 ^ 32 - 1) 1 = 2 ^ 32 - 2 := rfl
    rw [hdigit, hdigit', ite_self]
    by_cases hwrap : u1 + v < 2 ^ 32
    · rw [if_pos hwrap, if_neg (by omega)]
    · rw [if_neg hwrap, if_pos (by omega)]

end Digits

lemma wsub32_lt {a b : Nat} (ha : a < 2 ^ 32) : wsub32 a b < 2 ^ 32 := by
  unfold wsub32
  split_ifs <;> omega

section Words

variable {v : Nat → Nat} {q j : Nat} (hv : ∀ k, v k < 2 ^ 32)

include hv

/-- The subtraction of one word and the borrow it leaves. -/
lemma subtractWord_eq {x b : Nat} (i : Nat) (hq : q < 2 ^ 32) (hx : x < 2 ^ 32) (hb : b < 2 ^ 32) :
    let u64 := q * v i + b
    let borrow := if x < u64 % 2 ^ 32 then (u64 / 2 ^ 32 + 1) % 2 ^ 32 else u64 / 2 ^ 32
    wsub32 x (u64 % 2 ^ 32) + q * v i + b = x + 2 ^ 32 * borrow ∧ borrow < 2 ^ 32 := by
  intro u64 borrow
  have hprod : q * v i ≤ (2 ^ 32 - 1) * (2 ^ 32 - 1) := Nat.mul_le_mul (by omega) (Nat.le_pred_of_lt (hv i))
  have hlt : u64 ≤ (2 ^ 32 - 1) * 2 ^ 32 := by
    simp only [u64]
    omega
  rw [Nat.add_assoc]
  change wsub32 x (u64 % 2 ^ 32) + u64 = _ ∧ _
  simp only [borrow]
  clear_value u64
  unfold wsub32
  split_ifs <;> omega

/-- What the words hold after the multiple of the divisor is subtracted: the borrow is what is missing. -/
lemma subtractLoop_spec (hq : q < 2 ^ 32) (count i : Nat) (u : Nat → Nat) (b : Nat) (hu : ∀ k, u k < 2 ^ 32)
    (hb : b < 2 ^ 32) :
    let s := subtractLoop q j v count i (u, b)
    (∀ k, s.1 k < 2 ^ 32) ∧ s.2 < 2 ^ 32 ∧ (∀ k, k < i + j ∨ i + j + count ≤ k → s.1 k = u k) ∧
      limbs (2 ^ 32) s.1 (i + j) count + q * limbs (2 ^ 32) v i count + b =
        limbs (2 ^ 32) u (i + j) count + (2 ^ 32) ^ count * s.2 := by
  induction count generalizing i u b with
  | zero =>
    refine ⟨hu, hb, fun _ _ => rfl, ?_⟩
    simp [limbs, subtractLoop]
  | succ count ih =>
    obtain ⟨hword, hborrow⟩ := subtractWord_eq hv i hq (hu (i + j)) hb
    have hu' (k : Nat) : Function.update u (i + j) (wsub32 (u (i + j)) ((q * v i + b) % 2 ^ 32)) k < 2 ^ 32 := by
      by_cases hk : k = i + j
      · rw [hk, Function.update_self]
        exact wsub32_lt (hu _)
      · rw [Function.update_of_ne hk]
        exact hu k
    obtain ⟨hlt, hb', hframe, hsum⟩ := ih (i + 1) _ _ hu' hborrow
    intro s
    refine ⟨hlt, hb', ?_, ?_⟩
    · intro k hk
      rw [show s.1 k = _ from hframe k (by omega), Function.update_of_ne (by omega)]
    · have hlow : s.1 (i + j) = _ := hframe (i + j) (by omega)
      rw [Function.update_self] at hlow
      have hrest : limbs (2 ^ 32) (Function.update u (i + j) (wsub32 (u (i + j)) ((q * v i + b) % 2 ^ 32)))
          (i + 1 + j) count = limbs (2 ^ 32) u (i + j + 1) count := by
        rw [Nat.add_right_comm]
        exact limbs_congr (fun k hk _ => Function.update_of_ne (by omega) _ _)
      rw [hrest, Nat.add_right_comm i 1 j] at hsum
      rw [limbs_succ', limbs_succ', limbs_succ', hlow]
      exact subtract_digits_succ hword hsum

lemma addWord_eq {x c : Nat} (i : Nat) (hx : x < 2 ^ 32) (hc : c ≤ 1) :
    let word := (x + c) % 2 ^ 32
    let sum := (word + v i) % 2 ^ 32
    let carry := if word < c then 1 else 0
    let carry := if sum < v i then carry + 1 else carry
    sum + 2 ^ 32 * carry = x + v i + c ∧ carry ≤ 1 := by
  intro word sum carry carry'
  have hvi := hv i
  have hword : word + 2 ^ 32 * carry = x + c := by
    simp only [word, carry]
    split_ifs <;> omega
  have hlt : word < 2 ^ 32 := Nat.mod_lt _ (by decide)
  have hcarry : carry ≤ 1 := by
    simp only [carry]
    split_ifs <;> omega
  have hsum : sum + 2 ^ 32 * (if sum < v i then 1 else 0) = word + v i := by
    simp only [sum]
    clear_value word
    split_ifs <;> omega
  clear_value word sum carry
  simp only [carry']
  split_ifs at hsum ⊢ <;> omega

lemma addBackLoop_spec (count i : Nat) (u : Nat → Nat) (c : Nat) (hu : ∀ k, u k < 2 ^ 32) (hc : c ≤ 1) :
    let s := addBackLoop j v count i (u, c)
    (∀ k, s.1 k < 2 ^ 32) ∧ (∀ k, k < i + j ∨ i + j + count ≤ k → s.1 k = u k) ∧
      limbs (2 ^ 32) s.1 (i + j) count + (2 ^ 32) ^ count * s.2 =
        limbs (2 ^ 32) u (i + j) count + limbs (2 ^ 32) v i count + c := by
  induction count generalizing i u c with
  | zero =>
    refine ⟨hu, fun _ _ => rfl, ?_⟩
    simp [limbs, addBackLoop]
  | succ count ih =>
    obtain ⟨hword, hcarry⟩ := addWord_eq hv i (hu (i + j)) hc
    have hu' (k : Nat) : Function.update u (i + j) (((u (i + j) + c) % 2 ^ 32 + v i) % 2 ^ 32) k < 2 ^ 32 := by
      by_cases hk : k = i + j
      · rw [hk, Function.update_self]
        exact Nat.mod_lt _ (by decide)
      · rw [Function.update_of_ne hk]
        exact hu k
    obtain ⟨hlt, hframe, hsum⟩ := ih (i + 1) _ _ hu' hcarry
    intro s
    refine ⟨hlt, ?_, ?_⟩
    · intro k hk
      rw [show s.1 k = _ from hframe k (by omega), Function.update_of_ne (by omega)]
    · have hlow : s.1 (i + j) = _ := hframe (i + j) (by omega)
      rw [Function.update_self] at hlow
      have hrest : limbs (2 ^ 32) (Function.update u (i + j) (((u (i + j) + c) % 2 ^ 32 + v i) % 2 ^ 32))
          (i + 1 + j) count = limbs (2 ^ 32) u (i + j + 1) count := by
        rw [Nat.add_right_comm]
        exact limbs_congr (fun k hk _ => Function.update_of_ne (by omega) _ _)
      rw [hrest, Nat.add_right_comm i 1 j] at hsum
      rw [limbs_succ', limbs_succ', limbs_succ', hlow]
      exact add_digits_succ hword hsum

end Words

/-- The rounds of the division that go wrong: the upper words of dividend `u` and divisor `v` agree, the
next word of the dividend is small, and yet the quotient digit is the largest there is. -/
def MissedDigit (n u v : Nat) : Prop :=
  u / (2 ^ 32) ^ n = v / (2 ^ 32) ^ (n - 1) ∧ u / (2 ^ 32) ^ (n - 1) % 2 ^ 32 + v / (2 ^ 32) ^ (n - 1) < 2 ^ 32 ∧
    u / v = 2 ^ 32 - 1

instance (n u v : Nat) : Decidable (MissedDigit n u v) :=
  inferInstanceAs (Decidable (_ ∧ _ ∧ _))

/-- The quotient digit from the upper words of `x` and `y` is exact or one too large. -/
lemma quotientDigit_bounds {m x y v v2 un u1 u2 x' y' : Nat} (hx : x = ((un * 2 ^ 32 + u1) * 2 ^ 32 + u2) * (2 ^ 32) ^ m + x')
    (hy : y = (v * 2 ^ 32 + v2) * (2 ^ 32) ^ m + y') (hx' : x' < (2 ^ 32) ^ m) (hy' : y' < (2 ^ 32) ^ m)
    (hv : 2 ^ 31 ≤ v) (hlt : v < 2 ^ 32) (hv2 : v2 < 2 ^ 32) (hu1 : u1 < 2 ^ 32) (hu2 : u2 < 2 ^ 32)
    (hquot : x < y * 2 ^ 32) (hmissed : ¬ MissedDigit (m + 2) x y) :
    quotientDigit v v2 un u1 u2 < 2 ^ 32 ∧
      (quotientDigit v v2 un u1 u2 = x / y ∨ quotientDigit v v2 un u1 u2 = x / y + 1) := by
  have ht : 0 < (2 ^ 32) ^ m := by positivity
  have hxt : x / (2 ^ 32) ^ m = (un * 2 ^ 32 + u1) * 2 ^ 32 + u2 := by
    rw [hx, Nat.mul_comm, Nat.mul_add_div ht, Nat.div_eq_of_lt hx', Nat.add_zero]
  have hyt : y / (2 ^ 32) ^ m = v * 2 ^ 32 + v2 := by
    rw [hy, Nat.mul_comm, Nat.mul_add_div ht, Nat.div_eq_of_lt hy', Nat.add_zero]
  have hx1 : x / (2 ^ 32) ^ (m + 1) = un * 2 ^ 32 + u1 := by
    rw [Nat.pow_succ (2 ^ 32) m, ← Nat.div_div_eq_div_mul, hxt]
    omega
  have hy1 : y / (2 ^ 32) ^ (m + 1) = v := by
    rw [Nat.pow_succ (2 ^ 32) m, ← Nat.div_div_eq_div_mul, hyt]
    omega
  have hx2 : x / (2 ^ 32) ^ (m + 2) = un := by
    rw [Nat.pow_succ (2 ^ 32) (m + 1), ← Nat.div_div_eq_div_mul, hx1]
    omega
  have hypos : 0 < y := Nat.pos_of_mul_pos_right (Nat.zero_lt_of_lt hquot)
  have hmax : x / y < 2 ^ 32 := by
    rw [Nat.div_lt_iff_lt_mul hypos, Nat.mul_comm]
    exact hquot
  have hun : un ≤ v := by
    have hdiv := Nat.div_le_div_right (c := (2 ^ 32) ^ (m + 1) * 2 ^ 32) hquot.le
    rwa [Nat.mul_div_mul_right _ _ (by decide), hy1, ← Nat.pow_succ, hx2] at hdiv
  rcases hun.lt_or_eq with hlow | rfl
  · rw [quotientDigit_of_lt hv hlt hv2 hlow hu1 hu2, ← hxt, ← hyt]
    have hlower : x / y ≤ x / (2 ^ 32) ^ m / (y / (2 ^ 32) ^ m) := quotient_le_leading ht (by omega)
    have hword : x / (2 ^ 32) ^ m / (y / (2 ^ 32) ^ m) < 2 ^ 32 := by
      rw [Nat.div_lt_iff_lt_mul (by omega)]
      omega
    have hupper := leading_le_quotient_add_one ht hypos (by omega : x / (2 ^ 32) ^ m / (y / (2 ^ 32) ^ m) ≤ _)
    exact ⟨hword, by omega⟩
  · have hlow : y / (2 ^ 32) ^ (m + 1) * 2 ^ 32 * (2 ^ 32) ^ (m + 1) ≤ x := by
      have hle := Nat.div_mul_le_self x ((2 ^ 32) ^ (m + 2))
      rw [hx2, Nat.pow_succ (2 ^ 32) (m + 1)] at hle
      rw [hy1]
      linarith
    have hmin := sub_two_le_quotient (by positivity) (by omega) (by decide) hlow
    rw [quotientDigit_of_eq hv hlt hu1]
    by_cases hsmall : u1 + un < 2 ^ 32
    · have hnext : x / (2 ^ 32) ^ (m + 1) % 2 ^ 32 = u1 := by
        rw [hx1]
        omega
      have hdigit : x / y ≠ 2 ^ 32 - 1 := by
        intro hmiss
        refine hmissed ⟨hx2.trans hy1.symm, ?_, hmiss⟩
        rw [Nat.add_sub_assoc (by decide), hnext, hy1]
        exact hsmall
      rw [if_pos hsmall]
      exact ⟨by decide, by omega⟩
    · rw [if_neg hsmall]
      exact ⟨by decide, by omega⟩

/-- The dividend of round `j` in the state before it. -/
def stateDividend (n j : Nat) (s : (Nat → Nat) × Nat) : Nat :=
  s.2 * (2 ^ 32) ^ n + limbs (2 ^ 32) s.1 j n

/-- `q_hat` of round `j` after its correction. -/
def trialDigit (n : Nat) (v : Nat → Nat) (j : Nat) (s : (Nat → Nat) × Nat) : Nat :=
  quotientDigit (v (n - 1)) (v (n - 2)) s.2 (s.1 (j + n - 1)) (s.1 (j + n - 2))

/-- `u_n` of round `j` when it is tested for the add-back. -/
def testedUpper (n : Nat) (v : Nat → Nat) (j : Nat) (s : (Nat → Nat) × Nat) : Nat :=
  if trialDigit n v j s ≠ 0 then wsub32 s.2 (subtractLoop (trialDigit n v j s) j v n 0 (s.1, 0)).2 else s.2

/-- The digit of a round is the quotient or one more, and the divisor is added back exactly if too much was
subtracted. -/
structure RoundRight (n : Nat) (v : Nat → Nat) (j : Nat) (s : (Nat → Nat) × Nat) : Prop where
  digit : trialDigit n v j s = stateDividend n j s / limbs (2 ^ 32) v 0 n ∨
    trialDigit n v j s = stateDividend n j s / limbs (2 ^ 32) v 0 n + 1
  addBack : testedUpper n v j s ≠ 0 ↔ stateDividend n j s < trialDigit n v j s * limbs (2 ^ 32) v 0 n

/-- What a round does with the digit and the borrow that subtracting it leaves. -/
lemma moduloStep_of_subtract {n j un qHat borrow : Nat} {u u' v : Nat → Nat}
    (hdigit : quotientDigit (v (n - 1)) (v (n - 2)) un (u (j + n - 1)) (u (j + n - 2)) = qHat) (hne : qHat ≠ 0)
    (hsub : subtractLoop qHat j v n 0 (u, 0) = (u', borrow)) :
    moduloStep n v j (u, un) =
      let u := if wsub32 un borrow ≠ 0 then (addBackLoop j v n 0 (u', 0)).1 else u'
      (u, u (j + n - 1)) := by
  unfold moduloStep
  simp only [hdigit, hsub, if_pos hne]

lemma upper_eq_zero {un w p : Nat} (h : un * p + w < p) : un = 0 := by
  have hlt : un * p < 1 * p := by
    rw [Nat.one_mul]
    exact (Nat.le_add_right _ _).trans_lt h
  exact Nat.lt_one_iff.mp (Nat.lt_of_mul_lt_mul_right hlt)

lemma moduloStep_of_zero {n j : Nat} {u v : Nat → Nat}
    (hdigit : quotientDigit (v (n - 1)) (v (n - 2)) 0 (u (j + n - 1)) (u (j + n - 2)) = 0) :
    moduloStep n v j (u, 0) = (u, u (j + n - 1)) := by
  unfold moduloStep
  simp only [hdigit, ne_eq, not_true_eq_false, if_false]

section Rounds

variable {m : Nat} {v : Nat → Nat} (hv : ∀ k, v k < 2 ^ 32) (htop : 2 ^ 31 ≤ v (m + 1))

include hv htop

/-- The digit of a round, and what is left when that multiple of the divisor is subtracted. -/
lemma subtractRound_cases {u : Nat → Nat} (un j : Nat) (hu : ∀ k, u k < 2 ^ 32)
    (hlt : stateDividend (m + 2) j (u, un) < limbs (2 ^ 32) v 0 (m + 2) * 2 ^ 32)
    (hmissed : ¬ MissedDigit (m + 2) (stateDividend (m + 2) j (u, un)) (limbs (2 ^ 32) v 0 (m + 2))) :
    let q := trialDigit (m + 2) v j (u, un)
    let r := subtractLoop q j v (m + 2) 0 (u, 0)
    q < 2 ^ 32 ∧
      (q = stateDividend (m + 2) j (u, un) / limbs (2 ^ 32) v 0 (m + 2) ∧ r.2 = un ∧
          limbs (2 ^ 32) r.1 j (m + 2) = stateDividend (m + 2) j (u, un) % limbs (2 ^ 32) v 0 (m + 2) ∨
        q = stateDividend (m + 2) j (u, un) / limbs (2 ^ 32) v 0 (m + 2) + 1 ∧ r.2 = un + 1 ∧
          limbs (2 ^ 32) r.1 j (m + 2) + limbs (2 ^ 32) v 0 (m + 2) =
            stateDividend (m + 2) j (u, un) % limbs (2 ^ 32) v 0 (m + 2) + (2 ^ 32) ^ (m + 2)) := by
  have hV : limbs (2 ^ 32) v 0 (m + 2) < (2 ^ 32) ^ (m + 2) := limbs_lt (fun k _ _ => hv k)
  have hpos : 0 < limbs (2 ^ 32) v 0 (m + 2) := Nat.pos_of_mul_pos_right (Nat.zero_lt_of_lt hlt)
  have hx : stateDividend (m + 2) j (u, un) =
      ((un * 2 ^ 32 + u (j + m + 1)) * 2 ^ 32 + u (j + m)) * (2 ^ 32) ^ m + limbs (2 ^ 32) u j m := by
    unfold stateDividend
    rw [limbs_add_two, Nat.pow_add (2 ^ 32) m 2]
    ring
  have hy := limbs_add_two (2 ^ 32) v 0 m
  rw [Nat.zero_add] at hy
  obtain ⟨hword, hdigit⟩ := quotientDigit_bounds hx hy (limbs_lt (fun k _ _ => hu k)) (limbs_lt (fun k _ _ => hv k)) htop
    (hv _) (hv _) (hu _) (hu _) hlt hmissed
  change trialDigit (m + 2) v j (u, un) < 2 ^ 32 at hword
  change trialDigit (m + 2) v j (u, un) = _ ∨ trialDigit (m + 2) v j (u, un) = _ at hdigit
  obtain ⟨hu', -, -, hsub⟩ := subtractLoop_spec hv (j := j) hword (m + 2) 0 u 0 hu (by decide)
  rw [Nat.zero_add, Nat.add_zero] at hsub
  have hW' : limbs (2 ^ 32) (subtractLoop (trialDigit (m + 2) v j (u, un)) j v (m + 2) 0 (u, 0)).1 j (m + 2) <
      (2 ^ 32) ^ (m + 2) := limbs_lt (fun k _ _ => hu' k)
  refine ⟨hword, ?_⟩
  rcases hdigit with hexact | hover
  · obtain ⟨hborrow, hrest⟩ := subtract_quotient hpos hV.le hW' hexact.symm hsub
    exact Or.inl ⟨hexact, hborrow, hrest⟩
  · obtain ⟨hborrow, hrest⟩ := subtract_quotient_succ hpos hV.le hW' hover.symm hsub
    exact Or.inr ⟨hover, hborrow, hrest⟩

/-- A round leaves the remainder of its dividend, whose upper word is `un`. -/
lemma moduloStep_spec {u : Nat → Nat} (un j : Nat) (hu : ∀ k, u k < 2 ^ 32)
    (hlt : un * (2 ^ 32) ^ (m + 2) + limbs (2 ^ 32) u j (m + 2) < limbs (2 ^ 32) v 0 (m + 2) * 2 ^ 32)
    (hmissed : ¬ MissedDigit (m + 2) (un * (2 ^ 32) ^ (m + 2) + limbs (2 ^ 32) u j (m + 2))
      (limbs (2 ^ 32) v 0 (m + 2))) :
    let s := moduloStep (m + 2) v j (u, un)
    (∀ k, s.1 k < 2 ^ 32) ∧ (∀ k, k < j ∨ j + (m + 2) ≤ k → s.1 k = u k) ∧ s.2 = s.1 (j + m + 1) ∧
      limbs (2 ^ 32) s.1 j (m + 2) =
        (un * (2 ^ 32) ^ (m + 2) + limbs (2 ^ 32) u j (m + 2)) % limbs (2 ^ 32) v 0 (m + 2) := by
  obtain ⟨hword, hcases⟩ := subtractRound_cases hv htop un j hu hlt hmissed
  obtain ⟨qHat, hqHat⟩ : ∃ q, trialDigit (m + 2) v j (u, un) = q := ⟨_, rfl⟩
  rw [hqHat] at hword hcases
  have hV : limbs (2 ^ 32) v 0 (m + 2) < (2 ^ 32) ^ (m + 2) := limbs_lt (fun k _ _ => hv k)
  have hW : limbs (2 ^ 32) u j (m + 2) < (2 ^ 32) ^ (m + 2) := limbs_lt (fun k _ _ => hu k)
  have hpos : 0 < limbs (2 ^ 32) v 0 (m + 2) := Nat.pos_of_mul_pos_right (Nat.zero_lt_of_lt hlt)
  unfold stateDividend at hcases
  dsimp only at hcases
  intro s
  by_cases hzero : qHat = 0
  · -- nothing is subtracted, and the upper word is 0
    have hsmall : un * (2 ^ 32) ^ (m + 2) + limbs (2 ^ 32) u j (m + 2) < limbs (2 ^ 32) v 0 (m + 2) := by
      rw [← Nat.div_eq_zero_iff_lt hpos]
      rcases hcases with ⟨hexact, -⟩ | ⟨hover, -⟩
      · exact hexact.symm.trans hzero
      · exact absurd (hover.symm.trans hzero) (Nat.succ_ne_zero _)
    obtain rfl : un = 0 := upper_eq_zero (hsmall.trans hV)
    have hs : s = _ := moduloStep_of_zero (hqHat.trans hzero)
    rw [hs]
    refine ⟨hu, fun _ _ => rfl, rfl, ?_⟩
    rw [Nat.mod_eq_of_lt hsmall, Nat.zero_mul, Nat.zero_add]
  · obtain ⟨hu', -, hframe, -⟩ := subtractLoop_spec hv (j := j) hword (m + 2) 0 u 0 hu (by decide)
    obtain ⟨⟨u', borrow⟩, hloop⟩ : ∃ s, subtractLoop qHat j v (m + 2) 0 (u, 0) = s := ⟨_, rfl⟩
    have hs : s = _ := moduloStep_of_subtract hqHat hzero hloop
    rw [hloop] at hu' hframe hcases
    rw [Nat.zero_add] at hframe
    dsimp only at hframe hcases
    have hlimit (r : Nat → Nat) (hr : ∀ k, r k < 2 ^ 32) : limbs (2 ^ 32) r j (m + 2) < (2 ^ 32) ^ (m + 2) :=
      limbs_lt (fun k _ _ => hr k)
    have hback := addBackLoop_spec hv (j := j) (m + 2) 0 u' 0 hu' (by decide)
    clear hlt hmissed
    generalize (2 ^ 32) ^ (m + 2) = p at *
    rcases hcases with ⟨-, rfl, hrest⟩ | ⟨-, rfl, hrest⟩
    · have hborrow : wsub32 borrow borrow = 0 := by
        rw [wsub32_of_le le_rfl, Nat.sub_self]
      rw [hs, hborrow]
      exact ⟨hu', hframe, rfl, hrest⟩
    · have hborrow : wsub32 un (un + 1) ≠ 0 := by
        unfold wsub32
        rw [if_neg (by omega)]
        omega
      rw [if_pos hborrow] at hs
      obtain ⟨hu'', hframe', hadd⟩ := hback
      generalize addBackLoop j v (m + 2) 0 (u', 0) = r at *
      rw [Nat.zero_add] at hframe'
      rw [Nat.zero_add] at hadd
      rw [hs]
      refine ⟨hu'', fun k hk => (hframe' k hk).trans (hframe k hk), rfl, ?_⟩
      have hmod := Nat.mod_lt (un * p + limbs (2 ^ 32) u j (m + 2)) hpos
      have hcong : (limbs (2 ^ 32) r.1 j (m + 2) + p * r.2) % p =
          ((un * p + limbs (2 ^ 32) u j (m + 2)) % limbs (2 ^ 32) v 0 (m + 2) + p) % p := by
        rw [hadd, Nat.add_zero, hrest]
      rwa [Nat.add_mul_mod_self_left, Nat.add_mod_right, Nat.mod_eq_of_lt (hlimit r.1 hu''),
        Nat.mod_eq_of_lt (hmod.trans hV)] at hcong

lemma roundRight_of_not_missed {s : (Nat → Nat) × Nat} (j : Nat) (hu : ∀ k, s.1 k < 2 ^ 32)
    (hlt : stateDividend (m + 2) j s < limbs (2 ^ 32) v 0 (m + 2) * 2 ^ 32)
    (hmissed : ¬ MissedDigit (m + 2) (stateDividend (m + 2) j s) (limbs (2 ^ 32) v 0 (m + 2))) :
    RoundRight (m + 2) v j s := by
  obtain ⟨u, un⟩ := s
  have hV : limbs (2 ^ 32) v 0 (m + 2) < (2 ^ 32) ^ (m + 2) := limbs_lt (fun k _ _ => hv k)
  have hpos : 0 < limbs (2 ^ 32) v 0 (m + 2) := Nat.pos_of_mul_pos_right (Nat.zero_lt_of_lt hlt)
  obtain ⟨-, hcases⟩ := subtractRound_cases hv htop un j hu hlt hmissed
  constructor
  · exact hcases.imp And.left And.left
  · unfold testedUpper
    rcases hcases with ⟨hexact, hborrow, -⟩ | ⟨hover, hborrow, -⟩
    · have hle : trialDigit (m + 2) v j (u, un) * limbs (2 ^ 32) v 0 (m + 2) ≤ stateDividend (m + 2) j (u, un) := by
        rw [hexact]
        exact Nat.div_mul_le_self _ _
      refine iff_of_false ?_ (not_lt.mpr hle)
      rw [not_not]
      split_ifs with hzero
      · rw [hborrow, wsub32_of_le le_rfl, Nat.sub_self]
      · have hsmall := (Nat.div_eq_zero_iff_lt hpos).mp (hexact.symm.trans (not_not.mp hzero))
        exact upper_eq_zero (hsmall.trans hV)
    · refine iff_of_true ?_ ?_
      · rw [if_pos (hover.symm ▸ Nat.succ_ne_zero _), hborrow]
        unfold wsub32
        rw [if_neg (by omega)]
        omega
      · rw [hover, Nat.mul_comm]
        exact Nat.lt_mul_div_succ _ hpos

/-- The state before round `i` of a division of `p`: a remainder and the words of `p` below. -/
structure RoundState (n : Nat) (v : Nat → Nat) (p i : Nat) (s : (Nat → Nat) × Nat) : Prop where
  words : ∀ k, s.1 k < 2 ^ 32
  dividend : stateDividend n i s = roundDividend (2 ^ 32) (limbs (2 ^ 32) v 0 n) p i
  low : limbs (2 ^ 32) s.1 0 i = p % (2 ^ 32) ^ i

omit hv in
lemma divisor_pos : 0 < limbs (2 ^ 32) v 0 (m + 2) := by
  rw [limbs_add_two, Nat.zero_add]
  positivity

omit hv in
lemma RoundState.dividend_lt {p i : Nat} {s : (Nat → Nat) × Nat} (h : RoundState (m + 2) v p i s) :
    stateDividend (m + 2) i s < limbs (2 ^ 32) v 0 (m + 2) * 2 ^ 32 := by
  rw [h.dividend]
  exact roundDividend_lt (by decide) (divisor_pos htop)

/-- A round that does not go wrong leads to the state before the next one. -/
lemma RoundState.next {p j : Nat} {s : (Nat → Nat) × Nat} (h : RoundState (m + 2) v p (j + 1) s)
    (hmissed : ¬ MissedDigit (m + 2) (roundDividend (2 ^ 32) (limbs (2 ^ 32) v 0 (m + 2)) p (j + 1))
      (limbs (2 ^ 32) v 0 (m + 2))) : RoundState (m + 2) v p j (moduloStep (m + 2) v (j + 1) s) := by
  have hlt := h.dividend_lt htop
  obtain ⟨hu, hround, hlow⟩ := h
  obtain ⟨u, un⟩ := s
  rw [← hround] at hmissed
  unfold stateDividend at hround hlt hmissed
  dsimp only at hu hround hlow hlt hmissed
  obtain ⟨hu', hframe, hupper, hrest⟩ := moduloStep_spec hv htop un (j + 1) hu hlt hmissed
  rw [hround, roundDividend_mod] at hrest
  obtain ⟨⟨u', un'⟩, hstep⟩ : ∃ s, moduloStep (m + 2) v (j + 1) (u, un) = s := ⟨_, rfl⟩
  rw [hstep] at hu' hframe hupper hrest ⊢
  have hkeep (k : Nat) (hk : k < j + 1) : u' k = u k := hframe k (Or.inl hk)
  have hlow' : limbs (2 ^ 32) u' 0 (j + 1) = p % (2 ^ 32) ^ (j + 1) := by
    rw [← hlow]
    exact limbs_congr (fun k _ hk => hkeep k (by omega))
  have hdigit : u' j = p / (2 ^ 32) ^ j % 2 ^ 32 := by
    have hdiv := limbs_div (n := 1) (fun k (_ : 0 ≤ k) (_ : k < 0 + j) => hu' k)
    rw [hlow', limbs_one, Nat.zero_add, Nat.pow_succ, Nat.mod_mul_right_div_self] at hdiv
    exact hdiv.symm
  refine ⟨hu', ?_, ?_⟩
  · have htop' : un' = u' (j + (m + 2)) := hupper.trans (congrArg u' (by omega))
    calc un' * (2 ^ 32) ^ (m + 2) + limbs (2 ^ 32) u' j (m + 2) = limbs (2 ^ 32) u' j (m + 2 + 1) := by
          rw [limbs_add _ _ _ (m + 2) 1, limbs_one, htop', Nat.mul_comm, Nat.add_comm]
      _ = limbs (2 ^ 32) u' (j + 1) (m + 2) * 2 ^ 32 + u' j := by
          rw [limbs_succ', Nat.mul_comm, Nat.add_comm]
      _ = roundDividend (2 ^ 32) (limbs (2 ^ 32) v 0 (m + 2)) p j := by
          rw [hrest, hdigit]
          rfl
  · have hmod := limbs_mod (n := 1) (fun k (_ : 0 ≤ k) (_ : k < 0 + j) => hu' k)
    rw [hlow', Nat.pow_succ, Nat.mod_mul_right_mod] at hmod
    exact hmod.symm

/-- The last round leaves the remainder. -/
lemma RoundState.last {p : Nat} {s : (Nat → Nat) × Nat} (h : RoundState (m + 2) v p 0 s)
    (hmissed : ¬ MissedDigit (m + 2) (roundDividend (2 ^ 32) (limbs (2 ^ 32) v 0 (m + 2)) p 0)
      (limbs (2 ^ 32) v 0 (m + 2))) :
    limbs (2 ^ 32) (moduloStep (m + 2) v 0 s).1 0 (m + 2) = p % limbs (2 ^ 32) v 0 (m + 2) := by
  have hlt := h.dividend_lt htop
  obtain ⟨hu, hround, -⟩ := h
  obtain ⟨u, un⟩ := s
  rw [← hround] at hmissed
  unfold stateDividend at hround hlt hmissed
  dsimp only at hu hround hlt hmissed
  obtain ⟨-, -, -, hrest⟩ := moduloStep_spec hv htop un 0 hu hlt hmissed
  rwa [hround, roundDividend_mod, pow_zero, Nat.div_one] at hrest

/-- The rounds from `j` down leave the remainder of `p` in the lowest words, unless one of them goes wrong. -/
lemma moduloLoop_spec {p : Nat} (j : Nat) (s : (Nat → Nat) × Nat) (h : RoundState (m + 2) v p j s)
    (hmissed : ∀ i ≤ j, ¬ MissedDigit (m + 2) (roundDividend (2 ^ 32) (limbs (2 ^ 32) v 0 (m + 2)) p i)
      (limbs (2 ^ 32) v 0 (m + 2))) :
    limbs (2 ^ 32) (moduloLoop (m + 2) v j s).1 0 (m + 2) = p % limbs (2 ^ 32) v 0 (m + 2) := by
  induction j generalizing s with
  | zero => exact h.last hv htop (hmissed 0 le_rfl)
  | succ j ih => exact ih _ (h.next hv htop (hmissed (j + 1) le_rfl)) (fun i hi => hmissed i (by omega))

omit hv in
lemma roundState_start {u : Nat → Nat} (hu : ∀ k, u k < 2 ^ 32) :
    RoundState (m + 2) v (limbs (2 ^ 32) u 0 (m + 2 + (m + 2))) (m + 2) (u, 0) := by
  have hlow (n k : Nat) (_ : 0 ≤ k) (_ : k < 0 + n) : u k < 2 ^ 32 := hu k
  have hsmall : limbs (2 ^ 32) u 0 (m + 2 + (m + 2)) / (2 ^ 32) ^ (m + 2 + 1) < limbs (2 ^ 32) v 0 (m + 2) := by
    rw [show m + 2 + (m + 2) = m + 2 + 1 + (m + 1) by omega, limbs_div (hlow _), Nat.zero_add]
    calc limbs (2 ^ 32) u (m + 2 + 1) (m + 1) < (2 ^ 32) ^ (m + 1) := limbs_lt (fun k _ _ => hu k)
      _ ≤ (2 ^ 32) ^ (m + 1) * v (0 + (m + 1)) := by
          rw [Nat.zero_add]
          exact Nat.le_mul_of_pos_right _ (Nat.lt_of_lt_of_le (by decide) htop)
      _ ≤ limbs (2 ^ 32) v 0 (m + 2) := Nat.le_add_left _ _
  refine ⟨hu, ?_, (limbs_mod (hlow _)).symm⟩
  unfold stateDividend
  rw [roundDividend_first hsmall, limbs_div (hlow _), Nat.zero_mul, Nat.zero_add, Nat.zero_add]

/-- `MultprecModulo` from round `m + 2` on leaves the remainder of a number of twice the divisor's length. -/
theorem multprecModulo_eq {u : Nat → Nat} (hu : ∀ k, u k < 2 ^ 32)
    (hmissed : ∀ i ≤ m + 2, ¬ MissedDigit (m + 2) (roundDividend (2 ^ 32) (limbs (2 ^ 32) v 0 (m + 2))
      (limbs (2 ^ 32) u 0 (m + 2 + (m + 2))) i) (limbs (2 ^ 32) v 0 (m + 2))) :
    limbs (2 ^ 32) (multprecModulo (m + 2) u v (m + 2)) 0 (m + 2) =
      limbs (2 ^ 32) u 0 (m + 2 + (m + 2)) % limbs (2 ^ 32) v 0 (m + 2) := by
  exact moduloLoop_spec hv htop (m + 2) (u, 0) (roundState_start htop hu) hmissed

end Rounds

end McuxDrivers.Casper
