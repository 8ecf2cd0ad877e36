import Mathlib.Algebra.Order.Ring.Nat
import Mathlib.Tactic.Ring
import Mathlib.Tactic.Linarith

/-!
# Estimates of a quotient digit

A quotient digit is estimated from the leading digits of the dividend and the divisor. With a divisor of
two digits the usual test of the estimate is exact; with more digits two of them leave an error of at
most one.
-/

namespace McuxDrivers.Lib

section TwoDigits

variable {b vh vl u d : Nat}

/-- The leading digit of the divisor alone gives at least the quotient. -/
lemma quotient_le_estimate (hvh : 0 < vh) (hd : d < b) : (u * b + d) / (vh * b + vl) ≤ u / vh := by
  rw [Nat.le_div_iff_mul_le hvh]
  have hquot := Nat.div_mul_le_self (u * b + d) (vh * b + vl)
  generalize (u * b + d) / (vh * b + vl) = q at *
  have hlt : q * vh * b < (u + 1) * b := by
    calc q * vh * b ≤ q * (vh * b + vl) := by
          rw [Nat.mul_assoc]
          exact Nat.mul_le_mul_left _ (Nat.le_add_right _ _)
      _ ≤ u * b + d := hquot
      _ < (u + 1) * b := by rw [Nat.succ_mul]; omega
  exact Nat.lt_succ_iff.mp (Nat.lt_of_mul_lt_mul_right hlt)

/-- With a leading digit of at least half the base it is at most two too large. -/
lemma estimate_le_quotient_add_two (hvl : vl < b) (hd : d < b) (hhalf : b ≤ 2 * vh) (hu : u < vh * b + vl) :
    u / vh ≤ (u * b + d) / (vh * b + vl) + 2 := by
  by_contra hgt
  have hpos : 0 < vh * b + vl := by omega
  have hnext := Nat.lt_mul_div_succ (u * b + d) hpos
  have hdigit : (u * b + d) / (vh * b + vl) < b := by
    rw [Nat.div_lt_iff_lt_mul hpos]
    calc u * b + d < (u + 1) * b := by rw [Nat.succ_mul]; omega
      _ ≤ (vh * b + vl) * b := Nat.mul_le_mul_right _ hu
      _ = b * (vh * b + vl) := Nat.mul_comm _ _
  generalize (u * b + d) / (vh * b + vl) = q at *
  have hest : (q + 3) * vh ≤ u := by
    calc (q + 3) * vh ≤ u / vh * vh := Nat.mul_le_mul_right _ (by omega)
      _ ≤ u := Nat.div_mul_le_self _ _
  have htwo : (q + 1) * (vh * b) + 2 * vh * b < (q + 1) * (vh * b) + vl * (q + 1) := by
    calc (q + 1) * (vh * b) + 2 * vh * b = (q + 3) * vh * b := by ring
      _ ≤ u * b := Nat.mul_le_mul_right _ hest
      _ ≤ u * b + d := Nat.le_add_right _ _
      _ < (vh * b + vl) * (q + 1) := hnext
      _ = (q + 1) * (vh * b) + vl * (q + 1) := by ring
  have hsmall : vl * (q + 1) ≤ 2 * vh * b := by
    calc vl * (q + 1) ≤ b * b := Nat.mul_le_mul hvl.le hdigit
      _ ≤ 2 * vh * b := Nat.mul_le_mul_right _ hhalf
  omega

/-- The test of the estimate compares it with the quotient. -/
lemma estimate_test {q r : Nat} (hpos : 0 < vh * b + vl) (hr : r + q * vh = u) :
    r * b + d < q * vl ↔ (u * b + d) / (vh * b + vl) < q := by
  rw [Nat.div_lt_iff_lt_mul hpos, ← hr]
  constructor
  · intro h
    calc (r + q * vh) * b + d = r * b + d + q * (vh * b) := by ring
      _ < q * vl + q * (vh * b) := Nat.add_lt_add_right h _
      _ = q * (vh * b + vl) := by ring
  · intro h
    have hsplit : r * b + d + q * (vh * b) < q * vl + q * (vh * b) := by
      calc r * b + d + q * (vh * b) = (r + q * vh) * b + d := by ring
        _ < q * (vh * b + vl) := h
        _ = q * vl + q * (vh * b) := by ring
    exact Nat.lt_of_add_lt_add_right hsplit

end TwoDigits

section LeadingDigits

variable {t x v : Nat}

lemma quotient_le_leading (ht : 0 < t) (hv : 0 < v / t) : x / v ≤ x / t / (v / t) := by
  rw [Nat.le_div_iff_mul_le hv, Nat.le_div_iff_mul_le ht]
  calc x / v * (v / t) * t = x / v * (v / t * t) := Nat.mul_assoc _ _ _
    _ ≤ x / v * v := Nat.mul_le_mul_left _ (Nat.div_mul_le_self v t)
    _ ≤ x := Nat.div_mul_le_self x v

/-- They give at most one more, if the divisor's are not much smaller than the quotient. -/
lemma leading_le_quotient_add_one (ht : 0 < t) (hv : 0 < v) (hq : x / t / (v / t) ≤ v / t + 1) :
    x / t / (v / t) ≤ x / v + 1 := by
  by_contra hgt
  have hx := Nat.lt_mul_div_succ x hv
  have hlead := Nat.lt_mul_div_succ v ht
  have hquot : x / t / (v / t) * (v / t) * t ≤ x := by
    calc x / t / (v / t) * (v / t) * t ≤ x / t * t := Nat.mul_le_mul_right _ (Nat.div_mul_le_self _ _)
      _ ≤ x := Nat.div_mul_le_self _ _
  have htwo : 2 ≤ x / t / (v / t) := (Nat.le_add_left 2 (x / v)).trans (not_le.mp hgt)
  obtain ⟨k, hk⟩ := Nat.exists_eq_add_of_le' htwo
  rw [hk] at hquot hgt hq
  generalize v / t = w at *
  have hlt : (k + 2) * w * t < (w + 1) * (k + 1) * t := by
    calc (k + 2) * w * t ≤ x := hquot
      _ < v * (x / v + 1) := hx
      _ ≤ v * (k + 1) := Nat.mul_le_mul_left _ (by omega)
      _ ≤ t * (w + 1) * (k + 1) := Nat.mul_le_mul_right _ hlead.le
      _ = (w + 1) * (k + 1) * t := by ring
  have hwords : (k + 2) * w < (w + 1) * (k + 1) := Nat.lt_of_mul_lt_mul_right hlt
  have hsplit : (k + 1) * w + w < (k + 1) * w + (k + 1) := by
    calc (k + 1) * w + w = (k + 2) * w := by ring
      _ < (w + 1) * (k + 1) := hwords
      _ = (k + 1) * w + (k + 1) := by ring
  omega

/-- When the leading digits agree and are at least half the base, the quotient is one of the two largest. -/
lemma sub_two_le_quotient {b : Nat} (ht : 0 < t) (hhalf : b ≤ 2 * (v / t)) (hb : 0 < b) (hx : v / t * b * t ≤ x) :
    b - 2 ≤ x / v := by
  have hlead : v < t * (v / t + 1) := Nat.lt_mul_div_succ v ht
  have hv : 0 < v := Nat.pos_of_div_pos (by omega : 0 < v / t)
  rw [Nat.le_div_iff_mul_le hv]
  have hdigits : (b - 2) * (v / t + 1) ≤ v / t * b := by
    obtain hsmall | ⟨k, rfl⟩ := (Nat.lt_or_ge b 2).imp_right Nat.exists_eq_add_of_le'
    · rw [Nat.sub_eq_zero_of_le hsmall.le, Nat.zero_mul]
      exact Nat.zero_le _
    · rw [Nat.add_sub_cancel]
      linarith
  calc (b - 2) * v ≤ (b - 2) * (t * (v / t + 1)) := Nat.mul_le_mul_left _ hlead.le
    _ = (b - 2) * (v / t + 1) * t := by ring
    _ ≤ v / t * b * t := Nat.mul_le_mul_right _ hdigits
    _ ≤ x := hx

end LeadingDigits

/-- Subtracting a multiple digit by digit: the lowest digit and the digits above it. -/
lemma subtract_digits_succ {b q n x x' y c c' r r' s t : Nat} (hlow : x' + q * y + c = x + b * c')
    (hrest : r' + q * s + c' = r + b ^ n * t) :
    x' + b * r' + q * (y + b * s) + c = x + b * r + b ^ (n + 1) * t := by
  calc x' + b * r' + q * (y + b * s) + c = x' + q * y + c + b * (r' + q * s) := by ring
    _ = x + b * (r' + q * s + c') := by rw [hlow]; ring
    _ = x + b * r + b ^ (n + 1) * t := by rw [hrest]; ring

/-- Adding digit by digit: the lowest digit and the digits above it. -/
lemma add_digits_succ {b n x x' y c c' r r' s t : Nat} (hlow : x' + b * c' = x + y + c)
    (hrest : r' + b ^ n * t = r + s + c') :
    x' + b * r' + b ^ (n + 1) * t = x + b * r + (y + b * s) + c := by
  calc x' + b * r' + b ^ (n + 1) * t = x' + b * (r' + b ^ n * t) := by ring
    _ = x' + b * c' + b * (r + s) := by rw [hrest]; ring
    _ = x + b * r + (y + b * s) + c := by rw [hlow]; ring

section Round

variable {p v un w w' b q : Nat} (hpos : 0 < v) (hv : v ≤ p) (hw' : w' < p)

include hpos hv hw'

/-- Subtracting the quotient times the divisor leaves the remainder and borrows the upper digit. -/
lemma subtract_quotient (hq : (un * p + w) / v = q) (hsub : w' + q * v = w + p * b) :
    b = un ∧ w' = (un * p + w) % v := by
  have hsplit : q * v + (un * p + w) % v = un * p + w := hq ▸ Nat.div_add_mod' (un * p + w) v
  have hmod : (un * p + w) % v < v := Nat.mod_lt _ hpos
  generalize (un * p + w) % v = r at *
  have hsum : un * p + w' = r + b * p := by
    rw [Nat.mul_comm b p]
    omega
  have hborrow : b = un := by
    have hdiv := congrArg (· / p) hsum
    simpa [Nat.add_comm, Nat.add_mul_div_right _ _ (hpos.trans_le hv), Nat.div_eq_of_lt hw',
      Nat.div_eq_of_lt (hmod.trans_le hv)] using hdiv.symm
  subst hborrow
  exact ⟨rfl, by omega⟩

/-- Subtracting the divisor once too often borrows one more; adding it back leaves the remainder. -/
lemma subtract_quotient_succ (hq : (un * p + w) / v + 1 = q) (hsub : w' + q * v = w + p * b) :
    b = un + 1 ∧ w' + v = (un * p + w) % v + p := by
  have hsplit : (q - 1) * v + (un * p + w) % v = un * p + w := by
    rw [← hq]
    exact Nat.div_add_mod' (un * p + w) v
  have hmod : (un * p + w) % v < v := Nat.mod_lt _ hpos
  obtain ⟨k, rfl⟩ : ∃ k, q = k + 1 := ⟨_, hq.symm⟩
  rw [Nat.add_sub_cancel] at hsplit
  generalize (un * p + w) % v = r at *
  have hsum : un * p + w' + v = r + b * p := by
    rw [Nat.add_mul, Nat.one_mul] at hsub
    rw [Nat.mul_comm b p]
    omega
  have hlow : un < b := by
    refine Nat.lt_of_mul_lt_mul_right (a := p) ?_
    omega
  have hhigh : b < un + 2 := by
    refine Nat.lt_of_mul_lt_mul_right (a := p) ?_
    rw [Nat.add_mul]
    omega
  obtain rfl : b = un + 1 := by omega
  rw [Nat.add_mul, Nat.one_mul] at hsum
  exact ⟨rfl, by omega⟩

end Round

section Rounds

variable {b v p i : Nat}

/-- What round `i` of the long division of `p` by `v` divides: the remainder so far and the next digit. -/
def roundDividend (b v p i : Nat) : Nat :=
  p / b ^ (i + 1) % v * b + p / b ^ i % b

lemma roundDividend_lt (hb : 0 < b) (hv : 0 < v) : roundDividend b v p i < v * b := by
  have hrest : p / b ^ (i + 1) % v + 1 ≤ v := Nat.mod_lt _ hv
  have hdigit : p / b ^ i % b < b := Nat.mod_lt _ hb
  calc p / b ^ (i + 1) % v * b + p / b ^ i % b < (p / b ^ (i + 1) % v + 1) * b := by
        rw [Nat.add_mul, Nat.one_mul]
        exact Nat.add_lt_add_left hdigit _
    _ ≤ v * b := Nat.mul_le_mul_right b hrest

lemma roundDividend_mod : roundDividend b v p i % v = p / b ^ i % v := by
  have hsplit : p / b ^ (i + 1) * b + p / b ^ i % b = p / b ^ i := by
    rw [pow_succ, ← Nat.div_div_eq_div_mul]
    exact Nat.div_add_mod' _ b
  unfold roundDividend
  rw [Nat.add_mod, Nat.mod_mul_mod, ← Nat.add_mod, hsplit]

/-- The first round, where no remainder is left over. -/
lemma roundDividend_first (h : p / b ^ (i + 1) < v) : roundDividend b v p i = p / b ^ i := by
  unfold roundDividend
  rw [Nat.mod_eq_of_lt h, pow_succ, ← Nat.div_div_eq_div_mul]
  exact Nat.div_add_mod' _ b

end Rounds

end McuxDrivers.Lib
