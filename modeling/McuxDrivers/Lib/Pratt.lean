import Mathlib.NumberTheory.LucasPrimality
import Mathlib.Data.List.Prime
import Mathlib.Data.Nat.Prime.Basic

/-!
# Primes from Lucas's test

`prime_of_lucas` states Lucas's test on natural numbers: the powers are computed by squaring, so that the kernel
evaluates them, and the prime factors of `p - 1` are listed with their multiplicity. `Certified` is a list of
such tests in which every large factor is the subject of a later one.
-/

namespace McuxDrivers.Lib

/-- `acc * a ^ e` modulo `m` for an exponent of at most `k` bits, from the lowest bit on. -/
def powMod (m : Nat) : Nat → Nat → Nat → Nat → Nat
  | 0, acc, _, _ => acc % m
  | k + 1, acc, a, e => powMod m k (if e % 2 = 1 then acc * a % m else acc) (a * a % m) (e / 2)

lemma powMod_modEq (m k acc a e : Nat) (he : e < 2 ^ k) : powMod m k acc a e ≡ acc * a ^ e [MOD m] := by
  induction k generalizing acc a e with
  | zero =>
    obtain rfl : e = 0 := by omega
    rw [powMod, pow_zero, mul_one]
    exact Nat.mod_modEq _ _
  | succ k ih =>
    have hhalf : e / 2 < 2 ^ k := by
      rw [pow_succ] at he
      omega
    refine (ih _ _ _ hhalf).trans ?_
    have hsquare : (a * a % m) ^ (e / 2) ≡ a ^ (2 * (e / 2)) [MOD m] := by
      rw [pow_mul, sq]
      exact (Nat.mod_modEq _ _).pow _
    rcases Nat.mod_two_eq_zero_or_one e with heven | hodd
    · rw [if_neg (by omega)]
      refine (hsquare.mul_left acc).trans ?_
      rw [show 2 * (e / 2) = e by omega]
    · rw [if_pos hodd]
      refine ((Nat.mod_modEq _ _).mul hsquare).trans ?_
      rw [mul_assoc, ← pow_succ', show 2 * (e / 2) + 1 = e by omega]

lemma powMod_eq_one_iff {p k a e : Nat} (hp : 1 < p) (he : e < 2 ^ k) :
    powMod p k 1 a e % p = 1 ↔ (a : ZMod p) ^ e = 1 := by
  have hpow := powMod_modEq p k 1 a e he
  rw [one_mul] at hpow
  have hcast : (a : ZMod p) ^ e = 1 ↔ a ^ e ≡ 1 [MOD p] := by
    rw [← ZMod.natCast_eq_natCast_iff, Nat.cast_pow, Nat.cast_one]
  rw [hcast, hpow, Nat.ModEq, Nat.mod_eq_of_lt hp]

/-- Lucas's test with `a`, where `qs` are the prime factors of `p - 1`. -/
theorem prime_of_lucas {p : Nat} (k a : Nat) (qs : List Nat) (hqs : ∀ q ∈ qs, q.Prime) (hp : 1 < p) (hk : p < 2 ^ k)
    (hprod : qs.prod = p - 1) (hone : powMod p k 1 a (p - 1) % p = 1)
    (hne : ∀ q ∈ qs, powMod p k 1 a ((p - 1) / q) % p ≠ 1) : p.Prime := by
  refine lucas_primality p a ((powMod_eq_one_iff hp (by omega)).mp hone) ?_
  intro q hq hdvd
  rw [← hprod] at hdvd
  obtain ⟨r, hr, hqr⟩ := (Prime.dvd_prod_iff hq.prime).mp hdvd
  obtain rfl : q = r := (Nat.prime_dvd_prime_iff_eq hq (hqs r hr)).mp hqr
  have hlt : (p - 1) / q < 2 ^ k := (Nat.div_le_self _ _).trans_lt (by omega)
  exact (powMod_eq_one_iff hp hlt).not.mp (hne q hr)

/-- Trial division by `d, ..., d + k - 1` up to the square root. -/
def noFactor (q : Nat) : Nat → Nat → Bool
  | 0, _ => true
  | k + 1, d => Nat.blt q (d * d) || (!Nat.beq (q % d) 0 && noFactor q k (d + 1))

lemma noFactor_spec {q k d m : Nat} (h : noFactor q k d = true) (hd : d ≤ m) (hk : m < d + k) (hsq : m * m ≤ q) :
    ¬ m ∣ q := by
  induction k generalizing d with
  | zero => omega
  | succ k ih =>
    have hle : d * d ≤ q := (Nat.mul_le_mul hd hd).trans hsq
    have hblt : Nat.blt q (d * d) = false := by
      rw [← Bool.not_eq_true, Nat.blt_eq]
      omega
    rw [noFactor, hblt, Bool.false_or, Bool.and_eq_true, Bool.not_eq_true', ← Bool.not_eq_true, Nat.beq_eq] at h
    rcases hd.eq_or_lt with rfl | hlt
    · exact fun hdvd => h.1 (Nat.mod_eq_zero_of_dvd hdvd)
    · exact ih h.2 hlt (by omega)

/-- Trial division of a number below `2 ^ 20`. -/
def SmallPrime (q : Nat) : Prop :=
  2 ≤ q ∧ q < 2 ^ 20 ∧ noFactor q 1022 2 = true

instance (q : Nat) : Decidable (SmallPrime q) :=
  inferInstanceAs (Decidable (_ ∧ _ ∧ _))

lemma SmallPrime.prime {q : Nat} (h : SmallPrime q) : q.Prime := by
  obtain ⟨htwo, hlt, hdiv⟩ := h
  rw [Nat.prime_def_le_sqrt]
  refine ⟨htwo, ?_⟩
  intro d hd hsqrt
  have hsq : d * d ≤ q := Nat.le_sqrt.mp hsqrt
  have hsmall : d < 2 + 1022 := by
    by_contra hlarge
    have hmul := Nat.mul_le_mul (not_lt.mp hlarge) (not_lt.mp hlarge)
    omega
  exact noFactor_spec hdiv hd hsmall hsq

/-- The data of Lucas's test: a number, a residue of full order, and the prime factors of the predecessor. -/
structure LucasTest where
  p : Nat
  a : Nat
  factors : List Nat

/-- The test succeeds, for a number of at most `k` bits. -/
def LucasTest.Passes (k : Nat) (c : LucasTest) : Prop :=
  1 < c.p ∧ c.p < 2 ^ k ∧ c.factors.prod = c.p - 1 ∧ powMod c.p k 1 c.a (c.p - 1) % c.p = 1 ∧
    ∀ q ∈ c.factors, powMod c.p k 1 c.a ((c.p - 1) / q) % c.p ≠ 1

instance (k : Nat) (c : LucasTest) : Decidable (c.Passes k) :=
  inferInstanceAs (Decidable (_ ∧ _ ∧ _ ∧ _ ∧ _))

/-- More bits than a number has do not change its test. -/
lemma LucasTest.Passes.mono {j k : Nat} {c : LucasTest} (hjk : j ≤ k) (h : c.Passes j) : c.Passes k := by
  obtain ⟨hone, hlt, hprod, hfull, hfactors⟩ := h
  have hpow : 2 ^ j ≤ 2 ^ k := Nat.pow_le_pow_right (by decide) hjk
  have hsame (e : Nat) (he : e < 2 ^ j) : powMod c.p k 1 c.a e % c.p = powMod c.p j 1 c.a e % c.p :=
    (powMod_modEq c.p k 1 c.a e (he.trans_le hpow)).trans (powMod_modEq c.p j 1 c.a e he).symm
  refine ⟨hone, hlt.trans_le hpow, hprod, ?_, ?_⟩
  · rwa [hsame _ ((Nat.sub_le _ _).trans_lt hlt)]
  · intro q hq
    rw [hsame _ ((Nat.div_le_self _ _).trans_lt ((Nat.sub_le _ _).trans_lt hlt))]
    exact hfactors q hq

/-- Every test passes, and its factors are small or tested further down the list. -/
def Certified (k : Nat) : List LucasTest → Prop
  | [] => True
  | c :: cs => (c.Passes k ∧ ∀ q ∈ c.factors, SmallPrime q ∨ q ∈ cs.map LucasTest.p) ∧ Certified k cs

instance decidableCertified (k : Nat) : (cs : List LucasTest) → Decidable (Certified k cs)
  | [] => isTrue trivial
  | _ :: cs => @instDecidableAnd _ _ inferInstance (decidableCertified k cs)

lemma Certified.mono {j k : Nat} (hjk : j ≤ k) {cs : List LucasTest} (h : Certified j cs) : Certified k cs := by
  induction cs with
  | nil => trivial
  | cons c cs ih => exact ⟨⟨h.1.1.mono hjk, h.1.2⟩, ih h.2⟩

theorem Certified.prime {k : Nat} {cs : List LucasTest} (h : Certified k cs) : ∀ c ∈ cs, c.p.Prime := by
  induction cs with
  | nil =>
    intro c hc
    exact absurd hc List.not_mem_nil
  | cons c cs ih =>
    obtain ⟨⟨⟨hp, hk, hprod, hone, hne⟩, hfactors⟩, hrest⟩ := h
    have hprimes : ∀ q ∈ c.factors, q.Prime := by
      intro q hq
      rcases hfactors q hq with hsmall | hmem
      · exact hsmall.prime
      · obtain ⟨c', hc', rfl⟩ := List.mem_map.mp hmem
        exact ih hrest c' hc'
    intro c' hc'
    rcases List.mem_cons.mp hc' with rfl | htail
    · exact prime_of_lucas k _ _ hprimes hp hk hprod hone hne
    · exact ih hrest c' htail

end McuxDrivers.Lib
