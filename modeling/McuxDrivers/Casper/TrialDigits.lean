import McuxDrivers.Casper.Division

/-!
# The rounds of the CASPER division

Every round of `MultprecModulo` has a digit that is right or one too large, and adds the divisor back exactly
if the digit is too large, until a round goes wrong: there the digit is one too small.
-/

namespace McuxDrivers.Casper
open McuxDrivers.Lib

/-- The state before round `i`, from the state before round `j`. -/
def moduloBefore (n : Nat) (v : Nat → Nat) (i : Nat) : Nat → (Nat → Nat) × Nat → (Nat → Nat) × Nat
  | 0, s => s
  | j + 1, s => if i ≤ j then moduloBefore n v i j (moduloStep n v (j + 1) s) else s

/-- The loop goes on from there. -/
theorem moduloLoop_moduloBefore {n i : Nat} {v : Nat → Nat} (j : Nat) (s : (Nat → Nat) × Nat) (hi : i ≤ j) :
    moduloLoop n v i (moduloBefore n v i j s) = moduloLoop n v j s := by
  induction j generalizing s with
  | zero =>
    obtain rfl : i = 0 := by omega
    rfl
  | succ j ih =>
    rw [moduloBefore]
    split_ifs with hle
    · exact ih _ hle
    · obtain rfl : i = j + 1 := by omega
      rfl

section Rounds

variable {m : Nat} {v : Nat → Nat} (hv : ∀ k, v k < 2 ^ 32) (htop : 2 ^ 31 ≤ v (m + 1))

include hv htop

/-- Before round `i` the division is right if none of the rounds above went wrong. -/
lemma RoundState.before {p i : Nat} (j : Nat) (s : (Nat → Nat) × Nat) (h : RoundState (m + 2) v p j s) (hi : i ≤ j)
    (hmissed : ∀ k, i < k → k ≤ j → ¬ MissedDigit (m + 2)
      (roundDividend (2 ^ 32) (limbs (2 ^ 32) v 0 (m + 2)) p k) (limbs (2 ^ 32) v 0 (m + 2))) :
    RoundState (m + 2) v p i (moduloBefore (m + 2) v i j s) := by
  induction j generalizing s with
  | zero =>
    obtain rfl : i = 0 := by omega
    exact h
  | succ j ih =>
    rw [moduloBefore]
    split_ifs with hle
    · apply ih
      · exact h.next hv htop (hmissed (j + 1) (by omega) le_rfl)
      · exact hle
      · exact fun k hik hkj => hmissed k hik (by omega)
    · obtain rfl : i = j + 1 := by omega
      exact h

/-- The digit of a round that goes wrong is too small. -/
lemma RoundState.not_right {p i : Nat} {s : (Nat → Nat) × Nat} (h : RoundState (m + 2) v p i s)
    (hmissed : MissedDigit (m + 2) (roundDividend (2 ^ 32) (limbs (2 ^ 32) v 0 (m + 2)) p i)
      (limbs (2 ^ 32) v 0 (m + 2))) : ¬ RoundRight (m + 2) v i s := by
  intro hright
  have hdigit := hright.digit
  obtain ⟨hu, hround, -⟩ := h
  obtain ⟨u, un⟩ := s
  dsimp only at hu
  rw [← hround] at hmissed
  obtain ⟨hequal, hsmall, hquot⟩ := hmissed
  have hsplit : stateDividend (m + 2) i (u, un) =
      limbs (2 ^ 32) u i (m + 1) + (2 ^ 32) ^ (m + 1) * (u (i + (m + 1)) + 2 ^ 32 * un) := by
    unfold stateDividend
    rw [limbs, Nat.pow_succ (2 ^ 32) (m + 1)]
    ring
  have hlow : limbs (2 ^ 32) u i (m + 1) < (2 ^ 32) ^ (m + 1) := limbs_lt (fun k _ _ => hu k)
  have hnext : stateDividend (m + 2) i (u, un) / (2 ^ 32) ^ (m + 1) = u (i + (m + 1)) + 2 ^ 32 * un := by
    rw [hsplit, Nat.add_mul_div_left _ _ (by positivity), Nat.div_eq_of_lt hlow, Nat.zero_add]
  have hupper : stateDividend (m + 2) i (u, un) / (2 ^ 32) ^ (m + 2) = un := by
    have hword := hu (i + (m + 1))
    rw [Nat.pow_succ (2 ^ 32) (m + 1), ← Nat.div_div_eq_div_mul, hnext]
    omega
  have hdivisor : limbs (2 ^ 32) v 0 (m + 2) / (2 ^ 32) ^ (m + 1) = v (m + 1) := by
    have hdiv := limbs_div (n := 1) (fun k (_ : 0 ≤ k) (_ : k < 0 + (m + 1)) => hv k)
    rwa [limbs_one, Nat.zero_add] at hdiv
  rw [Nat.add_sub_assoc (by decide)] at hequal hsmall
  rw [hupper, hdivisor] at hequal
  rw [hnext, hdivisor, Nat.add_mul_mod_self_left, Nat.mod_eq_of_lt (hu _)] at hsmall
  have htrial : trialDigit (m + 2) v i (u, un) = 2 ^ 32 - 2 := by
    have hinputs : trialDigit (m + 2) v i (u, un) =
        quotientDigit (v (m + 1)) (v m) un (u (i + (m + 1))) (u (i + m)) := rfl
    rw [hinputs, hequal, quotientDigit_of_eq htop (hv _) (hu _), if_pos hsmall]
  rw [htrial, hquot] at hdigit
  omega

/-- `MultprecModulo` leaves the remainder, with digits at most one too large and the add-backs that they need, unless
one of its rounds goes wrong. -/
theorem multprecModulo_exact_iff {u : Nat → Nat} (hu : ∀ k, u k < 2 ^ 32) :
    limbs (2 ^ 32) (multprecModulo (m + 2) u v (m + 2)) 0 (m + 2) =
          limbs (2 ^ 32) u 0 (m + 2 + (m + 2)) % limbs (2 ^ 32) v 0 (m + 2) ∧
        (∀ i ≤ m + 2, RoundRight (m + 2) v i (moduloBefore (m + 2) v i (m + 2) (u, 0))) ↔
      ∀ i ≤ m + 2, ¬ MissedDigit (m + 2) (roundDividend (2 ^ 32) (limbs (2 ^ 32) v 0 (m + 2))
        (limbs (2 ^ 32) u 0 (m + 2 + (m + 2))) i) (limbs (2 ^ 32) v 0 (m + 2)) := by
  have hstart := roundState_start htop hu
  constructor
  · rintro ⟨-, hright⟩
    -- the rounds above a first wrong one are right
    have hdown (k : Nat) : ∀ i, i + k = m + 2 → ¬ MissedDigit (m + 2) (roundDividend (2 ^ 32)
        (limbs (2 ^ 32) v 0 (m + 2)) (limbs (2 ^ 32) u 0 (m + 2 + (m + 2))) i) (limbs (2 ^ 32) v 0 (m + 2)) := by
      induction k using Nat.strong_induction_on with
      | _ k ih =>
        intro i hik hmissed
        have hbefore := hstart.before hv htop (m + 2) (u, 0) (by omega : i ≤ m + 2)
          (fun l hil hl => ih (m + 2 - l) (by omega) l (by omega))
        exact hbefore.not_right hv htop hmissed (hright i (by omega))
    intro i hi
    exact hdown (m + 2 - i) i (by omega)
  · intro hmissed
    refine ⟨multprecModulo_eq hv htop hu hmissed, fun i hi => ?_⟩
    have hbefore := hstart.before hv htop (m + 2) (u, 0) hi (fun k _ hk => hmissed k hk)
    apply roundRight_of_not_missed hv htop i hbefore.words (hbefore.dividend_lt htop)
    rw [hbefore.dividend]
    exact hmissed i hi

end Rounds

/-- The words of a number. -/
def wordsOf (x : Nat) : Nat → Nat :=
  store (2 ^ 32) (fun _ => 0) 0 4 x

lemma wordsOf_lt (x i : Nat) : wordsOf x i < 2 ^ 32 :=
  store_lt (by decide) (fun _ => by decide) _ _ _ i

theorem multprecModulo_exact_iff_small :
    limbs (2 ^ 32) (multprecModulo 2 (wordsOf (2 ^ 100)) (wordsOf (2 ^ 63 + 1)) 2) 0 2 = 2 ^ 100 % (2 ^ 63 + 1) := by
  have hexact := (multprecModulo_exact_iff (m := 0) (wordsOf_lt (2 ^ 63 + 1)) (by decide) (wordsOf_lt (2 ^ 100))).mpr
    (by decide +kernel)
  rw [show limbs (2 ^ 32) (wordsOf (2 ^ 100)) 0 (0 + 2 + (0 + 2)) = 2 ^ 100 by decide +kernel,
    show limbs (2 ^ 32) (wordsOf (2 ^ 63 + 1)) 0 (0 + 2) = 2 ^ 63 + 1 by decide +kernel] at hexact
  exact hexact.1

/-- A product that `MultprecMontPrepareX` makes of a number less than the modulus. -/
theorem multprecModulo_not_exact :
    let x := wordsOf (2 ^ 62 + 1)
    let nmod := wordsOf (2 ^ 63 + 1)
    let rp := multprecMontCalcRp 2 nmod (fun _ => 0)
    let u := multprecMultiply 2 (fun _ => 0) x rp
    limbs (2 ^ 32) u 0 4 = (2 ^ 62 + 1) * (2 ^ 64 - (2 ^ 63 + 1)) ∧
      limbs (2 ^ 32) (multprecModulo 2 u nmod 2) 0 2 ≠ limbs (2 ^ 32) u 0 4 % (2 ^ 63 + 1) ∧
      trialDigit 2 nmod 0 (moduloBefore 2 nmod 0 2 (u, 0)) + 1 =
        stateDividend 2 0 (moduloBefore 2 nmod 0 2 (u, 0)) / (2 ^ 63 + 1) := by
  decide +kernel

end McuxDrivers.Casper
