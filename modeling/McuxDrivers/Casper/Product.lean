import McuxDrivers.Casper.Division

/-!
# The Montgomery form of the signature

`MultprecMultiply` skips the double words of its second factor that are 0, with the words of the product that
they would write. `MultprecMontPrepareX` therefore relies on what was in the RAM wherever the modulus has a
double word of ones.
-/

namespace McuxDrivers.Casper
open McuxDrivers.Lib

section Product

variable {n : Nat} {u v : Nat → Nat} (hu : ∀ k, u k < 2 ^ 32) (hv : ∀ k, v k < 2 ^ 32)

lemma store_word_lt {w : Nat → Nat} {j n x : Nat} (hw : ∀ k, w k < 2 ^ 32) (k : Nat) :
    store (2 ^ 32) w j n x k < 2 ^ 32 := by
  unfold store
  split_ifs
  · exact Nat.mod_lt _ (by decide)
  · exact hw k

include hu hv

/-- A double word of the second factor adds its multiple, unless it is 0 and the next words of the product are
not. -/
lemma multiplyRound_spec {w : Nat → Nat} {j x : Nat} (hw : ∀ k, w k < 2 ^ 32)
    (hsum : limbs (2 ^ 32) w 0 (j + n) = limbs (2 ^ 32) u 0 n * x)
    (hzero : v j = 0 → v (j + 1) = 0 → w (j + n) = 0 ∧ w (j + n + 1) = 0) :
    let w' := if v j ≠ 0 ∨ v (j + 1) ≠ 0 then
        store (2 ^ 32) w j (n + 2) (limbs (2 ^ 32) w j n + limbs (2 ^ 32) u 0 n * limbs (2 ^ 32) v j 2)
      else w
    (∀ k, w' k < 2 ^ 32) ∧ (∀ k, j + n + 2 ≤ k → w' k = w k) ∧
      limbs (2 ^ 32) w' 0 (j + n + 2) = limbs (2 ^ 32) u 0 n * (x + (2 ^ 32) ^ j * limbs (2 ^ 32) v j 2) := by
  intro w'
  have hV : limbs (2 ^ 32) v j 2 = v (j + 1) * 2 ^ 32 + v j := by
    rw [limbs_add_two, pow_zero, Nat.mul_one, limbs, Nat.add_zero]
    rfl
  by_cases hv0 : v j ≠ 0 ∨ v (j + 1) ≠ 0
  · have hw' : w' = _ := if_pos hv0
    rw [hw']
    refine ⟨store_word_lt hw, fun k hk => store_of_not_mem (by omega), ?_⟩
    have hfit : limbs (2 ^ 32) w j n + limbs (2 ^ 32) u 0 n * limbs (2 ^ 32) v j 2 < (2 ^ 32) ^ (n + 2) := by
      have hW : limbs (2 ^ 32) w j n < (2 ^ 32) ^ n := limbs_lt (fun k _ _ => hw k)
      have hU : limbs (2 ^ 32) u 0 n < (2 ^ 32) ^ n := limbs_lt (fun k _ _ => hu k)
      have hV' : limbs (2 ^ 32) v j 2 + 1 ≤ (2 ^ 32) ^ 2 := limbs_lt (fun k _ _ => hv k)
      calc limbs (2 ^ 32) w j n + limbs (2 ^ 32) u 0 n * limbs (2 ^ 32) v j 2
          < (2 ^ 32) ^ n + (2 ^ 32) ^ n * limbs (2 ^ 32) v j 2 :=
            Nat.add_lt_add_of_lt_of_le hW (Nat.mul_le_mul_right _ hU.le)
        _ = (2 ^ 32) ^ n * (limbs (2 ^ 32) v j 2 + 1) := by rw [Nat.mul_add, Nat.mul_one, Nat.add_comm]
        _ ≤ (2 ^ 32) ^ n * (2 ^ 32) ^ 2 := Nat.mul_le_mul_left _ hV'
        _ = (2 ^ 32) ^ (n + 2) := (Nat.pow_add _ _ _).symm
    have hlow : limbs (2 ^ 32) (store (2 ^ 32) w j (n + 2)
        (limbs (2 ^ 32) w j n + limbs (2 ^ 32) u 0 n * limbs (2 ^ 32) v j 2)) 0 j = limbs (2 ^ 32) w 0 j :=
      limbs_congr (fun k _ hk => store_of_not_mem (by omega))
    rw [limbs_add, Nat.zero_add] at hsum
    rw [Nat.add_assoc, limbs_add, hlow, Nat.zero_add, limbs_store, Nat.mod_eq_of_lt hfit, Nat.mul_add, ← Nat.add_assoc,
      hsum]
    generalize (2 ^ 32) ^ j = p
    ring
  · have hw' : w' = w := if_neg hv0
    obtain ⟨h0, h1⟩ : v j = 0 ∧ v (j + 1) = 0 := by tauto
    obtain ⟨hw0, hw1⟩ := hzero h0 h1
    rw [hw']
    refine ⟨hw, fun _ _ => rfl, ?_⟩
    rw [limbs_add_two, Nat.zero_add, hw0, hw1, hV, h0, h1, hsum, Nat.zero_mul, Nat.zero_add, Nat.zero_mul, Nat.zero_add,
      Nat.mul_zero, Nat.add_zero]

lemma multiplyLoop_spec (count j : Nat) (w : Nat → Nat) (hw : ∀ k, w k < 2 ^ 32)
    (hsum : limbs (2 ^ 32) w 0 (j + n) = limbs (2 ^ 32) u 0 n * limbs (2 ^ 32) v 0 j)
    (hzero : ∀ i < count, v (j + 2 * i) = 0 → v (j + 2 * i + 1) = 0 →
      w (j + 2 * i + n) = 0 ∧ w (j + 2 * i + n + 1) = 0) :
    (∀ k, multiplyLoop n u v count j w k < 2 ^ 32) ∧
      limbs (2 ^ 32) (multiplyLoop n u v count j w) 0 (j + 2 * count + n) =
        limbs (2 ^ 32) u 0 n * limbs (2 ^ 32) v 0 (j + 2 * count) := by
  induction count generalizing j w with
  | zero => exact ⟨hw, hsum⟩
  | succ count ih =>
    obtain ⟨hw', hframe, hsum'⟩ := multiplyRound_spec hu hv hw hsum (hzero 0 (Nat.succ_pos _))
    have hnext := ih (j + 2) _ hw' ?_ ?_
    · rw [show j + 2 * (count + 1) = j + 2 + 2 * count by ring]
      exact hnext
    · rw [Nat.add_right_comm j 2 n, hsum', limbs_add _ v 0 j 2, Nat.zero_add]
    · intro i hi h0 h1
      have hi' := hzero (i + 1) (by omega)
      rw [show j + 2 * (i + 1) = j + 2 + 2 * i by ring] at hi'
      rw [hframe _ (by omega), hframe _ (by omega)]
      exact hi' h0 h1

/-- `MultprecMultiply` forms the product if the words it does not write are 0. -/
lemma multprecMultiply_spec {w : Nat → Nat} (hn : 2 ≤ n) (heven : n % 2 = 0) (hw : ∀ k, w k < 2 ^ 32)
    (hzero : ∀ j, 2 ≤ j → j < n → j % 2 = 0 → v j = 0 → v (j + 1) = 0 → w (j + n) = 0 ∧ w (j + n + 1) = 0) :
    (∀ k, multprecMultiply n w u v k < 2 ^ 32) ∧
      limbs (2 ^ 32) (multprecMultiply n w u v) 0 (n + n) = limbs (2 ^ 32) u 0 n * limbs (2 ^ 32) v 0 n := by
  have hcleared (k : Nat) : preZeroW n w k < 2 ^ 32 := by
    unfold preZeroW
    split_ifs
    · decide
    · exact hw k
  have hkeep (k : Nat) (hk : n + 2 ≤ k) : store (2 ^ 32) (preZeroW n w) 0 (n + 2)
      (limbs (2 ^ 32) u 0 n * limbs (2 ^ 32) v 0 2) k = w k := by
    rw [store_of_not_mem (by omega), preZeroW, if_neg (by omega)]
  have hfit : limbs (2 ^ 32) u 0 n * limbs (2 ^ 32) v 0 2 < (2 ^ 32) ^ (2 + n) := by
    rw [Nat.add_comm, Nat.pow_add]
    exact Nat.mul_lt_mul'' (limbs_lt (fun k _ _ => hu k)) (limbs_lt (fun k _ _ => hv k))
  have hloop := multiplyLoop_spec hu hv (n := n) (n / 2 - 1) 2 (store (2 ^ 32) (preZeroW n w) 0 (n + 2)
    (limbs (2 ^ 32) u 0 n * limbs (2 ^ 32) v 0 2)) (store_word_lt hcleared) ?_ ?_
  · rw [show 2 + 2 * (n / 2 - 1) = n by omega] at hloop
    exact hloop
  · rw [Nat.add_comm n 2, limbs_store, Nat.mod_eq_of_lt hfit]
  · intro i hi h0 h1
    rw [hkeep _ (by omega), hkeep _ (by omega)]
    exact hzero (2 + 2 * i) (by omega) (by omega) (by omega) h0 h1

end Product

lemma multprecMontCalcRp_lt {n : Nat} {nmod : Nat → Nat} (k : Nat) :
    multprecMontCalcRp n nmod (fun _ => 0) k < 2 ^ 32 := by
  refine store_word_lt (fun k => ?_) k
  rw [preZeroW, ite_self]
  decide

section Prepare

variable {n : Nat} {nmod : Nat → Nat} (hnmod : ∀ k, nmod k < 2 ^ 32) (hodd : nmod 0 % 2 = 1)

include hodd in
lemma limbs_pos {k : Nat} (hk : 0 < k) : 0 < limbs (2 ^ 32) nmod 0 k := by
  obtain ⟨m, rfl⟩ : ∃ m, k = m + 1 := ⟨k - 1, by omega⟩
  rw [limbs_succ']
  omega

include hnmod hodd

/-- `Rp` is what the modulus is short of a power of the base. -/
lemma multprecMontCalcRp_spec (hn : 0 < n) :
    limbs (2 ^ 32) (multprecMontCalcRp n nmod (fun _ => 0)) 0 n = (2 ^ 32) ^ n - limbs (2 ^ 32) nmod 0 n := by
  have hzero (m : Nat) : limbs (2 ^ 32) (preZeroW n (fun _ => 0)) 0 m = 0 := by
    induction m with
    | zero => rfl
    | succ m ih => rw [limbs, ih, preZeroW, ite_self, Nat.mul_zero]
  have hpos := limbs_pos hodd hn
  have hlt : limbs (2 ^ 32) nmod 0 n < (2 ^ 32) ^ n := limbs_lt (fun k _ _ => hnmod k)
  unfold multprecMontCalcRp
  rw [limbs_store, hzero, Nat.zero_add, Nat.mod_mod, Nat.mod_eq_of_lt (by omega)]

lemma multprecMontCalcRp_low {k : Nat} (hk : 0 < k) (hkn : k ≤ n) :
    limbs (2 ^ 32) (multprecMontCalcRp n nmod (fun _ => 0)) 0 k + limbs (2 ^ 32) nmod 0 k = (2 ^ 32) ^ k := by
  have hN : limbs (2 ^ 32) nmod 0 n < (2 ^ 32) ^ n := limbs_lt (fun k _ _ => hnmod k)
  have hlow : limbs (2 ^ 32) nmod 0 k < (2 ^ 32) ^ k := limbs_lt (fun k _ _ => hnmod k)
  have hlow' : limbs (2 ^ 32) (multprecMontCalcRp n nmod (fun _ => 0)) 0 k < (2 ^ 32) ^ k :=
    limbs_lt (fun k _ _ => multprecMontCalcRp_lt k)
  have hpos := limbs_pos hodd hk
  have hdvd : (2 ^ 32) ^ k ∣
      limbs (2 ^ 32) (multprecMontCalcRp n nmod (fun _ => 0)) 0 k + limbs (2 ^ 32) nmod 0 k := by
    obtain ⟨l, rfl⟩ := Nat.exists_eq_add_of_le hkn
    have hsum := multprecMontCalcRp_spec hnmod hodd (by omega : 0 < k + l)
    apply Nat.dvd_of_mod_eq_zero
    rw [← limbs_mod (n := l) (fun i _ _ => hnmod i), ← limbs_mod (n := l) (fun i _ _ => multprecMontCalcRp_lt i),
      ← Nat.add_mod, hsum, Nat.sub_add_cancel hN.le, Nat.pow_add]
    exact Nat.mul_mod_right _ _
  obtain ⟨c, hc⟩ := hdvd
  rw [hc]
  have hlt : (2 ^ 32) ^ k * c < (2 ^ 32) ^ k * 2 := by
    rw [← hc]
    omega
  have hne : c ≠ 0 := by
    rintro rfl
    rw [Nat.mul_zero] at hc
    omega
  obtain rfl : c = 1 := by
    have := Nat.lt_of_mul_lt_mul_left hlt
    omega
  exact Nat.mul_one _

/-- Above the lowest word, `Rp` has a 0 only where the modulus has a word of ones. -/
lemma multprecMontCalcRp_eq_zero {j : Nat} (hj : 0 < j) (hjn : j < n)
    (hrp : multprecMontCalcRp n nmod (fun _ => 0) j = 0) : nmod j = 2 ^ 32 - 1 := by
  have hlow := multprecMontCalcRp_low hnmod hodd hj hjn.le
  have hnext : _ = (2 ^ 32) ^ (j + 1) := multprecMontCalcRp_low hnmod hodd (Nat.succ_pos j) hjn
  rw [limbs, limbs, Nat.zero_add, hrp, Nat.mul_zero, Nat.add_zero, ← Nat.add_assoc, hlow,
    Nat.pow_succ (2 ^ 32) j] at hnext
  have hword : (2 ^ 32) ^ j * (nmod j + 1) = (2 ^ 32) ^ j * 2 ^ 32 := by
    rw [← hnext]
    ring
  have hval := Nat.eq_of_mul_eq_mul_left (by positivity) hword
  omega

/-- `MultprecMontPrepareX` leaves the Montgomery form of `x`, if no round of the division goes wrong and the RAM
holds 0 wherever the modulus has a double word of ones. -/
theorem multprecMontPrepareX_eq {xmont x : Nat → Nat} (hn : 2 ≤ n) (heven : n % 2 = 0) (htop : 2 ^ 31 ≤ nmod (n - 1))
    (hxmont : ∀ k, xmont k < 2 ^ 32) (hx : ∀ k, x k < 2 ^ 32)
    (hram : ∀ j, 2 ≤ j → j < n → j % 2 = 0 → nmod j = 2 ^ 32 - 1 → nmod (j + 1) = 2 ^ 32 - 1 →
      xmont (j + n) = 0 ∧ xmont (j + n + 1) = 0)
    (hmissed : ∀ i ≤ n, ¬ MissedDigit n (roundDividend (2 ^ 32) (limbs (2 ^ 32) nmod 0 n)
      (limbs (2 ^ 32) x 0 n * ((2 ^ 32) ^ n - limbs (2 ^ 32) nmod 0 n)) i) (limbs (2 ^ 32) nmod 0 n)) :
    limbs (2 ^ 32) (multprecMontPrepareX n xmont x (multprecMontCalcRp n nmod (fun _ => 0)) nmod) 0 n =
      limbs (2 ^ 32) x 0 n * (2 ^ 32) ^ n % limbs (2 ^ 32) nmod 0 n := by
  have hN : limbs (2 ^ 32) nmod 0 n < (2 ^ 32) ^ n := limbs_lt (fun k _ _ => hnmod k)
  obtain ⟨hw, hprod⟩ := multprecMultiply_spec hx multprecMontCalcRp_lt hn heven hxmont
    (v := multprecMontCalcRp n nmod (fun _ => 0)) (fun j hj hjn hj2 h0 h1 => hram j hj hjn hj2
      (multprecMontCalcRp_eq_zero hnmod hodd (by omega) hjn h0)
      (multprecMontCalcRp_eq_zero hnmod hodd (by omega) (by omega) h1))
  rw [multprecMontCalcRp_spec hnmod hodd (by omega)] at hprod
  obtain ⟨m, rfl⟩ : ∃ m, n = m + 2 := ⟨n - 2, by omega⟩
  unfold multprecMontPrepareX
  rw [multprecModulo_eq hnmod htop hw (by rwa [hprod]), hprod]
  exact Nat.ModEq.mul_left _ ((Nat.modEq_iff_dvd' (Nat.sub_le _ _)).mpr ⟨1, by omega⟩)

end Prepare

end McuxDrivers.Casper
