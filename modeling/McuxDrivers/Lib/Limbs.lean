import Mathlib.Algebra.Order.Ring.Nat
import Mathlib.Data.Nat.ModEq
import Mathlib.Tactic.Ring
import Mathlib.Tactic.Linarith

/-!
# Numbers in arrays of digits

`limbs b u j n` is the number whose digits to base `b` are the `n` elements of the array `u` from `j` on,
the lowest first; `store` writes the digits of a number.
-/

namespace McuxDrivers.Lib

variable {b : Nat}

/-- The number in the digits `u j, ..., u (j + n - 1)`. -/
def limbs (b : Nat) (u : Nat → Nat) (j : Nat) : Nat → Nat
  | 0 => 0
  | n + 1 => limbs b u j n + b ^ n * u (j + n)

/-- The digits of `x` written from `j` on. -/
def store (b : Nat) (u : Nat → Nat) (j n x : Nat) : Nat → Nat :=
  fun i => if j ≤ i ∧ i < j + n then x / b ^ (i - j) % b else u i

lemma limbs_congr {u u' : Nat → Nat} {j n : Nat} (h : ∀ i, j ≤ i → i < j + n → u i = u' i) :
    limbs b u j n = limbs b u' j n := by
  induction n with
  | zero => rfl
  | succ n ih =>
    rw [limbs, limbs, ih (fun i hj hi => h i hj (by omega)), h (j + n) (by omega) (by omega)]

/-- The same digits at another place. -/
lemma limbs_congr_at {u u' : Nat → Nat} {j j' n : Nat} (h : ∀ i < n, u (j + i) = u' (j' + i)) :
    limbs b u j n = limbs b u' j' n := by
  induction n with
  | zero => rfl
  | succ n ih =>
    rw [limbs, limbs, ih (fun i hi => h i (by omega)), h n (Nat.lt_succ_self n)]

lemma limbs_add (b : Nat) (u : Nat → Nat) (j m n : Nat) :
    limbs b u j (m + n) = limbs b u j m + b ^ m * limbs b u (j + m) n := by
  induction n with
  | zero => simp [limbs]
  | succ n ih => rw [← Nat.add_assoc, limbs, limbs, ih, pow_add, Nat.add_assoc j m n]; ring

lemma limbs_one (b : Nat) (u : Nat → Nat) (j : Nat) : limbs b u j 1 = u j := by
  simp [limbs]

lemma limbs_succ' (b : Nat) (u : Nat → Nat) (j n : Nat) :
    limbs b u j (n + 1) = u j + b * limbs b u (j + 1) n := by
  rw [Nat.add_comm n 1, limbs_add, limbs_one, pow_one]

lemma limbs_add_two (b : Nat) (u : Nat → Nat) (j n : Nat) :
    limbs b u j (n + 2) = (u (j + n + 1) * b + u (j + n)) * b ^ n + limbs b u j n := by
  rw [limbs, limbs, pow_succ, Nat.add_assoc j n 1]
  ring

lemma limbs_lt {u : Nat → Nat} {j n : Nat} (h : ∀ i, j ≤ i → i < j + n → u i < b) : limbs b u j n < b ^ n := by
  induction n with
  | zero => exact Nat.one_pos
  | succ n ih =>
    have hlow := ih (fun i hj hi => h i hj (by omega))
    have htop : u (j + n) + 1 ≤ b := h (j + n) (by omega) (by omega)
    calc limbs b u j n + b ^ n * u (j + n) < b ^ n + b ^ n * u (j + n) := by omega
      _ = b ^ n * (u (j + n) + 1) := by ring
      _ ≤ b ^ n * b := Nat.mul_le_mul_left _ htop
      _ = b ^ (n + 1) := (pow_succ b n).symm

lemma limbs_div {u : Nat → Nat} {j m n : Nat} (h : ∀ i, j ≤ i → i < j + m → u i < b) :
    limbs b u j (m + n) / b ^ m = limbs b u (j + m) n := by
  have hlt := limbs_lt h
  rw [limbs_add, Nat.add_mul_div_left _ _ (by omega), Nat.div_eq_of_lt hlt, Nat.zero_add]

lemma limbs_mod {u : Nat → Nat} {j m n : Nat} (h : ∀ i, j ≤ i → i < j + m → u i < b) :
    limbs b u j (m + n) % b ^ m = limbs b u j m := by
  have hlt := limbs_lt h
  rw [limbs_add, Nat.add_mul_mod_self_left, Nat.mod_eq_of_lt hlt]

lemma store_of_not_mem {u : Nat → Nat} {j n x i : Nat} (h : i < j ∨ j + n ≤ i) : store b u j n x i = u i := by
  rw [store, if_neg (by omega)]

lemma store_lt {u : Nat → Nat} (hb : 0 < b) (h : ∀ i, u i < b) (j n x i : Nat) : store b u j n x i < b := by
  unfold store
  split_ifs
  · exact Nat.mod_lt _ hb
  · exact h i

/-- The digits of a number. -/
lemma limbs_digits (b n x : Nat) : limbs b (fun i => x / b ^ i % b) 0 n = x % b ^ n := by
  induction n with
  | zero => simp [limbs, Nat.mod_one]
  | succ n ih => rw [limbs, ih, Nat.zero_add, Nat.mod_pow_succ]

lemma limbs_store (b : Nat) (u : Nat → Nat) (j n x : Nat) : limbs b (store b u j n x) j n = x % b ^ n := by
  have hdigits (m : Nat) (hm : m ≤ n) : limbs b (store b u j n x) j m = x % b ^ m := by
    induction m with
    | zero => simp [limbs, Nat.mod_one]
    | succ m ih =>
      rw [limbs, ih (by omega), store, if_pos ⟨by omega, by omega⟩, Nat.add_sub_cancel_left, Nat.mod_pow_succ]
  exact hdigits n le_rfl

end McuxDrivers.Lib
