import Mathlib.Tactic.Ring
import Mathlib.Data.Nat.Basic

/-!
# Unsigned subtraction and count-down loops

The 32-bit subtraction of C, and loops `do { … } while (--k >= kMin)` whose body may leave the
loop. `countdown_rule` is the invariant rule for them.
-/

namespace McuxDrivers.Lib

/-- `a - b` on `uint32_t`. -/
def wsub32 (a b : Nat) : Nat :=
  if b ≤ a then a - b else 2 ^ 32 - (b - a)

lemma wsub32_of_le {a b : Nat} (hle : b ≤ a) : wsub32 a b = a - b :=
  if_pos hle

lemma wsub32_wsub32_of_le {a b c : Nat} (hle : b + c ≤ a) : wsub32 (wsub32 a b) c = a - b - c := by
  rw [wsub32_of_le (show b ≤ a by omega), wsub32_of_le (by omega)]

/-- A subtraction on words that does not go below 0. -/
lemma wrapped_sub {a b p : Nat} (hle : b ≤ a) (hlt : a < p + b) : (a + p - b) % p = a - b := by
  rw [Nat.sub_add_comm hle, Nat.add_mod_right, Nat.mod_eq_of_lt (by omega)]

/-- `do { body } while (--k >= kMin)`. The body gives the new state and whether it leaves the loop. -/
def countdown {σ : Type} (kMin : Nat) (body : Nat → σ → σ × Bool) : Nat → σ → σ
  | 0, s => s
  | k + 1, s =>
    let (s', leave) := body (k + 1) s
    if leave then s' else if k ≥ kMin then countdown kMin body k s' else s'

/-- An invariant `I k`, of the states in which `k` is the next round, gives the postcondition if it
does at the end of a leaving round and of the last one. -/
theorem countdown_rule {σ : Type} {kMin : Nat} {body : Nat → σ → σ × Bool} {I : Nat → σ → Prop}
    {Q : σ → Prop} (hleave : ∀ k s, kMin ≤ k → I k s → (body k s).2 = true → Q (body k s).1)
    (hnext : ∀ k s, kMin ≤ k → I k s → (body k s).2 = false → I (k - 1) (body k s).1)
    (hlast : ∀ s, I (kMin - 1) s → Q s) (hmin : 0 < kMin) {k : Nat} (hk : kMin ≤ k) {s : σ}
    (h : I k s) : Q (countdown kMin body k s) := by
  induction k generalizing s with
  | zero => omega
  | succ k ih =>
    rw [countdown]
    cases hbody : (body (k + 1) s).2 with
    | true =>
      simp only [hbody, if_true]
      exact hleave (k + 1) s hk h hbody
    | false =>
      have hinv := hnext (k + 1) s hk h hbody
      simp only [hbody, Bool.false_eq_true, if_false]
      by_cases hagain : k ≥ kMin
      · rw [if_pos hagain]
        exact ih hagain hinv
      · rw [if_neg hagain]
        have hend : k = kMin - 1 := by omega
        exact hlast _ (hend ▸ hinv)

end McuxDrivers.Lib
