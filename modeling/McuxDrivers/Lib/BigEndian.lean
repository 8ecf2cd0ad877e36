import Mathlib.Algebra.Group.Nat.Defs
import Mathlib.Data.List.Induction
import Mathlib.Tactic.Ring

/-!
# Big-endian numbers

The number that a list of bytes spells, highest byte first, and the bytes of a number.
-/

namespace McuxDrivers.Lib

def beValue (l : List UInt8) : Nat :=
  l.foldl (fun n x => 256 * n + x.toNat) 0

/-- The `k` lowest bytes of `n`. -/
def beBytes : Nat → Nat → List UInt8
  | 0, _ => []
  | k + 1, n => beBytes k (n / 256) ++ [UInt8.ofNat n]

lemma beValue_concat (l : List UInt8) (x : UInt8) : beValue (l ++ [x]) = 256 * beValue l + x.toNat := by
  rw [beValue, List.foldl_append]
  rfl

@[simp]
lemma length_beBytes (k n : Nat) : (beBytes k n).length = k := by
  induction k generalizing n with
  | zero => rfl
  | succ k ih => rw [beBytes, List.length_append, ih, List.length_singleton]

/-- The bytes of the number that bytes spell are these bytes. -/
lemma beBytes_beValue (l : List UInt8) : beBytes l.length (beValue l) = l := by
  induction l using List.reverseRecOn with
  | nil => rfl
  | append_singleton l x ih =>
    have hx := x.toNat_lt
    have hdiv : (256 * beValue l + x.toNat) / 256 = beValue l := by omega
    have hlast : UInt8.ofNat (256 * beValue l + x.toNat) = x := by
      apply UInt8.toNat_inj.mp
      rw [UInt8.toNat_ofNat']
      omega
    rw [List.length_append, List.length_singleton, beBytes, beValue_concat, hdiv, hlast, ih]

/-- The number is kept as far as `k` bytes can hold it. -/
lemma beValue_beBytes (k n : Nat) : beValue (beBytes k n) = n % 256 ^ k := by
  induction k generalizing n with
  | zero => rw [Nat.pow_zero, Nat.mod_one]; rfl
  | succ k ih =>
    have hsplit := Nat.mod_mul (x := n) (a := 256) (b := 256 ^ k)
    rw [beBytes, beValue_concat, ih, Nat.pow_succ, Nat.mul_comm (256 ^ k), hsplit, UInt8.toNat_ofNat']
    omega

lemma beBytes_mod (k n : Nat) : beBytes k (n % 256 ^ k) = beBytes k n := by
  rw [← beValue_beBytes]
  nth_rewrite 1 [← length_beBytes k n]
  exact beBytes_beValue _

/-- Bytes before the last one take the carry. -/
lemma beBytes_succ_of_carry {l : List UInt8} {x : UInt8} (h : x = 0xFF) :
    beBytes (l.length + 1) (beValue (l ++ [x]) + 1) = beBytes l.length (beValue l + 1) ++ [0] := by
  subst h
  have hvalue : beValue (l ++ [0xFF]) + 1 = 256 * (beValue l + 1) := by
    rw [beValue_concat]
    show 256 * beValue l + 255 + 1 = _
    omega
  have hdiv : 256 * (beValue l + 1) / 256 = beValue l + 1 := by omega
  have hlast : UInt8.ofNat (256 * (beValue l + 1)) = 0 := by
    apply UInt8.toNat_inj.mp
    rw [UInt8.toNat_ofNat']
    show _ = 0
    omega
  rw [hvalue, beBytes, hdiv, hlast]

lemma beBytes_succ_of_no_carry {l : List UInt8} {x : UInt8} (h : x ≠ 0xFF) :
    beBytes (l.length + 1) (beValue (l ++ [x]) + 1) = l ++ [x + 1] := by
  have hx := x.toNat_lt
  have hne : x.toNat ≠ 255 := fun heq => h (UInt8.toNat_inj.mp heq)
  have hdiv : (256 * beValue l + x.toNat + 1) / 256 = beValue l := by omega
  have hlast : UInt8.ofNat (256 * beValue l + x.toNat + 1) = x + 1 := by
    apply UInt8.toNat_inj.mp
    rw [UInt8.toNat_ofNat', UInt8.toNat_add]
    show _ = (x.toNat + 1) % 2 ^ 8
    omega
  rw [beBytes, beValue_concat, hdiv, hlast, beBytes_beValue]

end McuxDrivers.Lib
