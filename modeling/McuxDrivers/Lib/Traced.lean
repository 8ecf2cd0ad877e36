import Mathlib.Algebra.Group.Nat.Defs
import Mathlib.Order.Basic

/-!
# Unsigned arithmetic with a trace of wrapping

A computation on unsigned integers has its value in any case; `wrapped` says whether an operation or a conversion
on the way to it was not exact.
-/

namespace McuxDrivers.Lib

structure Traced (α : Type) where
  value : α
  wrapped : Bool

namespace Traced

variable {α β : Type}

instance : Monad Traced where
  pure a := ⟨a, false⟩
  bind x f := ⟨(f x.value).value, x.wrapped || (f x.value).wrapped⟩

@[simp] lemma pure_value (a : α) : (pure a : Traced α).value = a :=
  rfl

@[simp] lemma pure_wrapped (a : α) : (pure a : Traced α).wrapped = false :=
  rfl

@[simp] lemma bind_value (x : Traced α) (f : α → Traced β) : (x >>= f).value = (f x.value).value :=
  rfl

@[simp] lemma bind_wrapped (x : Traced α) (f : α → Traced β) :
    (x >>= f).wrapped = (x.wrapped || (f x.value).wrapped) :=
  rfl

@[simp] lemma pure_bind (a : α) (f : α → Traced β) : pure a >>= f = f a :=
  rfl

lemma eq_pure {x : Traced α} (h : x.wrapped = false) : x = pure x.value := by
  cases x
  cases h
  rfl

lemma bind_wrapped_eq_false {x : Traced α} {f : α → Traced β} :
    (x >>= f).wrapped = false ↔ x.wrapped = false ∧ (f x.value).wrapped = false := by
  rw [bind_wrapped, Bool.or_eq_false_iff]

end Traced

section Operations

variable {w a b : Nat}

/-- `a + b` on `w` bits. -/
def addW (w a b : Nat) : Traced Nat :=
  ⟨(a + b) % 2 ^ w, decide (2 ^ w ≤ a + b)⟩

def subW (w a b : Nat) : Traced Nat :=
  ⟨if b ≤ a then a - b else 2 ^ w - (b - a), decide (a < b)⟩

def mulW (w a b : Nat) : Traced Nat :=
  ⟨a * b % 2 ^ w, decide (2 ^ w ≤ a * b)⟩

/-- A conversion to `w` bits. -/
def narrow (w a : Nat) : Traced Nat :=
  ⟨a % 2 ^ w, decide (2 ^ w ≤ a)⟩

lemma addW_exact (h : a + b < 2 ^ w) : addW w a b = pure (a + b) := by
  rw [addW, Nat.mod_eq_of_lt h, decide_eq_false (Nat.not_le_of_lt h)]
  rfl

lemma subW_exact (h : b ≤ a) : subW w a b = pure (a - b) := by
  rw [subW, if_pos h, decide_eq_false (Nat.not_lt_of_le h)]
  rfl

lemma mulW_exact (h : a * b < 2 ^ w) : mulW w a b = pure (a * b) := by
  rw [mulW, Nat.mod_eq_of_lt h, decide_eq_false (Nat.not_le_of_lt h)]
  rfl

lemma narrow_exact (h : a < 2 ^ w) : narrow w a = pure a := by
  rw [narrow, Nat.mod_eq_of_lt h, decide_eq_false (Nat.not_le_of_lt h)]
  rfl

lemma subW_wrapped : (subW w a b).wrapped = false ↔ b ≤ a := by
  rw [subW, decide_eq_false_iff_not, Nat.not_lt]

lemma mulW_wrapped : (mulW w a b).wrapped = false ↔ a * b < 2 ^ w := by
  rw [mulW, decide_eq_false_iff_not, Nat.not_le]

lemma narrow_wrapped : (narrow w a).wrapped = false ↔ a < 2 ^ w := by
  rw [narrow, decide_eq_false_iff_not, Nat.not_le]

end Operations

end McuxDrivers.Lib
