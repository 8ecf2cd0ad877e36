import Mathlib.Data.List.Basic

/-!
# Byte ranges one behind the other

Ranges that are placed in order, each one not before the end of the one before, are disjoint.
-/

namespace McuxDrivers.Lib

structure Region where
  address : Nat
  bytes : Nat

namespace Region

instance : Membership Nat Region where
  mem r x := r.address ≤ x ∧ x < r.address + r.bytes

lemma mem_iff {r : Region} {x : Nat} : x ∈ r ↔ r.address ≤ x ∧ x < r.address + r.bytes :=
  Iff.rfl

/-- No byte belongs to both. -/
def Disjoint (r r' : Region) : Prop :=
  ∀ x, x ∈ r → x ∉ r'

lemma disjoint_of_le {r r' : Region} (h : r.address + r.bytes ≤ r'.address) : r.Disjoint r' := by
  intro x hx hx'
  rw [mem_iff] at hx hx'
  omega

lemma disjoint_iff {r r' : Region} :
    r.Disjoint r' ↔ r.bytes = 0 ∨ r'.bytes = 0 ∨ r.address + r.bytes ≤ r'.address ∨ r'.address + r'.bytes ≤ r.address := by
  constructor
  · intro h
    by_contra hmeet
    have hlast : max r.address r'.address ∈ r := by
      rw [mem_iff]
      omega
    have hnot := h _ hlast
    rw [mem_iff] at hnot
    omega
  · intro h x hx hx'
    rw [mem_iff] at hx hx'
    omega

/-- Every byte of the one belongs to the other. -/
def Within (r r' : Region) : Prop :=
  ∀ x, x ∈ r → x ∈ r'

lemma within_iff {r r' : Region} (hpos : 0 < r.bytes) :
    r.Within r' ↔ r'.address ≤ r.address ∧ r.address + r.bytes ≤ r'.address + r'.bytes := by
  constructor
  · intro h
    have hfirst : r.address ∈ r := mem_iff.mpr ⟨Nat.le_refl _, by omega⟩
    have hlast : r.address + r.bytes - 1 ∈ r := mem_iff.mpr ⟨by omega, by omega⟩
    have hfirst' := h _ hfirst
    have hlast' := h _ hlast
    rw [mem_iff] at hfirst' hlast'
    omega
  · intro h x hx
    rw [mem_iff] at hx ⊢
    omega

/-- Each region starts at or after the end of the one before, the first at or after `start`. -/
def Chained : Nat → List Region → Prop
  | _, [] => True
  | start, r :: rest => start ≤ r.address ∧ Chained (r.address + r.bytes) rest

lemma Chained.le_of_mem {start : Nat} {regions : List Region} (h : Chained start regions) {r : Region} (hr : r ∈ regions) :
    start ≤ r.address := by
  induction regions generalizing start with
  | nil => cases hr
  | cons r' rest ih =>
    rcases List.mem_cons.mp hr with rfl | hr
    · exact h.1
    · have hle := ih h.2 hr
      have := h.1
      omega

lemma Chained.pairwise {start : Nat} {regions : List Region} (h : Chained start regions) :
    regions.Pairwise Disjoint := by
  induction regions generalizing start with
  | nil => exact List.Pairwise.nil
  | cons r rest ih =>
    refine List.pairwise_cons.mpr ⟨?_, ih h.2⟩
    intro r' hr'
    exact disjoint_of_le (h.2.le_of_mem hr')

end Region

end McuxDrivers.Lib
