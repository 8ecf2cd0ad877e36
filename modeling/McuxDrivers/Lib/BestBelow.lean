import Mathlib.Order.Interval.Set.Basic

/-!
# The best choice below a bound

`BestBelow` is what a search for a divider should give: the choice with the greatest value that is not above a
bound, and a fallback when every value is above it.
-/

namespace McuxDrivers.Lib

structure BestBelow {α β : Type} [LE β] (choices : Set α) (value : α → β) (bound : β) (fallback chosen : α) : Prop where
  mem : chosen ∈ choices
  below : ∀ x ∈ choices, value x ≤ bound → value chosen ≤ bound ∧ value x ≤ value chosen
  otherwise : (∀ x ∈ choices, ¬ value x ≤ bound) → chosen = fallback

section Clamp

variable {α β : Type} {choices : Set α} {bound : β} {lo hi need : Nat}

/-- When the values fall with a number of the choices, the best choice has the least number that is needed, within
the bounds of the numbers. -/
theorem BestBelow.of_clamp [LE β] {value : α → β} {fallback chosen : α} {number : α → Nat} (hmem : chosen ∈ choices)
    (hnumber : ∀ x ∈ choices, lo ≤ number x ∧ number x ≤ hi)
    (hbelow : ∀ x ∈ choices, value x ≤ bound ↔ need ≤ number x)
    (hanti : ∀ x ∈ choices, ∀ y ∈ choices, number x ≤ number y → value y ≤ value x)
    (hchosen : number chosen = max lo (min need hi)) (hfallback : ∀ x ∈ choices, number x = hi → x = fallback) :
    BestBelow choices value bound fallback chosen := by
  refine ⟨hmem, fun x hx hvalue => ?_, fun hnone => ?_⟩
  · have hneed := (hbelow x hx).mp hvalue
    have hx' := hnumber x hx
    exact ⟨(hbelow chosen hmem).mpr (by omega), hanti chosen hmem x hx (by omega)⟩
  · have habove : ¬ need ≤ number chosen := fun hneed => hnone chosen hmem ((hbelow chosen hmem).mpr hneed)
    have hchosen' := hnumber chosen hmem
    exact hfallback chosen hmem (by omega)

/-- A choice that may be too far from the bound is still the best one when no value is passed over. -/
theorem bestBelow_icc_iff [PartialOrder β] {value : Nat → β} {far : Nat} (hle : lo ≤ hi)
    (hanti : ∀ x y, lo ≤ x → x ≤ y → y ≤ hi → value y ≤ value x)
    (hbelow : ∀ x, lo ≤ x → x ≤ hi → (value x ≤ bound ↔ need ≤ x)) (hfar : need ≤ far) :
    BestBelow (Set.Icc lo hi) value bound hi (max lo (min far hi)) ↔
      ∀ d, lo ≤ d → d < hi → d < far → value d ≤ bound → value (d + 1) = value d := by
  constructor
  · intro h d hlo hhi hless hvalue
    have hbest := (h.below d ⟨hlo, hhi.le⟩ hvalue).2
    apply le_antisymm (hanti d (d + 1) hlo (Nat.le_succ d) hhi)
    exact hbest.trans (hanti (d + 1) (max lo (min far hi)) (by omega) (by omega) (by omega))
  · intro h
    refine ⟨⟨by omega, by omega⟩, fun x hx hvalue => ⟨?_, ?_⟩, fun hnone => ?_⟩
    · have hneed := (hbelow x hx.1 hx.2).mp hvalue
      have hhi := hx.2
      exact (hbelow _ (by omega) (by omega)).mpr (by omega)
    · have hneed := (hbelow x hx.1 hx.2).mp hvalue
      have hlo := hx.1
      by_cases hxfar : max lo (min far hi) ≤ x
      · exact hanti _ x (by omega) hxfar hx.2
      · -- every step from `x` up to the choice keeps the value
        have hsame (n : Nat) (hn : x + n ≤ max lo (min far hi)) : value (x + n) = value x := by
          induction n with
          | zero => rfl
          | succ n ih =>
            rw [← ih (by omega)]
            exact h (x + n) (by omega) (by omega) (by omega) ((hbelow _ (by omega) (by omega)).mpr (by omega))
        rw [← hsame (max lo (min far hi) - x) (by omega), Nat.add_sub_cancel' (by omega)]
    · have habove : ¬ need ≤ max lo (min far hi) := fun hneed =>
        hnone _ ⟨by omega, by omega⟩ ((hbelow _ (by omega) (by omega)).mpr hneed)
      omega

end Clamp

end McuxDrivers.Lib
