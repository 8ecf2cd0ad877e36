import Mathlib.Data.Nat.Basic

/-!
# Loops without a bound in the source

A `while` loop as a body that gives the next state or the result, run for a number of rounds.
`loop_terminates` is the rule for total correctness: an invariant and a variant. A program with such
loops is a function of the rounds that they are given; `Yields` says that enough of them give a result.
-/

namespace McuxDrivers.Lib

/-- At most `fuel` rounds of a loop; `none` when the loop is still running after them. -/
def loop {σ ρ : Type} (body : σ → σ ⊕ ρ) : Nat → σ → Option ρ
  | 0, _ => none
  | fuel + 1, s =>
    match body s with
    | .inl s' => loop body fuel s'
    | .inr r => some r

/-- A loop that keeps `I`, and counts down `variant` in every round that goes on, gives one result
for every number of rounds above the variant, and the result has what a leaving round gives it. -/
theorem loop_terminates {σ ρ : Type} {body : σ → σ ⊕ ρ} {I : σ → Prop} {Q : ρ → Prop}
    (variant : σ → Nat) (hnext : ∀ s s', I s → body s = .inl s' → I s' ∧ variant s' < variant s)
    (hleave : ∀ s r, I s → body s = .inr r → Q r) {s : σ} (h : I s) :
    ∃ r, (∀ fuel, variant s < fuel → loop body fuel s = some r) ∧ Q r := by
  induction hv : variant s using Nat.strong_induction_on generalizing s with
  | _ n ih =>
    cases hbody : body s with
    | inl s' =>
      obtain ⟨hinv, hless⟩ := hnext s s' h hbody
      obtain ⟨r, hr, hQ⟩ := ih (variant s') (by omega) hinv rfl
      refine ⟨r, ?_, hQ⟩
      intro fuel hfuel
      cases fuel with
      | zero => omega
      | succ fuel =>
        rw [loop, hbody]
        exact hr fuel (by omega)
    | inr r =>
      refine ⟨r, ?_, hleave s r h hbody⟩
      intro fuel hfuel
      cases fuel with
      | zero => omega
      | succ fuel => rw [loop, hbody]

/-- With enough rounds the program gives `r`. -/
def Returns {ρ : Type} (f : Nat → Option ρ) (r : ρ) : Prop :=
  ∃ bound, ∀ fuel, bound ≤ fuel → f fuel = some r

/-- With enough rounds the program gives a result with `Q`. -/
def Yields {ρ : Type} (f : Nat → Option ρ) (Q : ρ → Prop) : Prop :=
  ∃ r, Returns f r ∧ Q r

section Programs

variable {ρ τ : Type} {f : Nat → Option ρ} {Q : ρ → Prop}

theorem Returns.unique {r r' : ρ} (h : Returns f r) (h' : Returns f r') : r = r' := by
  obtain ⟨bound, hbound⟩ := h
  obtain ⟨bound', hbound'⟩ := h'
  have heq := hbound (max bound bound') (le_max_left _ _)
  rw [hbound' (max bound bound') (le_max_right _ _)] at heq
  exact (Option.some.inj heq).symm

theorem Returns.bind {g : Nat → ρ → Option τ} {r : ρ} {q : τ} (h : Returns f r) (h' : Returns (fun fuel => g fuel r) q) :
    Returns (fun fuel => (f fuel).bind (g fuel)) q := by
  obtain ⟨bound, hbound⟩ := h
  obtain ⟨bound', hbound'⟩ := h'
  refine ⟨max bound bound', ?_⟩
  intro fuel hfuel
  dsimp only
  rw [hbound fuel (le_trans (le_max_left _ _) hfuel)]
  exact hbound' fuel (le_trans (le_max_right _ _) hfuel)

theorem Returns.map {r : ρ} (h : Returns f r) (g : ρ → τ) : Returns (fun fuel => (f fuel).map g) (g r) := by
  obtain ⟨bound, hbound⟩ := h
  refine ⟨bound, ?_⟩
  intro fuel hfuel
  dsimp only
  rw [hbound fuel hfuel]
  rfl

theorem Yields.pure {r : ρ} (h : Q r) : Yields (fun _ => some r) Q :=
  ⟨r, ⟨0, fun _ _ => rfl⟩, h⟩

theorem Yields.mono {Q' : ρ → Prop} (h : Yields f Q) (himp : ∀ r, Q r → Q' r) : Yields f Q' := by
  obtain ⟨r, hr, hQ⟩ := h
  exact ⟨r, hr, himp r hQ⟩

/-- Two programs one after another. -/
theorem Yields.bind {g : Nat → ρ → Option τ} {R : τ → Prop} (h : Yields f Q)
    (hg : ∀ r, Q r → Yields (fun fuel => g fuel r) R) : Yields (fun fuel => (f fuel).bind (g fuel)) R := by
  obtain ⟨r, hr, hQ⟩ := h
  obtain ⟨q, hq, hR⟩ := hg r hQ
  exact ⟨q, hr.bind hq, hR⟩

theorem Yields.map {g : ρ → τ} {R : τ → Prop} (h : Yields f Q) (hg : ∀ r, Q r → R (g r)) :
    Yields (fun fuel => (f fuel).map g) R := by
  obtain ⟨r, hr, hQ⟩ := h
  exact ⟨g r, hr.map g, hg r hQ⟩

theorem Yields.succ (h : Yields (fun fuel => f (fuel + 1)) Q) : Yields f Q := by
  obtain ⟨r, ⟨bound, hbound⟩, hQ⟩ := h
  refine ⟨r, ⟨bound + 1, ?_⟩, hQ⟩
  intro fuel hfuel
  cases fuel with
  | zero => exact absurd hfuel (Nat.not_succ_le_zero bound)
  | succ fuel => exact hbound fuel (Nat.le_of_succ_le_succ hfuel)

theorem Yields.holds {r : ρ} (h : Yields f Q) (hr : Returns f r) : Q r := by
  obtain ⟨r', hr', hQ⟩ := h
  rw [hr.unique hr']
  exact hQ

end Programs

/-- A round that goes on. -/
theorem loop_next {σ ρ : Type} {body : σ → σ ⊕ ρ} {s s' : σ} {r : ρ} (hbody : body s = .inl s')
    (h : Returns (fun fuel => loop body fuel s') r) : Returns (fun fuel => loop body fuel s) r := by
  obtain ⟨bound, hbound⟩ := h
  refine ⟨bound + 1, ?_⟩
  intro fuel hfuel
  cases fuel with
  | zero => exact absurd hfuel (Nat.not_succ_le_zero bound)
  | succ fuel =>
    dsimp only
    rw [loop, hbody]
    exact hbound fuel (Nat.le_of_succ_le_succ hfuel)

/-- A round that leaves the loop. -/
theorem loop_leave {σ ρ : Type} {body : σ → σ ⊕ ρ} {s : σ} {r : ρ} (hbody : body s = .inr r) :
    Returns (fun fuel => loop body fuel s) r := by
  refine ⟨1, ?_⟩
  intro fuel hfuel
  cases fuel with
  | zero => exact absurd hfuel (Nat.not_succ_le_zero 0)
  | succ fuel =>
    dsimp only
    rw [loop, hbody]

/-- A loop without a round that leaves it. -/
theorem loop_never {σ ρ : Type} {body : σ → σ ⊕ ρ} {I : σ → Prop} (hnext : ∀ s, I s → ∃ s', body s = .inl s' ∧ I s')
    {s : σ} (h : I s) (fuel : Nat) : loop body fuel s = none := by
  induction fuel generalizing s with
  | zero => rfl
  | succ fuel ih =>
    obtain ⟨s', hbody, hs'⟩ := hnext s h
    rw [loop, hbody]
    exact ih hs'

theorem Returns.ne_none {ρ : Type} {f : Nat → Option ρ} {r : ρ} (h : Returns f r) (hnone : ∀ fuel, f fuel = none) :
    False := by
  obtain ⟨bound, hbound⟩ := h
  have hsome := hbound bound le_rfl
  rw [hnone] at hsome
  exact Option.some_ne_none r hsome.symm

/-- The loop does not tell states apart on which the body does the same. -/
theorem loop_congr {σ ρ : Type} {body : σ → σ ⊕ ρ} {s s' : σ} (h : body s = body s') (fuel : Nat) :
    loop body fuel s = loop body fuel s' := by
  cases fuel with
  | zero => rfl
  | succ fuel => rw [loop, loop, h]

/-- `loop_terminates` for a loop in a program. -/
theorem loop_yields {σ ρ : Type} {body : σ → σ ⊕ ρ} {I : σ → Prop} {Q : ρ → Prop} (variant : σ → Nat)
    (hnext : ∀ s s', I s → body s = .inl s' → I s' ∧ variant s' < variant s)
    (hleave : ∀ s r, I s → body s = .inr r → Q r) {s : σ} (h : I s) :
    Yields (fun fuel => loop body fuel s) Q := by
  obtain ⟨r, hr, hQ⟩ := loop_terminates variant hnext hleave h
  exact ⟨r, ⟨variant s + 1, fun fuel hfuel => hr fuel hfuel⟩, hQ⟩

end McuxDrivers.Lib
