import Mathlib.Data.List.Basic

/-!
# Runs of a state machine under a condition on its steps

`EachStep` says that every event of a run meets a condition in the state that it finds. An invariant
kept by the steps that meet the condition holds after every such run.
-/

namespace McuxDrivers.Lib

variable {σ ε : Type} (step : σ → ε → σ) (cond : σ → ε → Prop)

/-- Every event meets the condition when its turn comes. -/
def EachStep : σ → List ε → Prop
  | _, [] => True
  | s, e :: events => cond s e ∧ EachStep (step s e) events

instance instDecidableEachStep [∀ s e, Decidable (cond s e)] :
    (s : σ) → (events : List ε) → Decidable (EachStep step cond s events)
  | _, [] => isTrue trivial
  | s, e :: events =>
    have := instDecidableEachStep (step s e) events
    inferInstanceAs (Decidable (cond s e ∧ EachStep step cond (step s e) events))

variable {step cond}

lemma eachStep_true (step : σ → ε → σ) (s : σ) (events : List ε) : EachStep step (fun _ _ => True) s events := by
  induction events generalizing s with
  | nil => trivial
  | cons e events ih => exact ⟨trivial, ih (step s e)⟩

/-- What the conditional steps keep, the conditional runs keep. -/
theorem EachStep.invariant {I : σ → Prop} (hstep : ∀ s e, I s → cond s e → I (step s e)) (events : List ε)
    {s : σ} (hrun : EachStep step cond s events) (hs : I s) : I (events.foldl step s) := by
  induction events generalizing s with
  | nil => exact hs
  | cons e events ih => exact ih hrun.2 (hstep s e hs hrun.1)

/-- Two conditions that agree under an invariant, which their steps keep, have the same runs. -/
theorem EachStep.congr {I : σ → Prop} {cond' : σ → ε → Prop} {E : ε → Prop}
    (hiff : ∀ s e, I s → E e → (cond s e ↔ cond' s e)) (hstep : ∀ s e, I s → cond s e → I (step s e))
    (events : List ε) (hevents : ∀ e ∈ events, E e) {s : σ} (hs : I s) :
    EachStep step cond s events ↔ EachStep step cond' s events := by
  induction events generalizing s with
  | nil => exact Iff.rfl
  | cons e events ih =>
    have hhead := hiff s e hs (hevents e List.mem_cons_self)
    have htail (hcond : cond s e) := ih (fun e' he' => hevents e' (List.mem_cons_of_mem e he')) (hstep s e hs hcond)
    refine ⟨?_, ?_⟩
    · rintro ⟨hcond, hrest⟩
      exact ⟨hhead.mp hcond, (htail hcond).mp hrest⟩
    · rintro ⟨hcond, hrest⟩
      exact ⟨hhead.mpr hcond, (htail (hhead.mpr hcond)).mpr hrest⟩

/-- Where the invariant `I` gives `P`, is kept by the steps that meet the condition, and `P` fails after any other
step, the runs that only reach states with `P` are the conditional ones. -/
theorem forall_front_iff {I P : σ → Prop} {cond' : σ → ε → Prop} (hP : ∀ s, I s → P s)
    (hkeep : ∀ s e, I s → cond' s e → cond s e → I (step s e))
    (hfail : ∀ s e, I s → cond' s e → ¬ cond s e → ¬ P (step s e)) (events : List ε) {s : σ} (hs : I s)
    (hrun : EachStep step cond' s events) :
    (∀ front, front <+: events → P (front.foldl step s)) ↔ EachStep step cond s events := by
  induction events generalizing s with
  | nil =>
    refine ⟨fun _ => trivial, ?_⟩
    intro _ front hfront
    rw [List.prefix_nil.mp hfront]
    exact hP s hs
  | cons e events ih =>
    refine ⟨?_, ?_⟩
    · intro hall
      have hcond : cond s e := by
        by_contra hnot
        exact hfail s e hs hrun.1 hnot (hall [e] (by simp))
      refine ⟨hcond, (ih (hkeep s e hs hrun.1 hcond) hrun.2).mp ?_⟩
      intro front hfront
      exact hall (e :: front) (List.cons_prefix_cons.mpr ⟨rfl, hfront⟩)
    · rintro ⟨hcond, hrest⟩ front hfront
      cases front with
      | nil => exact hP s hs
      | cons e' front =>
        obtain ⟨rfl, hrestfront⟩ := List.cons_prefix_cons.mp hfront
        exact (ih (hkeep s e' hs hrun.1 hcond) hrun.2).mpr hrest front hrestfront

end McuxDrivers.Lib
