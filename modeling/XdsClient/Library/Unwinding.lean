import Mathlib.Data.List.Forall2

/-! # What an observer sees of a run

A system with an invariant, an observation of its states, and an abstract system that the
observation follows step by step. Inputs the abstract system treats alike then cannot be
told apart by the observer, whatever else they do to the system.
-/
namespace XdsClient.Library

section Unwinding
variable {σ ο α : Type*} (observe : σ → ο) {step : σ → α → σ} {abstract : ο → α → ο}
  {Inv : σ → Prop}

/-- The observation of a run is a run of the abstract system. -/
theorem observe_foldl (hinv : ∀ s a, Inv s → Inv (step s a))
    (hstep : ∀ s a, Inv s → observe (step s a) = abstract (observe s) a) (inputs : List α) (s : σ)
    (hs : Inv s) : observe (inputs.foldl step s) = inputs.foldl abstract (observe s) := by
  induction inputs generalizing s with
  | nil => rfl
  | cons a inputs ih =>
    rw [List.foldl_cons, List.foldl_cons, ← hstep s a hs]
    exact ih _ (hinv s a hs)

theorem foldl_eq_of_forall₂ {R : α → α → Prop}
    (halike : ∀ o a b, R a b → abstract o a = abstract o b) {inputs inputs' : List α}
    (h : List.Forall₂ R inputs inputs') (o : ο) :
    inputs.foldl abstract o = inputs'.foldl abstract o := by
  induction h generalizing o with
  | nil => rfl
  | cons hab _ ih =>
    rw [List.foldl_cons, List.foldl_cons, halike o _ _ hab]
    exact ih _

/-- Runs on inputs that are pairwise alike end in the same observation. -/
theorem observe_foldl_eq {R : α → α → Prop} (hinv : ∀ s a, Inv s → Inv (step s a))
    (hstep : ∀ s a, Inv s → observe (step s a) = abstract (observe s) a)
    (halike : ∀ o a b, R a b → abstract o a = abstract o b) {inputs inputs' : List α}
    (h : List.Forall₂ R inputs inputs') (s : σ) (hs : Inv s) :
    observe (inputs.foldl step s) = observe (inputs'.foldl step s) := by
  rw [observe_foldl observe hinv hstep inputs s hs, observe_foldl observe hinv hstep inputs' s hs]
  exact foldl_eq_of_forall₂ halike h _

end Unwinding
end XdsClient.Library
