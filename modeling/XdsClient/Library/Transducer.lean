import XdsClient.Library.Unwinding

/-! # Machines with output

A transducer changes its state and emits a word at every input. Its output over a sequence
of inputs is the concatenation of these words. A system that follows a transducer input by
input, and whose trace grows by the emitted words, has the transducer's output as its trace;
and what a filter leaves of the output is the output of any smaller machine that emits what
the filter leaves of every word. Two runs that stay related have the same output, or the same
behind a filter, if they emit the same at every input.
-/
namespace XdsClient.Library

structure Transducer (σ α ω : Type*) where
  step : σ → α → σ
  emit : σ → α → List ω

namespace Transducer
variable {σ τ α ω υ : Type*} (M : Transducer σ α ω)

def output : σ → List α → List ω
  | _, [] => []
  | s, a :: inputs => M.emit s a ++ output (M.step s a) inputs

@[simp] theorem output_nil (s : σ) : M.output s [] = [] := rfl

@[simp] theorem output_cons (s : σ) (a : α) (inputs : List α) :
    M.output s (a :: inputs) = M.emit s a ++ M.output (M.step s a) inputs := rfl

/-- A system that follows the machine has the machine's output as its trace. -/
theorem trace_foldl {step : τ → α → τ} (observe : τ → σ) (trace : τ → List ω) {Inv : τ → Prop}
    (hinv : ∀ t a, Inv t → Inv (step t a))
    (hstep : ∀ t a, Inv t → observe (step t a) = M.step (observe t) a)
    (htrace : ∀ t a, Inv t → trace (step t a) = trace t ++ M.emit (observe t) a)
    (inputs : List α) (t : τ) (ht : Inv t) :
    trace (inputs.foldl step t) = trace t ++ M.output (observe t) inputs := by
  induction inputs generalizing t with
  | nil => simp
  | cons a inputs ih =>
    rw [List.foldl_cons, ih _ (hinv t a ht), htrace t a ht, hstep t a ht, output_cons,
      List.append_assoc]

/-- A filtered output is the output of a machine that follows and emits what is left. -/
theorem filterMap_output (N : Transducer τ α υ) (observe : σ → τ) (f : ω → Option υ)
    (hstep : ∀ s a, observe (M.step s a) = N.step (observe s) a)
    (hemit : ∀ s a, (M.emit s a).filterMap f = N.emit (observe s) a) (inputs : List α) (s : σ) :
    (M.output s inputs).filterMap f = N.output (observe s) inputs := by
  induction inputs generalizing s with
  | nil => rfl
  | cons a inputs ih =>
    rw [output_cons, output_cons, List.filterMap_append, hemit, ih, hstep]

/-- Two machines whose steps keep a relation and emit the same words have the same output. -/
theorem output_map {β : Type*} (N : Transducer τ β ω) {R : σ → τ → Prop} (f : α → β)
    (hstep : ∀ s t a, R s t → R (M.step s a) (N.step t (f a)))
    (hemit : ∀ s t a, R s t → N.emit t (f a) = M.emit s a) (inputs : List α) (s : σ) (t : τ)
    (h : R s t) : N.output t (inputs.map f) = M.output s inputs := by
  induction inputs generalizing s t with
  | nil => rfl
  | cons a inputs ih =>
    rw [List.map_cons, output_cons, output_cons, hemit s t a h, ih _ _ (hstep s t a h)]

/-- On inputs that are pairwise alike, two runs whose states stay alike leave the same behind a
filter, if alike states do so at every input. -/
theorem filter_output_eq {R : σ → σ → Prop} {Q : α → α → Prop} (p : ω → Bool)
    (hstep : ∀ s t a b, R s t → Q a b → R (M.step s a) (M.step t b))
    (hemit : ∀ s t a b, R s t → Q a b → (M.emit s a).filter p = (M.emit t b).filter p)
    {inputs inputs' : List α} (h : List.Forall₂ Q inputs inputs') (s t : σ) (hst : R s t) :
    (M.output s inputs).filter p = (M.output t inputs').filter p := by
  induction h generalizing s t with
  | nil => rfl
  | cons hab _ ih =>
    rw [output_cons, output_cons, List.filter_append, List.filter_append, hemit s t _ _ hst hab,
      ih _ _ (hstep s t _ _ hst hab)]

end Transducer
end XdsClient.Library
