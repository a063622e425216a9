import Mathlib.Tactic

/-! # Schedules

The steps of several threads over one state, in any order. What every step keeps holds along
every schedule, and where every step brings the end nearer by one, every schedule can be
counted: it has the same length whatever the order of its steps.
-/
namespace XdsClient.Library

variable {σ : Type*}

inductive Steps (step : σ → σ → Prop) (s : σ) : ℕ → σ → Prop
  | refl : Steps step s 0 s
  | tail {n : ℕ} {t u : σ} : Steps step s n t → step t u → Steps step s (n + 1) u

namespace Steps
variable {step : σ → σ → Prop} {Inv : σ → Prop} {n : ℕ} {s t : σ}

theorem invariant (hkeep : ∀ s t, step s t → Inv s → Inv t) (h : Steps step s n t) (hs : Inv s) :
    Inv t := by
  induction h with
  | refl => exact hs
  | tail _ hstep ih => exact hkeep _ _ hstep ih

/-- The steps made and the steps left add up. -/
theorem add_left {left : σ → ℕ} (hcount : ∀ s t, step s t → left s = left t + 1)
    (h : Steps step s n t) : n + left t = left s := by
  induction h with
  | refl => exact Nat.zero_add _
  | tail _ hstep ih =>
    have hlast := hcount _ _ hstep
    omega

end Steps

/-- Where a step is possible exactly as long as some are left, the schedules that cannot go on
are those of full length. -/
theorem stuck_iff_left_eq_zero {step : σ → σ → Prop} {left : σ → ℕ} {s : σ}
    (hcount : ∀ t, step s t → left s = left t + 1) (hprogress : 0 < left s → ∃ t, step s t) :
    (∀ t, ¬ step s t) ↔ left s = 0 := by
  constructor
  · intro hstuck
    by_contra hleft
    obtain ⟨t, ht⟩ := hprogress (by omega)
    exact hstuck t ht
  · intro hleft t ht
    have hone := hcount t ht
    omega

end XdsClient.Library
