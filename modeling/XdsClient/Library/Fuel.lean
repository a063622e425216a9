import Mathlib.Tactic

/-! # Fuel-indexed computations

A recursion that the source leaves unbounded is written with a fuel argument and
answers `none` when the fuel is used up. `Converges f a` says that every large
enough amount of fuel gives the answer `a`; the rules below follow the way such
functions are built, one call or one sequencing at a time.
-/
namespace XdsClient.Library

variable {α β : Type*}

/-- All sufficiently large amounts of fuel give the answer `a`. -/
def Converges (f : ℕ → Option α) (a : α) : Prop := ∃ N, ∀ n, N ≤ n → f n = some a

def FuelMonotone (f : ℕ → Option α) : Prop := ∀ n a, f n = some a → f (n + 1) = some a

theorem FuelMonotone.converges {f : ℕ → Option α} (hf : FuelMonotone f) {k : ℕ} {a : α}
    (h : f k = some a) : Converges f a := by
  refine ⟨k, fun n hn => ?_⟩
  induction n, hn using Nat.le_induction with
  | base => exact h
  | succ n _ ih => exact hf n a ih

theorem Converges.unique {f : ℕ → Option α} {a b : α} (ha : Converges f a)
    (hb : Converges f b) : a = b := by
  obtain ⟨N, hN⟩ := ha
  obtain ⟨M, hM⟩ := hb
  have h := hN (max N M) (le_max_left N M)
  rw [hM (max N M) (le_max_right N M)] at h
  exact (Option.some.inj h).symm

theorem Converges.exists_fuel {f : ℕ → Option α} {a : α} (h : Converges f a) :
    ∃ n, f n = some a := by
  obtain ⟨N, hN⟩ := h
  exact ⟨N, hN N le_rfl⟩

theorem Converges.const (a : α) : Converges (fun _ => some a) a := ⟨0, fun _ _ => rfl⟩

theorem Converges.call {f g : ℕ → Option α} {a : α} (hfg : ∀ n, f (n + 1) = g n)
    (hg : Converges g a) : Converges f a := by
  obtain ⟨N, hN⟩ := hg
  refine ⟨N + 1, fun n hn => ?_⟩
  obtain ⟨m, rfl⟩ : ∃ m, n = m + 1 := ⟨n - 1, by omega⟩
  rw [hfg]
  exact hN m (by omega)

/-- Sequencing: the second computation runs on the answer of the first. -/
theorem Converges.bind {f : ℕ → Option α} {g : ℕ → α → Option β} {a : α} {b : β}
    (hf : Converges f a) (hg : Converges (fun n => g n a) b) :
    Converges (fun n => (f n).bind (g n)) b := by
  obtain ⟨N, hN⟩ := hf
  obtain ⟨M, hM⟩ := hg
  refine ⟨max N M, fun n hn => ?_⟩
  simp only [hN n (le_trans (le_max_left N M) hn), Option.bind_some]
  exact hM n (le_trans (le_max_right N M) hn)

theorem Converges.map {f : ℕ → Option α} {a : α} (g : α → β) (hf : Converges f a) :
    Converges (fun n => (f n).map g) (g a) := by
  obtain ⟨N, hN⟩ := hf
  exact ⟨N, fun n hn => by simp only [hN n hn, Option.map_some]⟩

end XdsClient.Library
