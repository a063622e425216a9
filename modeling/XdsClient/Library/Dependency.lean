import Mathlib.Logic.Relation
import Mathlib.Tactic

/-! # Building things after what they depend on

`R a b` says that `a` depends on `b`. A list grows by elements that are new and whose
dependencies are there; `Loaded` describes the list after some seeds were loaded that way.
-/
namespace XdsClient.Library
open Relation

variable {α : Type*} (R : α → α → Prop)

def Closed (l : List α) : Prop := ∀ a ∈ l, ∀ b, R a b → b ∈ l

/-- The list has grown out of `start`, by one new element after the other, each after its
dependencies. -/
inductive Builds (start : List α) : List α → Prop
  | start : Builds start start
  | build {l : List α} {a : α} : Builds start l → a ∉ l → (∀ b, R a b → b ∈ l) →
      Builds start (l ++ [a])

variable {R} {start l l' : List α} {a b : α}

theorem Closed.mem_of_reflTransGen (h : Closed R l) (ha : a ∈ l) (hab : ReflTransGen R a b) :
    b ∈ l := by
  induction hab with
  | refl => exact ha
  | tail _ hstep ih => exact h _ ih _ hstep

namespace Builds

theorem trans (h : Builds R start l) (h' : Builds R l l') : Builds R start l' := by
  induction h' with
  | start => exact h
  | build _ hnew hdeps ih => exact ih.build hnew hdeps

theorem subset (h : Builds R start l) : start ⊆ l := by
  induction h with
  | start => exact List.Subset.refl start
  | build _ _ _ ih => exact fun a ha => List.mem_append_left _ (ih ha)

theorem closed (h : Builds R start l) (hstart : Closed R start) : Closed R l := by
  induction h with
  | start => exact hstart
  | build _ _ hdeps ih =>
    intro a ha b hab
    rw [List.mem_append, List.mem_singleton] at ha ⊢
    left
    rcases ha with ha | rfl
    · exact ih a ha b hab
    · exact hdeps b hab

end Builds

/-- The seeds are in the list, and nothing was built but what they need. -/
structure Loaded (R : α → α → Prop) (start seeds l : List α) : Prop where
  builds : Builds R start l
  seeds_mem : seeds ⊆ l
  reached : ∀ a ∈ l, a ∈ start ∨ ∃ s ∈ seeds, ReflTransGen R s a

namespace Loaded
variable {seeds deps : List α}

theorem nil (start : List α) : Loaded R start [] start :=
  ⟨.start, List.nil_subset start, fun _ ha => Or.inl ha⟩

theorem present (h : a ∈ start) : Loaded R start [a] start :=
  ⟨.start, by simpa using h, fun _ hb => Or.inl hb⟩

theorem cons (h : Loaded R start [a] l) (h' : Loaded R l seeds l') :
    Loaded R start (a :: seeds) l' where
  builds := h.builds.trans h'.builds
  seeds_mem := by
    rw [List.cons_subset]
    exact ⟨h'.builds.subset (h.seeds_mem (List.mem_singleton_self a)), h'.seeds_mem⟩
  reached := by
    intro b hb
    rcases h'.reached b hb with hb | ⟨s, hs, hsb⟩
    · refine (h.reached b hb).imp_right ?_
      rintro ⟨s, hs, hsb⟩
      rw [List.mem_singleton] at hs
      exact ⟨s, by simp [hs], hsb⟩
    · exact Or.inr ⟨s, List.mem_cons_of_mem a hs, hsb⟩

theorem build (h : Loaded R start deps l) (hdeps : ∀ b, R a b ↔ b ∈ deps) (hnew : a ∉ l) :
    Loaded R start [a] (l ++ [a]) where
  builds := h.builds.build hnew fun b hab => h.seeds_mem ((hdeps b).mp hab)
  seeds_mem := by simp
  reached := by
    intro b hb
    rw [List.mem_append, List.mem_singleton] at hb
    rcases hb with hb | rfl
    · refine (h.reached b hb).imp_right ?_
      rintro ⟨d, hd, hdb⟩
      exact ⟨a, List.mem_singleton_self a, hdb.head ((hdeps d).mpr hd)⟩
    · exact Or.inr ⟨b, List.mem_singleton_self b, .refl⟩

/-- Loading its dependencies does not build an element that is not part of a cycle. -/
theorem not_mem (h : Loaded R start deps l) (hdeps : ∀ b ∈ deps, R a b) (hstart : a ∉ start)
    (hacyclic : ¬ TransGen R a a) : a ∉ l := by
  intro ha
  rcases h.reached a ha with ha | ⟨d, hd, hda⟩
  · exact hstart ha
  · exact hacyclic (TransGen.head' (hdeps d hd) hda)

theorem mem_iff (h : Loaded R start [a] l) (hclosed : Closed R start) :
    b ∈ l ↔ b ∈ start ∨ ReflTransGen R a b := by
  constructor
  · intro hb
    simpa using h.reached b hb
  · rintro (hb | hab)
    · exact h.builds.subset hb
    · exact (h.builds.closed hclosed).mem_of_reflTransGen (h.seeds_mem (List.mem_singleton_self a)) hab

/-- Several seeds bring in what any of them needs. -/
theorem mem_iff_exists (h : Loaded R start seeds l) (hclosed : Closed R start) :
    b ∈ l ↔ b ∈ start ∨ ∃ s ∈ seeds, ReflTransGen R s b := by
  constructor
  · exact h.reached b
  · rintro (hb | ⟨s, hs, hsb⟩)
    · exact h.builds.subset hb
    · exact (h.builds.closed hclosed).mem_of_reflTransGen (h.seeds_mem hs) hsb

end Loaded
end XdsClient.Library
