import Mathlib.Tactic

/-! # A list with a flag for every element

An element is appended the first time it is marked, and a flag remembers that it was. The
flags keep the list free of repetitions unless it was started with an element whose flag was
not set: that element is appended again when it is marked.
-/
namespace XdsClient.Library

structure FlaggedList (α : Type*) where
  entries : List α
  flag : α → Bool

namespace FlaggedList
variable {α : Type*} [DecidableEq α]

def mark (l : FlaggedList α) (a : α) : FlaggedList α :=
  if l.flag a then l else ⟨l.entries ++ [a], Function.update l.flag a true⟩

theorem mark_flag (l : FlaggedList α) (a b : α) :
    (l.mark a).flag b = (l.flag b || decide (b = a)) := by
  by_cases hb : b = a
  · subst hb
    cases hf : l.flag b <;> simp [mark, hf]
  · cases hf : l.flag a <;> simp [mark, hf, hb]

structure Seeded (seed : α) (l : FlaggedList α) : Prop where
  seed_mem : seed ∈ l.entries
  flagged : ∀ a, l.flag a = true → a ∈ l.entries
  unflagged : l.flag seed = false → ∀ a ∈ l.entries, a = seed ∨ l.flag a = true
  nodup_iff : l.entries.Nodup ↔ l.flag seed = false

omit [DecidableEq α] in
theorem seeded_start (seed : α) : Seeded seed ⟨[seed], fun _ => false⟩ where
  seed_mem := List.mem_singleton_self seed
  flagged := by simp
  unflagged := by simp
  nodup_iff := by simp

theorem Seeded.mark {seed : α} {l : FlaggedList α} (h : Seeded seed l) (a : α) :
    Seeded seed (l.mark a) := by
  cases hf : l.flag a with
  | true =>
    have hsame : l.mark a = l := by simp [FlaggedList.mark, hf]
    rw [hsame]
    exact h
  | false =>
    have hentries : (l.mark a).entries = l.entries ++ [a] := by simp [FlaggedList.mark, hf]
    constructor
    · rw [hentries]
      exact List.mem_append_left _ h.seed_mem
    · intro b hb
      rw [mark_flag, Bool.or_eq_true, decide_eq_true_eq] at hb
      rw [hentries, List.mem_append, List.mem_singleton]
      exact hb.imp_left (h.flagged b)
    · intro hseed b hb
      rw [mark_flag, Bool.or_eq_false_iff] at hseed
      rw [hentries, List.mem_append, List.mem_singleton] at hb
      rw [mark_flag, Bool.or_eq_true, decide_eq_true_eq]
      rcases hb with hb | rfl
      · exact (h.unflagged hseed.1 b hb).imp_right Or.inl
      · exact Or.inr (Or.inr rfl)
    · -- an unflagged entry is new unless it is the seed
      have hnew (hseed : l.flag seed = false) : a ∈ l.entries ↔ seed = a := by
        constructor
        · intro ha
          rcases h.unflagged hseed a ha with heq | hflag
          · exact heq.symm
          · simp [hf] at hflag
        · rintro rfl
          exact h.seed_mem
      rw [hentries, mark_flag, Bool.or_eq_false_iff, decide_eq_false_iff_not,
        ← List.concat_eq_append, List.nodup_concat, h.nodup_iff, and_comm]
      exact and_congr_right fun hseed => not_congr (hnew hseed)

end FlaggedList
end XdsClient.Library
