import Mathlib.Data.List.Sort
import Mathlib.Tactic

/-! # Ordered sets and first-occurrence lists

An ordered set is the ascending list of its elements, as iteration over a
balanced-tree set delivers them. The second part is the loop that walks a
sequence, remembers what it has seen in such a set and emits each value the
first time only: it computes `List.eraseDups`.
-/
namespace XdsClient.Library

variable {α : Type*} [LinearOrder α]

/-- A finite set given by its elements in strictly ascending order. -/
structure OrderedSet (α : Type*) [LinearOrder α] where
  toList : List α
  ascending : toList.SortedLT

namespace OrderedSet

instance : DecidableEq (OrderedSet α) := fun A B =>
  decidable_of_iff (A.toList = B.toList) ⟨fun h => by cases A; cases B; simp_all, fun h => h ▸ rfl⟩

instance : Membership α (OrderedSet α) := ⟨fun A a => a ∈ A.toList⟩

theorem mem_def {A : OrderedSet α} {a : α} : a ∈ A ↔ a ∈ A.toList := Iff.rfl

instance (A : OrderedSet α) (a : α) : Decidable (a ∈ A) := inferInstanceAs (Decidable (a ∈ A.toList))

theorem ext {A B : OrderedSet α} (h : ∀ a, a ∈ A ↔ a ∈ B) : A = B := by
  have hl : A.toList = B.toList := A.ascending.eq_of_mem_iff B.ascending h
  cases A
  cases B
  simp_all

def empty : OrderedSet α := ⟨[], List.sortedLT_iff_pairwise.mpr List.Pairwise.nil⟩

instance : EmptyCollection (OrderedSet α) := ⟨empty⟩

@[simp] theorem notMem_empty (a : α) : a ∉ (∅ : OrderedSet α) := List.not_mem_nil

private theorem sortedLT_orderedInsert (l : List α) (a : α) (hl : l.SortedLT) (ha : a ∉ l) :
    (l.orderedInsert (· ≤ ·) a).SortedLT := by
  rw [List.sortedLT_iff_nodup_and_sortedLE]
  constructor
  · exact (List.perm_orderedInsert (· ≤ ·) a l).nodup_iff.mpr (List.nodup_cons.mpr ⟨ha, hl.nodup⟩)
  · exact (hl.sortedLE.pairwise.orderedInsert a l).sortedLE

def insert (A : OrderedSet α) (a : α) : OrderedSet α :=
  if h : a ∈ A.toList then A else
    ⟨A.toList.orderedInsert (· ≤ ·) a, sortedLT_orderedInsert A.toList a A.ascending h⟩

@[simp] theorem mem_insert {A : OrderedSet α} {a b : α} : b ∈ A.insert a ↔ b = a ∨ b ∈ A := by
  unfold insert
  split_ifs with h
  · constructor
    · exact Or.inr
    · rintro (rfl | hb)
      · exact h
      · exact hb
  · simp [mem_def, List.mem_orderedInsert]

def isEmpty (A : OrderedSet α) : Bool := A.toList.isEmpty

theorem toList_of_isEmpty {A : OrderedSet α} (h : A.isEmpty = true) : A.toList = [] :=
  List.isEmpty_iff.mp h

/-- Copy every element of `B` into `A`, in iteration order, after applying `f`. -/
def transformInto (f : α → α) (B A : OrderedSet α) : OrderedSet α :=
  B.toList.foldl (fun C b => C.insert (f b)) A

private theorem mem_foldl_insert (l : List α) (A : OrderedSet α) (a : α) :
    a ∈ l.foldl (fun C b => C.insert b) A ↔ a ∈ l ∨ a ∈ A := by
  induction l generalizing A with
  | nil => simp
  | cons b l ih =>
    rw [List.foldl_cons, ih, mem_insert, List.mem_cons]
    tauto

theorem transformInto_id (B : OrderedSet α) : transformInto (fun b => b) B ∅ = B := by
  apply ext
  intro a
  rw [transformInto, mem_foldl_insert]
  simp only [notMem_empty, or_false]
  rfl

end OrderedSet

/-- One turn of the loop: a value is emitted and remembered unless it was seen before. -/
def emitFresh (acc : OrderedSet α × List α) (a : α) : OrderedSet α × List α :=
  if a ∈ acc.1 then acc else (acc.1.insert a, acc.2 ++ [a])

private theorem eraseDups_filter_notMem (l : List α) (emitted : List α) (a : α)
    (ha : a ∉ emitted) :
    ((a :: l).filter (fun b => decide (b ∉ emitted))).eraseDups =
      a :: (l.filter (fun b => decide (b ∉ emitted ++ [a]))).eraseDups := by
  rw [List.filter_cons_of_pos (by simpa using ha), List.eraseDups_cons, List.filter_filter]
  congr 3
  funext b
  by_cases hb : b = a <;> simp [hb]

theorem foldl_emitFresh (l : List α) (acc : OrderedSet α × List α)
    (hacc : ∀ a, a ∈ acc.1 ↔ a ∈ acc.2) :
    (l.foldl emitFresh acc).2 =
      acc.2 ++ (l.filter (fun a => decide (a ∉ acc.2))).eraseDups := by
  induction l generalizing acc with
  | nil => simp
  | cons a l ih =>
    rw [List.foldl_cons]
    by_cases ha : a ∈ acc.2
    · rw [emitFresh, if_pos ((hacc a).mpr ha), ih acc hacc, List.filter_cons_of_neg (by simpa using ha)]
    · rw [emitFresh, if_neg (fun h => ha ((hacc a).mp h)), ih, eraseDups_filter_notMem l acc.2 a ha]
      · simp
      · intro b
        simp [hacc b, or_comm]

/-- The whole loop emits the values in the order of their first occurrence. -/
theorem foldl_emitFresh_empty (l : List α) : (l.foldl emitFresh (∅, [])).2 = l.eraseDups := by
  rw [foldl_emitFresh l (∅, []) (by simp)]
  simp

private theorem foldl_emitFresh_nodup (l : List α) (acc : OrderedSet α × List α)
    (hacc : ∀ a, a ∈ acc.1 ↔ a ∈ acc.2) (hnodup : acc.2.Nodup) :
    (l.foldl emitFresh acc).2.Nodup := by
  induction l generalizing acc with
  | nil => exact hnodup
  | cons a l ih =>
    rw [List.foldl_cons]
    by_cases ha : a ∈ acc.1
    · rw [emitFresh, if_pos ha]
      exact ih acc hacc hnodup
    · rw [emitFresh, if_neg ha]
      apply ih
      · intro b
        simp [hacc b, or_comm]
      · have hne : ∀ b ∈ acc.2, b ≠ a := fun b hb hba => ha ((hacc a).mpr (hba ▸ hb))
        simpa [List.nodup_append, hnodup] using hne

theorem eraseDups_nodup (l : List α) : l.eraseDups.Nodup := by
  rw [← foldl_emitFresh_empty]
  exact foldl_emitFresh_nodup l (∅, []) (by simp) List.nodup_nil

omit [LinearOrder α] in
/-- Parts that contribute nothing may be left out of a concatenation. -/
theorem flatMap_filter {β : Type*} (l : List β) (p : β → Bool) (f : β → List α)
    (h : ∀ b ∈ l, p b = false → f b = []) : (l.filter p).flatMap f = l.flatMap f := by
  induction l with
  | nil => rfl
  | cons b l ih =>
    have hrest := ih fun c hc => h c (List.mem_cons_of_mem b hc)
    cases hb : p b with
    | true => rw [List.filter_cons_of_pos hb, List.flatMap_cons, List.flatMap_cons, hrest]
    | false =>
      rw [List.filter_cons_of_neg (by simp [hb]), List.flatMap_cons, hrest,
        h b List.mem_cons_self hb, List.nil_append]

end XdsClient.Library
