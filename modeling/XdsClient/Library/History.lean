import Mathlib.Data.List.TakeWhile
import Mathlib.Tactic

/-! # Histories

A history is the list of what happened, newest first, so that the tail of every
entry is its past. `Always` states a property of every entry against its own
past, `Since` against what came after it, and `somewhere` tests whether there is such
an entry; `Grows` bounds what a history has grown by, and `upTo` reads the other way, from a
point of the history up to the next entry of a given kind.
-/
namespace XdsClient.Library

variable {ε : Type*}

/-- Every entry of the history stands in `P` to the entries before it. -/
def Always (P : ε → List ε → Prop) : List ε → Prop
  | [] => True
  | e :: earlier => P e earlier ∧ Always P earlier

@[simp] theorem always_nil (P : ε → List ε → Prop) : Always P [] := trivial

@[simp] theorem always_cons (P : ε → List ε → Prop) (e : ε) (h : List ε) :
    Always P (e :: h) ↔ P e h ∧ Always P h := Iff.rfl

instance decidableAlways (P : ε → List ε → Prop) [∀ e earlier, Decidable (P e earlier)] :
    (h : List ε) → Decidable (Always P h)
  | [] => inferInstanceAs (Decidable True)
  | e :: earlier => @instDecidableAnd (P e earlier) (Always P earlier) _ (decidableAlways P earlier)

theorem always_iff_forall_split (P : ε → List ε → Prop) (h : List ε) :
    Always P h ↔ ∀ later e earlier, h = later ++ e :: earlier → P e earlier := by
  induction h with
  | nil => simp
  | cons a h ih =>
    rw [always_cons, ih]
    constructor
    · rintro ⟨ha, hh⟩ later e earlier heq
      cases later with
      | nil =>
        obtain ⟨rfl, rfl⟩ := List.cons.inj heq
        exact ha
      | cons b later => exact hh later e earlier (List.cons.inj heq).2
    · intro hall
      refine ⟨hall [] a h rfl, fun later e earlier heq => hall (a :: later) e earlier ?_⟩
      rw [heq, List.cons_append]

theorem Always.suffix {P : ε → List ε → Prop} {past history : List ε} (h : Always P history)
    (hsuffix : past <:+ history) : Always P past := by
  obtain ⟨later, rfl⟩ := hsuffix
  induction later with
  | nil => exact h
  | cons e later ih => exact ih h.2

theorem Always.imp {P Q : ε → List ε → Prop} (hPQ : ∀ e earlier, P e earlier → Q e earlier)
    {history : List ε} (h : Always P history) : Always Q history := by
  induction history with
  | nil => trivial
  | cons e earlier ih => exact ⟨hPQ e earlier h.1, ih h.2⟩

/-- The same for a list with the oldest entry first, when an entry is added. -/
theorem forall_split_concat (P : List ε → ε → Prop) (l : List ε) (a : ε) :
    (∀ before e after, l ++ [a] = before ++ e :: after → P before e) ↔
      (∀ before e after, l = before ++ e :: after → P before e) ∧ P l a := by
  constructor
  · intro h
    refine ⟨fun before e after heq => h before e (after ++ [a]) ?_, h l a [] rfl⟩
    rw [heq, List.append_assoc, List.cons_append]
  · rintro ⟨hl, ha⟩ before e after heq
    induction after using List.reverseRecOn with
    | nil =>
      obtain ⟨rfl, hlast⟩ := List.append_inj' heq rfl
      rw [← (List.cons.inj hlast).1]
      exact ha
    | append_singleton after b _ =>
      rw [← List.cons_append, ← List.append_assoc] at heq
      exact hl before e after (List.append_inj' heq rfl).1

def Since (Q : List ε → ε → Prop) (h : List ε) : Prop :=
  ∀ later e earlier, h = later ++ e :: earlier → Q later e

/-- A history grows by an entry together with the ones that follow it. -/
theorem Since.block {Q : List ε → ε → Prop} {gap past : List ε} {a : ε} (h : Since Q past)
    (hkeep : ∀ later e, Q later e → Q (gap ++ a :: later) e) (hself : Q gap a)
    (hgap : Since Q gap) : Since Q (gap ++ a :: past) := by
  intro later e earlier heq
  rcases List.append_eq_append_iff.mp heq with ⟨between, rfl, hsplit⟩ | ⟨between, hgap', hsplit⟩
  · cases between with
    | nil =>
      rcases List.cons.inj hsplit with ⟨rfl, _⟩
      simpa using hself
    | cons b between =>
      rcases List.cons.inj hsplit with ⟨rfl, hpast⟩
      exact hkeep between e (h between e earlier hpast)
  · cases between with
    | nil =>
      rcases List.cons.inj hsplit with ⟨rfl, _⟩
      rw [List.append_nil] at hgap'
      rw [← hgap']
      exact hself
    | cons b between =>
      rcases List.cons.inj hsplit with ⟨rfl, _⟩
      exact hgap later e between hgap'

theorem Since.cons {Q : List ε → ε → Prop} {a : ε} {past : List ε} (h : Since Q past)
    (hkeep : ∀ later e, Q later e → Q (a :: later) e) (hself : Q [] a) : Since Q (a :: past) :=
  @Since.block ε Q [] past a h hkeep hself (by simp [Since])

theorem since_of_forall {Q : List ε → ε → Prop} {h : List ε} (hall : ∀ e ∈ h, ∀ later, Q later e) :
    Since Q h := by
  rintro later e earlier rfl
  exact hall e (by simp) later

def Grows (Q : ε → Prop) (past now : List ε) : Prop := ∃ part, now = part ++ past ∧ ∀ e ∈ part, Q e

namespace Grows
variable {Q : ε → Prop} {past now : List ε}

theorem refl (past : List ε) : Grows Q past past := ⟨[], rfl, by simp⟩

theorem cons {a : ε} (h : Grows Q past now) (ha : Q a) : Grows Q past (a :: now) := by
  obtain ⟨part, rfl, hall⟩ := h
  refine ⟨a :: part, rfl, fun e he => ?_⟩
  rcases List.mem_cons.mp he with rfl | he
  · exact ha
  · exact hall e he

end Grows

/-- Some entry of `h` passes the test against the entries after it and before it, where
`later` are the entries after `h`. -/
def somewhere (p : List ε → ε → List ε → Bool) (later : List ε) : List ε → Bool
  | [] => false
  | e :: earlier => p later e earlier || somewhere p (later ++ [e]) earlier

theorem exists_split_of_somewhere (p : List ε → ε → List ε → Bool) (later h : List ε)
    (hp : somewhere p later h = true) :
    ∃ after e earlier, later ++ h = after ++ e :: earlier ∧ p after e earlier = true := by
  induction h generalizing later with
  | nil => simp [somewhere] at hp
  | cons a h ih =>
    rcases Bool.or_eq_true_iff.mp hp with hp | hp
    · exact ⟨later, a, h, rfl, hp⟩
    · rcases ih (later ++ [a]) hp with ⟨after, e, earlier, hsplit, he⟩
      exact ⟨after, e, earlier, by rw [← hsplit, List.append_assoc, List.singleton_append], he⟩

/-- An entry whose past is at least as long as `past` was added after it. -/
theorem mem_of_split {new past later earlier : List ε} {e : ε}
    (h : new ++ past = later ++ e :: earlier) (hlength : past.length ≤ earlier.length) :
    e ∈ new := by
  rcases List.append_eq_append_iff.mp h with ⟨between, rfl, rfl⟩ | ⟨between, rfl, hsplit⟩
  · simp only [List.length_append, List.length_cons] at hlength
    omega
  · cases between with
    | nil =>
      rw [List.nil_append] at hsplit
      rw [← hsplit, List.length_cons] at hlength
      omega
    | cons a between => simp [(List.cons.inj hsplit).1]

/-- What follows a point of the history, in the order it happened, up to the
first entry satisfying `stop`; `after` is the part of the history after that point. -/
def upTo (stop : ε → Bool) (after : List ε) : List ε :=
  after.reverse.takeWhile fun e => !stop e

private theorem takeWhile_append_of_neg (p : ε → Bool) (xs ys : List ε) (a : ε)
    (ha : p a = false) : (xs ++ a :: ys).takeWhile p = xs.takeWhile p := by
  induction xs with
  | nil => simp [ha]
  | cons x xs ih =>
    cases hx : p x with
    | true => rw [List.cons_append, List.takeWhile_cons_of_pos hx, List.takeWhile_cons_of_pos hx, ih]
    | false => simp [hx]

private theorem takeWhile_concat (p : ε → Bool) (xs : List ε) (a : ε) :
    (xs ++ [a]).takeWhile p = xs.takeWhile p ∨
      (p a = true ∧ (xs ++ [a]).takeWhile p = xs.takeWhile p ++ [a]) := by
  cases ha : p a with
  | false => exact Or.inl (takeWhile_append_of_neg p xs [] a ha)
  | true =>
    induction xs with
    | nil => simp [ha]
    | cons x xs ih =>
      cases hx : p x with
      | true => simpa [hx] using ih
      | false => simp [hx]

/-- Once a stopping entry is there, nothing that happens later is read. -/
theorem upTo_append_stop (stop : ε → Bool) (new later : List ε) (a : ε) (ha : stop a = true) :
    upTo stop (new ++ a :: later) = upTo stop later := by
  rw [upTo, List.reverse_append, List.reverse_cons, List.append_assoc, List.singleton_append]
  exact takeWhile_append_of_neg _ _ _ a (by simp [ha])

theorem upTo_append_of_mem (stop : ε → Bool) (new : List ε) {later : List ε} {a : ε}
    (hmem : a ∈ later) (ha : stop a = true) : upTo stop (new ++ later) = upTo stop later := by
  rcases List.append_of_mem hmem with ⟨after, before, rfl⟩
  rw [← List.append_assoc, upTo_append_stop stop _ _ a ha, upTo_append_stop stop _ _ a ha]

/-- A new entry is read last or not at all. -/
theorem upTo_cons (stop : ε → Bool) (a : ε) (later : List ε) :
    upTo stop (a :: later) = upTo stop later ∨
      (stop a = false ∧ upTo stop (a :: later) = upTo stop later ++ [a]) := by
  have h := takeWhile_concat (fun e => !stop e) later.reverse a
  simpa [upTo] using h

theorem upTo_append (stop : ε → Bool) (new : List ε) (a : ε) (gap : List ε)
    (ha : stop a = true) (hgap : ∀ g ∈ gap, stop g = false) :
    upTo stop (new ++ a :: gap) = gap.reverse := by
  rw [upTo_append_stop stop new gap a ha, upTo, List.takeWhile_eq_self_iff]
  intro g hg
  simp [hgap g (List.mem_reverse.mp hg)]

end XdsClient.Library
