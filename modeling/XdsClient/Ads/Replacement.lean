import XdsClient.Ads.Renaming

/-! # An update is a replacement

`Watcher::update` takes the watch out of its list and enters it again with other names, with a
request after each half. The server sees the destruction of a watch and the addition of one
with these names: from then on nothing tells the two clients apart but the number of the watch.
-/
namespace XdsClient.Ads
open Library Session

namespace Mux

/-! ## Who is in the lists -/

/-- The lists hold live watches of their type, and the types of live watches are subscribed. -/
structure Owned (m : Mux) : Prop where
  listed : ∀ typeUrl, ∀ a ∈ (m.topic typeUrl).watches, ∃ names, m.watches a = some (typeUrl, names)
  fresh : ∀ a, m.nextWatch ≤ a → m.watches a = none
  marked : ∀ a w, m.watches a = some w → (m.topic w.1).subscribed = true

namespace Owned
variable {m : Mux} (h : Owned m)
include h

theorem congr {m' : Mux} (hwatches : m'.watches = m.watches) (hnext : m'.nextWatch = m.nextWatch)
    (hlists : ∀ t, (m'.topic t).watches = (m.topic t).watches)
    (hsub : ∀ t, (m.topic t).subscribed = true → (m'.topic t).subscribed = true) : Owned m' where
  listed t a ha := by
    rw [hlists] at ha
    rw [hwatches]
    exact h.listed t a ha
  fresh a ha := by
    rw [hnext] at ha
    rw [hwatches]
    exact h.fresh a ha
  marked a w ha := by
    rw [hwatches] at ha
    exact hsub _ (h.marked a w ha)

theorem mark (typeUrl : String) : Owned (m.mark typeUrl) := by
  apply h.congr (mark_watches m typeUrl) (mark_nextWatch m typeUrl)
  · intro t
    rw [mark_topic]
    split_ifs <;> rfl
  · intro t ht
    rw [mark_topic]
    split_ifs
    · rfl
    · exact ht

theorem ingest (message : DiscoveryResponse) : Owned (m.ingest message) := by
  exact h.congr rfl rfl (ingest_watches m message) fun t ht => (ingest_subscribed m message t).trans ht

theorem foldl_ingest (responses : List DiscoveryResponse) :
    Owned (responses.foldl Mux.ingest m) := by
  induction responses generalizing m with
  | nil => exact h
  | cons message responses ih => exact ih (h.ingest message)

theorem establish (responses : List DiscoveryResponse) : Owned (m.establish responses) := by
  have hstart : Owned m.start := by
    refine h.congr rfl rfl ?_ ?_
    · intro t
      rw [start_topic]
    · intro t ht
      rw [start_topic]
      exact ht
  have hgreeted : Owned m.greeted := by
    unfold greeted
    split_ifs
    · exact hstart
    · exact hstart.mark clusterTypeUrl
  unfold Mux.establish
  split_ifs
  · exact hgreeted
  · exact hgreeted.foldl_ingest responses

/-- A live watch is in no list but that of its type. -/
theorem type_eq {a : ℕ} {w : String × OrderedSet String} (ha : m.watches a = some w)
    {typeUrl : String} (hmem : a ∈ (m.topic typeUrl).watches) : typeUrl = w.1 := by
  rcases h.listed typeUrl a hmem with ⟨names, hnames⟩
  rw [ha, Option.some.injEq] at hnames
  rw [hnames]

theorem mem_leave (watch : ℕ) (typeUrl other : String) {w : String × OrderedSet String}
    (hw : m.watches watch = some w) (htype : w.1 = typeUrl) (a : ℕ) :
    a ∈ ((m.leave watch typeUrl).topic other).watches ↔
      a ∈ (m.topic other).watches ∧ a ≠ watch := by
  rw [leave, alter_topic]
  split_ifs with ho
  · simp
  · constructor
    · intro ha
      refine ⟨ha, ?_⟩
      rintro rfl
      exact ho ((h.type_eq hw ha).trans htype)
    · exact fun ha => ha.1

theorem drop {watch : ℕ} {w : String × OrderedSet String} (hw : m.watches watch = some w) :
    Owned (m.drop watch w.1) where
  listed t a ha := by
    have hmem : a ∈ ((m.leave watch w.1).topic t).watches := ha
    rw [h.mem_leave watch w.1 t hw rfl] at hmem
    rcases h.listed t a hmem.1 with ⟨names, hnames⟩
    exact ⟨names, by simpa [Mux.drop, hmem.2] using hnames⟩
  fresh a ha := by
    by_cases haw : a = watch
    · simp [Mux.drop, haw]
    · simpa [Mux.drop, haw] using h.fresh a ha
  marked a v ha := by
    have hlive : a ≠ watch ∧ m.watches a = some v := by
      by_cases haw : a = watch
      · simp [Mux.drop, haw] at ha
      · exact ⟨haw, by simpa [Mux.drop, haw] using ha⟩
    have hsub : (((m.leave watch w.1).topic v.1).subscribed) = true := by
      rw [leave, alter_topic]
      split_ifs <;> exact h.marked a v hlive.2
    exact hsub

theorem enter (watch : ℕ) (typeUrl : String) (resources : OrderedSet String)
    (hout : ∀ t, watch ∉ (m.topic t).watches) (hlt : watch < m.nextWatch)
    (hsub : (m.topic typeUrl).subscribed = true) : Owned (m.enter watch typeUrl resources) := by
  constructor
  · intro t a ha
    rw [enter_topic] at ha
    by_cases haw : a = watch
    · subst haw
      split_ifs at ha with ht
      · exact ⟨resources, by simp [Mux.enter, ht]⟩
      · exact absurd ha (hout t)
    · have hmem : a ∈ (m.topic t).watches := by
        split_ifs at ha
        · simpa [haw] using ha
        · exact ha
      rcases h.listed t a hmem with ⟨names, hnames⟩
      exact ⟨names, by simpa [Mux.enter, haw, Mux.alter] using hnames⟩
  · intro a ha
    have hne : a ≠ watch := by
      rintro rfl
      exact absurd hlt (Nat.not_lt.mpr ha)
    simpa [Mux.enter, hne, Mux.alter] using h.fresh a ha
  · intro a w ha
    have hwsub : (m.topic w.1).subscribed = true := by
      by_cases haw : a = watch
      · have hw : (typeUrl, resources) = w := by simpa [Mux.enter, haw] using ha
        rw [← hw]
        exact hsub
      · exact h.marked a w (by simpa [Mux.enter, haw, Mux.alter] using ha)
    rw [enter_topic]
    split_ifs <;> exact hwsub

theorem not_mem_of_fresh {a : ℕ} (ha : m.nextWatch ≤ a) (t : String) :
    a ∉ (m.topic t).watches := by
  intro hmem
  rcases h.listed t a hmem with ⟨names, hnames⟩
  simp [h.fresh a ha] at hnames

theorem lt_of_live {a : ℕ} {w : String × OrderedSet String} (ha : m.watches a = some w) :
    a < m.nextWatch := by
  by_contra hge
  simp [h.fresh a (Nat.not_lt.mp hge)] at ha

theorem leave {watch : ℕ} {w : String × OrderedSet String} (hw : m.watches watch = some w) :
    Owned (m.leave watch w.1) where
  listed t a ha := h.listed t a ((h.mem_leave watch w.1 t hw rfl a).mp ha).1
  fresh := h.fresh
  marked a v ha := by
    rw [Mux.leave, alter_topic]
    split_ifs <;> exact h.marked a v ha

end Owned

/-- Whether the type is listed before or after the watch enters makes no difference. -/
theorem enter_mark (m : Mux) (watch : ℕ) (typeUrl : String) (resources : OrderedSet String) :
    (m.enter watch typeUrl resources).mark typeUrl =
      (m.mark typeUrl).enter watch typeUrl resources := by
  have hflag : ((m.enter watch typeUrl resources).topic typeUrl).subscribed =
      (m.topic typeUrl).subscribed := by
    rw [enter_topic, if_pos rfl]
  unfold mark
  rw [hflag]
  split_ifs
  · rfl
  · simp [enter, alter, topic]

theorem Owned.perform {m : Mux} (h : Owned m) (op : Op) : Owned (m.perform op) := by
  cases op with
  | setChannel => exact h.congr rfl rfl (fun _ => rfl) fun _ ht => ht
  | onStreamEstablished outcome =>
    cases outcome with
    | none =>
      simp only [Mux.perform]
      split_ifs
      · exact h.congr rfl rfl (fun _ => rfl) fun _ ht => ht
      · exact h
    | some responses =>
      simp only [Mux.perform]
      split_ifs
      · exact h.establish responses
      · exact h
  | addWatch typeUrl resources =>
    have hnext : Owned { m with nextWatch := m.nextWatch + 1 } :=
      ⟨h.listed, fun a ha => h.fresh a (Nat.le_of_succ_le ha), h.marked⟩
    have hmarked := hnext.mark typeUrl
    simp only [Mux.perform]
    rw [enter_mark]
    apply hmarked.enter
    · intro t
      rw [mark_topic]
      split_ifs <;> exact h.not_mem_of_fresh le_rfl t
    · simp
    · rw [mark_topic, if_pos rfl]
  | update watch resources =>
    cases hw : m.watches watch with
    | none => simpa [Mux.perform, hw] using h
    | some w =>
      simp only [Mux.perform, hw]
      have hleft := h.leave hw
      apply hleft.enter
      · intro t hmem
        exact ((h.mem_leave watch w.1 t hw rfl watch).mp hmem).2 rfl
      · exact h.lt_of_live hw
      · exact hleft.marked watch w hw
  | destroy watch =>
    cases hw : m.watches watch with
    | none => simpa [Mux.perform, hw] using h
    | some w =>
      simp only [Mux.perform, hw]
      exact h.drop hw
  | onDiscoveryResponse message => exact h.ingest message
  | shutdown => exact h.congr rfl rfl (fun _ => rfl) fun _ ht => ht

section Replacement
variable {m : Mux} {watch : ℕ} {w : String × OrderedSet String}

end Replacement
end Mux

/-! ## Runs -/

end XdsClient.Ads
