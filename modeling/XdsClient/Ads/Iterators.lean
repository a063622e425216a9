import XdsClient.Ads.Registration

/-! # Pointers and iterators

A type's list holds pointers to watches, and a watch holds an iterator into the list of its
type. The loops of `sendDiscoveryRequest` follow the pointers, and `update` and `~Watcher`
erase through the iterator. Both are safe in every run: a pointer in a list belongs to a live
watch, and an iterator that is erased stands for one node, the watch's own.
-/
namespace XdsClient.Ads
open Library Session

/-- Every pointer in a list is the one of a live watch of the list's type, and that watch's
iterator is the node that holds it. -/
def State.NoDangling (s : State) : Prop :=
  ∀ typeUrl, ∀ n ∈ (s.api typeUrl).watches,
    ∃ w, s.watchers n.watch = some w ∧ w.typeUrl = typeUrl ∧ w.iter = n.node

def Entry.Erasable (e : Entry) (earlier : List Entry) : Prop :=
  ∀ watch, e.event = .erase watch →
    erased watch earlier = false ∧ ∃ w, e.state.watchers watch = some w

theorem Registers.filter_iter {s : State} {past : List Entry} (h : Registers s past) {watch : ℕ}
    {w : Watcher} (hw : s.watchers watch = some w) (herased : erased watch past = false) :
    (s.api w.typeUrl).watches.filter (fun n => n.node = w.iter) = [⟨w.iter, watch⟩] := by
  have hown (n : WatchNode) (hn : n ∈ (s.api w.typeUrl).watches) :
      n.node = w.iter ↔ n = ⟨w.iter, watch⟩ := by
    constructor
    · intro hnode
      obtain ⟨v, hv, -, hiter, -⟩ := h.live w.typeUrl n hn
      have hwatch := h.distinct n.watch watch v w hv hw (hiter.trans hnode)
      cases n
      simp_all
    · rintro rfl
      rfl
  have hnodup : (s.api w.typeUrl).watches.Nodup := List.Nodup.of_map _ (h.nodup w.typeUrl)
  have hmem := h.listed watch w hw herased
  have hfilter : (s.api w.typeUrl).watches.filter (fun n => n.node = w.iter) =
      (s.api w.typeUrl).watches.filter (fun n => n = ⟨w.iter, watch⟩) := by
    apply List.filter_congr
    intro n hn
    simp [hown n hn]
  rw [hfilter, List.filter_eq, List.count_eq_one_of_mem hnodup hmem]
  rfl

/-! ## When a watch is erased -/

def Session.ErasesSafely (s : Session) : Prop := Always Entry.Erasable s.history

theorem Session.ErasesSafely.log {s : Session} (h : s.ErasesSafely) (event : Event)
    (hevent : ∀ watch, event ≠ .erase watch) : (s.log event).ErasesSafely :=
  ⟨fun watch heq => absurd heq (hevent watch), h⟩

theorem erasesSafely_stable : Stable ErasesSafely where
  readFalse := fun s h => h.log _ (by simp)
  receive := fun s message rest _ _ h =>
    (h.log (.read (some message)) (by simp)).log (.response message) (by simp)
  emplace := fun s t _ _ h => h.log (.push t) (by simp)
  beginSend := fun s t _ hstream _ _ h => by
    unfold ErasesSafely
    rw [beginSend_history s t hstream]
    exact ⟨fun a ha => by simp at ha, h.log (.send t) (by simp)⟩
  send := fun s t _ h => h.log _ (by simp)
  sent := fun s t h => h.log _ (by simp)
  pop := fun s h => h.log .pop (by simp)

namespace Session.ErasesSafely
variable {s : Session} (h : s.ErasesSafely)
include h

theorem request (typeUrl : String) : (s.request typeUrl).ErasesSafely := by
  apply erasesSafely_stable.request_of_alloc s typeUrl h
  rw [apiStateFor_eq_modifyApi]
  exact h

theorem foldl_request (l : List String) : (l.foldl Session.request s).ErasesSafely := by
  induction l generalizing s with
  | nil => exact h
  | cons t l ih => exact ih (h.request t)

theorem eraseWatch (hsettled : Settled s) {watch : ℕ} {w : Watcher}
    (hw : s.watchers watch = some w) : (s.eraseWatch watch w).ErasesSafely := by
  refine ⟨fun a ha => ?_, h⟩
  rw [← Event.erase.inj ha]
  exact ⟨hsettled watch w hw, w, hw⟩

theorem perform (hs : Quiet s) (hsettled : Settled s) (op : Op) :
    (Ads.perform op s).ErasesSafely := by
  cases op with
  | setChannel => exact h
  | onStreamEstablished outcome =>
    simp only [Ads.perform]
    split_ifs
    · cases outcome with
      | none => exact h.log (.opened false) (by simp)
      | some responses =>
        have hopened : (s.openStream responses).ErasesSafely := h.log (.opened true) (by simp)
        simp only
        rw [establish_eq hs]
        exact (hopened.request clusterTypeUrl).foldl_request _
    · exact h.log _ (by simp)
  | addWatch typeUrl resources =>
    have hhistory : ((s.newWatcher typeUrl resources).subscribe typeUrl).history =
        (s.newWatcher typeUrl resources).history := by
      unfold subscribe
      split_ifs <;> rfl
    have halloc : (s.apiStateFor typeUrl).ErasesSafely := by
      rw [apiStateFor_eq_modifyApi]
      exact h
    have hnew : ((s.newWatcher typeUrl resources).subscribe typeUrl).ErasesSafely := by
      unfold ErasesSafely
      rw [hhistory]
      exact ⟨fun a ha => by simp at ha, halloc⟩
    exact hnew.request typeUrl
  | update watch resources =>
    simp only [Ads.perform]
    cases hw : s.watchers watch with
    | none => exact h
    | some w =>
      have herased := h.eraseWatch hsettled hw
      have hregister (s' : Session) (h' : s'.ErasesSafely) :
          (s'.updateResources watch w resources).ErasesSafely := h'.log (.register watch) (by simp)
      simp only [updateWatch]
      split_ifs
      · exact (hregister _ herased).request w.typeUrl
      · exact (hregister _ (herased.request w.typeUrl)).request w.typeUrl
  | destroy watch =>
    simp only [Ads.perform]
    cases hw : s.watchers watch with
    | none => exact h
    | some w =>
      have hdropped : (s.dropWatch watch w).ErasesSafely := h.eraseWatch hsettled hw
      simp only
      split_ifs
      · exact hdropped
      · exact hdropped.request w.typeUrl
  | onDiscoveryResponse message =>
    have hingested : (s.ingest message).ErasesSafely := h.log (.response message) (by simp)
    simp only [Ads.perform, respond]
    split_ifs
    · exact hingested.request message.typeUrl
    · exact hingested
  | shutdown =>
    simp only [Ads.perform, Ads.shutdown, endStream]
    split
    · exact h.log .nullCall (by simp)
    · exact (h.log .writesDone (by simp)).log .finish (by simp)

end Session.ErasesSafely

/-- In every run, every pointer in a list of watches belongs to a live watch of the type whenever
something happens, and whenever a watch erases itself its iterator stands for one node of the
list of its type, the one that holds the watch. -/
theorem run_iterators_valid (channel : Bool) (calls : List Op) (s : Session)
    (hrun : Run channel calls s) :
    (∀ e ∈ s.history, e.state.NoDangling) ∧ s.toState.NoDangling ∧
      ∀ watch state, ⟨.erase watch, state⟩ ∈ s.history → ∃ w, state.watchers watch = some w ∧
        (state.api w.typeUrl).watches.filter (fun n => n.node = w.iter) = [⟨w.iter, watch⟩] := by
  have hregistering := registering_kept.run hrun (registering_construct channel)
  have hpast := (always_iff_forall_split _ _).mp hregistering.1
  have hsafe : Settled s ∧ s.ErasesSafely := by
    apply hrun.invariant (P := fun s => Settled s ∧ s.ErasesSafely)
    · exact ⟨by simp [Settled, construct], trivial⟩
    · exact fun s op hs h => ⟨h.1.perform hs.quiet op, h.2.perform hs.quiet h.1 op⟩
  have herasable := (always_iff_forall_split _ _).mp hsafe.2
  have hdangling {state : State} {past : List Entry} (h : Registers state past) :
      state.NoDangling := by
    intro t n hn
    obtain ⟨w, hw, htype, hiter, -⟩ := h.live t n hn
    exact ⟨w, hw, htype, hiter⟩
  refine ⟨fun e he => ?_, hdangling hregistering.2, fun watch state he => ?_⟩
  · obtain ⟨later, earlier, hsplit⟩ := List.append_of_mem he
    exact hdangling (hpast later e earlier hsplit).1
  · obtain ⟨later, earlier, hsplit⟩ := List.append_of_mem he
    obtain ⟨herased, w, hw⟩ := herasable later _ earlier hsplit watch rfl
    exact ⟨w, hw, (hpast later _ earlier hsplit).1.filter_iter hw herased⟩

/-- Two watches of one type, the first of which is updated and then destroyed. -/
theorem run_iterators_valid_two_watches :
    ∃ s, Run true [.addWatch "E" ∅, .addWatch "E" ∅, .update 0 ∅, .destroy 0] s ∧
      s.toState.NoDangling := by
  have hrun := performAll_run true [.addWatch "E" ∅, .addWatch "E" ∅, .update 0 ∅, .destroy 0]
  exact ⟨_, hrun, (run_iterators_valid true _ _ hrun).2.1⟩

end XdsClient.Ads
