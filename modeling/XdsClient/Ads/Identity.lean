import XdsClient.Ads.Invariants

/-! # The node on a stream

The first request of a stream should name the client's node and no later one should.
`sendDiscoveryRequest` sets the node only together with the first subscription of the
type, so the first request of a stream carries it exactly if the type that every stream
starts with is not subscribed when the stream is obtained.
-/
namespace XdsClient.Ads
open Library

namespace Session

/-! ## No cached request keeps a node -/

/-- After the first request of a stream, requests are sent without a node. -/
theorem prepared_node_of_begun {s : State} (typeUrl : String) (hcalm : s.Calm)
    (hfirst : s.firstStreamRequest = false) : (s.prepared typeUrl).request.node = none := by
  simp [State.prepared, State.subscribes, hfirst, (hcalm typeUrl).2]

/-- Nothing but a request that comes first on its stream stores a node. -/
theorem nodeless_stable (typeUrl : String) : Stable fun s =>
    (s.api typeUrl).request.node = none ∧ s.Calm ∧ Begun s.toState := by
  apply Stable.of_begun (P := fun s => (s.api typeUrl).request.node = none)
  · exact fun s q h => h
  · intro s message rest h
    rw [receive_api]
    split_ifs <;> simp [h]
  · intro s t hcalm hfirst h
    by_cases ht : typeUrl = t
    · subst ht
      rw [beginSend_api_self]
      exact prepared_node_of_begun typeUrl hcalm hfirst
    · rw [beginSend_api_of_ne s t ht]
      exact h

theorem request_nodeless {s : Session} (hs : Quiet s) (hstream : s.stream.isSome = true)
    (typeUrl other : String) (h : (s.api typeUrl).request.node = none) :
    ((s.request other).api typeUrl).request.node = none := by
  apply Stable.request_of_begun (P := fun s => (s.api typeUrl).request.node = none)
    (nodeless_stable typeUrl) other hs.calm (hs.begun hstream) h
  rwa [apiStateFor_api]

theorem request_nodeless_self {s : Session} (hs : Quiet s) (hstream : s.stream.isSome = true)
    (hdown : s.shutdown = false) (typeUrl : String) :
    ((s.request typeUrl).api typeUrl).request.node = none := by
  have hempty := hs.allocated hstream
  have hfirst := (hs.begun hstream).resolve_left (by simp [hdown])
  rcases Option.isSome_iff_exists.mp hstream with ⟨responses, hresponses⟩
  rw [request_of_empty s typeUrl responses hresponses hempty, if_neg (by simp [hdown])]
  have hcalm : ((s.apiStateFor typeUrl).emplace typeUrl).Calm := apiStateFor_calm s typeUrl hs.calm
  have hfirst' : ((s.apiStateFor typeUrl).emplace typeUrl).firstStreamRequest = false := by
    rw [apiStateFor_eq_modifyApi]
    exact hfirst
  apply And.left ((nodeless_stable typeUrl).settle_serve typeUrl responses _ []
    (by simpa using hresponses) (by simp [hempty]) (by simpa using hdown) _)
  refine ⟨?_, calm_stable.beginSend _ typeUrl [] (by simpa using hstream) (by simpa using hdown)
    (by simp [State.queue, hempty]) hcalm, Or.inr (beginSend_firstStreamRequest _ _)⟩
  rw [beginSend_api_self]
  exact prepared_node_of_begun typeUrl hcalm hfirst'

theorem firstRequest_node {s : Session} (responses : List DiscoveryResponse)
    (hnode : (s.api clusterTypeUrl).request.node = none) :
    ((s.firstQueued responses).prepared clusterTypeUrl).request.node =
      if (s.api clusterTypeUrl).subscribed then none else some node := by
  unfold State.prepared State.subscribes
  simp only [firstQueued_api, firstQueued_firstStreamRequest, Bool.or_true,
    Bool.true_and, hnode]
  cases (s.api clusterTypeUrl).subscribed <;> rfl

theorem firstRequest_calm {s : Session} (hs : Quiet s) (responses : List DiscoveryResponse) :
    (s.firstRequest responses).Calm := by
  intro t
  have h := hs.calm t
  unfold firstRequest
  by_cases ht : t = clusterTypeUrl
  · subst ht
    rw [beginSend_api_self]
    unfold ApiState.afterWrite State.prepared
    simp only [firstQueued_api]
    exact ⟨h.1, trivial⟩
  · rw [beginSend_api_of_ne _ _ ht, firstQueued_api]
    exact h

theorem firstRequest_subscriptions (s : Session) (responses : List DiscoveryResponse) :
    (s.firstRequest responses).subscriptions = s.subscriptions ++
      if (s.api clusterTypeUrl).subscribed then [] else [clusterTypeUrl] := by
  unfold firstRequest
  rw [beginSend_subscriptions]
  unfold State.subscribes
  simp only [firstQueued_api, firstQueued_firstStreamRequest, Bool.or_true,
    Bool.true_and]
  unfold firstQueued
  rw [apiStateFor_eq_modifyApi]
  cases (s.api clusterTypeUrl).subscribed <;> rfl

/-- The first request of a stream may leave a node behind for the type it subscribes, but
then that type is in the list a second time and is requested again. -/
theorem establish_nodeless {s : Session} (hs : Quiet s) (hdown : s.shutdown = false)
    (hnode : ∀ t, (s.api t).request.node = none) (responses : List DiscoveryResponse) (t : String) :
    ((s.establish responses).api t).request.node = none := by
  have hquiet := openStream_request_quiet hs responses
  have hstream : ((s.openStream responses).request clusterTypeUrl).stream.isSome = true := by
    rw [request_stream (s.openStream responses) clusterTypeUrl rfl rfl hdown]
    rfl
  have hcalm := firstRequest_calm hs responses
  have hbegun : Begun (s.firstRequest responses).toState := Or.inr (beginSend_firstStreamRequest _ _)
  rw [establish_eq hs]
  apply hquiet.foldl_request_reaches (t := t) _ (fun s u hs hstream _ => request_nodeless hs hstream t u)
    (fun s hs hstream hdown => request_nodeless_self hs hstream hdown t) hstream
    (by rw [request_shutdown]; exact hdown)
  by_cases hlater : t = clusterTypeUrl ∧ (s.api clusterTypeUrl).subscribed = false
  · left
    have hsubs := (subscriptions_stable _).openStream_request s responses hdown
      ⟨firstRequest_subscriptions s responses, hcalm, hbegun⟩
    have hfirst := hs.first
    rw [hsubs.1, hlater.1, if_neg (by simp [hlater.2])]
    cases hl : s.subscriptions with
    | nil => simp [hl] at hfirst
    | cons a l => simp
  · right
    apply And.left ((nodeless_stable t).openStream_request s responses hdown _)
    refine ⟨?_, hcalm, hbegun⟩
    unfold firstRequest
    by_cases ht : t = clusterTypeUrl
    · have hsub : (s.api clusterTypeUrl).subscribed = true := by simpa [ht] using hlater
      rw [ht, beginSend_api_self]
      have h := firstRequest_node responses (hnode clusterTypeUrl)
      rwa [if_pos hsub] at h
    · rw [beginSend_api_of_ne _ _ ht, firstQueued_api]
      exact hnode t

/-- Nothing is sent any more, or no cached request holds a node. -/
def Nodeless (s : Session) : Prop := s.shutdown = true ∨ ∀ t, (s.api t).request.node = none

namespace Nodeless
variable {s : Session} (h : Nodeless s)
include h

theorem assign {s' : Session} (hdown : s'.shutdown = s.shutdown)
    (hnode : ∀ t, (s'.api t).request.node = (s.api t).request.node) : Nodeless s' := by
  unfold Nodeless
  simp only [hdown, hnode]
  exact h

theorem request (hs : Quiet s) (typeUrl : String) : Nodeless (s.request typeUrl) := by
  cases hstream : s.stream with
  | none => simpa [Session.request, hstream] using h
  | some responses =>
    rcases h with hdown | hnode
    · exact Or.inl (by simpa using hdown)
    · exact Or.inr fun t => request_nodeless hs (by simp [hstream]) t typeUrl (hnode t)

theorem updateResources (watch : ℕ) (w : Watcher) (resources : OrderedSet String) :
    Nodeless (s.updateResources watch w resources) := by
  refine h.assign rfl (fun t => ?_)
  rw [updateResources_api]
  split_ifs <;> rfl

theorem eraseWatch (watch : ℕ) (w : Watcher) : Nodeless (s.eraseWatch watch w) := by
  refine h.assign rfl (fun t => ?_)
  rw [eraseWatch_api]
  split_ifs <;> rfl

theorem addWatch (typeUrl : String) (resources : OrderedSet String) :
    Nodeless ((s.newWatcher typeUrl resources).subscribe typeUrl) := by
  refine h.assign ?_ (fun t => ?_)
  · unfold Session.subscribe
    split_ifs <;> exact apiStateFor_shutdown s typeUrl
  · rw [subscribe_api, newWatcher_api]
    split_ifs <;> rfl

theorem dropWatch (watch : ℕ) (w : Watcher) : Nodeless (s.dropWatch watch w) :=
  (h.eraseWatch watch w).assign rfl (fun _ => rfl)

theorem ingest (message : DiscoveryResponse) : Nodeless (s.ingest message) := by
  refine h.assign rfl (fun t => ?_)
  rw [ingest_api]
  split_ifs <;> simp

end Nodeless

theorem nodeless_watchSteps : WatchSteps fun s => Quiet s ∧ Nodeless s where
  eraseWatch := fun _ watch w h => ⟨h.1.eraseWatch watch w, h.2.eraseWatch watch w⟩
  updateResources := fun _ watch w resources h =>
    ⟨h.1.updateResources watch w resources, h.2.updateResources watch w resources⟩
  dropWatch := fun _ watch w h => ⟨h.1.dropWatch watch w, h.2.dropWatch watch w⟩
  ingest := fun _ message h => ⟨h.1.ingest message, h.2.ingest message⟩
  request := fun _ typeUrl h => ⟨h.1.request typeUrl, h.2.request h.1 typeUrl⟩

theorem Nodeless.perform {s : Session} (h : Nodeless s) (hs : Quiet s) (op : Op) :
    Nodeless (Ads.perform op s) := by
  cases op with
  | setChannel => exact h
  | shutdown => exact Or.inl rfl
  | onStreamEstablished outcome =>
    simp only [Ads.perform]
    split_ifs
    · cases outcome with
      | some responses =>
        rcases h with hdown | hnode
        · exact Or.inl ((establish_shutdown hs responses).trans hdown)
        · cases hdown : s.shutdown with
          | true => exact Or.inl ((establish_shutdown hs responses).trans hdown)
          | false => exact Or.inr (establish_nodeless hs hdown hnode responses)
      | none => exact h
    · exact h
  | addWatch typeUrl resources =>
    exact (h.addWatch typeUrl resources).request
      ((hs.newWatcher typeUrl resources).subscribe typeUrl) typeUrl
  | _ => exact (nodeless_watchSteps.perform ⟨hs, h⟩ rfl).2

theorem nodeless_of_reachable {s : Session} (h : Reachable s) : Nodeless s := by
  rcases h with ⟨channel, calls, hrun⟩
  apply hrun.invariant (P := Nodeless) (Or.inr fun _ => rfl)
  exact fun s op hs h => h.perform hs.quiet op

end Session
end XdsClient.Ads
