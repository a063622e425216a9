import XdsClient.Ads.Identity

/-! # Which streams begin with the node

For every stream of every run, the requests written on it are related to the state in
which the stream was obtained. The relation is kept as a statement about each opening in
the history and the entries after it.
-/
namespace XdsClient.Ads
open Library

/-- The first request names the client's node and the others name none. -/
def NodeOnce : List DiscoveryRequest → Prop
  | [] => True
  | first :: rest => first.node = some node ∧ ∀ request ∈ rest, request.node = none

def requestsOnStream (later : List Entry) : List DiscoveryRequest :=
  requestsIn (upTo (fun e => e.event.isOpened) later)

theorem requestsOnStream_cons (e : Entry) (later : List Entry) :
    requestsOnStream (e :: later) = requestsOnStream later ∨
      ∃ request, e.event.request? = some request ∧
        requestsOnStream (e :: later) = requestsOnStream later ++ [request] := by
  unfold requestsOnStream
  rcases upTo_cons (fun e => e.event.isOpened) e later with h | ⟨_, h⟩
  · exact Or.inl (by rw [h])
  · cases hrequest : e.event.request? with
    | none => exact Or.inl (by simp [h, requestsIn, hrequest])
    | some request => exact Or.inr ⟨request, rfl, by simp [h, requestsIn, hrequest]⟩

/-- What follows an opening: nothing if the client was shut down, else a first request, with
the node if its type was not subscribed, and after it only requests without. -/
def Opening (down : Bool) (later : List Entry) (e : Entry) : Prop :=
  e.event = .opened true →
    (e.state.shutdown = true → down = true ∧ requestsOnStream later = []) ∧
    (e.state.shutdown = false → ∃ first rest, requestsOnStream later = first :: rest ∧
      first.node = (if (e.state.api clusterTypeUrl).subscribed then none else some node) ∧
      ∀ request ∈ rest, request.node = none)

theorem Opening.cons {down : Bool} {later : List Entry} {e : Entry} (h : Opening down later e)
    (a : Entry) (hnode : ∀ request, a.event.request? = some request → request.node = none)
    (hsilent : down = true → a.event.request? = none) : Opening down (a :: later) e := by
  intro he
  rcases requestsOnStream_cons a later with hsame | ⟨request, hrequest, hmore⟩
  · rw [hsame]
    exact h he
  · refine ⟨fun hdown => ?_, fun hlive => ?_⟩
    · have hnone := hsilent ((h he).1 hdown).1
      simp [hrequest] at hnone
    · rcases (h he).2 hlive with ⟨first, rest, hfirst, hfirstNode, hrest⟩
      refine ⟨first, rest ++ [request], by rw [hmore, hfirst, List.cons_append], hfirstNode, ?_⟩
      intro r hr
      rcases List.mem_append.mp hr with hr | hr
      · exact hrest r hr
      · rw [List.mem_singleton.mp hr]
        exact hnode request hrequest

theorem Opening.nodeOnce_iff {down : Bool} {later : List Entry} {state : State}
    (h : Opening down later ⟨.opened true, state⟩) : NodeOnce (requestsOnStream later) ↔
      state.shutdown = true ∨ (state.api clusterTypeUrl).subscribed = false := by
  cases hdown : state.shutdown with
  | true => simp [((h rfl).1 hdown).2, NodeOnce]
  | false =>
    rcases (h rfl).2 hdown with ⟨first, rest, hfirst, hnode, hrest⟩
    rw [hfirst, NodeOnce, hnode]
    cases (state.api clusterTypeUrl).subscribed with
    | true => simp
    | false => simpa using hrest

/-- A live opening and its first request. The streams before end where the new one begins. -/
theorem since_opening_of_first {down : Bool} {past : List Entry} {written sent pushed : Entry}
    {state : State} {first : DiscoveryRequest} (h : Since (Opening down) past)
    (hwritten : written.event = .write clusterTypeUrl first)
    (hsent : sent.event = .send clusterTypeUrl) (hpushed : pushed.event = .push clusterTypeUrl)
    (hlive : state.shutdown = false)
    (hnode : first.node = if (state.api clusterTypeUrl).subscribed then none else some node) :
    Since (Opening down) (written :: sent :: pushed :: ⟨.opened true, state⟩ :: past) := by
  have hfirst : requestsOnStream [written, sent, pushed] = [first] := by
    simp [requestsOnStream, upTo, requestsIn, hwritten, hsent, hpushed, Event.isOpened,
      Event.request?]
  refine @Since.block _ _ [written, sent, pushed] past _ h ?_ ?_ ?_
  · intro later e hopening he
    have hstop : requestsOnStream ([written, sent, pushed] ++ ⟨.opened true, state⟩ :: later) =
        requestsOnStream later := by
      unfold requestsOnStream
      rw [upTo_append_stop _ _ _ _ rfl]
    rw [hstop]
    exact hopening he
  · intro _
    refine ⟨fun hdown => ?_, fun _ => ⟨first, [], hfirst, hnode, by simp⟩⟩
    simp [hlive] at hdown
  · apply since_of_forall
    intro e he later hopened
    simp only [List.mem_cons, List.not_mem_nil, or_false] at he
    rcases he with rfl | rfl | rfl <;> simp_all

namespace Session

structure Identified (s : Session) : Prop where
  calm : s.Calm
  past : ∀ e ∈ s.history, e.state.Calm
  begun : s.stream.isSome = true → Begun s.toState
  streams : Since (Opening s.shutdown) s.history

namespace Identified
variable {s : Session} (h : Identified s)
include h

theorem log (event : Event) (hevent : event.request? = none) (hopened : event ≠ .opened true) :
    Identified (s.log event) where
  calm := h.calm
  past := by
    intro e he
    rcases List.mem_cons.mp he with rfl | he
    · exact h.calm
    · exact h.past e he
  begun := h.begun
  streams := by
    refine h.streams.cons (fun later e hopening => ?_) (fun he => absurd he hopened)
    exact hopening.cons _ (by simp [hevent]) (fun _ => hevent)

theorem assign {s' : Session} (hhistory : s'.history = s.history) (hcalm : s'.Calm)
    (hstream : s'.stream = s.stream) (hfirst : s'.firstStreamRequest = s.firstStreamRequest)
    (hdown : s'.shutdown = s.shutdown) : Identified s' where
  calm := hcalm
  past := by
    rw [hhistory]
    exact h.past
  begun := by
    unfold Begun
    rw [hstream, hfirst, hdown]
    exact h.begun
  streams := by
    rw [hhistory, hdown]
    exact h.streams

theorem prepareRequest_calm (typeUrl : String) : (s.prepareRequest typeUrl).Calm := by
  intro t
  by_cases ht : t = typeUrl
  · subst ht
    rw [prepareRequest_api_self]
    exact ⟨(h.calm t).1, rfl⟩
  · rw [prepareRequest_eq]
    simpa [State.api, ht] using h.calm t

theorem beginSend (typeUrl : String) (rest : List String) (hstream : s.stream.isSome = true)
    (hdown : s.shutdown = false) (hqueue : s.queue = typeUrl :: rest) :
    Identified (s.beginSend typeUrl) where
  calm := calm_stable.beginSend s typeUrl rest hstream hdown hqueue h.calm
  past := by
    have hsend := h.log (.send typeUrl) rfl (by simp)
    rw [beginSend_history s typeUrl hstream]
    intro e he
    rcases List.mem_cons.mp he with rfl | he
    · exact hsend.prepareRequest_calm typeUrl
    · exact hsend.past e he
  begun := fun _ => Or.inr (beginSend_firstStreamRequest s typeUrl)
  streams := by
    have hfirst := (h.begun hstream).resolve_left (by simp [hdown])
    have hnode := prepared_node_of_begun typeUrl h.calm hfirst
    have hsend := (h.log (.send typeUrl) rfl (by simp)).streams
    rw [beginSend_history s typeUrl hstream, beginSend_shutdown]
    refine Since.cons hsend (fun later e hopening => ?_) (by simp [Opening])
    exact hopening.cons _ (by simpa [Event.request?] using hnode) (by simp [hdown])

theorem updateResources (watch : ℕ) (w : Watcher) (resources : OrderedSet String) :
    Identified (s.updateResources watch w resources) := by
  refine (h.log (.register watch) rfl (by simp)).assign rfl (fun t => ?_) rfl rfl rfl
  rw [updateResources_api]
  split_ifs <;> exact h.calm t

theorem eraseWatch (watch : ℕ) (w : Watcher) : Identified (s.eraseWatch watch w) := by
  refine (h.log (.erase watch) rfl (by simp)).assign rfl (fun t => ?_) rfl rfl rfl
  rw [eraseWatch_api]
  split_ifs <;> exact h.calm t

theorem apiStateFor (typeUrl : String) : Identified (s.apiStateFor typeUrl) := by
  rw [apiStateFor_eq_modifyApi]
  refine h.assign rfl (fun t => ?_) rfl rfl rfl
  rw [modifyApi_api]
  split_ifs <;> exact h.calm t

theorem subscribe (typeUrl : String) : Identified (s.subscribe typeUrl) := by
  have hcalm : (s.subscribe typeUrl).Calm := by
    intro t
    rw [subscribe_api]
    split_ifs <;> exact h.calm t
  unfold Session.subscribe at *
  split_ifs at *
  · exact h
  · exact h.assign rfl hcalm rfl rfl rfl

theorem ingest (message : DiscoveryResponse) : Identified (s.ingest message) := by
  refine (h.log (.response message) rfl (by simp)).assign rfl (fun t => ?_) rfl rfl rfl
  rw [ingest_api]
  split_ifs <;> simpa using h.calm t

theorem openStreamDown (hs : Quiet s) (responses : List DiscoveryResponse)
    (hdown : s.shutdown = true) : Identified (s.openStream responses) where
  calm := openStream_calm s responses hs.calm
  past := by
    intro e he
    rcases List.mem_cons.mp he with rfl | he
    · exact h.calm
    · exact h.past e he
  begun := fun _ => Or.inl hdown
  streams := by
    refine h.streams.cons (fun later e hopening => ?_) (fun _ => ?_)
    · exact hopening.cons _ (by simp [Event.request?]) (fun _ => rfl)
    · refine ⟨fun _ => ⟨hdown, rfl⟩, fun hlive => ?_⟩
      simp [hdown] at hlive

theorem firstRequest (hs : Reachable s) (responses : List DiscoveryResponse)
    (hdown : s.shutdown = false) : Identified (s.firstRequest responses) where
  calm := firstRequest_calm hs.quiet responses
  past := by
    have hopen : (s.openStream responses).Calm := openStream_calm s responses hs.quiet.calm
    have hqueued : (s.firstQueued responses).Calm := apiStateFor_calm _ _ hopen
    have hprepared : (((s.firstQueued responses).log (.send clusterTypeUrl)).prepareRequest
        clusterTypeUrl).Calm := by
      intro t
      by_cases ht : t = clusterTypeUrl
      · subst ht
        rw [prepareRequest_api_self]
        exact ⟨(hqueued clusterTypeUrl).1, rfl⟩
      · rw [prepareRequest_eq]
        simpa [State.api, ht] using hqueued t
    rw [firstRequest_history]
    intro e he
    simp only [List.mem_cons] at he
    rcases he with rfl | rfl | rfl | rfl | he
    · exact hprepared
    · exact hqueued
    · exact apiStateFor_calm _ _ hopen
    · exact h.calm
    · exact h.past e he
  begun := fun _ => Or.inr (beginSend_firstStreamRequest _ _)
  streams := by
    have hnodes := (nodeless_of_reachable hs).resolve_left (by simp [hdown])
    have hnode := firstRequest_node responses (hnodes clusterTypeUrl)
    rw [firstRequest_history, firstRequest_shutdown]
    exact since_opening_of_first h.streams rfl rfl rfl hdown hnode

end Identified
theorem identified_stable : Stable Identified := by
  constructor
  · exact fun s h => h.log _ rfl (by simp)
  · intro s message rest hstream _ h
    have hread := h.log (.read (some message)) rfl (by simp)
    have hrest : Identified { s.log (.read (some message)) with stream := some rest } :=
      ⟨hread.calm, hread.past, fun _ => hread.begun (by simp [hstream]), hread.streams⟩
    exact hrest.ingest message
  · intro s t _ _ h
    have hpush := h.log (.push t) rfl (by simp)
    exact ⟨hpush.calm, hpush.past, hpush.begun, hpush.streams⟩
  · exact fun s t rest hstream hdown hqueue h => h.beginSend t rest hstream hdown hqueue
  · exact fun s t _ h => h.log _ rfl (by simp)
  · exact fun s t h => h.log _ rfl (by simp)
  · intro s h
    have hpop := h.log .pop rfl (by simp)
    exact ⟨hpop.calm, hpop.past, hpop.begun, hpop.streams⟩

theorem identified_kept : Kept Identified where
  toStable := identified_stable
  stub := fun s h => ⟨h.calm, h.past, h.begun, h.streams⟩
  nullCall := fun s h => h.log _ rfl (by simp)
  openFailed := fun s h => by
    have hlog := h.log (.opened false) rfl (by simp)
    exact ⟨hlog.calm, hlog.past, by simp [Session.openFailed], hlog.streams⟩
  openStream := fun s responses hs hdown h =>
    identified_stable.openStream_request s responses hdown (h.firstRequest hs responses hdown)
  openStreamDown := fun s responses hs hdown h =>
    (h.openStreamDown hs.quiet responses hdown).apiStateFor clusterTypeUrl
  addWatch := fun s typeUrl resources _ h => by
    have halloc := h.apiStateFor typeUrl
    have hnext : Identified { s.apiStateFor typeUrl with nextWatcher := s.nextWatcher + 1 } :=
      ⟨halloc.calm, halloc.past, halloc.begun, halloc.streams⟩
    exact (hnext.updateResources _ _ resources).subscribe typeUrl
  eraseWatch := fun s watch w _ _ h => h.eraseWatch watch w
  updateResources := fun s watch w resources _ _ _ h => h.updateResources watch w resources
  dropWatch := fun s watch w _ _ h => by
    have herase := h.eraseWatch watch w
    exact ⟨herase.calm, herase.past, herase.begun, herase.streams⟩
  ingest := fun s message h => h.ingest message
  shutdown := fun s h => by
    have hend : Identified s.endStream := by
      unfold endStream
      split
      · exact h.log _ rfl (by simp)
      · exact (h.log _ rfl (by simp)).log _ rfl (by simp)
    refine ⟨hend.calm, hend.past, fun _ => Or.inl rfl, ?_⟩
    intro later e earlier hsplit he
    have hopening := hend.streams later e earlier hsplit he
    exact ⟨fun hdown => ⟨rfl, (hopening.1 hdown).2⟩, hopening.2⟩

theorem identified_construct (channel : Bool) : Identified (construct channel) where
  calm := fun t => ⟨rfl, rfl⟩
  past := by simp [construct]
  begun := by simp [construct]
  streams := by simp [construct, Since]

end Session
open Session

/-- In every run, no type is ever marked for sending the node, and the first request of a
stream carries the node and the others none exactly if the client was shut down before the
stream, so that there are no requests, or its first type was not subscribed yet. -/
theorem run_node_once_iff (channel : Bool) (calls : List Op) (s : Session)
    (hrun : Run channel calls s) :
    (∀ e ∈ s.history, ∀ typeUrl, (e.state.api typeUrl).mustSendNode = false) ∧
    ∀ later state earlier, s.history = later ++ ⟨.opened true, state⟩ :: earlier →
      (NodeOnce (requestsOnStream later) ↔
        state.shutdown = true ∨ (state.api clusterTypeUrl).subscribed = false) := by
  have h := identified_kept.run hrun (identified_construct channel)
  refine ⟨fun e he t => (h.past e he t).2, fun later state earlier hsplit => ?_⟩
  exact (h.streams later _ earlier hsplit).nodeOnce_iff

/-- The first stream of a client without a watch on the first type. -/
theorem run_node_once_iff_first_stream :
    ∃ s later state earlier, Run true [.onStreamEstablished (some [clusterPush])] s ∧
      s.history = later ++ ⟨.opened true, state⟩ :: earlier ∧
      (requestsOnStream later).length = 4 ∧ NodeOnce (requestsOnStream later) := by
  have hopens : opens (fun later state => (requestsOnStream later).length == 4 &&
        !(state.api clusterTypeUrl).subscribed)
      (performAll (construct true) [.onStreamEstablished (some [clusterPush])]).history = true := by
    decide
  rcases exists_split_of_opens _ _ hopens with ⟨later, state, earlier, hsplit, htest⟩
  rcases (by simpa using htest : (requestsOnStream later).length = 4 ∧
    (state.api clusterTypeUrl).subscribed = false) with ⟨hlength, hsubscribed⟩
  have hrun := performAll_run true [.onStreamEstablished (some [clusterPush])]
  have honce := (run_node_once_iff true _ _ hrun).2 later state earlier hsplit
  exact ⟨_, later, state, earlier, hrun, hsplit, hlength, honce.mpr (Or.inr hsubscribed)⟩

/-- The second stream of the same client starts without the node. -/
theorem node_missing_after_reconnect :
    ∃ s later state earlier,
      Run true [.onStreamEstablished (some []), .onStreamEstablished (some [])] s ∧
      s.history = later ++ ⟨.opened true, state⟩ :: earlier ∧
      ¬ NodeOnce (requestsOnStream later) := by
  have hopens : opens (fun later _ => match requestsOnStream later with
      | first :: _ => first.node.isNone
      | [] => false) (performAll (construct true)
        [.onStreamEstablished (some []), .onStreamEstablished (some [])]).history = true := by
    decide
  rcases exists_split_of_opens _ _ hopens with ⟨later, state, earlier, hsplit, htest⟩
  refine ⟨_, later, state, earlier, performAll_run true _, hsplit, ?_⟩
  cases hrequests : requestsOnStream later with
  | nil => simp [hrequests] at htest
  | cons first rest =>
    rw [hrequests, Option.isNone_iff_eq_none] at htest
    simp [NodeOnce, htest]

end XdsClient.Ads
