import XdsClient.Ads.Runs

/-! # What one type sees

An `Observation` is the client as it looks to a single type: the type's own nonce,
version, flags and watches, and what no response can change. `step` is an abstract
client for that one type, in which a stream is the list of its own responses. The
client follows it call by call, whatever else its streams deliver.
-/
namespace XdsClient.Ads
open Library Session

@[ext] structure Observation where
  responseNonce : String
  versionInfo : String
  previouslyFetchedData : Bool
  subscribed : Bool
  watches : List WatchNode
  known : Bool
  stub : Bool
  shutdown : Bool
  streaming : Bool
  watchers : ℕ → Option Watcher
  nextWatcher : ℕ
  nextNode : ℕ

/-- The client as the type sees it. -/
def State.observe (s : State) (typeUrl : String) : Observation where
  responseNonce := (s.api typeUrl).request.responseNonce
  versionInfo := (s.api typeUrl).request.versionInfo
  previouslyFetchedData := (s.api typeUrl).previouslyFetchedData
  subscribed := (s.api typeUrl).subscribed
  watches := (s.api typeUrl).watches
  known := s.known typeUrl
  stub := s.stub
  shutdown := s.shutdown
  streaming := s.stream.isSome
  watchers := s.watchers
  nextWatcher := s.nextWatcher
  nextNode := s.nextNode

/-! ## The abstract client of one type -/

/-- The responses of one type, in their order. -/
def ofType (typeUrl : String) (responses : List DiscoveryResponse) : List DiscoveryResponse :=
  responses.filter fun message => message.typeUrl = typeUrl

namespace Observation

def ingest (o : Observation) (message : DiscoveryResponse) : Observation :=
  if o.known then
    { o with
      responseNonce := message.nonce
      versionInfo := if o.watches.isEmpty && message.resources.isEmpty then message.versionInfo
        else o.versionInfo
      previouslyFetchedData := o.previouslyFetchedData || !o.watches.isEmpty }
  else o

def enter (o : Observation) (typeUrl watched : String) (watch : ℕ) (resources : OrderedSet String) :
    Observation :=
  { o with
    watches := if typeUrl = watched then ⟨o.nextNode, watch⟩ :: o.watches else o.watches
    known := o.known || decide (typeUrl = watched)
    watchers := Function.update o.watchers watch (some ⟨resources, watched, o.nextNode⟩)
    nextNode := o.nextNode + 1 }

def leave (o : Observation) (typeUrl : String) (w : Watcher) : Observation :=
  { o with
    watches := if typeUrl = w.typeUrl then o.watches.filter fun n => n.node ≠ w.iter else o.watches
    known := o.known || decide (typeUrl = w.typeUrl) }

def start (o : Observation) (typeUrl : String) : Observation :=
  { o with
    responseNonce := ""
    subscribed := o.subscribed || (decide (typeUrl = clusterTypeUrl) && !o.shutdown)
    known := o.known || decide (typeUrl = clusterTypeUrl)
    streaming := true }

/-- A stream is obtained, and delivers `responses` for the type. -/
def establish (o : Observation) (typeUrl : String) (responses : List DiscoveryResponse) :
    Observation :=
  if o.shutdown then o.start typeUrl else responses.foldl ingest (o.start typeUrl)

def step (o : Observation) (typeUrl : String) : Op → Observation
  | .setChannel => { o with stub := true }
  | .onStreamEstablished (some responses) =>
    if o.stub then o.establish typeUrl (ofType typeUrl responses) else o
  | .onStreamEstablished none => if o.stub then { o with streaming := false } else o
  | .addWatch watched resources =>
    let o := { o with nextWatcher := o.nextWatcher + 1 }.enter typeUrl watched o.nextWatcher resources
    { o with subscribed := o.subscribed || decide (typeUrl = watched) }
  | .update watch resources =>
    match o.watchers watch with
    | some w => (o.leave typeUrl w).enter typeUrl w.typeUrl watch resources
    | none => o
  | .destroy watch =>
    match o.watchers watch with
    | some w => { o.leave typeUrl w with watchers := Function.update o.watchers watch none }
    | none => o
  | .onDiscoveryResponse message => if message.typeUrl = typeUrl then o.ingest message else o
  | .shutdown => { o with shutdown := true }

end Observation

/-! ## Assignments -/

section Assignments
variable (s : Session) (typeUrl : String)

theorem ingest_observe (message : DiscoveryResponse) : (s.ingest message).observe typeUrl =
    if message.typeUrl = typeUrl then (s.observe typeUrl).ingest message else s.observe typeUrl := by
  have hwatchers : (s.ingest message).watchers = s.watchers := rfl
  by_cases ht : message.typeUrl = typeUrl
  · cases hk : s.known typeUrl with
    | false => simp [State.observe, ingest_api, ingest_known, Observation.ingest, ht, hk, hwatchers]
    | true =>
      cases hw : (s.api typeUrl).watches.isEmpty <;>
        simp [State.observe, ingest_api, ingest_known, Observation.ingest, ApiState.ingest, ht, hk, hw,
          hwatchers]
  · simp [State.observe, ingest_api, ingest_known, ht, hwatchers]

theorem receive_observe (message : DiscoveryResponse) (rest : List DiscoveryResponse)
    (hstream : s.stream.isSome = true) : (s.receive message rest).observe typeUrl =
      if message.typeUrl = typeUrl then (s.observe typeUrl).ingest message
      else s.observe typeUrl := by
  have hread : State.observe { s.log (.read (some message)) with stream := some rest }.toState
      typeUrl = s.observe typeUrl := by
    ext <;> simp [State.observe, State.api, State.known, hstream]
  unfold receive
  rw [ingest_observe, hread]

theorem updateResources_observe (watch : ℕ) (w : Watcher) (resources : OrderedSet String) :
    (s.updateResources watch w resources).observe typeUrl =
      (s.observe typeUrl).enter typeUrl w.typeUrl watch resources := by
  have hsame : (s.updateResources watch w resources).stub = s.stub ∧
      (s.updateResources watch w resources).shutdown = s.shutdown ∧
      (s.updateResources watch w resources).stream = s.stream ∧
      (s.updateResources watch w resources).nextWatcher = s.nextWatcher ∧
      (s.updateResources watch w resources).nextNode = s.nextNode + 1 := ⟨rfl, rfl, rfl, rfl, rfl⟩
  simp only [State.observe, Observation.enter, updateResources_api, updateResources_known,
    updateResources_watchers, hsame]
  split_ifs <;> rfl

theorem eraseWatch_observe (watch : ℕ) (w : Watcher) :
    (s.eraseWatch watch w).observe typeUrl = (s.observe typeUrl).leave typeUrl w := by
  simp only [State.observe, Observation.leave, eraseWatch_api, eraseWatch_known]
  split_ifs <;> rfl

theorem dropWatch_observe (watch : ℕ) (w : Watcher) : (s.dropWatch watch w).observe typeUrl =
    { (s.observe typeUrl).leave typeUrl w with
      watchers := Function.update s.watchers watch none } := by
  rw [← eraseWatch_observe s typeUrl watch w]
  rfl

theorem newWatcher_observe (watched : String) (resources : OrderedSet String) :
    (s.newWatcher watched resources).observe typeUrl =
      { s.observe typeUrl with nextWatcher := s.nextWatcher + 1 }.enter typeUrl watched
        s.nextWatcher resources := by
  have hsame : (s.newWatcher watched resources).stub = s.stub ∧
      (s.newWatcher watched resources).shutdown = s.shutdown ∧
      (s.newWatcher watched resources).stream = s.stream ∧
      (s.newWatcher watched resources).nextWatcher = s.nextWatcher + 1 ∧
      (s.newWatcher watched resources).nextNode = s.nextNode + 1 := by
    unfold newWatcher
    rw [apiStateFor_eq_modifyApi]
    exact ⟨rfl, rfl, rfl, rfl, rfl⟩
  simp only [State.observe, Observation.enter, newWatcher_api, newWatcher_known,
    newWatcher_watchers, hsame, Bool.or_comm]
  split_ifs <;> rfl

theorem subscribe_observe (subscribed : String) (hknown : s.known subscribed = true) :
    (s.subscribe subscribed).observe typeUrl =
      { s.observe typeUrl with
        subscribed := (s.api typeUrl).subscribed || decide (typeUrl = subscribed) } := by
  have hsame : (s.subscribe subscribed).stub = s.stub ∧
      (s.subscribe subscribed).shutdown = s.shutdown ∧
      (s.subscribe subscribed).stream = s.stream ∧
      (s.subscribe subscribed).watchers = s.watchers ∧
      (s.subscribe subscribed).nextWatcher = s.nextWatcher ∧
      (s.subscribe subscribed).nextNode = s.nextNode := by
    unfold subscribe
    split_ifs <;> exact ⟨rfl, rfl, rfl, rfl, rfl, rfl⟩
  simp only [State.observe, subscribe_api, subscribe_known s subscribed typeUrl hknown, hsame]
  split_ifs with ht <;> simp [ht]

end Assignments

/-! ## Requests -/

/-- The stream has had its first request and every queued type has a state: no send of a
queued type can subscribe it any more. -/
def Poised (s : Session) : Prop :=
  s.Calm ∧ Begun s.toState ∧ ∀ u ∈ s.queue, s.known u = true

theorem Poised.subscribes {s : Session} (h : Poised s) (hdown : s.shutdown = false) (u : String) :
    s.subscribes u = false := by
  have hfirst : s.firstStreamRequest = false := h.2.1.resolve_left (by simp [hdown])
  simp [State.subscribes, hfirst, (h.1 u).2]

theorem poised_stable : Stable Poised := by
  constructor
  · exact fun s h => h
  · intro s message rest hstream hdown h
    refine ⟨calm_stable.receive s message rest hstream hdown h.1, h.2.1, fun u hu => ?_⟩
    rw [receive_known]
    exact h.2.2 u hu
  · intro s u _ hknown h
    refine ⟨h.1, h.2.1, fun v hv => ?_⟩
    cases hqueue : s.requestQueue with
    | none => simp [State.queue, hqueue] at hv
    | some q =>
      have hv' : v ∈ q ∨ v = u := by simpa [State.queue, hqueue] using hv
      rcases hv' with hv' | rfl
      · exact h.2.2 v (by simpa [State.queue, hqueue] using hv')
      · exact hknown
  · intro s u rest hstream hdown hqueue h
    refine ⟨calm_stable.beginSend s u rest hstream hdown hqueue h.1,
      Or.inr (beginSend_firstStreamRequest s u), fun v hv => ?_⟩
    rw [beginSend_queue] at hv
    exact (known_stable v).beginSend s u rest hstream hdown hqueue (h.2.2 v hv)
  · exact fun s u _ h => h
  · exact fun s u h => h
  · intro s h
    refine ⟨h.1, h.2.1, fun v hv => ?_⟩
    rw [pop_queue] at hv
    exact h.2.2 v (List.mem_of_mem_tail hv)

/-- All that a type sees of a send is that it may subscribe it. -/
theorem beginSend_observe (s : Session) (typeUrl u : String) (hknown : s.known u = true) :
    (s.beginSend u).observe typeUrl =
      { s.observe typeUrl with
        subscribed := (s.api typeUrl).subscribed ||
          (decide (typeUrl = u) && s.subscribes u) } := by
  have hfixed : fixed (s.beginSend u).toState = fixed s.toState := by
    simp [fixed, beginSend, writeRequest_toState]
  simp only [fixed, Prod.mk.injEq] at hfixed
  rcases hfixed with ⟨hstub, hdown, hwatchers, hnextWatcher, hnextNode⟩
  simp only [State.observe, hstub, hdown, hwatchers, hnextWatcher, hnextNode, beginSend_stream]
  by_cases ht : typeUrl = u
  · subst ht
    have hself : (s.beginSend typeUrl).known typeUrl = true := by
      simp [beginSend, writeRequest_toState, State.known]
    rw [beginSend_api_self, hself, hknown]
    simp [ApiState.afterWrite, State.prepared]
  · have hother : (s.beginSend u).known typeUrl = s.known typeUrl := by
      simp [beginSend, writeRequest_toState, State.known, ht]
    rw [beginSend_api_of_ne s u ht, hother]
    simp [ht]

theorem Poised.beginSend_observe {s : Session} (h : Poised s) (typeUrl : String) {u : String}
    (hdown : s.shutdown = false) (hu : u ∈ s.queue) :
    (s.beginSend u).observe typeUrl = s.observe typeUrl := by
  rw [Ads.beginSend_observe s typeUrl u (h.2.2 u hu), h.subscribes hdown u]
  simp [State.observe]

theorem observe_stable (typeUrl : String) (o : Observation) :
    Stable fun s => (s.observe typeUrl = o ∧ Poised s) ∧ Ended s.toState := by
  apply stable_of_ended
  · exact fun s h => ⟨h.1, poised_stable.readFalse s h.2⟩
  · exact fun s u hstream hknown h => ⟨h.1, poised_stable.emplace s u hstream hknown h.2⟩
  · intro s u rest hstream hdown hqueue h
    refine ⟨?_, poised_stable.beginSend s u rest hstream hdown hqueue h.2⟩
    rw [h.2.beginSend_observe typeUrl hdown (by simp [hqueue])]
    exact h.1
  · exact fun s u hdown h => ⟨h.1, poised_stable.send s u hdown h.2⟩
  · exact fun s u h => ⟨h.1, poised_stable.sent s u h.2⟩
  · exact fun s h => ⟨h.1, poised_stable.pop s h.2⟩

/-- A request between calls changes nothing that any type sees. -/
theorem request_observe {s : Session} (hs : Quiet s) (typeUrl u : String)
    (hknown : s.known u = true) : (s.request u).observe typeUrl = s.observe typeUrl := by
  cases hstream : s.stream with
  | none => simp [request, hstream]
  | some responses =>
    have hpoised : Poised s := ⟨hs.calm, hs.begun (by simp [hstream]), by simp [hs.queue]⟩
    exact ((observe_stable typeUrl _).request s u hknown ⟨⟨rfl, hpoised⟩, hs.ended⟩).1.1

theorem foldl_request_observe {s : Session} (hs : Quiet s) (typeUrl : String) (l : List String)
    (hknown : ∀ u ∈ l, s.known u = true) :
    (l.foldl request s).observe typeUrl = s.observe typeUrl := by
  induction l generalizing s with
  | nil => rfl
  | cons u l ih =>
    have hrest : ∀ v ∈ l, (s.request u).known v = true := fun v hv =>
      request_known s u v (hknown v (List.mem_cons_of_mem u hv))
    rw [List.foldl_cons, ih (hs.request u) hrest,
      request_observe hs typeUrl u (hknown u List.mem_cons_self)]

/-! ## A new stream -/

/-- The first phase of a read loop: the type sees its own responses and no others. -/
theorem absorb_observe (typeUrl front : String) (responses : List DiscoveryResponse) (s : Session)
    (q : List String) (hstream : s.stream = some responses)
    (hqueue : s.requestQueue = some (front :: q)) (hdown : s.shutdown = false) (h : Poised s) :
    (absorb front responses s).observe typeUrl =
        (ofType typeUrl responses).foldl Observation.ingest (s.observe typeUrl) ∧
      Poised (absorb front responses s) := by
  induction responses generalizing s q with
  | nil => exact ⟨rfl, h⟩
  | cons message rest ih =>
    have hreceived := poised_stable.receive s message rest hstream hdown h
    have hobserved : (ofType typeUrl (message :: rest)).foldl Observation.ingest (s.observe typeUrl) =
        (ofType typeUrl rest).foldl Observation.ingest
          ((s.receive message rest).observe typeUrl) := by
      rw [receive_observe s typeUrl message rest (by simp [hstream])]
      by_cases ht : message.typeUrl = typeUrl <;> simp [ofType, ht]
    rw [hobserved]
    unfold absorb
    split_ifs with hcalls
    · have hknown : (s.receive message rest).known message.typeUrl = true := by
        rw [receive_known]
        exact State.known_of_callsForAnswer hcalls
      have hpushed := poised_stable.emplace _ message.typeUrl (by simp) hknown hreceived
      have hfront : ((s.receive message rest).emplace message.typeUrl).queue =
          front :: (q ++ [message.typeUrl]) := by simp [State.queue, hqueue]
      have hlive : ((s.receive message rest).emplace message.typeUrl).shutdown = false := by
        simpa using hdown
      have hbegun := poised_stable.beginSend _ front _ (by simp) hlive hfront hpushed
      have hsame := hpushed.beginSend_observe typeUrl (u := front) hlive (by simp [hfront])
      have hnext := ih (((s.receive message rest).emplace message.typeUrl).beginSend front)
        (q ++ [message.typeUrl]) (by simp) (by simp [hqueue]) (by simpa using hdown) hbegun
      rw [hsame] at hnext
      exact hnext
    · exact ih _ q (by simp) (by simpa using hqueue) (by simpa using hdown) hreceived

section NewStream
variable (s : Session) (responses : List DiscoveryResponse) (typeUrl : String)

theorem firstQueued_observe : (s.firstQueued responses).observe typeUrl =
    { s.observe typeUrl with
      responseNonce := ""
      known := s.known typeUrl || decide (typeUrl = clusterTypeUrl)
      streaming := true } := by
  have hknown : (s.firstQueued responses).known typeUrl =
      (s.known typeUrl || decide (typeUrl = clusterTypeUrl)) := by
    by_cases ht : typeUrl = clusterTypeUrl
    · simp [firstQueued, apiStateFor_eq_modifyApi, State.known, ht]
    · simp [firstQueued, apiStateFor_eq_modifyApi, State.known, ht, openStream]
  have hstream : (s.firstQueued responses).stream = some responses := by
    simp [firstQueued, openStream]
  have hfixed : fixed (s.firstQueued responses).toState = fixed s.toState := by
    unfold firstQueued
    rw [apiStateFor_eq_modifyApi]
    rfl
  simp only [fixed, Prod.mk.injEq] at hfixed
  rcases hfixed with ⟨hstub, hdown, hwatchers, hnextWatcher, hnextNode⟩
  simp only [State.observe, firstQueued_api, hknown, hstream, hstub, hdown, hwatchers, hnextWatcher,
    hnextNode, Option.isSome_some]

/-- The first request subscribes the type the constructor listed. -/
theorem firstRequest_observe (hdown : s.shutdown = false) :
    (s.firstRequest responses).observe typeUrl = (s.observe typeUrl).start typeUrl := by
  have hknown : (s.firstQueued responses).known clusterTypeUrl = true := by
    simp [firstQueued, apiStateFor_eq_modifyApi, State.known]
  unfold firstRequest
  rw [beginSend_observe _ typeUrl clusterTypeUrl hknown, firstQueued_observe, State.subscribes,
    firstQueued_firstStreamRequest, firstQueued_api, firstQueued_api]
  by_cases ht : typeUrl = clusterTypeUrl
  · subst ht
    simp [State.observe, Observation.start, hdown]
  · simp [State.observe, Observation.start, ht]

theorem firstRequest_poised (hcalm : s.Calm) (hdown : s.shutdown = false) :
    Poised (s.firstRequest responses) := by
  have hqueued : (s.firstQueued responses).Calm := fun u => by
    rw [firstQueued_api]
    exact hcalm u
  refine ⟨?_, Or.inr (beginSend_firstStreamRequest _ _), fun u hu => ?_⟩
  · exact calm_stable.beginSend _ clusterTypeUrl [] (by simp [firstQueued, openStream])
      (by simpa [firstQueued, openStream] using hdown)
      (by simp [firstQueued, openStream, State.queue]) hqueued
  · have hu' : u = clusterTypeUrl := by simpa [State.queue] using hu
    subst hu'
    simp [firstRequest, beginSend, writeRequest_toState, State.known]

/-- A client that was shut down obtains its stream and writes nothing on it. -/
theorem openStream_request_observe_of_shutdown (hdown : s.shutdown = true) :
    ((s.openStream responses).request clusterTypeUrl).observe typeUrl =
      (s.observe typeUrl).start typeUrl := by
  have hopen : (s.openStream responses).shutdown = true := hdown
  have hqueued : (s.firstQueued responses).shutdown = true := by
    simpa [firstQueued] using hopen
  have hsame : (flush [clusterTypeUrl] (s.firstQueued responses)).observe typeUrl =
      (s.firstQueued responses).observe typeUrl := by
    unfold flush flush deliver
    rw [if_pos hqueued]
    rfl
  rw [request_of_empty _ _ responses rfl rfl, if_pos hopen]
  exact hsame.trans ((firstQueued_observe s responses typeUrl).trans
    (by simp [State.observe, Observation.start, hdown]))

theorem openStream_request_observe (hcalm : s.Calm) :
    ((s.openStream responses).request clusterTypeUrl).observe typeUrl =
      (s.observe typeUrl).establish typeUrl (ofType typeUrl responses) := by
  have hobserved : (s.observe typeUrl).shutdown = s.shutdown := rfl
  unfold Observation.establish
  rw [hobserved]
  cases hdown : s.shutdown with
  | true => simpa using openStream_request_observe_of_shutdown s responses typeUrl hdown
  | false =>
    have hpoised := firstRequest_poised s responses hcalm hdown
    have habsorbed := absorb_observe typeUrl clusterTypeUrl responses (s.firstRequest responses) []
      (by simp) (by simp) (by simpa using hdown) hpoised
    have hend := absorb_stream clusterTypeUrl responses _ (firstRequest_stream s responses)
    rw [firstRequest_observe s responses typeUrl hdown] at habsorbed
    exact ((observe_stable typeUrl _).openStream_request_of_absorb s responses hdown
      ⟨⟨habsorbed.1, habsorbed.2⟩, Or.inr (Or.inr hend)⟩).1.1

end NewStream

theorem establish_observe {s : Session} (hs : Quiet s) (responses : List DiscoveryResponse)
    (typeUrl : String) : (s.establish responses).observe typeUrl =
      (s.observe typeUrl).establish typeUrl (ofType typeUrl responses) := by
  have hquiet := openStream_request_quiet hs responses
  rw [establish_eq hs, foldl_request_observe hquiet, openStream_request_observe _ _ _ hs.calm]
  exact fun u hu => openStream_request_known hs responses u (List.mem_of_mem_tail hu)

/-! ## Every call -/

section Calls
variable {s : Session} (hs : Quiet s) (typeUrl : String)
include hs

theorem addWatch_observe (watched : String) (resources : OrderedSet String) :
    (perform (.addWatch watched resources) s).observe typeUrl =
      (s.observe typeUrl).step typeUrl (.addWatch watched resources) := by
  have hnew : (s.newWatcher watched resources).known watched = true := by
    simp [newWatcher_known]
  have hknown : ((s.newWatcher watched resources).subscribe watched).known watched = true := by
    rw [subscribe_known _ _ _ hnew]
    exact hnew
  simp only [perform]
  rw [request_observe ((hs.newWatcher watched resources).subscribe watched) typeUrl watched hknown,
    subscribe_observe _ _ _ hnew, newWatcher_observe, newWatcher_api]
  simp only [Observation.step]
  split_ifs <;> rfl

/-- Both halves of `update` ask for a type that has a state. -/
theorem updateWatch_observe (watch : ℕ) (w : Watcher) (resources : OrderedSet String) :
    (s.updateWatch watch w resources).observe typeUrl =
      ((s.observe typeUrl).leave typeUrl w).enter typeUrl w.typeUrl watch resources := by
  have herased := hs.eraseWatch watch w
  have hknown : (s.eraseWatch watch w).known w.typeUrl = true := by
    simp [eraseWatch_known]
  have hentered (s' : Session) : (s'.updateResources watch w resources).known w.typeUrl = true := by
    simp [updateResources_known]
  unfold updateWatch
  split_ifs
  · rw [request_observe (herased.updateResources watch w resources) typeUrl w.typeUrl (hentered _),
      updateResources_observe, eraseWatch_observe]
  · rw [request_observe ((herased.request w.typeUrl).updateResources watch w resources) typeUrl
      w.typeUrl (hentered _), updateResources_observe,
      request_observe herased typeUrl w.typeUrl hknown, eraseWatch_observe]

theorem destroy_observe (watch : ℕ) (w : Watcher) :
    (if w.resources.isEmpty then s.dropWatch watch w
      else (s.dropWatch watch w).request w.typeUrl).observe typeUrl =
    { (s.observe typeUrl).leave typeUrl w with
      watchers := Function.update s.watchers watch none } := by
  have hknown : (s.dropWatch watch w).known w.typeUrl = true := by
    simp [dropWatch_known]
  split_ifs
  · exact dropWatch_observe s typeUrl watch w
  · rw [request_observe (hs.dropWatch watch w) typeUrl w.typeUrl hknown, dropWatch_observe]

theorem respond_observe (message : DiscoveryResponse) : (s.respond message).observe typeUrl =
    if message.typeUrl = typeUrl then (s.observe typeUrl).ingest message else s.observe typeUrl := by
  rw [← ingest_observe, respond]
  split_ifs with hcalls
  · apply request_observe (hs.ingest message)
    rw [ingest_known]
    exact State.known_of_callsForAnswer hcalls
  · rfl

/-- The client refines the abstract client of each type. -/
theorem perform_observe (op : Op) :
    (perform op s).observe typeUrl = (s.observe typeUrl).step typeUrl op := by
  cases op with
  | setChannel => rfl
  | onStreamEstablished outcome =>
    cases outcome with
    | some responses =>
      simp only [perform, Observation.step]
      have hstub : (s.observe typeUrl).stub = s.stub := rfl
      rw [hstub]
      split_ifs
      · exact establish_observe hs responses typeUrl
      · rfl
    | none =>
      simp only [perform, Observation.step]
      have hstub : (s.observe typeUrl).stub = s.stub := rfl
      rw [hstub]
      split_ifs <;> rfl
  | addWatch watched resources => exact addWatch_observe hs typeUrl watched resources
  | update watch resources =>
    have hwatchers : (s.observe typeUrl).watchers = s.watchers := rfl
    simp only [perform, Observation.step, hwatchers]
    cases hw : s.watchers watch with
    | none => rfl
    | some w => exact updateWatch_observe hs typeUrl watch w resources
  | destroy watch =>
    have hwatchers : (s.observe typeUrl).watchers = s.watchers := rfl
    simp only [perform, Observation.step, hwatchers]
    cases hw : s.watchers watch with
    | none => rfl
    | some w => exact destroy_observe hs typeUrl watch w
  | onDiscoveryResponse message => exact respond_observe hs typeUrl message
  | shutdown =>
    simp only [perform, shutdown, endStream]
    split <;> rfl

end Calls
end XdsClient.Ads
