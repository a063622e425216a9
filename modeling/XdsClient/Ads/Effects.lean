import XdsClient.Ads.Client

/-! # What one step of a function does

Closed forms for the straight-line parts of the client's functions: the request
that `sendDiscoveryRequest` writes, and the part of `onDiscoveryResponse` before
it queues an answer. Later proofs use these forms and never unfold the functions.
-/
namespace XdsClient.Ads
open Library

namespace State

def subscribes (s : State) (typeUrl : String) : Bool :=
  ((s.api typeUrl).mustSendNode || s.firstStreamRequest) && !(s.api typeUrl).subscribed

/-- The `ApiState` whose request `sendDiscoveryRequest` hands to `Write`. -/
def prepared (s : State) (typeUrl : String) : ApiState :=
  let api := s.api typeUrl
  { api with
    request := { api.request with
      resourceNames := s.resourceNames typeUrl
      typeUrl := if s.subscribes typeUrl then typeUrl else api.request.typeUrl
      node := if s.subscribes typeUrl then some node
        else if api.mustSendNode || s.firstStreamRequest then api.request.node else none }
    subscribed := api.subscribed || s.subscribes typeUrl
    mustSendNode := false }

end State

def ApiState.afterWrite (api : ApiState) : ApiState :=
  { api with request := { api.request with errorDetail := none } }

namespace Session

theorem prepareRequest_eq (s : Session) (typeUrl : String) :
    s.prepareRequest typeUrl =
      { s with
        apiState := Function.update s.apiState typeUrl (some (s.prepared typeUrl))
        subscriptions := s.subscriptions ++ if s.subscribes typeUrl then [typeUrl] else [] } := by
  unfold prepareRequest State.prepared State.subscribes
  cases hm : (s.api typeUrl).mustSendNode <;> cases hf : s.firstStreamRequest <;>
    cases hs : (s.api typeUrl).subscribed <;>
    simp [modifyApi, State.api, hf] <;> simp_all [State.api]

@[simp] theorem prepareRequest_api_self (s : Session) (typeUrl : String) :
    (s.prepareRequest typeUrl).api typeUrl = s.prepared typeUrl := by
  rw [prepareRequest_eq]
  simp [State.api]

theorem writeRequest_toState (s : Session) (typeUrl : String) :
    (s.writeRequest typeUrl).toState =
      { s.toState with
        apiState := Function.update s.apiState typeUrl (some (s.prepared typeUrl).afterWrite)
        subscriptions := s.subscriptions ++ if s.subscribes typeUrl then [typeUrl] else []
        firstStreamRequest := false } := by
  have hapi := s.prepareRequest_api_self typeUrl
  have hwrite (r : DiscoveryRequest) :
      ((s.prepareRequest typeUrl).write typeUrl r).toState = (s.prepareRequest typeUrl).toState := by
    unfold write
    split <;> rfl
  unfold writeRequest
  simp only [State.api, hwrite]
  rw [← State.api, hapi]
  cases he : (s.prepared typeUrl).request.errorDetail with
  | none =>
    have hsame : (s.prepared typeUrl).afterWrite = s.prepared typeUrl := by
      unfold ApiState.afterWrite
      rw [← he]
    simp [hsame, prepareRequest_eq]
  | some status =>
    simp [modifyApi, prepareRequest_eq, State.api, ApiState.afterWrite]

/-- On a stream, `sendDiscoveryRequest` writes exactly one request before it reads. -/
theorem writeRequest_history (s : Session) (typeUrl : String) (h : s.stream.isSome = true) :
    (s.writeRequest typeUrl).history =
      ⟨.write typeUrl (s.prepared typeUrl).request, (s.prepareRequest typeUrl).toState⟩ ::
        s.history := by
  rcases Option.isSome_iff_exists.mp h with ⟨rs, hrs⟩
  have hstream : (s.prepareRequest typeUrl).stream = some rs := by
    rw [prepareRequest_eq]
    exact hrs
  have hhistory : (s.prepareRequest typeUrl).history = s.history := by rw [prepareRequest_eq]
  unfold writeRequest
  simp only [write, hstream]
  split_ifs <;> simp [hhistory]

end Session

/-- The assignments `onDiscoveryResponse` makes to the state of the response's type. -/
def ApiState.ingest (api : ApiState) (message : DiscoveryResponse) : ApiState :=
  if api.watches.isEmpty then
    { api with request := { api.request with
        responseNonce := message.nonce
        versionInfo := if message.resources.isEmpty then message.versionInfo
          else api.request.versionInfo } }
  else
    { api with
      request := { api.request with responseNonce := message.nonce }
      previouslyFetchedData := true }

/-- `onDiscoveryResponse` without the answer it may queue. -/
@[simps] def Session.ingest (s : Session) (message : DiscoveryResponse) : Session :=
  { s.log (.response message) with
    apiState := Function.update s.apiState message.typeUrl
      ((s.apiState message.typeUrl).map fun api => api.ingest message) }

section Ingest
variable (api : ApiState) (message : DiscoveryResponse)

@[simp] theorem ApiState.ingest_watches : (api.ingest message).watches = api.watches := by
  unfold ApiState.ingest
  split_ifs <;> rfl

@[simp] theorem ApiState.ingest_subscribed : (api.ingest message).subscribed = api.subscribed := by
  unfold ApiState.ingest
  split_ifs <;> rfl

@[simp] theorem ApiState.ingest_pauses : (api.ingest message).pauses = api.pauses := by
  unfold ApiState.ingest
  split_ifs <;> rfl

@[simp] theorem ApiState.ingest_mustSendNode :
    (api.ingest message).mustSendNode = api.mustSendNode := by
  unfold ApiState.ingest
  split_ifs <;> rfl

@[simp] theorem ApiState.ingest_responseNonce :
    (api.ingest message).request.responseNonce = message.nonce := by
  unfold ApiState.ingest
  split_ifs <;> rfl

@[simp] theorem ApiState.ingest_typeUrl :
    (api.ingest message).request.typeUrl = api.request.typeUrl := by
  unfold ApiState.ingest
  split_ifs <;> rfl

@[simp] theorem ApiState.ingest_node :
    (api.ingest message).request.node = api.request.node := by
  unfold ApiState.ingest
  split_ifs <;> rfl

/-- A response reaches the state of its own type only, and only if there is one. -/
theorem ingest_api (s : Session) (typeUrl : String) :
    (s.ingest message).api typeUrl =
      if message.typeUrl = typeUrl ∧ s.known typeUrl = true then (s.api typeUrl).ingest message
      else s.api typeUrl := by
  by_cases ht : message.typeUrl = typeUrl
  · subst ht
    cases hapi : s.apiState message.typeUrl <;> simp [State.api, State.known, hapi]
  · simp [State.api, ht, Ne.symm ht]

theorem ingest_known (s : Session) (typeUrl : String) :
    (s.ingest message).known typeUrl = s.known typeUrl := by
  by_cases ht : typeUrl = message.typeUrl
  · subst ht
    simp [State.known]
  · simp [State.known, ht]

end Ingest

namespace Session
variable (s : Session) (typeUrl : String) (watch : ℕ) (w : Watcher) (resources : OrderedSet String)

theorem modifyApi_api (f : ApiState → ApiState) (other : String) :
    (s.modifyApi typeUrl f).api other = if other = typeUrl then f (s.api other) else s.api other := by
  by_cases h : other = typeUrl
  · subst h
    simp
  · rw [if_neg h, modifyApi_api_of_ne s typeUrl f h]

theorem updateResources_watchers : (s.updateResources watch w resources).watchers =
    Function.update s.watchers watch (some ⟨resources, w.typeUrl, s.nextNode⟩) := by
  unfold updateResources
  rw [OrderedSet.transformInto_id]
  rfl

theorem updateResources_api : (s.updateResources watch w resources).api typeUrl =
    if typeUrl = w.typeUrl then
      { s.api typeUrl with watches := ⟨s.nextNode, watch⟩ :: (s.api typeUrl).watches }
    else s.api typeUrl :=
  modifyApi_api (s.log (.register watch)) w.typeUrl
    (fun api => { api with watches := ⟨s.nextNode, watch⟩ :: api.watches }) typeUrl

theorem updateResources_known : (s.updateResources watch w resources).known typeUrl =
    (s.known typeUrl || decide (typeUrl = w.typeUrl)) := by
  by_cases h : typeUrl = w.typeUrl <;> simp [updateResources, State.known, h]

theorem eraseWatch_known : (s.eraseWatch watch w).known typeUrl =
    (s.known typeUrl || decide (typeUrl = w.typeUrl)) := by
  by_cases h : typeUrl = w.typeUrl <;> simp [eraseWatch, State.known, h]

theorem eraseWatch_api : (s.eraseWatch watch w).api typeUrl =
    if typeUrl = w.typeUrl then
      { s.api typeUrl with
        watches := (s.api typeUrl).watches.filter fun n => n.node ≠ w.iter }
    else s.api typeUrl :=
  modifyApi_api (s.log (.erase watch)) w.typeUrl
    (fun api => { api with watches := api.watches.filter fun n => n.node ≠ w.iter }) typeUrl

theorem newWatcher_api (other : String) : (s.newWatcher typeUrl resources).api other =
    if other = typeUrl then
      { s.api other with watches := ⟨s.nextNode, s.nextWatcher⟩ :: (s.api other).watches }
    else s.api other := by
  have hnode : (s.apiStateFor typeUrl).nextNode = s.nextNode := by
    rw [apiStateFor_eq_modifyApi]
    rfl
  unfold newWatcher
  rw [updateResources_api, hnode]
  simp only [State.api]
  rw [← State.api, apiStateFor_api]
  rfl

theorem newWatcher_watchers : (s.newWatcher typeUrl resources).watchers =
    Function.update s.watchers s.nextWatcher (some ⟨resources, typeUrl, s.nextNode⟩) := by
  unfold newWatcher
  rw [updateResources_watchers, apiStateFor_eq_modifyApi]
  rfl

theorem newWatcher_known (other : String) : (s.newWatcher typeUrl resources).known other =
    (decide (other = typeUrl) || s.known other) := by
  by_cases h : other = typeUrl
  · simp [newWatcher, updateResources, State.known, h]
  · simp [newWatcher, updateResources, State.known, h, apiStateFor_eq_modifyApi]

/-- After `addWatch`'s first branch the type is subscribed, under its URL if it was not before. -/
theorem subscribe_api (other : String) : (s.subscribe typeUrl).api other =
    if other = typeUrl then
      { s.api other with
        request := { (s.api other).request with
          typeUrl := if (s.api other).subscribed then (s.api other).request.typeUrl else typeUrl }
        subscribed := true }
    else s.api other := by
  unfold subscribe
  by_cases h : other = typeUrl
  · subst h
    cases hs : (s.api other).subscribed with
    | true =>
      rw [if_pos rfl, if_pos rfl, if_pos rfl, ← hs]
    | false => simp [State.api]
  · split_ifs <;> simp [State.api, h]

theorem subscribe_known (other : String) (hknown : s.known typeUrl = true) :
    (s.subscribe typeUrl).known other = s.known other := by
  unfold subscribe
  split_ifs
  · rfl
  · by_cases h : other = typeUrl
    · subst h
      simpa [State.known] using hknown
    · simp [State.known, h]

end Session

/-- Every response is ingested; the ones that call for an answer are then queued. -/
theorem onDiscoveryResponse_succ (fuel : ℕ) (message : DiscoveryResponse) (s : Session) :
    onDiscoveryResponse (fuel + 1) message s =
      if s.callsForAnswer message then
        queueDiscoveryRequest fuel message.typeUrl (s.ingest message)
      else some (s.ingest message) := by
  cases hapi : s.apiState message.typeUrl with
  | none =>
    have hcalls : s.callsForAnswer message = false := by
      simp [State.callsForAnswer, State.known, hapi]
    have hsame : Function.update s.apiState message.typeUrl none = s.apiState := by
      rw [← hapi, Function.update_eq_self]
    rw [hcalls, onDiscoveryResponse]
    simp [Session.ingest, hapi, hsame, Session.log]
  | some api =>
    have hcalls : s.callsForAnswer message =
        (!api.watches.isEmpty || !message.resources.isEmpty) := by
      simp [State.callsForAnswer, State.known, State.api, hapi]
    rw [hcalls, onDiscoveryResponse]
    cases hw : api.watches <;> cases hr : message.resources <;>
      simp [Session.ingest, ApiState.ingest, Session.modifyApi, State.api, hapi, hw, hr, Session.log]

end XdsClient.Ads
