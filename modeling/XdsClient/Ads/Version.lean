import XdsClient.Ads.Tracking

/-! # Versions

A request tells the server which version the client has accepted for its type. The
client stores a version in one branch of `onDiscoveryResponse` only, the one for a
response without resources to a type without watches; the responses it accepts for a
watched type leave the stored version as it was. Every request carries the stored
version, so it carries the accepted one exactly where the two agree.
-/
namespace XdsClient.Ads
open Library Session

/-- A response is accepted if its type is watched or if it carries no resources. -/
def State.accepts (s : State) (message : DiscoveryResponse) : Bool :=
  !(s.api message.typeUrl).watches.isEmpty || message.resources.isEmpty

/-- The version of the last accepted response for the type; empty if there was none. -/
def acceptedVersion (typeUrl : String) : List Entry → String
  | [] => ""
  | e :: earlier =>
    match e.event with
    | .response message =>
      if message.typeUrl = typeUrl ∧ e.state.accepts message = true then message.versionInfo
      else acceptedVersion typeUrl earlier
    | _ => acceptedVersion typeUrl earlier

/-- A response whose version `onDiscoveryResponse` stores: without resources, for a type
with a state and without watches. -/
def State.stores (s : State) (message : DiscoveryResponse) : Bool :=
  s.known message.typeUrl && (s.api message.typeUrl).watches.isEmpty && message.resources.isEmpty

/-- The version of the last response for the type that the client stored; empty if there
was none. -/
def storedVersion (typeUrl : String) : List Entry → String
  | [] => ""
  | e :: earlier =>
    match e.event with
    | .response message =>
      if message.typeUrl = typeUrl ∧ e.state.stores message = true then message.versionInfo
      else storedVersion typeUrl earlier
    | _ => storedVersion typeUrl earlier

/-- If the entry is an accepted response for the type, its version is stored, or it is the
one accepted before. -/
def versionKept (typeUrl : String) (e : Entry) (earlier : List Entry) : Bool :=
  match e.event with
  | .response message =>
    message.typeUrl != typeUrl || !e.state.accepts message || e.state.stores message ||
      message.versionInfo == acceptedVersion typeUrl earlier
  | _ => true

theorem ingest_version (s : Session) (message : DiscoveryResponse) (typeUrl : String) :
    ((s.ingest message).api typeUrl).request.versionInfo =
      if message.typeUrl = typeUrl ∧ s.stores message = true then message.versionInfo
      else (s.api typeUrl).request.versionInfo := by
  rw [ingest_api]
  by_cases ht : message.typeUrl = typeUrl
  · subst ht
    cases hk : s.known message.typeUrl <;> cases hw : (s.api message.typeUrl).watches.isEmpty <;>
      cases hr : message.resources.isEmpty <;> simp [State.stores, ApiState.ingest, hk, hw, hr]
  · rw [if_neg (fun h => ht h.1), if_neg (fun h => ht h.1)]

theorem version_tracks : Tracks DiscoveryRequest.versionInfo storedVersion where
  initial := fun _ => rfl
  neutral := by
    rintro t event state earlier ⟨hresponse, _⟩
    cases event with
    | response message => exact absurd rfl (hresponse message)
    | _ => rfl
  prepared := fun _ _ => rfl
  errorDetail := fun _ => rfl
  addressed := fun _ _ => rfl
  response := by
    intro s message t earlier h
    rw [ingest_version, h]
    rfl
  opened := fun _ _ _ _ h => h

theorem State.accepts_of_stores {s : State} {message : DiscoveryResponse}
    (h : s.stores message = true) : s.accepts message = true := by
  unfold State.stores at h
  rw [State.accepts, (Bool.and_eq_true_iff.mp h).2, Bool.or_true]

/-- No version is missed where each accepted one is stored or was accepted before. -/
theorem storedVersion_of_kept (typeUrl : String) (history : List Entry)
    (h : Always (fun e earlier => versionKept typeUrl e earlier = true) history) :
    storedVersion typeUrl history = acceptedVersion typeUrl history := by
  induction history with
  | nil => rfl
  | cons e earlier ih =>
    obtain ⟨event, state⟩ := e
    have hearlier := ih h.2
    cases event with
    | response message =>
      have hkept := h.1
      by_cases hmine : message.typeUrl = typeUrl ∧ state.accepts message = true
      · rcases (by simpa [versionKept, hmine] using hkept : state.stores message = true ∨
          message.versionInfo = acceptedVersion typeUrl earlier) with hstores | hrepeats
        · simp [storedVersion, acceptedVersion, hmine, hstores]
        · simp [storedVersion, acceptedVersion, hmine, hrepeats, hearlier]
      · have hnot : ¬ (message.typeUrl = typeUrl ∧ state.stores message = true) :=
          fun hstored => hmine ⟨hstored.1, State.accepts_of_stores hstored.2⟩
        simp only [storedVersion, acceptedVersion, if_neg hmine, if_neg hnot]
        exact hearlier
    | _ => exact hearlier

/-- In every run, all requests carry the accepted version of their type if and only if the
version last stored is the one last accepted whenever a request is written. Every single
request carries it if each accepted response of its type before was stored or repeated the
version accepted so far. -/
theorem run_version_accepted_iff (channel : Bool) (calls : List Op) (s : Session)
    (hrun : Run channel calls s) :
    ((∀ later earlier typeUrl request state,
        s.history = later ++ ⟨.write typeUrl request, state⟩ :: earlier →
          request.versionInfo = acceptedVersion typeUrl earlier) ↔
      ∀ later earlier typeUrl request state,
        s.history = later ++ ⟨.write typeUrl request, state⟩ :: earlier →
          storedVersion typeUrl earlier = acceptedVersion typeUrl earlier) ∧
    ∀ later earlier typeUrl request state,
      s.history = later ++ ⟨.write typeUrl request, state⟩ :: earlier →
        Always (fun e before => versionKept typeUrl e before = true) earlier →
          request.versionInfo = acceptedVersion typeUrl earlier := by
  have hstored := @Tracks.written _ _ version_tracks channel calls s hrun
  refine ⟨⟨fun h later earlier t r state hwrite => ?_, fun h later earlier t r state hwrite => ?_⟩,
    fun later earlier t r state hwrite hkept => ?_⟩
  · rw [← hstored hwrite]
    exact h later earlier t r state hwrite
  · rw [hstored hwrite]
    exact h later earlier t r state hwrite
  · rw [hstored hwrite]
    exact storedVersion_of_kept t earlier hkept

/-- The server removes what nobody watches; the next request acknowledges the version. -/
theorem run_version_accepted_iff_unwatched :
    ∃ s later earlier request state,
      Run true [.onStreamEstablished (some [{ clusterPush with resources := [] }])] s ∧
      s.history = later ++ ⟨.write clusterTypeUrl request, state⟩ :: earlier ∧
      request.versionInfo = "1" ∧ acceptedVersion clusterTypeUrl earlier = "1" := by
  have hwrote : wrote (fun t r earlier => t == clusterTypeUrl && r.versionInfo == "1" &&
        decide (Always (fun e before => versionKept clusterTypeUrl e before = true) earlier))
      (performAll (construct true)
        [.onStreamEstablished (some [{ clusterPush with resources := [] }])]).history = true := by
    decide
  rcases exists_split_of_wrote _ _ hwrote with ⟨later, t, r, state, earlier, hsplit, htest⟩
  rcases (by simpa using htest : (t = clusterTypeUrl ∧ r.versionInfo = "1") ∧
      Always (fun e before => versionKept clusterTypeUrl e before = true) earlier) with
    ⟨⟨rfl, hversion⟩, hkept⟩
  have hrun := performAll_run true [.onStreamEstablished (some [{ clusterPush with resources := [] }])]
  have haccepted := (run_version_accepted_iff true _ _ hrun).2 later earlier clusterTypeUrl r state
    hsplit hkept
  exact ⟨_, later, earlier, r, state, hrun, hsplit, hversion, haccepted ▸ hversion⟩

/-- The answer to the first response for a watched type still carries no version. -/
theorem version_lags_behind_watched_response :
    ∃ s later earlier request state,
      Run true [.addWatch clusterTypeUrl ∅, .onStreamEstablished (some [clusterPush])] s ∧
      s.history = later ++ ⟨.write clusterTypeUrl request, state⟩ :: earlier ∧
      request.versionInfo ≠ acceptedVersion clusterTypeUrl earlier := by
  have hwrote : wrote (fun t r earlier => t == clusterTypeUrl &&
      r.versionInfo != acceptedVersion clusterTypeUrl earlier) (performAll (construct true)
        [.addWatch clusterTypeUrl ∅, .onStreamEstablished (some [clusterPush])]).history = true := by
    decide
  rcases exists_split_of_wrote _ _ hwrote with ⟨later, t, r, state, earlier, hsplit, htest⟩
  rcases (by simpa using htest : t = clusterTypeUrl ∧
    r.versionInfo ≠ acceptedVersion clusterTypeUrl earlier) with ⟨rfl, hlags⟩
  exact ⟨_, later, earlier, r, state, performAll_run true _, hsplit, hlags⟩

end XdsClient.Ads
