import XdsClient.Ads.Invariants

/-! # Fields of the cached request that follow the responses

The nonce and the version of a type live in its cached request. Both are kept by the
same argument: a function of the history says what the field should be, the
assignments of `onDiscoveryResponse` and of a new stream follow that function, and
nothing else assigns the field. Every request written then carries the right value.
-/
namespace XdsClient.Ads
open Library Session

def Event.Neutral (event : Event) : Prop :=
  (∀ message, event ≠ .response message) ∧ event ≠ .opened true

def Carries (field : DiscoveryRequest → String) (spec : String → List Entry → String)
    (e : Entry) (earlier : List Entry) : Prop :=
  ∀ typeUrl request, e.event = .write typeUrl request → field request = spec typeUrl earlier

/-- The field follows the specification through responses and new streams. -/
structure Tracks (field : DiscoveryRequest → String) (spec : String → List Entry → String) :
    Prop where
  initial : ∀ typeUrl, spec typeUrl [] = field {}
  neutral : ∀ typeUrl event state earlier, event.Neutral →
    spec typeUrl (⟨event, state⟩ :: earlier) = spec typeUrl earlier
  prepared : ∀ (s : State) typeUrl, field (s.prepared typeUrl).request = field (s.api typeUrl).request
  errorDetail : ∀ request, field { request with errorDetail := none } = field request
  addressed : ∀ request typeUrl, field { request with typeUrl := typeUrl } = field request
  response : ∀ (s : Session) message typeUrl earlier,
    field (s.api typeUrl).request = spec typeUrl earlier →
    field ((s.ingest message).api typeUrl).request =
      spec typeUrl (⟨.response message, s.toState⟩ :: earlier)
  opened : ∀ request typeUrl state earlier, field request = spec typeUrl earlier →
    field { request with responseNonce := "" } =
      spec typeUrl (⟨.opened true, state⟩ :: earlier)

section Rule
variable {field : DiscoveryRequest → String} {spec : String → List Entry → String}

def Followed (field : DiscoveryRequest → String) (spec : String → List Entry → String)
    (s : Session) : Prop :=
  Always (Carries field spec) s.history ∧
    ∀ typeUrl, field (s.api typeUrl).request = spec typeUrl s.history

theorem Followed.step (ht : Tracks field spec) {s s' : Session} {event : Event}
    {state : State} (h : Followed field spec s)
    (hhistory : s'.history = ⟨event, state⟩ :: s.history) (hneutral : event.Neutral)
    (hwrite : ∀ t r, event ≠ .write t r)
    (hfield : ∀ t, field (s'.api t).request = field (s.api t).request) :
    Followed field spec s' := by
  rcases h with ⟨halways, hcached⟩
  unfold Followed
  rw [hhistory]
  refine ⟨⟨fun t r hw => absurd hw (hwrite t r), halways⟩, fun t => ?_⟩
  rw [ht.neutral t event state s.history hneutral, hfield]
  exact hcached t

theorem Followed.assign {s s' : Session} (h : Followed field spec s)
    (hhistory : s'.history = s.history)
    (hfield : ∀ t, field (s'.api t).request = field (s.api t).request) :
    Followed field spec s' := by
  rcases h with ⟨halways, hcached⟩
  unfold Followed
  rw [hhistory]
  exact ⟨halways, fun t => (hfield t).trans (hcached t)⟩

theorem Followed.modifyApi {s : Session} (h : Followed field spec s) (typeUrl : String)
    (f : ApiState → ApiState) (hf : ∀ api, field (f api).request = field api.request) :
    Followed field spec (s.modifyApi typeUrl f) := by
  refine h.assign rfl (fun t => ?_)
  by_cases htt : t = typeUrl
  · subst htt
    rw [modifyApi_api_self, hf]
  · rw [modifyApi_api_of_ne s typeUrl f htt]

theorem Followed.ingest (ht : Tracks field spec) {s : Session}
    (h : Followed field spec s) (message : DiscoveryResponse) :
    Followed field spec (s.ingest message) := by
  rcases h with ⟨halways, hcached⟩
  exact ⟨⟨by simp [Carries], halways⟩, fun t => ht.response s message t _ (hcached t)⟩

/-- The write carries the cached field, and leaves it in the cache. -/
theorem Followed.beginSend (ht : Tracks field spec) {s : Session}
    (h : Followed field spec s) (typeUrl : String) (hs : s.stream.isSome = true) :
    Followed field spec (s.beginSend typeUrl) := by
  rcases h with ⟨halways, hcached⟩
  unfold Followed
  rw [beginSend_history s typeUrl hs]
  have hsend (t : String) := ht.neutral t (.send typeUrl) s.toState s.history ⟨by simp, by simp⟩
  refine ⟨⟨?_, by simp [Carries], halways⟩, fun t => ?_⟩
  · intro t r hw
    obtain ⟨rfl, rfl⟩ := Event.write.inj hw
    rw [ht.prepared, hsend]
    exact hcached typeUrl
  · rw [ht.neutral t _ _ _ ⟨by simp, by simp⟩, hsend]
    by_cases htt : t = typeUrl
    · subst htt
      rw [beginSend_api_self, ApiState.afterWrite, ht.errorDetail, ht.prepared]
      exact hcached t
    · rw [beginSend_api_of_ne s typeUrl htt]
      exact hcached t

theorem followed_stable (ht : Tracks field spec) : Stable (Followed field spec) := by
  constructor
  · exact fun s h => h.step ht rfl ⟨by simp, by simp⟩ (by simp) (fun _ => rfl)
  · intro s message rest _ _ h
    have hread : Followed field spec
        { s.log (.read (some message)) with stream := some rest } :=
      h.step ht rfl ⟨by simp, by simp⟩ (by simp) (fun _ => rfl)
    exact hread.ingest ht message
  · exact fun s t _ _ h => h.step ht rfl ⟨by simp, by simp⟩ (by simp) (fun _ => rfl)
  · exact fun s t rest hs _ _ h => h.beginSend ht t hs
  · exact fun s t _ h => h.step ht rfl ⟨by simp, by simp⟩ (by simp) (fun _ => rfl)
  · exact fun s t h => h.step ht rfl ⟨by simp, by simp⟩ (by simp) (fun _ => rfl)
  · exact fun s h => h.step ht rfl ⟨by simp, by simp⟩ (by simp) (fun _ => rfl)

theorem Followed.openStream (ht : Tracks field spec) {s : Session}
    (h : Followed field spec s) (responses : List DiscoveryResponse) :
    Followed field spec (s.openStream responses) := by
  rcases h with ⟨halways, hcached⟩
  refine ⟨⟨by simp [Carries], halways⟩, fun t => ?_⟩
  rw [openStream_api]
  exact ht.opened _ t s.toState s.history (hcached t)

theorem Followed.updateResources (ht : Tracks field spec) {s : Session}
    (h : Followed field spec s) (watch : ℕ) (w : Watcher) (resources : OrderedSet String) :
    Followed field spec (s.updateResources watch w resources) := by
  have hlog : Followed field spec (s.log (.register watch)) :=
    h.step ht rfl ⟨by simp, by simp⟩ (by simp) (fun _ => rfl)
  exact (hlog.modifyApi w.typeUrl
    (fun api => { api with watches := ⟨s.nextNode, watch⟩ :: api.watches })
    (fun _ => rfl)).assign rfl (fun _ => rfl)

theorem Followed.subscribe (ht : Tracks field spec) {s : Session}
    (h : Followed field spec s) (typeUrl : String) :
    Followed field spec (s.subscribe typeUrl) := by
  unfold Session.subscribe
  split_ifs
  · exact h
  · exact (h.modifyApi typeUrl
      (fun api => { api with
        request := { api.request with typeUrl := typeUrl }, subscribed := true })
      (fun api => ht.addressed api.request typeUrl)).assign rfl (fun _ => rfl)

theorem Followed.eraseWatch (ht : Tracks field spec) {s : Session}
    (h : Followed field spec s) (watch : ℕ) (w : Watcher) :
    Followed field spec (s.eraseWatch watch w) := by
  have hlog : Followed field spec (s.log (.erase watch)) :=
    h.step ht rfl ⟨by simp, by simp⟩ (by simp) (fun _ => rfl)
  exact hlog.modifyApi w.typeUrl
    (fun api => { api with watches := api.watches.filter fun n => n.node ≠ w.iter }) (fun _ => rfl)

theorem Followed.apiStateFor {s : Session} (h : Followed field spec s) (typeUrl : String) :
    Followed field spec (s.apiStateFor typeUrl) := by
  rw [apiStateFor_eq_modifyApi]
  exact h.modifyApi typeUrl id (fun _ => rfl)

theorem followed_kept (ht : Tracks field spec) : Kept (Followed field spec) where
  toStable := followed_stable ht
  stub := fun s h => h
  nullCall := fun s h => h.step ht rfl ⟨by simp, by simp⟩ (by simp) (fun _ => rfl)
  openFailed := fun s h => h.step ht rfl ⟨by simp, by simp⟩ (by simp) (fun _ => rfl)
  openStream := fun s responses _ hdown h => by
    have hopen := (h.openStream ht responses).apiStateFor clusterTypeUrl
    have hpush : Followed field spec
        (((s.openStream responses).apiStateFor clusterTypeUrl).emplace clusterTypeUrl) :=
      hopen.step ht rfl ⟨by simp, by simp⟩ (by simp) (fun _ => rfl)
    apply (followed_stable ht).openStream_request s responses hdown
    exact hpush.beginSend ht clusterTypeUrl (by simp [Session.openStream])
  openStreamDown := fun s responses _ _ h => (h.openStream ht responses).apiStateFor clusterTypeUrl
  addWatch := fun s typeUrl resources _ h => by
    have halloc : Followed field spec
        { s.apiStateFor typeUrl with nextWatcher := s.nextWatcher + 1 } := h.apiStateFor typeUrl
    exact (halloc.updateResources ht _ _ resources).subscribe ht typeUrl
  eraseWatch := fun s watch w _ _ h => h.eraseWatch ht watch w
  updateResources := fun s watch w resources _ _ _ h => h.updateResources ht watch w resources
  dropWatch := fun s watch w _ _ h => h.eraseWatch ht watch w
  ingest := fun s message h => h.ingest ht message
  shutdown := fun s h => by
    unfold Ads.shutdown Session.endStream
    split
    · exact h.step ht rfl ⟨by simp, by simp⟩ (by simp) (fun _ => rfl)
    · have hdone : Followed field spec (s.log .writesDone) :=
        h.step ht rfl ⟨by simp, by simp⟩ (by simp) (fun _ => rfl)
      exact hdone.step ht rfl ⟨by simp, by simp⟩ (by simp) (fun _ => rfl)

theorem followed_construct (ht : Tracks field spec) (channel : Bool) :
    Followed field spec (construct channel) :=
  ⟨trivial, fun t => (ht.initial t).symm⟩

theorem Tracks.run (ht : Tracks field spec) {channel : Bool} {calls : List Op} {s : Session}
    (hrun : Run channel calls s) : Followed field spec s :=
  (followed_kept ht).run hrun (followed_construct ht channel)

/-- Every request written in a run carries the field as its past specifies. -/
theorem Tracks.written (ht : Tracks field spec) {channel : Bool} {calls : List Op} {s : Session}
    (hrun : Run channel calls s) {later earlier : List Entry} {typeUrl : String}
    {request : DiscoveryRequest} {state : State}
    (hwrite : s.history = later ++ ⟨.write typeUrl request, state⟩ :: earlier) :
    field request = spec typeUrl earlier :=
  (always_iff_forall_split _ _).mp (ht.run hrun).1 later _ earlier hwrite typeUrl request rfl

end Rule
end XdsClient.Ads
