import XdsClient.Ads.Invariants

/-! # Requests are addressed to the type they were queued for

The type URL of a request is stored when its type is subscribed, either by `addWatch`
or by the first request of a stream. Until it is shut down, a client has subscribed
every type it knows, and it queues requests for known types only; the type that the
constructor lists without subscribing it is the first one sent on every stream.
-/
namespace XdsClient.Ads
open Library

/-- The cached request of a subscribed type holds its type URL. -/
def State.Addressed (s : State) : Prop :=
  ∀ typeUrl, (s.api typeUrl).subscribed = true → (s.api typeUrl).request.typeUrl = typeUrl

/-- A request is addressed to the type at the front of the queue. -/
def Entry.Addressed (e : Entry) : Prop :=
  ∀ typeUrl request, e.event = .write typeUrl request →
    request.typeUrl = typeUrl ∧ e.state.queue.head? = some typeUrl

namespace Session

structure Addressing (s : Session) : Prop where
  written : ∀ e ∈ s.history, e.Addressed ∧ e.state.Addressed
  cached : s.toState.Addressed
  queued : ∀ typeUrl ∈ s.queue, s.known typeUrl = true

/-- Nothing is sent any more, or every known type is subscribed. -/
def Subscribed (s : State) : Prop :=
  s.shutdown = true ∨ ∀ typeUrl, s.known typeUrl = true → (s.api typeUrl).subscribed = true

namespace Addressing
variable {s : Session} (h : Addressing s)
include h

theorem log (event : Event) (hevent : ∀ t r, event ≠ .write t r) : Addressing (s.log event) where
  written := by
    intro e he
    rcases List.mem_cons.mp he with rfl | he
    · exact ⟨fun t r hw => absurd hw (hevent t r), h.cached⟩
    · exact h.written e he
  cached := h.cached
  queued := h.queued

/-- An assignment that leaves the queue alone, forgets no type and subscribes a type only
under its own URL. -/
theorem assign {s' : Session} (hhistory : s'.history = s.history)
    (hqueue : ∀ t ∈ s'.queue, t ∈ s.queue)
    (hknown : ∀ t, s.known t = true → s'.known t = true)
    (hcached : ∀ t, (s'.api t).subscribed = true →
      (s'.api t).request.typeUrl = t ∨
        ((s.api t).subscribed = true ∧ (s'.api t).request.typeUrl = (s.api t).request.typeUrl)) :
    Addressing s' where
  written := by
    rw [hhistory]
    exact h.written
  cached := by
    intro t ht
    rcases hcached t ht with heq | ⟨hsub, heq⟩
    · exact heq
    · rw [heq, h.cached t hsub]
  queued := fun t ht => hknown t (h.queued t (hqueue t ht))

theorem modifyApi (typeUrl : String) (f : ApiState → ApiState)
    (hf : ∀ api, (f api).subscribed = true → (f api).request.typeUrl = typeUrl ∨
      (api.subscribed = true ∧ (f api).request.typeUrl = api.request.typeUrl)) :
    Addressing (s.modifyApi typeUrl f) := by
  refine h.assign rfl (fun t ht => ht) (fun t ht => ?_) (fun t ht => ?_)
  · exact modifyApi_known s typeUrl f ht
  · by_cases htt : t = typeUrl
    · subst htt
      rw [modifyApi_api_self] at ht ⊢
      exact hf _ ht
    · rw [modifyApi_api_of_ne s typeUrl f htt] at ht ⊢
      exact Or.inr ⟨ht, rfl⟩

theorem apiStateFor (typeUrl : String) : Addressing (s.apiStateFor typeUrl) := by
  rw [apiStateFor_eq_modifyApi]
  exact h.modifyApi typeUrl id (fun api hsub => Or.inr ⟨hsub, rfl⟩)

theorem emplace (typeUrl : String) (hknown : s.known typeUrl = true) :
    Addressing (s.emplace typeUrl) := by
  have hlog := h.log (.push typeUrl) (by simp)
  refine ⟨hlog.written, hlog.cached, fun t ht => ?_⟩
  cases hq : s.requestQueue with
  | none => simp [State.queue, hq] at ht
  | some q =>
    have hmem : t ∈ q ∨ t = typeUrl := by simpa [State.queue, hq] using ht
    rcases hmem with hmem | rfl
    · exact h.queued t (by simpa [State.queue, hq] using hmem)
    · exact hknown

theorem ingest (message : DiscoveryResponse) : Addressing (s.ingest message) := by
  have hlog := h.log (.response message) (by simp)
  refine hlog.assign rfl (fun t ht => ht) (fun t ht => ?_) (fun t ht => ?_)
  · rw [ingest_known]
    exact ht
  · rw [ingest_api] at ht ⊢
    right
    split_ifs at ht ⊢
    · simpa using ht
    · exact ⟨ht, rfl⟩

/-- The request that is sent is addressed to its type if the type is subscribed, and also if
it is subscribed by being sent. -/
theorem prepared_typeUrl (typeUrl : String)
    (hsub : (s.api typeUrl).subscribed = true ∨ s.subscribes typeUrl = true) :
    (s.prepared typeUrl).request.typeUrl = typeUrl := by
  rcases hsub with hsub | hsub
  · simp [State.prepared, State.subscribes, hsub, h.cached typeUrl hsub]
  · simp [State.prepared, hsub]

theorem beginSend (typeUrl : String) (rest : List String) (hstream : s.stream.isSome = true)
    (hqueue : s.queue = typeUrl :: rest)
    (hsub : (s.api typeUrl).subscribed = true ∨ s.subscribes typeUrl = true) :
    Addressing (s.beginSend typeUrl) := by
  have hlog := h.log (.send typeUrl) (by simp)
  have hprepared := hlog.prepared_typeUrl typeUrl hsub
  have hknown (t : String) (ht : s.known t = true) : (s.beginSend typeUrl).known t = true := by
    by_cases htt : t = typeUrl
    · simp [Session.beginSend, writeRequest_toState, State.known, htt]
    · simpa [Session.beginSend, writeRequest_toState, State.known, htt] using ht
  constructor
  · rw [beginSend_history s typeUrl hstream]
    intro e he
    rcases List.mem_cons.mp he with rfl | he
    · refine ⟨fun t r hw => ?_, fun t ht => ?_⟩
      · rcases Event.write.inj hw with ⟨rfl, rfl⟩
        exact ⟨hprepared, by rw [prepareRequest_eq]; simp [State.queue] at hqueue ⊢; simp [hqueue]⟩
      · by_cases htt : t = typeUrl
        · subst htt
          rw [prepareRequest_api_self]
          exact hprepared
        · rw [prepareRequest_eq] at ht ⊢
          simp only [State.api, Function.update_of_ne htt] at ht ⊢
          exact h.cached t ht
    · exact hlog.written e he
  · intro t ht
    by_cases htt : t = typeUrl
    · subst htt
      rw [beginSend_api_self]
      exact hprepared
    · rw [beginSend_api_of_ne s typeUrl htt] at ht ⊢
      exact h.cached t ht
  · intro t ht
    rw [beginSend_queue] at ht
    exact hknown t (h.queued t ht)

theorem updateResources (watch : ℕ) (w : Watcher) (resources : OrderedSet String) :
    Addressing (s.updateResources watch w resources) := by
  have h' := (h.log (.register watch) (by simp)).modifyApi w.typeUrl
    (fun api => { api with watches := ⟨s.nextNode, watch⟩ :: api.watches })
    (fun api hsub => Or.inr ⟨hsub, rfl⟩)
  exact ⟨h'.written, h'.cached, h'.queued⟩

theorem eraseWatch (watch : ℕ) (w : Watcher) : Addressing (s.eraseWatch watch w) :=
  (h.log (.erase watch) (by simp)).modifyApi w.typeUrl
    (fun api => { api with watches := api.watches.filter fun n => n.node ≠ w.iter })
    (fun api hsub => Or.inr ⟨hsub, rfl⟩)

theorem subscribe (typeUrl : String) : Addressing (s.subscribe typeUrl) := by
  unfold Session.subscribe
  split_ifs
  · exact h
  · have h' := h.modifyApi typeUrl
      (fun api => { api with
        request := { api.request with typeUrl := typeUrl }, subscribed := true })
      (fun api _ => Or.inl rfl)
    exact ⟨h'.written, h'.cached, h'.queued⟩

theorem newWatcher (typeUrl : String) (resources : OrderedSet String) :
    Addressing (s.newWatcher typeUrl resources) := by
  have h' := h.apiStateFor typeUrl
  have halloc : Addressing { s.apiStateFor typeUrl with nextWatcher := s.nextWatcher + 1 } :=
    ⟨h'.written, h'.cached, h'.queued⟩
  exact halloc.updateResources s.nextWatcher _ resources

theorem openStream (responses : List DiscoveryResponse) : Addressing (s.openStream responses) where
  written := (h.log (.opened true) (by simp)).written
  cached := by
    intro t ht
    rw [openStream_api] at ht ⊢
    exact h.cached t ht
  queued := by simp [Session.openStream, State.queue]

end Addressing

/-! ## Every known type is subscribed -/

theorem subscribed_of_modifyApi {s : Session} (h : Subscribed s.toState) (typeUrl : String)
    (f : ApiState → ApiState) (hknown : s.known typeUrl = true)
    (hf : ∀ api, (f api).subscribed = api.subscribed) :
    Subscribed (s.modifyApi typeUrl f).toState := by
  rcases h with hdown | hsub
  · exact Or.inl hdown
  · right
    intro t ht
    by_cases htt : t = typeUrl
    · subst htt
      rw [modifyApi_api_self, hf]
      exact hsub t hknown
    · rw [modifyApi_api_of_ne s typeUrl f htt]
      exact hsub t (by simpa [State.known, htt] using ht)

theorem subscribed_of_ingest {s : Session} (h : Subscribed s.toState)
    (message : DiscoveryResponse) : Subscribed (s.ingest message).toState := by
  apply h.imp_right
  intro hsub t ht
  rw [ingest_known] at ht
  rw [ingest_api]
  split_ifs
  · simpa using hsub t ht
  · exact hsub t ht

theorem subscribed_of_beginSend {s : Session} (typeUrl : String)
    (hself : (s.api typeUrl).subscribed = true ∨ s.subscribes typeUrl = true)
    (hsub : ∀ t, t ≠ typeUrl → s.known t = true → (s.api t).subscribed = true) :
    Subscribed (s.beginSend typeUrl).toState := by
  right
  intro t ht
  by_cases htt : t = typeUrl
  · subst htt
    rw [beginSend_api_self]
    simpa [ApiState.afterWrite, State.prepared] using hself
  · rw [beginSend_api_of_ne s typeUrl htt]
    apply hsub t htt
    simpa [beginSend, writeRequest_toState, State.known, htt] using ht

theorem subscribed_of_addWatch {s : Session} (h : Subscribed s.toState) (typeUrl : String)
    (resources : OrderedSet String) :
    Subscribed ((s.newWatcher typeUrl resources).subscribe typeUrl).toState := by
  rcases h with hdown | hsub
  · left
    unfold subscribe
    split_ifs <;> exact (apiStateFor_shutdown s typeUrl).trans hdown
  · right
    intro t ht
    rw [subscribe_known _ _ _ (by simp [newWatcher_known]), newWatcher_known] at ht
    by_cases htt : t = typeUrl
    · rw [subscribe_api, if_pos htt]
    · rw [subscribe_api, if_neg htt, newWatcher_api, if_neg htt]
      exact hsub t (by simpa [htt] using ht)

theorem addressing_stable : Stable fun s => Addressing s ∧ Subscribed s.toState := by
  constructor
  · exact fun s h => ⟨h.1.log _ (by simp), h.2⟩
  · intro s message rest _ _ h
    have hread := h.1.log (.read (some message)) (by simp)
    have hrest : Addressing { s.log (.read (some message)) with stream := some rest } :=
      ⟨hread.written, hread.cached, hread.queued⟩
    have hsub : Subscribed { s.log (.read (some message)) with stream := some rest }.toState := h.2
    exact ⟨hrest.ingest message, subscribed_of_ingest hsub message⟩
  · exact fun s t _ hknown h => ⟨h.1.emplace t hknown, h.2⟩
  · intro s t rest hstream hdown hqueue h
    have hsub := h.2.resolve_left (by simp [hdown])
    have hself := hsub t (h.1.queued t (by simp [hqueue]))
    exact ⟨h.1.beginSend t rest hstream hqueue (Or.inl hself),
      subscribed_of_beginSend t (Or.inl hself) fun u _ => hsub u⟩
  · exact fun s t _ h => ⟨h.1.log _ (by simp), h.2⟩
  · exact fun s t h => ⟨h.1.log _ (by simp), h.2⟩
  · intro s h
    have hpop := h.1.log .pop (by simp)
    refine ⟨hpop.assign rfl (fun t ht => ?_) (fun t ht => ht) (fun t ht => Or.inr ⟨ht, rfl⟩), h.2⟩
    rw [pop_queue] at ht
    exact List.mem_of_mem_tail ht

/-- The type that the constructor listed is subscribed by the first request at the latest. -/
theorem addressing_of_firstRequest {s : Session} (h : Addressing s ∧ Subscribed s.toState)
    (hdown : s.shutdown = false) (responses : List DiscoveryResponse) :
    Addressing (s.firstRequest responses) ∧ Subscribed (s.firstRequest responses).toState := by
  have hopen := (h.1.openStream responses).apiStateFor clusterTypeUrl
  have hpush := hopen.emplace clusterTypeUrl
    (by simp [apiStateFor_eq_modifyApi, State.known])
  have hself : ((s.firstQueued responses).api clusterTypeUrl).subscribed = true ∨
      (s.firstQueued responses).subscribes clusterTypeUrl = true := by
    unfold State.subscribes
    rw [firstQueued_firstStreamRequest]
    cases ((s.firstQueued responses).api clusterTypeUrl).subscribed <;> simp
  refine ⟨hpush.beginSend clusterTypeUrl [] (by simp [Session.openStream])
    (by simp [Session.openStream, State.queue]) hself, subscribed_of_beginSend _ hself ?_⟩
  intro t ht hknown
  have hsub := h.2.resolve_left (by simp [hdown])
  have hs : s.known t = true := by
    rw [← openStream_known s responses t]
    simpa [firstQueued, apiStateFor_eq_modifyApi, State.known, ht] using hknown
  rw [firstQueued_api]
  exact hsub t hs

theorem addressing_kept : Kept fun s => Addressing s ∧ Subscribed s.toState where
  toStable := addressing_stable
  stub := fun s h => ⟨⟨h.1.written, h.1.cached, h.1.queued⟩, h.2⟩
  nullCall := fun s h => ⟨h.1.log _ (by simp), h.2⟩
  openFailed := fun s h => by
    have hlog := h.1.log (.opened false) (by simp)
    exact ⟨⟨hlog.written, hlog.cached, hlog.queued⟩, h.2⟩
  openStream := fun s responses _ hdown h =>
    addressing_stable.openStream_request s responses hdown
      (addressing_of_firstRequest h hdown responses)
  openStreamDown := fun s responses _ hdown h =>
    ⟨(h.1.openStream responses).apiStateFor clusterTypeUrl,
      Or.inl ((apiStateFor_shutdown _ _).trans hdown)⟩
  addWatch := fun s typeUrl resources _ h =>
    ⟨(h.1.newWatcher typeUrl resources).subscribe typeUrl,
      subscribed_of_addWatch h.2 typeUrl resources⟩
  eraseWatch := fun s watch w _ hknown h =>
    ⟨h.1.eraseWatch watch w, subscribed_of_modifyApi (s := s.log (.erase watch)) h.2 w.typeUrl
      (fun api => { api with watches := api.watches.filter fun n => n.node ≠ w.iter }) hknown
      (fun _ => rfl)⟩
  updateResources := fun s watch w resources _ hknown _ h =>
    ⟨h.1.updateResources watch w resources,
      subscribed_of_modifyApi (s := s.log (.register watch)) h.2 w.typeUrl
        (fun api => { api with watches := ⟨s.nextNode, watch⟩ :: api.watches }) hknown
        (fun _ => rfl)⟩
  dropWatch := fun s watch w _ hknown h => by
    have herase := h.1.eraseWatch watch w
    exact ⟨⟨herase.written, herase.cached, herase.queued⟩,
      subscribed_of_modifyApi (s := s.log (.erase watch)) h.2 w.typeUrl
        (fun api => { api with watches := api.watches.filter fun n => n.node ≠ w.iter }) hknown
        (fun _ => rfl)⟩
  ingest := fun s message h => ⟨h.1.ingest message, subscribed_of_ingest h.2 message⟩
  shutdown := fun s h => by
    have hend : Addressing s.endStream := by
      unfold endStream
      split
      · exact h.1.log _ (by simp)
      · exact (h.1.log _ (by simp)).log _ (by simp)
    exact ⟨⟨hend.written, hend.cached, hend.queued⟩, Or.inl rfl⟩

theorem addressing_construct (channel : Bool) :
    Addressing (construct channel) ∧ Subscribed (construct channel).toState := by
  refine ⟨⟨by simp [construct], ?_, by simp [construct, State.queue]⟩, Or.inr ?_⟩
  · intro t ht
    simp [construct, State.api] at ht
  · simp [construct, State.known]

end Session
open Session

/-- In every run, every request is addressed to the type it was queued for, and whenever a
type is subscribed its cached request holds its URL. -/
theorem run_requests_addressed (channel : Bool) (calls : List Op) (s : Session)
    (hrun : Run channel calls s) :
    (∀ typeUrl request state, ⟨.write typeUrl request, state⟩ ∈ s.history →
      request.typeUrl = typeUrl ∧ state.queue.head? = some typeUrl) ∧
    (∀ e ∈ s.history, e.state.Addressed) ∧ s.toState.Addressed := by
  have h := (addressing_kept.run hrun (addressing_construct channel)).1
  refine ⟨fun t r state he => ?_, fun e he => (h.written e he).2, h.cached⟩
  exact (h.written _ he).1 t r rfl

/-- A watch of another type on a client that has never had a stream, then a stream: its
request is written and addressed to its type. -/
theorem run_requests_addressed_late_watch :
    ∃ s request state,
      Run false [.addWatch "E" ∅, .setChannel, .onStreamEstablished (some [])] s ∧
      ⟨.write "E" request, state⟩ ∈ s.history ∧ request.typeUrl = "E" ∧
      state.queue.head? = some "E" ∧ (s.api "E").subscribed = true ∧
      (s.api "E").request.typeUrl = "E" := by
  have hwrote : wrote (fun t _ _ => t == "E") (performAll (construct false)
      [.addWatch "E" ∅, .setChannel, .onStreamEstablished (some [])]).history = true := by
    decide
  rcases exists_split_of_wrote _ _ hwrote with ⟨later, t, request, state, earlier, hsplit, htest⟩
  obtain rfl : t = "E" := by simpa using htest
  have hrun := performAll_run false [.addWatch "E" ∅, .setChannel, .onStreamEstablished (some [])]
  have hmem : ⟨.write "E" request, state⟩ ∈ (performAll (construct false)
      [.addWatch "E" ∅, .setChannel, .onStreamEstablished (some [])]).history := by
    simp [hsplit]
  rcases run_requests_addressed false _ _ hrun with ⟨hwritten, -, haddressed⟩
  rcases hwritten "E" request state hmem with ⟨htype, hhead⟩
  exact ⟨_, request, state, hrun, hmem, htype, hhead, by decide, haddressed "E" (by decide)⟩

end XdsClient.Ads
