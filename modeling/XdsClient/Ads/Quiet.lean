import XdsClient.Ads.Perform

/-! # The client between two calls

`Quiet` collects what holds whenever no call is in progress. Every call keeps it,
so every call of every run returns, and a run is the fold of `perform`.
-/
namespace XdsClient.Ads
open Library

namespace Session

structure Quiet (s : Session) : Prop where
  calm : s.Calm
  queue : s.queue = []
  allocated : s.stream.isSome = true → s.requestQueue = some []
  ended : Ended s.toState
  begun : s.stream.isSome = true → Begun s.toState
  first : s.subscriptions.head? = some clusterTypeUrl
  known : ∀ t ∈ s.subscriptions, t = clusterTypeUrl ∨ s.known t = true
  owned : ∀ watch w, s.watchers watch = some w → s.known w.typeUrl = true

theorem construct_quiet (channel : Bool) : Quiet (construct channel) where
  calm := fun t => ⟨rfl, rfl⟩
  queue := rfl
  allocated := by simp [construct]
  ended := Or.inr (Or.inl rfl)
  begun := by simp [construct]
  first := rfl
  known := by simp [construct]
  owned := by simp [construct]

namespace Quiet
variable {s : Session} (hs : Quiet s)
include hs

theorem request (typeUrl : String) : Quiet (s.request typeUrl) := by
  cases hstream : s.stream with
  | none =>
    have hsame : s.request typeUrl = s := by simp [Session.request, hstream]
    rw [hsame]
    exact hs
  | some responses =>
    have hsome : s.stream.isSome = true := by simp [hstream]
    have hempty := hs.allocated hsome
    have hsubs := request_subscriptions s typeUrl hs.calm (hs.begun hsome)
    have halloc : (s.request typeUrl).requestQueue.isSome = true :=
      requestQueue_stable.request_of_alloc s typeUrl (by simp [hempty]) (by simp [hempty])
    have hqueue := request_queue s typeUrl hsome
    constructor
    · exact request_calm s typeUrl hs.calm
    · exact hqueue
    · intro _
      rcases Option.isSome_iff_exists.mp halloc with ⟨q, hq⟩
      rw [State.queue, hq] at hqueue
      rw [hq]
      exact congrArg some hqueue
    · cases hdown : s.shutdown with
      | true => exact Or.inl (by simpa using hdown)
      | false => exact Or.inr (Or.inr (request_stream s typeUrl hsome hempty hdown))
    · exact fun _ => request_begun s typeUrl hsome hempty
    · rw [hsubs]
      exact hs.first
    · intro t ht
      rw [hsubs] at ht
      exact (hs.known t ht).imp_right (request_known s typeUrl t)
    · intro watch w hw
      rw [request_watchers] at hw
      exact request_known s typeUrl _ (hs.owned watch w hw)

theorem foldl_request (l : List String) : Quiet (l.foldl Session.request s) := by
  induction l generalizing s with
  | nil => exact hs
  | cons t l ih => exact ih (hs.request t)

/-- A run of requests on a live stream: what every request keeps and the one for `t` brings
about holds at the end, if `t` is among them or it held before. -/
theorem foldl_request_reaches {P : Session → Prop} {t : String} (l : List String)
    (hkeep : ∀ s u, Quiet s → s.stream.isSome = true → s.shutdown = false → P s → P (s.request u))
    (hself : ∀ s, Quiet s → s.stream.isSome = true → s.shutdown = false → P (s.request t))
    (hstream : s.stream.isSome = true) (hdown : s.shutdown = false) (h : t ∈ l ∨ P s) :
    P (l.foldl Session.request s) := by
  induction l generalizing s with
  | nil => simpa using h
  | cons u l ih =>
    have hnext : (s.request u).stream.isSome = true := by
      rw [request_stream s u hstream (hs.allocated hstream) hdown]
      rfl
    apply ih (hs.request u) hnext (by simpa using hdown)
    rcases h with h | h
    · rcases List.mem_cons.mp h with rfl | h
      · exact Or.inr (hself s hs hstream hdown)
      · exact Or.inl h
    · exact Or.inr (hkeep s u hs hstream hdown h)

theorem foldl_request_subscriptions (l : List String) (hbegun : Begun s.toState) :
    (l.foldl Session.request s).subscriptions = s.subscriptions := by
  induction l generalizing s with
  | nil => rfl
  | cons u l ih =>
    rw [List.foldl_cons, ih (hs.request u) (hbegun.request u),
      request_subscriptions s u hs.calm hbegun]

theorem modifyApi (typeUrl : String) (f : ApiState → ApiState)
    (hf : ∀ api, (f api).pauses = api.pauses ∧ (f api).mustSendNode = api.mustSendNode) :
    Quiet (s.modifyApi typeUrl f) := by
  constructor
  · exact modifyApi_calm s typeUrl f hf hs.calm
  · exact hs.queue
  · exact hs.allocated
  · exact hs.ended
  · exact hs.begun
  · exact hs.first
  · intro t ht
    exact (hs.known t ht).imp_right (modifyApi_known s typeUrl f)
  · exact fun watch w hw => modifyApi_known s typeUrl f (hs.owned watch w hw)

theorem log (event : Event) : Quiet (s.log event) :=
  ⟨hs.calm, hs.queue, hs.allocated, hs.ended, hs.begun, hs.first, hs.known, hs.owned⟩

theorem updateResources (watch : ℕ) (w : Watcher) (resources : OrderedSet String) :
    Quiet (s.updateResources watch w resources) := by
  have h := (hs.log (.register watch)).modifyApi w.typeUrl
    (fun api => { api with watches := ⟨s.nextNode, watch⟩ :: api.watches }) (fun _ => ⟨rfl, rfl⟩)
  refine ⟨h.calm, h.queue, h.allocated, h.ended, h.begun, h.first, h.known, fun other v hv => ?_⟩
  rw [updateResources_watchers] at hv
  by_cases ho : other = watch
  · subst ho
    rw [Function.update_self, Option.some.injEq] at hv
    subst hv
    simp [updateResources_known]
  · rw [Function.update_of_ne ho] at hv
    exact h.owned other v hv

theorem eraseWatch (watch : ℕ) (w : Watcher) : Quiet (s.eraseWatch watch w) :=
  (hs.log (.erase watch)).modifyApi w.typeUrl
    (fun api => { api with watches := api.watches.filter fun n => n.node ≠ w.iter })
    (fun _ => ⟨rfl, rfl⟩)

theorem dropWatch (watch : ℕ) (w : Watcher) : Quiet (s.dropWatch watch w) := by
  have h := hs.eraseWatch watch w
  refine ⟨h.calm, h.queue, h.allocated, h.ended, h.begun, h.first, h.known, fun other v hv => ?_⟩
  rw [dropWatch_watchers] at hv
  by_cases ho : other = watch
  · simp [ho] at hv
  · rw [Function.update_of_ne ho] at hv
    exact h.owned other v hv

theorem newWatcher (typeUrl : String) (resources : OrderedSet String) :
    Quiet (s.newWatcher typeUrl resources) := by
  have h := hs.modifyApi typeUrl id (fun _ => ⟨rfl, rfl⟩)
  rw [← apiStateFor_eq_modifyApi] at h
  have h' : Quiet { s.apiStateFor typeUrl with nextWatcher := s.nextWatcher + 1 } :=
    ⟨h.calm, h.queue, h.allocated, h.ended, h.begun, h.first, h.known, h.owned⟩
  exact h'.updateResources s.nextWatcher _ resources

theorem subscribe (typeUrl : String) : Quiet (s.subscribe typeUrl) := by
  unfold Session.subscribe
  split_ifs
  · exact hs
  · have h := hs.modifyApi typeUrl
      (fun api => { api with
        request := { api.request with typeUrl := typeUrl }, subscribed := true })
      (fun _ => ⟨rfl, rfl⟩)
    refine ⟨h.calm, h.queue, h.allocated, h.ended, h.begun, ?_, ?_, h.owned⟩
    · show (s.subscriptions ++ [typeUrl]).head? = some clusterTypeUrl
      rw [List.head?_append, hs.first]
      rfl
    · intro t ht
      rcases List.mem_append.mp ht with ht | ht
      · exact h.known t ht
      · rw [List.mem_singleton] at ht
        subst ht
        exact Or.inr (by simp [State.known])

end Quiet

theorem foldl_request_shutdown (l : List String) (s : Session) :
    (l.foldl Session.request s).shutdown = s.shutdown := by
  induction l generalizing s with
  | nil => rfl
  | cons u l ih => rw [List.foldl_cons, ih, request_shutdown]

/-! ## A new stream -/

/-- The list keeps its head, and a type is added to it only when it has a state. -/
theorem listed_stable : Stable fun s => s.subscriptions.head? = some clusterTypeUrl ∧
    ∀ t ∈ s.subscriptions, t = clusterTypeUrl ∨ s.known t = true := by
  apply Stable.of_state (P := fun s => s.subscriptions.head? = some clusterTypeUrl ∧
    ∀ t ∈ s.subscriptions, t = clusterTypeUrl ∨ s.known t = true)
  · exact fun s q h => h
  · intro s m rest _ _ h
    refine ⟨h.1, fun t ht => ?_⟩
    rw [receive_known]
    exact h.2 t ht
  · intro s u rest hs hd hq h
    have hself : (s.beginSend u).known u = true := by
      simp [beginSend, writeRequest_toState, State.known]
    rw [beginSend_subscriptions]
    refine ⟨by rw [List.head?_append, h.1]; rfl, fun t ht => ?_⟩
    rcases List.mem_append.mp ht with ht | ht
    · exact (h.2 t ht).imp_right fun hk => (known_stable t).beginSend s u rest hs hd hq hk
    · split_ifs at ht
      · rw [List.mem_singleton.mp ht]
        exact Or.inr hself
      · simp at ht

section Establish
variable {s : Session} (hs : Quiet s) (responses : List DiscoveryResponse)
include hs

/-- The first request on a stream is for the type the constructor listed. -/
theorem establish_eq :
    s.establish responses =
      (((s.openStream responses).request clusterTypeUrl).subscriptions.tail).foldl request
        ((s.openStream responses).request clusterTypeUrl) := by
  have hfirst := hs.first
  unfold establish
  rw [openStream_subscriptions]
  cases hsubs : s.subscriptions with
  | nil => simp [hsubs] at hfirst
  | cons first rest =>
    rw [hsubs, List.head?_cons, Option.some.injEq] at hfirst
    rw [hfirst]

theorem openStream_request_quiet :
    Quiet ((s.openStream responses).request clusterTypeUrl) := by
  have hsome : (s.openStream responses).stream.isSome = true := rfl
  have hempty : (s.openStream responses).requestQueue = some [] := rfl
  have hqueue := request_queue (s.openStream responses) clusterTypeUrl hsome
  have halloc : ((s.openStream responses).request clusterTypeUrl).requestQueue.isSome = true :=
    requestQueue_stable.request_of_alloc _ _ (by simp [hempty]) (by simp [hempty])
  have hlisted := listed_stable.request_of_alloc (s.openStream responses) clusterTypeUrl
    ⟨hs.first, fun t ht => by rw [openStream_known]; exact hs.known t ht⟩
    ⟨by rw [apiStateFor_eq_modifyApi]; exact hs.first, fun t ht => by
      rw [apiStateFor_eq_modifyApi] at ht
      exact (hs.known t ht).imp_right fun hk =>
        apiStateFor_known _ _ _ (by rw [openStream_known]; exact hk)⟩
  constructor
  · exact request_calm _ _ (openStream_calm s responses hs.calm)
  · exact hqueue
  · intro _
    rcases Option.isSome_iff_exists.mp halloc with ⟨q, hq⟩
    rw [State.queue, hq] at hqueue
    rw [hq]
    exact congrArg some hqueue
  · cases hdown : s.shutdown with
    | true => exact Or.inl (by rw [request_shutdown]; exact hdown)
    | false => exact Or.inr (Or.inr (request_stream _ _ hsome hempty hdown))
  · exact fun _ => request_begun _ _ hsome hempty
  · exact hlisted.1
  · exact hlisted.2
  · intro watch w hw
    rw [request_watchers] at hw
    exact request_known _ _ _ (by rw [openStream_known]; exact hs.owned watch w hw)

theorem openStream_request_known :
    ∀ t ∈ ((s.openStream responses).request clusterTypeUrl).subscriptions,
      ((s.openStream responses).request clusterTypeUrl).known t = true := by
  intro t ht
  rcases (openStream_request_quiet hs responses).known t ht with rfl | hknown
  · exact request_known_self _ _ rfl
  · exact hknown

theorem establish_shutdown : (s.establish responses).shutdown = s.shutdown := by
  rw [establish_eq hs, foldl_request_shutdown, request_shutdown]
  rfl

theorem establish_quiet : Quiet (s.establish responses) := by
  rw [establish_eq hs]
  exact (openStream_request_quiet hs responses).foldl_request _

end Establish

theorem Quiet.openFailed {s : Session} (hs : Quiet s) : Quiet s.openFailed where
  calm := hs.calm
  queue := hs.queue
  allocated := by simp [Session.openFailed]
  ended := Or.inr (Or.inl rfl)
  begun := by simp [Session.openFailed]
  first := hs.first
  known := hs.known
  owned := hs.owned

theorem Quiet.ingest {s : Session} (hs : Quiet s) (message : DiscoveryResponse) :
    Quiet (s.ingest message) := by
  constructor
  · exact ingest_calm s message hs.calm
  · exact hs.queue
  · exact hs.allocated
  · exact hs.ended
  · exact hs.begun
  · exact hs.first
  · intro t ht
    rw [ingest_known]
    exact hs.known t ht
  · intro watch w hw
    rw [ingest_known]
    exact hs.owned watch w hw

theorem Quiet.shutdown {s : Session} (hs : Quiet s) : Quiet (Ads.shutdown s) := by
  have h : Quiet s.endStream := by
    unfold endStream
    split
    · exact hs.log _
    · exact (hs.log _).log _
  exact ⟨h.calm, h.queue, h.allocated, Or.inl rfl, fun _ => Or.inl rfl, h.first, h.known, h.owned⟩

end Session
open Session

theorem quiet_watchSteps : WatchSteps Quiet where
  eraseWatch := fun _ watch w hs => hs.eraseWatch watch w
  updateResources := fun _ watch w resources hs => hs.updateResources watch w resources
  dropWatch := fun _ watch w hs => hs.dropWatch watch w
  ingest := fun _ message hs => hs.ingest message
  request := fun _ typeUrl hs => hs.request typeUrl

theorem perform_quiet {s : Session} (hs : Quiet s) (op : Op) : Quiet (perform op s) := by
  cases op with
  | setChannel =>
    exact ⟨hs.calm, hs.queue, hs.allocated, hs.ended, hs.begun, hs.first, hs.known, hs.owned⟩
  | onStreamEstablished outcome =>
    simp only [perform]
    split_ifs
    · cases outcome with
      | some responses => exact establish_quiet hs responses
      | none => exact hs.openFailed
    · exact hs.log _
  | addWatch typeUrl resources => exact ((hs.newWatcher typeUrl resources).subscribe typeUrl).request _
  | shutdown => exact hs.shutdown
  | _ => exact quiet_watchSteps.perform hs rfl

end XdsClient.Ads
