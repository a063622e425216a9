import XdsClient.Ads.Fuel

/-! # Calls and runs as total functions

`perform` gives the result of every call a caller can make. A run of the client is
the fold of `perform` over the calls, and between two calls the client is quiet:
its queue is empty and, unless it was shut down, nothing is left to read.
-/
namespace XdsClient.Ads
open Library

namespace Session

def establish (s : Session) (responses : List DiscoveryResponse) : Session :=
  match (s.openStream responses).subscriptions with
  | [] => s.openStream responses
  | first :: _ =>
    let s := (s.openStream responses).request first
    s.subscriptions.tail.foldl request s

def updateWatch (s : Session) (watch : ℕ) (w : Watcher) (resources : OrderedSet String) : Session :=
  let s := s.eraseWatch watch w
  let s := if w.resources.isEmpty then s else s.request w.typeUrl
  (s.updateResources watch w resources).request w.typeUrl

/-- `~Watcher` before the request for the names that are left. -/
def dropWatch (s : Session) (watch : ℕ) (w : Watcher) : Session :=
  { s.eraseWatch watch w with watchers := Function.update s.watchers watch none }

theorem dropWatch_watchers (s : Session) (watch : ℕ) (w : Watcher) :
    (s.dropWatch watch w).watchers = Function.update s.watchers watch none := rfl

theorem dropWatch_known (s : Session) (watch : ℕ) (w : Watcher) (typeUrl : String) :
    (s.dropWatch watch w).known typeUrl = (s.known typeUrl || decide (typeUrl = w.typeUrl)) :=
  eraseWatch_known s typeUrl watch w

/-- `onDiscoveryResponse` called from outside a read loop. -/
def respond (s : Session) (message : DiscoveryResponse) : Session :=
  if s.callsForAnswer message then (s.ingest message).request message.typeUrl
  else s.ingest message

end Session
open Session

def perform : Op → Session → Session
  | .setChannel, s => { s with stub := true }
  | .onStreamEstablished outcome, s =>
    if s.stub then
      match outcome with
      | some responses => s.establish responses
      | none => s.openFailed
    else s.log .nullCall
  | .addWatch typeUrl resources, s =>
    ((s.newWatcher typeUrl resources).subscribe typeUrl).request typeUrl
  | .update watch resources, s =>
    match s.watchers watch with
    | some w => s.updateWatch watch w resources
    | none => s
  | .destroy watch, s =>
    match s.watchers watch with
    | some w => if w.resources.isEmpty then s.dropWatch watch w
      else (s.dropWatch watch w).request w.typeUrl
    | none => s
  | .onDiscoveryResponse message, s => s.respond message
  | .shutdown, s => shutdown s

def Op.ofWatch : Op → Bool
  | .update _ _ => true
  | .destroy _ => true
  | .onDiscoveryResponse _ => true
  | _ => false

structure WatchSteps (P : Session → Prop) : Prop where
  eraseWatch : ∀ s watch w, P s → P (s.eraseWatch watch w)
  updateResources : ∀ s watch w resources, P s → P (s.updateResources watch w resources)
  dropWatch : ∀ s watch w, P s → P (s.dropWatch watch w)
  ingest : ∀ s message, P s → P (s.ingest message)
  request : ∀ s typeUrl, P s → P (s.request typeUrl)

theorem WatchSteps.perform {P : Session → Prop} (hP : WatchSteps P) {s : Session} (h : P s)
    {op : Op} (hop : op.ofWatch = true) : P (Ads.perform op s) := by
  cases op with
  | update watch resources =>
    simp only [Ads.perform]
    cases s.watchers watch with
    | none => exact h
    | some w =>
      have herased := hP.eraseWatch s watch w h
      simp only [updateWatch]
      apply hP.request
      apply hP.updateResources
      split_ifs
      · exact herased
      · exact hP.request _ w.typeUrl herased
  | destroy watch =>
    simp only [Ads.perform]
    cases s.watchers watch with
    | none => exact h
    | some w =>
      have hdropped := hP.dropWatch s watch w h
      simp only
      split_ifs
      · exact hdropped
      · exact hP.request _ w.typeUrl hdropped
  | onDiscoveryResponse message =>
    have hingested := hP.ingest s message h
    simp only [Ads.perform, respond]
    split_ifs
    · exact hP.request _ message.typeUrl hingested
    · exact hingested
  | _ => cases hop

/-! ## What a request leaves alone -/

namespace Session

def fixed (s : State) : Bool × Bool × (ℕ → Option Watcher) × ℕ × ℕ :=
  (s.stub, s.shutdown, s.watchers, s.nextWatcher, s.nextNode)

theorem fixed_stable (b : Bool × Bool × (ℕ → Option Watcher) × ℕ × ℕ) :
    Stable fun s => fixed s.toState = b := by
  apply Stable.of_state (P := fun s => fixed s = b)
  · exact fun s q h => h
  · exact fun s m rest _ _ h => h
  · intro s t rest _ _ _ h
    simpa [fixed, beginSend, writeRequest_toState] using h

theorem request_fixed (s : Session) (typeUrl : String) :
    fixed (s.request typeUrl).toState = fixed s.toState :=
  (fixed_stable _).request_of_alloc s typeUrl rfl (by rw [apiStateFor_eq_modifyApi]; rfl)

@[simp] theorem request_shutdown (s : Session) (typeUrl : String) :
    (s.request typeUrl).shutdown = s.shutdown :=
  congrArg (fun b => b.2.1) (request_fixed s typeUrl)

@[simp] theorem request_watchers (s : Session) (typeUrl : String) :
    (s.request typeUrl).watchers = s.watchers :=
  congrArg (fun b => b.2.2.1) (request_fixed s typeUrl)

theorem request_calm (s : Session) (typeUrl : String) (h : s.Calm) : (s.request typeUrl).Calm :=
  calm_stable.request_of_alloc s typeUrl h (apiStateFor_calm s typeUrl h)

theorem modifyApi_calm (s : Session) (typeUrl : String) (f : ApiState → ApiState)
    (hf : ∀ api, (f api).pauses = api.pauses ∧ (f api).mustSendNode = api.mustSendNode)
    (h : s.Calm) : (s.modifyApi typeUrl f).Calm := by
  intro t
  rw [modifyApi_api]
  split_ifs
  · rw [(hf _).1, (hf _).2]
    exact h t
  · exact h t

theorem updateResources_calm (s : Session) (watch : ℕ) (w : Watcher) (resources : OrderedSet String)
    (h : s.Calm) : (s.updateResources watch w resources).Calm :=
  modifyApi_calm (s.log (.register watch)) w.typeUrl
    (fun api => { api with watches := ⟨s.nextNode, watch⟩ :: api.watches }) (fun _ => ⟨rfl, rfl⟩) h

theorem eraseWatch_calm (s : Session) (watch : ℕ) (w : Watcher) (h : s.Calm) :
    (s.eraseWatch watch w).Calm :=
  modifyApi_calm (s.log (.erase watch)) w.typeUrl
    (fun api => { api with watches := api.watches.filter fun n => n.node ≠ w.iter })
    (fun _ => ⟨rfl, rfl⟩) h

theorem newWatcher_calm (s : Session) (typeUrl : String) (resources : OrderedSet String)
    (h : s.Calm) : (s.newWatcher typeUrl resources).Calm :=
  updateResources_calm { s.apiStateFor typeUrl with nextWatcher := s.nextWatcher + 1 }
    s.nextWatcher _ resources (apiStateFor_calm s typeUrl h)

theorem subscribe_calm (s : Session) (typeUrl : String) (h : s.Calm) :
    (s.subscribe typeUrl).Calm := by
  intro t
  rw [subscribe_api]
  split_ifs <;> exact h t

theorem ingest_calm (s : Session) (message : DiscoveryResponse) (h : s.Calm) :
    (s.ingest message).Calm := by
  intro t
  rw [ingest_api]
  split_ifs
  · simpa using h t
  · exact h t

theorem openStream_subscriptions (s : Session) (responses : List DiscoveryResponse) :
    (s.openStream responses).subscriptions = s.subscriptions := rfl

theorem openStream_api (s : Session) (responses : List DiscoveryResponse) (t : String) :
    (s.openStream responses).api t =
      { s.api t with request := { (s.api t).request with responseNonce := "" } } := by
  cases h : s.apiState t with
  | none => simp [openStream, State.api, h]
  | some api => simp [openStream, State.api, h]

theorem openStream_known (s : Session) (responses : List DiscoveryResponse) (t : String) :
    (s.openStream responses).known t = s.known t := by
  simp [openStream, State.known]

theorem openStream_calm (s : Session) (responses : List DiscoveryResponse) (h : s.Calm) :
    (s.openStream responses).Calm := by
  intro t
  rw [openStream_api]
  exact h t

theorem known_stable (typeUrl : String) : Stable fun s => s.known typeUrl = true := by
  apply Stable.of_state (P := fun s => s.known typeUrl = true)
  · exact fun s q h => h
  · intro s m rest _ _ h
    rwa [receive_known]
  · intro s t rest _ _ _ h
    by_cases ht : typeUrl = t
    · simp [beginSend, writeRequest_toState, State.known, ht]
    · simpa [beginSend, writeRequest_toState, State.known, ht] using h

theorem apiStateFor_known (s : Session) (typeUrl other : String) (h : s.known other = true) :
    (s.apiStateFor typeUrl).known other = true := by
  by_cases ho : other = typeUrl
  · simp [apiStateFor_eq_modifyApi, State.known, ho]
  · simpa [apiStateFor_eq_modifyApi, State.known, ho] using h

theorem request_known (s : Session) (typeUrl other : String) (h : s.known other = true) :
    (s.request typeUrl).known other = true :=
  (known_stable other).request_of_alloc s typeUrl h (apiStateFor_known s typeUrl other h)

theorem request_known_self (s : Session) (typeUrl : String) (h : s.stream.isSome = true) :
    (s.request typeUrl).known typeUrl = true := by
  have halloc : (s.apiStateFor typeUrl).known typeUrl = true := by
    simp [apiStateFor_eq_modifyApi, State.known]
  rcases Option.isSome_iff_exists.mp h with ⟨responses, hstream⟩
  simp only [request, hstream]
  apply (known_stable typeUrl).drain
  · simpa using hstream
  · exact halloc

theorem requestQueue_stable : Stable fun s => s.requestQueue.isSome = true := by
  constructor
  · exact fun s h => h
  · exact fun s m rest _ _ h => h
  · intro s t _ _ h
    simpa using h
  · intro s t rest _ _ _ h
    simpa using h
  · exact fun s t _ h => h
  · exact fun s t h => h
  · intro s h
    simpa using h

theorem flush_queue (q : List String) (s : Session) (h : s.queue = q) : (flush q s).queue = [] := by
  induction q generalizing s with
  | nil => exact h
  | cons t q ih => exact ih _ (by rw [deliver_pop_queue, h, List.tail_cons])

theorem drain_queue (responses : List DiscoveryResponse) (s : Session) :
    (s.drain responses).queue = [] := by
  unfold drain
  split
  · assumption
  · split_ifs
    · exact flush_queue _ s (by assumption)
    · exact flush_queue _ _ rfl

/-- On a stream, every call of `queueDiscoveryRequest` leaves the queue empty. -/
theorem request_queue (s : Session) (typeUrl : String) (h : s.stream.isSome = true) :
    (s.request typeUrl).queue = [] := by
  rcases Option.isSome_iff_exists.mp h with ⟨responses, hstream⟩
  simp only [request, hstream]
  exact drain_queue _ _

/-- `queueDiscoveryRequest` on an empty queue: its own type is sent first. -/
theorem request_of_empty (s : Session) (typeUrl : String) (responses : List DiscoveryResponse)
    (hstream : s.stream = some responses) (hqueue : s.requestQueue = some []) :
    s.request typeUrl =
      if s.shutdown then flush [typeUrl] ((s.apiStateFor typeUrl).emplace typeUrl)
      else (serve typeUrl responses
        (((s.apiStateFor typeUrl).emplace typeUrl).beginSend typeUrl)).settle typeUrl := by
  simp [request, hstream, drain, State.queue, hqueue]

/-- On a live stream, a call of `queueDiscoveryRequest` reads until `Read` returns false. -/
theorem request_stream (s : Session) (typeUrl : String) (h : s.stream.isSome = true)
    (hqueue : s.requestQueue = some []) (hdown : s.shutdown = false) :
    (s.request typeUrl).stream = some [] := by
  rcases Option.isSome_iff_exists.mp h with ⟨responses, hstream⟩
  rw [request_of_empty s typeUrl responses hstream hqueue, if_neg (by simp [hdown]), settle_stream]
  exact serve_stream _ _ _ (by simpa using hstream)

/-- Nothing is left to read, or nothing is read any more. -/
def Ended (s : State) : Prop := s.shutdown = true ∨ s.stream = none ∨ s.stream = some []

theorem Ended.elim {s : State} (h : Ended s) {message : DiscoveryResponse}
    {rest : List DiscoveryResponse} (hstream : s.stream = some (message :: rest))
    (hdown : s.shutdown = false) : False := by
  rcases h with h | h | h <;> simp_all

/-- Nothing is sent any more, or the first request of the stream is out. -/
def Begun (s : State) : Prop := s.shutdown = true ∨ s.firstStreamRequest = false

theorem begun_stable : Stable fun s => Begun s.toState := by
  apply Stable.of_state
  · exact fun s q h => h
  · exact fun s m rest _ _ h => h
  · exact fun s t rest _ _ _ _ => Or.inr (beginSend_firstStreamRequest s t)

/-- The rule for a stream that has had its first request: nothing is due a node any more. -/
theorem Stable.of_begun {P : State → Prop} (hqueue : ∀ s q, P s → P { s with requestQueue := q })
    (receive : ∀ (s : Session) message rest, P s.toState → P (s.receive message rest).toState)
    (beginSend : ∀ (s : Session) typeUrl, s.Calm → s.firstStreamRequest = false → P s.toState →
      P (s.beginSend typeUrl).toState) :
    Stable fun s => P s.toState ∧ s.Calm ∧ Begun s.toState := by
  apply Stable.of_state (P := fun s => P s ∧ s.Calm ∧ Begun s)
  · exact fun s q h => ⟨hqueue s q h.1, h.2⟩
  · exact fun s m rest hs hd h => ⟨receive s m rest h.1,
      calm_stable.receive s m rest hs hd h.2.1, begun_stable.receive s m rest hs hd h.2.2⟩
  · intro s t rest hs hd hq h
    have hfirst : s.firstStreamRequest = false := h.2.2.resolve_left (by simp [hd])
    exact ⟨beginSend s t h.2.1 hfirst h.1, calm_stable.beginSend s t rest hs hd hq h.2.1,
      begun_stable.beginSend s t rest hs hd hq h.2.2⟩

theorem Begun.request {s : Session} (h : Begun s.toState) (typeUrl : String) :
    Begun (s.request typeUrl).toState :=
  begun_stable.request_of_alloc s typeUrl h (by rw [apiStateFor_eq_modifyApi]; exact h)

theorem request_begun (s : Session) (typeUrl : String) (h : s.stream.isSome = true)
    (hqueue : s.requestQueue = some []) : Begun (s.request typeUrl).toState := by
  cases hdown : s.shutdown with
  | true => exact Or.inl (by simpa using hdown)
  | false =>
    rcases Option.isSome_iff_exists.mp h with ⟨responses, hstream⟩
    rw [request_of_empty s typeUrl responses hstream hqueue, if_neg (by simp [hdown])]
    apply begun_stable.settle_serve typeUrl responses _ [] (by simpa using hstream)
      (by simp [hqueue]) (by simpa using hdown)
    exact Or.inr (beginSend_firstStreamRequest _ _)

theorem Stable.request_of_begun {P : State → Prop}
    (hP : Stable fun s => P s.toState ∧ s.Calm ∧ Begun s.toState) {s : Session} (typeUrl : String)
    (hcalm : s.Calm) (hbegun : Begun s.toState) (h : P s.toState)
    (halloc : P (s.apiStateFor typeUrl).toState) : P (s.request typeUrl).toState := by
  apply And.left (hP.request_of_alloc s typeUrl ⟨h, hcalm, hbegun⟩ _)
  refine ⟨halloc, apiStateFor_calm s typeUrl hcalm, ?_⟩
  rw [apiStateFor_eq_modifyApi]
  exact hbegun

theorem subscriptions_stable (l : List String) :
    Stable fun s => s.subscriptions = l ∧ s.Calm ∧ Begun s.toState := by
  apply Stable.of_begun (P := fun s => s.subscriptions = l)
  · exact fun s q h => h
  · exact fun s m rest h => h
  · intro s t hcalm hfirst h
    have hno : s.subscribes t = false := by
      simp [State.subscribes, hfirst, (hcalm t).2]
    simpa [beginSend, writeRequest_toState, hno] using h

theorem request_subscriptions (s : Session) (typeUrl : String) (hcalm : s.Calm)
    (hbegun : Begun s.toState) : (s.request typeUrl).subscriptions = s.subscriptions := by
  apply Stable.request_of_begun (P := fun s' => s'.subscriptions = s.subscriptions)
    (subscriptions_stable s.subscriptions) typeUrl hcalm hbegun rfl
  rw [apiStateFor_eq_modifyApi]
  rfl

end Session
end XdsClient.Ads
