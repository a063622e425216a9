import XdsClient.Ads.Messages
import XdsClient.Library.History
import XdsClient.Library.OrderedSet
import Mathlib.Data.String.Basic

/-! # The state of a client and what it does to the outside

`State` holds the members of `AdsClient` together with the `Watcher` objects its
callers own. A `Session` adds the history of everything visible from outside the
single statements: queue operations, calls on the gRPC stream, entries and exits
of `sendDiscoveryRequest`. Each entry keeps the state in which it happened.

Two calls have no defined result in C++. A pop of an empty queue shows in the
history as a pop whose state has an empty queue, a call through a null pointer as
an event of its own; both leave the state as it is.
-/
namespace XdsClient.Ads
open Library

/-- A node of the linked list `watches_`; `watch` is the `Watcher*` stored in it. -/
structure WatchNode where
  node : ℕ
  watch : ℕ
  deriving DecidableEq, Repr

structure ApiState where
  watches : List WatchNode := []
  request : DiscoveryRequest := {}
  pauses : ℕ := 0
  pending : Bool := false
  subscribed : Bool := false
  mustSendNode : Bool := false
  previouslyFetchedData : Bool := false
  deriving DecidableEq, Repr

def ApiState.paused (api : ApiState) : Bool := 0 < api.pauses

/-- A `Watcher`; `iter` is the list node its stored iterator points to. -/
structure Watcher where
  resources : OrderedSet String
  typeUrl : String
  iter : ℕ

/-- The members of `AdsClient`. The stream is the list of the responses that
`Read` has still to deliver; once it is empty, `Read` returns false. The last
three fields are the heap: the live watches and the next unused addresses. -/
structure State where
  stub : Bool := false
  stream : Option (List DiscoveryResponse) := none
  subscriptions : List String := []
  apiState : String → Option ApiState := fun _ => none
  firstStreamRequest : Bool := true
  requestQueue : Option (List String) := none
  shutdown : Bool := false
  watchers : ℕ → Option Watcher := fun _ => none
  nextWatcher : ℕ := 0
  nextNode : ℕ := 0

namespace State

/-- `apiStateFor(type_url)` as it is read: a state not yet allocated has the defaults. -/
def api (s : State) (typeUrl : String) : ApiState := (s.apiState typeUrl).getD {}

def known (s : State) (typeUrl : String) : Bool := (s.apiState typeUrl).isSome

def queue (s : State) : List String := s.requestQueue.getD []

def resourcesOf (s : State) (watch : ℕ) : OrderedSet String :=
  ((s.watchers watch).map Watcher.resources).getD ∅

/-- The loops of `sendDiscoveryRequest` over the watches and their resources. -/
def resourceNames (s : State) (typeUrl : String) : List String :=
  ((s.api typeUrl).watches.foldl
    (fun acc watch => (s.resourcesOf watch.watch).toList.foldl emitFresh acc) (∅, [])).2

/-- A response the client answers with a request: its type has an `ApiState`, and
the type is watched or the response carries resources. -/
def callsForAnswer (s : State) (message : DiscoveryResponse) : Bool :=
  s.known message.typeUrl &&
    (!(s.api message.typeUrl).watches.isEmpty || !message.resources.isEmpty)

theorem known_of_callsForAnswer {s : State} {message : DiscoveryResponse}
    (h : s.callsForAnswer message = true) : s.known message.typeUrl = true :=
  (Bool.and_eq_true_iff.mp h).1

end State

inductive Event where
  /-- `StreamAggregatedResources` returned; the flag tells whether a stream was obtained. -/
  | opened (obtained : Bool)
  /-- `request_queue_->emplace` in `queueDiscoveryRequest`. -/
  | push (typeUrl : String)
  /-- `request_queue_->pop` in `drainRequests`, on the queue of the entry's state. -/
  | pop
  /-- `sendDiscoveryRequest` is entered. -/
  | send (typeUrl : String)
  /-- `sendDiscoveryRequest` returns. -/
  | sent (typeUrl : String)
  /-- `stream_->Write(request)` in `sendDiscoveryRequest(typeUrl)`, or of a chat request of
  that type. -/
  | write (typeUrl : String) (request : DiscoveryRequest)
  /-- `stream_->Read` returned a response, or false. -/
  | read (result : Option DiscoveryResponse)
  /-- `onDiscoveryResponse` is entered. -/
  | response (message : DiscoveryResponse)
  /-- A watch puts itself at the front of `watches_`. -/
  | register (watch : ℕ)
  /-- A watch takes itself out of `watches_`. -/
  | erase (watch : ℕ)
  | writesDone
  | finish
  /-- A call through a null `stub_` or `stream_`. -/
  | nullCall

def Event.isOpened : Event → Bool
  | .opened _ => true
  | _ => false

def Event.isRead : Event → Bool
  | .read _ => true
  | _ => false

def Event.isReadFalse : Event → Bool
  | .read none => true
  | _ => false

def Event.request? : Event → Option DiscoveryRequest
  | .write _ request => some request
  | _ => none

structure Entry where
  event : Event
  state : State

def requestsIn (part : List Entry) : List DiscoveryRequest :=
  part.filterMap fun e => e.event.request?

theorem requestsIn_append (part other : List Entry) :
    requestsIn (part ++ other) = requestsIn part ++ requestsIn other :=
  List.filterMap_append

theorem mem_requestsIn {part : List Entry} {request : DiscoveryRequest} :
    request ∈ requestsIn part ↔
      ∃ typeUrl state, ⟨.write typeUrl request, state⟩ ∈ part := by
  rw [requestsIn, List.mem_filterMap]
  constructor
  · rintro ⟨⟨event, state⟩, he, heq⟩
    cases event with
    | write typeUrl r =>
      rcases Option.some.inj heq with rfl
      exact ⟨typeUrl, state, he⟩
    | _ => simp [Event.request?] at heq
  · rintro ⟨typeUrl, state, he⟩
    exact ⟨_, he, rfl⟩

/-- A request that passes the test against its past was written. -/
def wrote (p : String → DiscoveryRequest → List Entry → Bool) (history : List Entry) : Bool :=
  somewhere (fun _ e earlier => match e.event with
    | .write typeUrl request => p typeUrl request earlier
    | _ => false) [] history

theorem exists_split_of_wrote (p : String → DiscoveryRequest → List Entry → Bool)
    (history : List Entry) (h : wrote p history = true) :
    ∃ later typeUrl request state earlier,
      history = later ++ ⟨.write typeUrl request, state⟩ :: earlier ∧
        p typeUrl request earlier = true := by
  rcases exists_split_of_somewhere _ _ _ h with ⟨later, ⟨event, state⟩, earlier, hsplit, hevent⟩
  cases event with
  | write t r => exact ⟨later, t, r, state, earlier, hsplit, hevent⟩
  | _ => simp at hevent

/-- The same for a request that is among the newer part of the history. -/
theorem exists_mem_of_wrote {new past history : List Entry} (typeUrl : String)
    (p : DiscoveryRequest → Bool) (hnew : history = new ++ past)
    (h : wrote (fun t r earlier => t == typeUrl && p r && decide (past.length ≤ earlier.length))
      history = true) :
    ∃ request state, ⟨.write typeUrl request, state⟩ ∈ new ∧ p request = true := by
  rcases exists_split_of_wrote _ _ h with ⟨later, t, request, state, earlier, hsplit, htest⟩
  rcases (by simpa using htest : (t = typeUrl ∧ p request = true) ∧
    past.length ≤ earlier.length) with ⟨⟨rfl, hp⟩, hlength⟩
  exact ⟨request, state, mem_of_split (hnew.symm.trans hsplit) hlength, hp⟩

def opens (p : List Entry → State → Bool) (history : List Entry) : Bool :=
  somewhere (fun later e _ => match e.event with
    | .opened true => p later e.state
    | _ => false) [] history

theorem exists_split_of_opens (p : List Entry → State → Bool) (history : List Entry)
    (h : opens p history = true) :
    ∃ later state earlier, history = later ++ ⟨.opened true, state⟩ :: earlier ∧
      p later state = true := by
  rcases exists_split_of_somewhere _ _ _ h with ⟨later, ⟨event, state⟩, earlier, hsplit, hevent⟩
  cases event with
  | opened obtained =>
    cases obtained with
    | true => exact ⟨later, state, earlier, hsplit, hevent⟩
    | false => simp at hevent
  | _ => simp at hevent

def reads (p : List Entry → DiscoveryResponse → State → Bool) (history : List Entry) : Bool :=
  somewhere (fun later e _ => match e.event with
    | .read (some message) => p later message e.state
    | _ => false) [] history

theorem exists_split_of_reads (p : List Entry → DiscoveryResponse → State → Bool)
    (history : List Entry) (h : reads p history = true) :
    ∃ later message state earlier,
      history = later ++ ⟨.read (some message), state⟩ :: earlier ∧ p later message state = true := by
  rcases exists_split_of_somewhere _ _ _ h with ⟨later, ⟨event, state⟩, earlier, hsplit, hevent⟩
  cases event with
  | read result =>
    cases result with
    | none => simp at hevent
    | some message => exact ⟨later, message, state, earlier, hsplit, hevent⟩
  | _ => simp at hevent

structure Session extends State where
  history : List Entry := []

namespace Session

def log (s : Session) (event : Event) : Session :=
  { s with history := ⟨event, s.toState⟩ :: s.history }

@[simp] theorem log_toState (s : Session) (event : Event) : (s.log event).toState = s.toState := rfl

@[simp] theorem log_history (s : Session) (event : Event) :
    (s.log event).history = ⟨event, s.toState⟩ :: s.history := rfl

/-- `apiStateFor`: look the type up and allocate its state if there is none. -/
def apiStateFor (s : Session) (typeUrl : String) : Session :=
  match s.apiState typeUrl with
  | some _ => s
  | none => { s with apiState := Function.update s.apiState typeUrl (some {}) }

/-- An assignment through the reference that `apiStateFor` returns. -/
@[simps] def modifyApi (s : Session) (typeUrl : String) (f : ApiState → ApiState) : Session :=
  { s with apiState := Function.update s.apiState typeUrl (some (f (s.api typeUrl))) }

@[simps] def clearNonce (s : Session) : Session :=
  { s with apiState := fun typeUrl => (s.apiState typeUrl).map fun api =>
      { api with request := { api.request with responseNonce := "" } } }

@[simps] def emplace (s : Session) (typeUrl : String) : Session :=
  { s.log (.push typeUrl) with requestQueue := s.requestQueue.map (· ++ [typeUrl]) }

/-- `request_queue_->pop()`. On an empty queue the call is undefined in the source; here it
changes nothing. -/
@[simps] def pop (s : Session) : Session :=
  { s.log .pop with requestQueue := s.requestQueue.map List.tail }

/-- `stream_->Write`. The result of `Write` is not used. -/
def write (s : Session) (typeUrl : String) (request : DiscoveryRequest) : Session :=
  match s.stream with
  | none => s.log .nullCall
  | some _ => s.log (.write typeUrl request)

def read (s : Session) : Option DiscoveryResponse × Session :=
  match s.stream with
  | none => (none, s.log .nullCall)
  | some [] => (none, s.log (.read none))
  | some (message :: rest) =>
      (some message, { s.log (.read (some message)) with stream := some rest })

variable (s : Session) (typeUrl : String) (f : ApiState → ApiState)

@[simp] theorem modifyApi_api_self : (s.modifyApi typeUrl f).api typeUrl = f (s.api typeUrl) := by
  simp [State.api]

theorem modifyApi_api_of_ne {other : String} (h : other ≠ typeUrl) :
    (s.modifyApi typeUrl f).api other = s.api other := by
  simp [State.api, h]

theorem modifyApi_known {other : String} (h : s.known other = true) :
    (s.modifyApi typeUrl f).known other = true := by
  by_cases ho : other = typeUrl
  · simp [State.known, ho]
  · simpa [State.known, ho] using h

theorem apiStateFor_of_known (h : s.known typeUrl = true) : s.apiStateFor typeUrl = s := by
  unfold apiStateFor
  cases hs : s.apiState typeUrl with
  | none => simp [State.known, hs] at h
  | some api => rfl

/-- Allocation is an assignment that changes nothing. -/
theorem apiStateFor_eq_modifyApi : s.apiStateFor typeUrl = s.modifyApi typeUrl id := by
  unfold apiStateFor modifyApi
  cases hs : s.apiState typeUrl with
  | none => simp [State.api, hs]
  | some api =>
    have hsame : Function.update s.apiState typeUrl (some api) = s.apiState := by
      rw [← hs, Function.update_eq_self]
    simp [State.api, hs, hsame]

@[simp] theorem apiStateFor_stream : (s.apiStateFor typeUrl).stream = s.stream := by
  simp [apiStateFor_eq_modifyApi]

@[simp] theorem apiStateFor_requestQueue :
    (s.apiStateFor typeUrl).requestQueue = s.requestQueue := by
  simp [apiStateFor_eq_modifyApi]

@[simp] theorem apiStateFor_shutdown : (s.apiStateFor typeUrl).shutdown = s.shutdown := by
  simp [apiStateFor_eq_modifyApi]

@[simp] theorem apiStateFor_api (other : String) :
    (s.apiStateFor typeUrl).api other = s.api other := by
  rw [apiStateFor_eq_modifyApi]
  by_cases h : other = typeUrl
  · subst h
    simp
  · exact modifyApi_api_of_ne s typeUrl id h

theorem pop_queue : s.pop.queue = s.queue.tail := by
  cases hq : s.requestQueue <;> simp [State.queue, hq]

end Session

end XdsClient.Ads
