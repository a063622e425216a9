import XdsClient.Ads.Effects
import XdsClient.Library.Fuel

/-! # What a nested drain amounts to

While `Read` delivers responses, every answer is drained inside the send that read
the response: the front of the queue is sent again and nothing is popped. When
`Read` has returned false, the innermost drain empties the queue and each outer one
pops once more. The functions below say this by recursion on the responses and on
the queue, and the client's own functions are shown to compute them.
-/
namespace XdsClient.Ads
open Library

def State.Calm (s : State) : Prop :=
  ∀ typeUrl, (s.api typeUrl).pauses = 0 ∧ (s.api typeUrl).mustSendNode = false

namespace Session

/-- `sendDiscoveryRequest` from its entry to the read loop. -/
def beginSend (s : Session) (typeUrl : String) : Session :=
  (s.log (.send typeUrl)).writeRequest typeUrl

/-- `sendDiscoveryRequest` when there is nothing to read. -/
def deliver (s : Session) (typeUrl : String) : Session :=
  if s.shutdown then (s.log (.send typeUrl)).log (.sent typeUrl)
  else ((s.beginSend typeUrl).log (.read none)).log (.sent typeUrl)

/-- `drainRequests` when there is nothing to read: each entry is sent, then popped. -/
def flush : List String → Session → Session
  | [], s => s
  | typeUrl :: rest, s => flush rest (s.deliver typeUrl).pop

def settle (s : Session) (front : String) : Session :=
  flush ((s.log (.sent front)).pop).queue (s.log (.sent front)).pop

def receive (s : Session) (message : DiscoveryResponse) (rest : List DiscoveryResponse) : Session :=
  { s.log (.read (some message)) with stream := some rest }.ingest message

/-- The read loop of `sendDiscoveryRequest` while `front` is at the front of the queue. -/
def serve (front : String) : List DiscoveryResponse → Session → Session
  | [], s => s.log (.read none)
  | message :: rest, s =>
    if s.callsForAnswer message then
      ((serve front rest
        (((s.receive message rest).emplace message.typeUrl).beginSend front)).settle front).log
          (.read none)
    else serve front rest (s.receive message rest)

/-- `drainRequests` on a stream with the given responses still to come. -/
def drain (responses : List DiscoveryResponse) (s : Session) : Session :=
  match s.queue with
  | [] => s
  | front :: rest =>
    if s.shutdown then flush (front :: rest) s
    else (serve front responses (s.beginSend front)).settle front

def request (s : Session) (typeUrl : String) : Session :=
  match s.stream with
  | none => s
  | some responses => drain responses ((s.apiStateFor typeUrl).emplace typeUrl)

/-! ## Fields that a step leaves alone -/

section Fields
variable (s : Session) (typeUrl : String)

@[simp] theorem beginSend_stream : (s.beginSend typeUrl).stream = s.stream := by
  simp [beginSend, writeRequest_toState]

@[simp] theorem beginSend_requestQueue : (s.beginSend typeUrl).requestQueue = s.requestQueue := by
  simp [beginSend, writeRequest_toState]

@[simp] theorem beginSend_shutdown : (s.beginSend typeUrl).shutdown = s.shutdown := by
  simp [beginSend, writeRequest_toState]

@[simp] theorem beginSend_queue : (s.beginSend typeUrl).queue = s.queue := by
  simp [State.queue]

@[simp] theorem beginSend_firstStreamRequest :
    (s.beginSend typeUrl).firstStreamRequest = false := by
  simp [beginSend, writeRequest_toState]

theorem beginSend_subscriptions : (s.beginSend typeUrl).subscriptions =
    s.subscriptions ++ if s.subscribes typeUrl then [typeUrl] else [] := by
  rw [beginSend, writeRequest_toState]
  rfl

@[simp] theorem deliver_stream : (s.deliver typeUrl).stream = s.stream := by
  unfold deliver
  split_ifs <;> simp

@[simp] theorem deliver_requestQueue : (s.deliver typeUrl).requestQueue = s.requestQueue := by
  unfold deliver
  split_ifs <;> simp

@[simp] theorem deliver_shutdown : (s.deliver typeUrl).shutdown = s.shutdown := by
  unfold deliver
  split_ifs <;> simp

theorem deliver_pop_queue : (s.deliver typeUrl).pop.queue = s.queue.tail := by
  rw [pop_queue]
  simp [State.queue]

@[simp] theorem receive_stream (message : DiscoveryResponse) (rest : List DiscoveryResponse) :
    (s.receive message rest).stream = some rest := by
  simp [receive]

@[simp] theorem receive_requestQueue (message : DiscoveryResponse)
    (rest : List DiscoveryResponse) :
    (s.receive message rest).requestQueue = s.requestQueue := by
  simp [receive]

@[simp] theorem receive_shutdown (message : DiscoveryResponse) (rest : List DiscoveryResponse) :
    (s.receive message rest).shutdown = s.shutdown := by
  simp [receive]

theorem receive_known (message : DiscoveryResponse) (rest : List DiscoveryResponse) :
    (s.receive message rest).known typeUrl = s.known typeUrl :=
  ingest_known message { s.log (.read (some message)) with stream := some rest } typeUrl

theorem beginSend_api_self :
    (s.beginSend typeUrl).api typeUrl = (s.prepared typeUrl).afterWrite := by
  simp [beginSend, writeRequest_toState, State.api]

theorem beginSend_api_of_ne {other : String} (h : other ≠ typeUrl) :
    (s.beginSend typeUrl).api other = s.api other := by
  simp [beginSend, writeRequest_toState, State.api, h]

theorem receive_api (message : DiscoveryResponse) (rest : List DiscoveryResponse) :
    (s.receive message rest).api typeUrl =
      if message.typeUrl = typeUrl ∧ s.known typeUrl = true then (s.api typeUrl).ingest message
      else s.api typeUrl :=
  ingest_api message { s.log (.read (some message)) with stream := some rest } typeUrl

theorem flush_stream (q : List String) : (flush q s).stream = s.stream := by
  induction q generalizing s with
  | nil => rfl
  | cons typeUrl q ih =>
    rw [flush, ih]
    simp

@[simp] theorem settle_stream : (s.settle typeUrl).stream = s.stream := by
  simp [settle, flush_stream]

/-- The read loop ends when every response has been delivered, also those that
inner activations have read. -/
theorem serve_stream (front : String) (responses : List DiscoveryResponse)
    (h : s.stream = some responses) : (serve front responses s).stream = some [] := by
  induction responses generalizing s with
  | nil => simpa [serve] using h
  | cons message rest ih =>
    unfold serve
    split_ifs
    · simp [ih]
    · exact ih _ (by simp)

end Fields

/-! ## The history of a step -/

theorem receive_history (s : Session) (message : DiscoveryResponse)
    (rest : List DiscoveryResponse) :
    (s.receive message rest).history =
      ⟨.response message, { s.toState with stream := some rest }⟩ ::
        ⟨.read (some message), s.toState⟩ :: s.history := rfl

theorem beginSend_history (s : Session) (typeUrl : String) (h : s.stream.isSome = true) :
    (s.beginSend typeUrl).history =
      ⟨.write typeUrl (s.prepared typeUrl).request,
        ((s.log (.send typeUrl)).prepareRequest typeUrl).toState⟩ ::
        ⟨.send typeUrl, s.toState⟩ :: s.history := by
  rw [beginSend, writeRequest_history (s.log (.send typeUrl)) typeUrl h]
  rfl

/-! ## Invariants -/

/-- `P` survives each elementary step of a drain, under the conditions in which the
step is taken. -/
structure Stable (P : Session → Prop) : Prop where
  readFalse : ∀ s, P s → P (s.log (.read none))
  receive : ∀ s message rest, s.stream = some (message :: rest) → s.shutdown = false → P s →
    P (s.receive message rest)
  emplace : ∀ s typeUrl, s.stream.isSome = true → s.known typeUrl = true → P s →
    P (s.emplace typeUrl)
  beginSend : ∀ s typeUrl rest, s.stream.isSome = true → s.shutdown = false →
    s.queue = typeUrl :: rest → P s → P (s.beginSend typeUrl)
  send : ∀ s typeUrl, s.shutdown = true → P s → P (s.log (.send typeUrl))
  sent : ∀ s typeUrl, P s → P (s.log (.sent typeUrl))
  pop : ∀ s, P s → P s.pop

namespace Stable

/-- The rule for what depends neither on the history nor on the queue: only the
responses and the requests can change it. -/
theorem of_state {P : State → Prop} (hqueue : ∀ s q, P s → P { s with requestQueue := q })
    (receive : ∀ (s : Session) message rest, s.stream = some (message :: rest) →
      s.shutdown = false → P s.toState → P (s.receive message rest).toState)
    (beginSend : ∀ (s : Session) typeUrl rest, s.stream.isSome = true → s.shutdown = false →
      s.queue = typeUrl :: rest → P s.toState → P (s.beginSend typeUrl).toState) :
    Stable fun s => P s.toState := by
  constructor
  · exact fun s h => h
  · exact receive
  · exact fun s t _ _ h => hqueue s.toState _ h
  · exact beginSend
  · exact fun s t _ h => h
  · exact fun s t h => h
  · exact fun s h => hqueue s.toState _ h

variable {P : Session → Prop} (hP : Stable P)
include hP

theorem deliver (s : Session) (typeUrl : String) (rest : List String)
    (hstream : s.stream.isSome = true) (hqueue : s.queue = typeUrl :: rest) (h : P s) :
    P (s.deliver typeUrl) := by
  unfold Session.deliver
  split_ifs with hdown
  · exact hP.sent _ _ (hP.send _ _ hdown h)
  · have hbegun := hP.beginSend s typeUrl rest hstream (by simpa using hdown) hqueue h
    exact hP.sent _ _ (hP.readFalse _ hbegun)

theorem flush (s : Session) (q : List String) (hstream : s.stream.isSome = true)
    (hqueue : s.queue = q) (h : P s) : P (Session.flush q s) := by
  induction q generalizing s with
  | nil => exact h
  | cons typeUrl q ih =>
    apply ih
    · simpa using hstream
    · rw [deliver_pop_queue, hqueue, List.tail_cons]
    · exact hP.pop _ (hP.deliver s typeUrl q hstream hqueue h)

theorem settle (s : Session) (front : String) (hstream : s.stream.isSome = true) (h : P s) :
    P (s.settle front) :=
  hP.flush _ _ (by simpa using hstream) rfl (hP.pop _ (hP.sent _ _ h))

/-- One case per response: the answered ones nest, the others do not. -/
theorem serve (front : String) (responses : List DiscoveryResponse) (s : Session)
    (q : List String) (hstream : s.stream = some responses)
    (hqueue : s.requestQueue = some (front :: q)) (hdown : s.shutdown = false) (h : P s) :
    P (Session.serve front responses s) := by
  induction responses generalizing s q with
  | nil => exact hP.readFalse s h
  | cons message rest ih =>
    have hreceived := hP.receive s message rest hstream hdown h
    unfold Session.serve
    split_ifs with hcalls
    · have hknown : (s.receive message rest).known message.typeUrl = true := by
        rw [receive_known]
        exact State.known_of_callsForAnswer hcalls
      have hpushed := hP.emplace _ message.typeUrl (by simp) hknown hreceived
      have hbegun := hP.beginSend _ front (q ++ [message.typeUrl]) (by simp) (by simpa using hdown)
        (by simp [State.queue, hqueue]) hpushed
      have hnested := ih _ (q ++ [message.typeUrl]) (by simp) (by simp [hqueue])
        (by simpa using hdown) hbegun
      apply hP.readFalse
      apply hP.settle _ _ _ hnested
      rw [serve_stream _ _ _ (by simp)]
      rfl
    · exact ih _ q (by simp) (by simpa using hqueue) (by simpa using hdown) hreceived

/-- A drain of a non-empty queue keeps what holds after the first request is written. -/
theorem settle_serve (front : String) (responses : List DiscoveryResponse) (s : Session)
    (q : List String) (hstream : s.stream = some responses)
    (hqueue : s.requestQueue = some (front :: q)) (hdown : s.shutdown = false)
    (h : P (s.beginSend front)) :
    P ((Session.serve front responses (s.beginSend front)).settle front) := by
  apply hP.settle
  · rw [serve_stream _ _ _ (by simpa using hstream)]
    rfl
  · exact hP.serve front responses _ q (by simpa using hstream) (by simpa using hqueue)
      (by simpa using hdown) h

theorem drain (responses : List DiscoveryResponse) (s : Session)
    (hstream : s.stream = some responses) (h : P s) : P (s.drain responses) := by
  unfold Session.drain
  split
  · exact h
  · rename_i front q hq
    split_ifs with hdown
    · exact hP.flush s _ (by simp [hstream]) hq h
    · have hfalse : s.shutdown = false := by simpa using hdown
      have hqueue : s.requestQueue = some (front :: q) := by
        cases hr : s.requestQueue <;> simp_all [State.queue]
      apply hP.settle_serve front responses s q hstream hqueue hfalse
      exact hP.beginSend s front q (by simp [hstream]) hfalse hq h

/-- `queueDiscoveryRequest` may have to allocate the state of its type first. -/
theorem request_of_alloc (s : Session) (typeUrl : String) (h : P s)
    (halloc : P (s.apiStateFor typeUrl)) : P (s.request typeUrl) := by
  unfold Session.request
  split
  · exact h
  · rename_i responses hstream
    apply hP.drain
    · simpa using hstream
    · apply hP.emplace _ _ (by simp [hstream]) _ halloc
      simp [apiStateFor_eq_modifyApi, State.known]

theorem request (s : Session) (typeUrl : String) (hknown : s.known typeUrl = true) (h : P s) :
    P (s.request typeUrl) :=
  hP.request_of_alloc s typeUrl h (by rw [apiStateFor_of_known s typeUrl hknown]; exact h)

end Stable

end Session
end XdsClient.Ads
