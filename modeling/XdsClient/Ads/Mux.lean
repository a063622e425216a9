import XdsClient.Ads.Client
import XdsClient.Library.Transducer

/-! # The client as a multiplexer

What the client is for, said without its queue, its nested drains, its list nodes and its
cached requests. A `Mux` holds for each type the watches on it and what the server last said
about it; every request is computed from that when it is written. `machine` says of each call
what it makes of this state and what passes between the client and its stream meanwhile.
-/
namespace XdsClient.Ads
open Library

inductive Wire where
  | opened (obtained : Bool)
  | request (request : DiscoveryRequest)
  | response (message : DiscoveryResponse)
  | writesDone
  | finish
  | nullCall
  deriving DecidableEq

def Wire.request? : Wire → Option DiscoveryRequest
  | .request r => some r
  | _ => none

def Wire.response? : Wire → Option DiscoveryResponse
  | .response message => some message
  | _ => none

/-- One type: the watches on it, the latest first, and what the server said last. -/
structure Topic where
  watches : List ℕ := []
  versionInfo : String := ""
  responseNonce : String := ""
  subscribed : Bool := false

/-- The nonce of a response is kept in any case, its version only if there is nobody and
nothing to deliver. -/
def Topic.ingest (topic : Topic) (message : DiscoveryResponse) : Topic :=
  { topic with
    responseNonce := message.nonce
    versionInfo := if topic.watches.isEmpty && message.resources.isEmpty then message.versionInfo
      else topic.versionInfo }

@[ext] structure Mux where
  stub : Bool
  streaming : Bool := false
  shutdown : Bool := false
  subscriptions : List String := [clusterTypeUrl]
  topics : String → Option Topic := fun _ => none
  /-- The type and the names of each live watch. -/
  watches : ℕ → Option (String × OrderedSet String) := fun _ => none
  nextWatch : ℕ := 0

namespace Mux

def topic (m : Mux) (typeUrl : String) : Topic := (m.topics typeUrl).getD {}

theorem topic_of_some {m : Mux} {typeUrl : String} {topic : Topic}
    (h : m.topics typeUrl = some topic) : m.topic typeUrl = topic := by
  simp [Mux.topic, h]

def names (m : Mux) (typeUrl : String) : List String :=
  ((m.topic typeUrl).watches.flatMap fun watch =>
    ((m.watches watch).map fun w => w.2.toList).getD []).eraseDups

def request (m : Mux) (typeUrl : String) : DiscoveryRequest where
  versionInfo := (m.topic typeUrl).versionInfo
  resourceNames := m.names typeUrl
  typeUrl := typeUrl
  responseNonce := (m.topic typeUrl).responseNonce

@[simp] theorem request_typeUrl (m : Mux) (typeUrl : String) :
    (m.request typeUrl).typeUrl = typeUrl := rfl

def ask (m : Mux) (typeUrl : String) : List Wire :=
  if m.streaming && !m.shutdown then [.request (m.request typeUrl)] else []

def alter (m : Mux) (typeUrl : String) (f : Topic → Topic) : Mux :=
  { m with topics := Function.update m.topics typeUrl (some (f (m.topic typeUrl))) }

/-- The type is listed the first time it is subscribed. -/
def mark (m : Mux) (typeUrl : String) : Mux :=
  if (m.topic typeUrl).subscribed then m else
    { m.alter typeUrl fun topic => { topic with subscribed := true } with
      subscriptions := m.subscriptions ++ [typeUrl] }

def enter (m : Mux) (watch : ℕ) (typeUrl : String) (resources : OrderedSet String) : Mux :=
  { m.alter typeUrl fun topic => { topic with watches := watch :: topic.watches } with
    watches := Function.update m.watches watch (some (typeUrl, resources)) }

def leave (m : Mux) (watch : ℕ) (typeUrl : String) : Mux :=
  m.alter typeUrl fun topic => { topic with watches := topic.watches.filter (· ≠ watch) }

def drop (m : Mux) (watch : ℕ) (typeUrl : String) : Mux :=
  { m.leave watch typeUrl with watches := Function.update m.watches watch none }

def ingest (m : Mux) (message : DiscoveryResponse) : Mux :=
  { m with
    topics := Function.update m.topics message.typeUrl
      ((m.topics message.typeUrl).map fun topic => topic.ingest message) }

theorem alter_topic (m : Mux) (typeUrl other : String) (f : Topic → Topic) :
    (m.alter typeUrl f).topic other = if other = typeUrl then f (m.topic other) else m.topic other := by
  by_cases ho : other = typeUrl
  · simp [topic, alter, ho]
  · simp [topic, alter, ho]

@[simp] theorem mark_watches (m : Mux) (typeUrl : String) :
    (m.mark typeUrl).watches = m.watches := by
  unfold mark
  split_ifs <;> rfl

@[simp] theorem mark_nextWatch (m : Mux) (typeUrl : String) :
    (m.mark typeUrl).nextWatch = m.nextWatch := by
  unfold mark
  split_ifs <;> rfl

theorem mark_topic (m : Mux) (typeUrl other : String) : (m.mark typeUrl).topic other =
    if other = typeUrl then { m.topic other with subscribed := true } else m.topic other := by
  cases hsub : (m.topic typeUrl).subscribed with
  | true =>
    have hsame : m.mark typeUrl = m := by simp [mark, hsub]
    rw [hsame]
    split_ifs with ho
    · rw [ho, ← hsub]
    · rfl
  | false =>
    have halter := m.alter_topic typeUrl other fun topic => { topic with subscribed := true }
    rw [← halter, mark, hsub]
    rfl

theorem enter_topic (m : Mux) (watch : ℕ) (typeUrl other : String)
    (resources : OrderedSet String) : (m.enter watch typeUrl resources).topic other =
      if other = typeUrl then { m.topic other with watches := watch :: (m.topic other).watches }
      else m.topic other :=
  m.alter_topic typeUrl other fun topic => { topic with watches := watch :: topic.watches }

theorem ingest_watches (m : Mux) (message : DiscoveryResponse) (typeUrl : String) :
    ((m.ingest message).topic typeUrl).watches = (m.topic typeUrl).watches := by
  by_cases ht : typeUrl = message.typeUrl
  · cases htopic : m.topics message.typeUrl <;> simp [ingest, topic, ht, htopic, Topic.ingest]
  · simp [ingest, topic, ht]

theorem ingest_subscribed (m : Mux) (message : DiscoveryResponse) (typeUrl : String) :
    ((m.ingest message).topic typeUrl).subscribed = (m.topic typeUrl).subscribed := by
  by_cases ht : typeUrl = message.typeUrl
  · cases htopic : m.topics message.typeUrl <;> simp [ingest, topic, ht, htopic, Topic.ingest]
  · simp [ingest, topic, ht]

/-- The response is answered: its type is known, and watched or sent with resources. -/
def answers (m : Mux) (message : DiscoveryResponse) : Bool :=
  (m.topics message.typeUrl).any fun topic =>
    !topic.watches.isEmpty || !message.resources.isEmpty

theorem ingest_answers (m : Mux) (message : DiscoveryResponse) :
    (m.ingest message).answers = m.answers := by
  funext other
  by_cases ht : other.typeUrl = message.typeUrl
  · cases htopic : m.topics message.typeUrl <;>
      simp [answers, ingest, ht, htopic, Topic.ingest]
  · simp [answers, ingest, ht]

/-! ## A stream -/

/-- A stream is obtained: no nonce is valid on it. -/
def start (m : Mux) : Mux :=
  let cleared (typeUrl : String) := (m.topics typeUrl).map fun topic =>
    { topic with responseNonce := "" }
  alter { m with streaming := true, topics := cleared } clusterTypeUrl id

theorem start_topic (m : Mux) (typeUrl : String) :
    m.start.topic typeUrl = { m.topic typeUrl with responseNonce := "" } := by
  rw [start, alter_topic]
  cases ht : m.topics typeUrl <;> simp [topic, ht]

/-- The stream delivers its responses. Each answered one is followed by the request of the
stream's first type, whatever its own type is. -/
def hearing : Transducer Mux DiscoveryResponse Wire where
  step := ingest
  emit m message := .response message ::
    if m.answers message then [.request ((m.ingest message).request clusterTypeUrl)] else []

def greeted (m : Mux) : Mux := if m.shutdown then m.start else m.start.mark clusterTypeUrl

def firstRequest (m : Mux) : DiscoveryRequest :=
  { m.start.request clusterTypeUrl with
    node := if (m.topic clusterTypeUrl).subscribed then none else some node }

def establish (m : Mux) (responses : List DiscoveryResponse) : Mux :=
  if m.shutdown then m.greeted else responses.foldl ingest m.greeted

/-- The types still to be requested when the stream has delivered everything: those of the
answered responses, then the list without its head. -/
def pending (m : Mux) (responses : List DiscoveryResponse) : List String :=
  (responses.filter m.greeted.answers).map DiscoveryResponse.typeUrl ++ m.greeted.subscriptions.tail

def conversation (m : Mux) (responses : List DiscoveryResponse) : List Wire :=
  if m.shutdown then [] else
    .request m.firstRequest :: hearing.output m.greeted responses ++
      (m.pending responses).map fun typeUrl => .request ((m.establish responses).request typeUrl)

theorem foldl_ingest_subscriptions (m : Mux) (responses : List DiscoveryResponse) :
    (responses.foldl ingest m).subscriptions = m.subscriptions := by
  induction responses generalizing m with
  | nil => rfl
  | cons message responses ih => exact ih (m.ingest message)

theorem establish_subscriptions (m : Mux) (responses : List DiscoveryResponse) :
    (m.establish responses).subscriptions = m.greeted.subscriptions := by
  unfold establish
  split_ifs
  · rfl
  · exact foldl_ingest_subscriptions _ _

/-! ## Calls -/

def perform (m : Mux) : Op → Mux
  | .setChannel => { m with stub := true }
  | .onStreamEstablished (some responses) => if m.stub then m.establish responses else m
  | .onStreamEstablished none => if m.stub then { m with streaming := false } else m
  | .addWatch typeUrl resources =>
    ({ m with nextWatch := m.nextWatch + 1 }.enter m.nextWatch typeUrl resources).mark typeUrl
  | .update watch resources =>
    match m.watches watch with
    | some (typeUrl, _) => (m.leave watch typeUrl).enter watch typeUrl resources
    | none => m
  | .destroy watch =>
    match m.watches watch with
    | some (typeUrl, _) => m.drop watch typeUrl
    | none => m
  | .onDiscoveryResponse message => m.ingest message
  | .shutdown => { m with shutdown := true }

def emit (m : Mux) : Op → List Wire
  | .setChannel => []
  | .onStreamEstablished (some responses) =>
    if m.stub then .opened true :: m.conversation responses else [.nullCall]
  | .onStreamEstablished none => if m.stub then [.opened false] else [.nullCall]
  | .addWatch typeUrl resources => (m.perform (.addWatch typeUrl resources)).ask typeUrl
  | .update watch resources =>
    match m.watches watch with
    | some (typeUrl, old) =>
      (if old.isEmpty then [] else (m.leave watch typeUrl).ask typeUrl) ++
        ((m.leave watch typeUrl).enter watch typeUrl resources).ask typeUrl
    | none => []
  | .destroy watch =>
    match m.watches watch with
    | some (typeUrl, old) => if old.isEmpty then [] else (m.drop watch typeUrl).ask typeUrl
    | none => []
  | .onDiscoveryResponse message =>
    .response message :: if m.answers message then (m.ingest message).ask message.typeUrl else []
  | .shutdown => if m.streaming then [.writesDone, .finish] else [.nullCall]

def machine : Transducer Mux Op Wire where
  step := perform
  emit := emit

end Mux
end XdsClient.Ads
