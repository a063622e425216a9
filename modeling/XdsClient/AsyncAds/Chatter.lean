import XdsClient.Ads.Messages
import XdsClient.Library.Outstanding

/-! # The reactor of the asynchronous client

`Chatter` hands its operations to gRPC and goes on in the callbacks. The operations and the
callbacks are kept as events, the newest first. Which callbacks gRPC may deliver is decided by
the events alone: a completion for each operation in flight, and `OnDone` when there is none.
Callbacks are taken one after the other; what the default reactions of the base class do has
no effect on the members.
-/
namespace XdsClient.AsyncAds
open Library Ads

inductive Event where
  | startWrite (request : DiscoveryRequest)
  | startWritesDone
  | startRead
  | startCall
  /-- `OnWriteDone` is entered. -/
  | writeDone (ok : Bool)
  /-- `OnReadDone` is entered. -/
  | readDone (ok : Bool)
  /-- `OnDone` is entered. -/
  | done
  deriving DecidableEq

def Event.isStartWrite : Event → Bool
  | .startWrite _ => true
  | _ => false

def Event.isWriteDone : Event → Bool
  | .writeDone _ => true
  | _ => false

def Event.isStartRead : Event → Bool
  | .startRead => true
  | _ => false

def Event.isReadDone : Event → Bool
  | .readDone _ => true
  | _ => false

def Event.request? : Event → Option DiscoveryRequest
  | .startWrite request => some request
  | _ => none

def outstandingWrites (events : List Event) : ℕ :=
  outstanding Event.isStartWrite Event.isWriteDone events

def outstandingReads (events : List Event) : ℕ :=
  outstanding Event.isStartRead Event.isReadDone events

def writesStarted (events : List Event) : List DiscoveryRequest :=
  (events.filterMap Event.request?).reverse

def writesCompleted (events : List Event) : ℕ := events.countP Event.isWriteDone

/-- The members of `Chatter`; `position` is where `requests_iterator_` points to. -/
structure Chatter where
  requests : List DiscoveryRequest
  position : ℕ := 0
  response : DiscoveryResponse := {}
  status : Status := {}
  done : Bool := false
  events : List Event := []

/-- The callbacks of the reactor. A read that is done with `ok = true` has filled `response_`. -/
inductive Callback where
  | onWriteDone (ok : Bool)
  | onReadDone (result : Option DiscoveryResponse)
  | onDone (status : Status)

namespace Chatter

def log (c : Chatter) (event : Event) : Chatter := { c with events := event :: c.events }

def nextWrite (c : Chatter) : Chatter :=
  match c.requests[c.position]? with
  | some request => { c.log (.startWrite request) with position := c.position + 1 }
  | none => c.log .startWritesDone

/-- The constructor, once the list of requests is filled. -/
def start (requests : List DiscoveryRequest) : Chatter :=
  let c : Chatter := { requests := requests }
  (c.nextWrite.log .startRead).log .startCall

def onWriteDone (c : Chatter) (ok : Bool) : Chatter :=
  -- the flag is not looked at
  (c.log (.writeDone ok)).nextWrite

def onReadDone (c : Chatter) : Option DiscoveryResponse → Chatter
  | some response => ({ c with response := response }.log (.readDone true)).log .startRead
  | none => c.log (.readDone false)

def onDone (c : Chatter) (status : Status) : Chatter :=
  { c.log .done with status := status, done := true }

def react (c : Chatter) : Callback → Chatter
  | .onWriteDone ok => c.onWriteDone ok
  | .onReadDone result => c.onReadDone result
  | .onDone status => c.onDone status

/-- `Await` returns once `OnDone` has been called. -/
def await (c : Chatter) : Option Status := if c.done then some c.status else none

end Chatter

def discoveryRequest : DiscoveryRequest where
  versionInfo := "" ++ ""
  node := some { cluster := "" ++ "test-cluster", id := "" ++ "test-id" }
  typeUrl := "" ++ "type.googleapis.com/envoy.config.cluster.v3.Cluster"

/-- `do_something` up to the `Await`. -/
def doSomething : Chatter := .start [discoveryRequest]

/-- What gRPC may call next. `StartWritesDone` has a reaction of its own, which `Chatter` does
not override. -/
def Deliverable (events : List Event) : Callback → Prop
  | .onWriteDone _ => 0 < outstandingWrites events
  | .onReadDone _ => 0 < outstandingReads events
  | .onDone _ =>
    outstandingWrites events = 0 ∧ outstandingReads events = 0 ∧ .done ∉ events

instance (events : List Event) : (callback : Callback) → Decidable (Deliverable events callback)
  | .onWriteDone _ => inferInstanceAs (Decidable (0 < outstandingWrites events))
  | .onReadDone _ => inferInstanceAs (Decidable (0 < outstandingReads events))
  | .onDone _ => inferInstanceAs (Decidable
      (outstandingWrites events = 0 ∧ outstandingReads events = 0 ∧ .done ∉ events))

/-- The states a `Chatter` with these requests goes through, over every order of callbacks. -/
inductive ChatterRun (requests : List DiscoveryRequest) : Chatter → Prop
  | start : ChatterRun requests (.start requests)
  | react {c : Chatter} (callback : Callback) :
      ChatterRun requests c → Deliverable c.events callback → ChatterRun requests (c.react callback)

end XdsClient.AsyncAds
