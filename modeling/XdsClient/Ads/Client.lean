import XdsClient.Ads.Session

/-! # The client's functions

`AdsClient.cpp` and `Watcher.h`, function by function. `queueDiscoveryRequest`,
`drainRequests`, `sendDiscoveryRequest` and `onDiscoveryResponse` call each other
while a request is being sent, and the two while loops among them are recursive
calls here; the common fuel argument bounds the depth of that recursion and a
result of `none` means that it was used up.
-/
namespace XdsClient.Ads
open Library

namespace Session

/-- `sendDiscoveryRequest` up to the `Write`: the cached request of the type gets the
current resource names, and the node on the first request of a stream if the type is
not subscribed yet. -/
def prepareRequest (s : Session) (typeUrl : String) : Session :=
  let s := s.modifyApi typeUrl fun api =>
    { api with request := { api.request with resourceNames := s.resourceNames typeUrl } }
  if (s.api typeUrl).mustSendNode || s.firstStreamRequest then
    let s := if (s.api typeUrl).subscribed then s else
      { s.modifyApi typeUrl fun api =>
          { api with
            request := { api.request with typeUrl := typeUrl, node := some node }
            subscribed := true } with
        subscriptions := s.subscriptions ++ [typeUrl] }
    s.modifyApi typeUrl fun api => { api with mustSendNode := false }
  else
    s.modifyApi typeUrl fun api => { api with request := { api.request with node := none } }

/-- `sendDiscoveryRequest` from the preparation of the request to the start of the
read loop. -/
def writeRequest (s : Session) (typeUrl : String) : Session :=
  let s := s.prepareRequest typeUrl
  let s := s.write typeUrl (s.api typeUrl).request
  let s := { s with firstStreamRequest := false }
  if (s.api typeUrl).request.errorDetail.isSome then
    s.modifyApi typeUrl fun api => { api with request := { api.request with errorDetail := none } }
  else s

end Session

mutual

def queueDiscoveryRequest : ℕ → String → Session → Option Session
  | 0, _, _ => none
  | fuel + 1, queueItem, s =>
    match s.stream with
    | none => some s
    | some _ =>
      let s := s.apiStateFor queueItem
      if (s.api queueItem).paused then
        some (s.modifyApi queueItem fun api => { api with pending := true })
      else
        drainRequests fuel (s.emplace queueItem)

def drainRequests : ℕ → Session → Option Session
  | 0, _ => none
  | fuel + 1, s =>
    match s.queue with
    | [] => some s
    | front :: _ =>
      (sendDiscoveryRequest fuel front s).bind fun s => drainRequests fuel s.pop

def sendDiscoveryRequest : ℕ → String → Session → Option Session
  | 0, _, _ => none
  | fuel + 1, typeUrl, s =>
    let s := s.log (.send typeUrl)
    if s.shutdown then some (s.log (.sent typeUrl))
    else (readResponses fuel (s.writeRequest typeUrl)).map fun s => s.log (.sent typeUrl)

/-- The loop `while (stream_->Read(&discoveryResponse))` of `sendDiscoveryRequest`. -/
def readResponses : ℕ → Session → Option Session
  | 0, _ => none
  | fuel + 1, s =>
    match s.read with
    | (none, s) => some s
    | (some message, s) =>
      (onDiscoveryResponse fuel message s).bind fun s => readResponses fuel s

def onDiscoveryResponse : ℕ → DiscoveryResponse → Session → Option Session
  | 0, _, _ => none
  | fuel + 1, message, s =>
    let s := s.log (.response message)
    match s.apiState message.typeUrl with
    | none => some s
    | some api =>
      if api.watches.isEmpty then
        let s := s.modifyApi message.typeUrl fun api =>
          { api with request := { api.request with responseNonce := message.nonce } }
        if message.resources.isEmpty then
          some (s.modifyApi message.typeUrl fun api =>
            { api with request := { api.request with versionInfo := message.versionInfo } })
        else
          queueDiscoveryRequest fuel message.typeUrl s
      else
        let s := s.modifyApi message.typeUrl fun api =>
          { api with previouslyFetchedData := true }
        let s := s.modifyApi message.typeUrl fun api =>
          { api with request := { api.request with responseNonce := message.nonce } }
        queueDiscoveryRequest fuel message.typeUrl s

end

/-- The loop of `onStreamEstablished` over `subscriptions_`, from position `i` on. The
list may grow behind the iterator while the loop runs. -/
def queueSubscriptions : ℕ → ℕ → Session → Option Session
  | 0, _, _ => none
  | fuel + 1, i, s =>
    match s.subscriptions[i]? with
    | none => some s
    | some typeUrl =>
      (queueDiscoveryRequest fuel typeUrl s).bind fun s => queueSubscriptions fuel (i + 1) s

namespace Session

/-- `onStreamEstablished` up to its loop, on a stream that delivers `responses`. -/
def openStream (s : Session) (responses : List DiscoveryResponse) : Session :=
  let s := { s.log (.opened true) with stream := some responses }
  let s := { s with firstStreamRequest := true }
  { s.clearNonce with requestQueue := some [] }

/-- `onStreamEstablished` when the stub returns no stream. -/
def openFailed (s : Session) : Session := { s.log (.opened false) with stream := none }

/-- `Watcher::updateResources`: take over the names and move to the front of the list. -/
def updateResources (s : Session) (watch : ℕ) (w : Watcher) (resources : OrderedSet String) :
    Session :=
  let s := s.log (.register watch)
  let w := { w with resources := resources.transformInto (fun resourceName => resourceName) ∅
                    iter := s.nextNode }
  let s := s.modifyApi w.typeUrl fun api =>
    { api with watches := ⟨s.nextNode, watch⟩ :: api.watches }
  { s with
    watchers := Function.update s.watchers watch (some w)
    nextNode := s.nextNode + 1 }

/-- The constructor of `Watcher`, at a fresh address. -/
def newWatcher (s : Session) (typeUrl : String) (resources : OrderedSet String) : Session :=
  let watch := s.nextWatcher
  let s := { s.apiStateFor typeUrl with nextWatcher := watch + 1 }
  s.updateResources watch { resources := ∅, typeUrl := typeUrl, iter := 0 } resources

/-- `watches_.erase(iter_)`. -/
def eraseWatch (s : Session) (watch : ℕ) (w : Watcher) : Session :=
  (s.log (.erase watch)).modifyApi w.typeUrl fun api =>
    { api with watches := api.watches.filter fun n => n.node ≠ w.iter }

/-- The first-subscription branch of `addWatch`. -/
def subscribe (s : Session) (typeUrl : String) : Session :=
  if (s.api typeUrl).subscribed then s else
    { s.modifyApi typeUrl fun api =>
        { api with request := { api.request with typeUrl := typeUrl }, subscribed := true } with
      subscriptions := s.subscriptions ++ [typeUrl] }

def endStream (s : Session) : Session :=
  match s.stream with
  | none => s.log .nullCall
  | some _ => (s.log .writesDone).log .finish

end Session

/-- What `StreamAggregatedResources` returns is decided outside: no stream, or a stream
and the responses it delivers. -/
def onStreamEstablished (fuel : ℕ) (outcome : Option (List DiscoveryResponse)) (s : Session) :
    Option Session :=
  if s.stub then
    match outcome with
    | some responses => queueSubscriptions fuel 0 (s.openStream responses)
    | none => some s.openFailed
  else some (s.log .nullCall)

def addWatch (fuel : ℕ) (typeUrl : String) (resources : OrderedSet String) (s : Session) :
    Option Session :=
  queueDiscoveryRequest fuel typeUrl ((s.newWatcher typeUrl resources).subscribe typeUrl)

/-- `Watcher::update` of the watch `watch`, whose object is `w`. The set is taken by value: the
watch's own `resources_`, which the swap empties before it is read, is the empty set here. -/
def update (fuel : ℕ) (watch : ℕ) (w : Watcher) (resources : OrderedSet String) (s : Session) :
    Option Session :=
  let s := s.eraseWatch watch w
  (if w.resources.isEmpty then some s else queueDiscoveryRequest fuel w.typeUrl s).bind fun s =>
    queueDiscoveryRequest fuel w.typeUrl (s.updateResources watch w resources)

/-- `~Watcher`. The object is no longer live once its destructor runs. -/
def destroy (fuel : ℕ) (watch : ℕ) (w : Watcher) (s : Session) : Option Session :=
  let s := s.eraseWatch watch w
  let s := { s with watchers := Function.update s.watchers watch none }
  if w.resources.isEmpty then some s else queueDiscoveryRequest fuel w.typeUrl s

def shutdown (s : Session) : Session := { s.endStream with shutdown := true }

inductive Op where
  | setChannel
  | onStreamEstablished (outcome : Option (List DiscoveryResponse))
  | addWatch (typeUrl : String) (resources : OrderedSet String)
  | update (watch : ℕ) (resources : OrderedSet String)
  | destroy (watch : ℕ)
  | onDiscoveryResponse (message : DiscoveryResponse)
  | shutdown

/-- One call. A call on a watch that is not live cannot be made and changes nothing. -/
def exec (fuel : ℕ) : Op → Session → Option Session
  | .setChannel, s => some { s with stub := true }
  | .onStreamEstablished outcome, s => onStreamEstablished fuel outcome s
  | .addWatch typeUrl resources, s => addWatch fuel typeUrl resources s
  | .update watch resources, s =>
    match s.watchers watch with
    | some w => update fuel watch w resources s
    | none => some s
  | .destroy watch, s =>
    match s.watchers watch with
    | some w => destroy fuel watch w s
    | none => some s
  | .onDiscoveryResponse message, s => onDiscoveryResponse fuel message s
  | .shutdown, s => some (shutdown s)

/-- The two constructors of `AdsClient`: without and with a channel. -/
def construct (channel : Bool) : Session where
  stub := channel
  subscriptions := [clusterTypeUrl]

/-- `Run channel calls s`: the calls, made in order on a newly constructed client, all
return, and leave the session `s`. -/
inductive Run (channel : Bool) : List Op → Session → Prop
  | construct : Run channel [] (construct channel)
  | call {calls : List Op} {s s' : Session} {op : Op} (fuel : ℕ) :
      Run channel calls s → exec fuel op s = some s' → Run channel (calls ++ [op]) s'

end XdsClient.Ads
