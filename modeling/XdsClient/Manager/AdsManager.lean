import XdsClient.Ads.Messages

/-! # The manager of the four subscriptions

`AdsManager` asks for one type after the other on a single asynchronous stream: it writes the
request of a URL, waits for one read and acknowledges. The outcomes of the reads are given by
a function, `none` for a read that ends with `ok = false`. A null pointer that is followed
ends the run; `Except.error` holds the manager as it was at that point.
-/
namespace XdsClient.Manager
open Ads

/-- A `Subscription` object. The classes derived from it differ in the type URL they pass to
the base class and in the resource names they ask for. -/
structure Subscription where
  address : ℕ
  typeUrl : String
  resourceNames : List String := []
  deriving DecidableEq, Repr

def Subscription.makeRequestDiscoveryService (sub : Subscription) (node : Node) :
    DiscoveryRequest where
  typeUrl := sub.typeUrl
  resourceNames := sub.resourceNames
  node := some node

def clusterSubscription (address : ℕ) : Subscription :=
  ⟨address, "type.googleapis.com/envoy.config.cluster.v3.Cluster", []⟩

def listenerSubscription (address : ℕ) : Subscription :=
  ⟨address, "type.googleapis.com/envoy.config.listener.v3.Listener", []⟩

def endpointSubscription (address : ℕ) : Subscription :=
  ⟨address, "type.googleapis.com/envoy.config.endpoint.v3.ClusterLoadAssignment",
    ["outbound|80||gateway-test.default.svc.cluster.local"]⟩

def routeSubscription (address : ℕ) : Subscription :=
  ⟨address, "type.googleapis.com/envoy.config.route.v3.RouteConfiguration", ["80"]⟩

def urlList : List String :=
  ["type.googleapis.com/envoy.config.cluster.v3.Cluster",
    "type.googleapis.com/envoy.config.listener.v3.Listener",
    "type.googleapis.com/envoy.config.endpoint.v3.ClusterLoadAssignment",
    "type.googleapis.com/envoy.config.route.v3.RouteConfiguration"]

inductive Event where
  /-- `rpc->Write` in `initSubscribe`. -/
  | subscribe (request : DiscoveryRequest)
  /-- `rpc->Read` is done, with a response or with `ok = false`. -/
  | read (outcome : Option DiscoveryResponse)
  /-- `onResponseDiscoveryService` of a subscription. -/
  | handed (sub : Subscription) (response : DiscoveryResponse)
  /-- `rpc->Write` in `sendACK`. -/
  | ack (request : DiscoveryRequest)

/-- `subscribeMap` tells an absent key from one that holds a null pointer; `reads` counts the
reads made, `events` has the oldest first. -/
structure AdsManager where
  pilotUrl : String
  node : Node
  subscribeMap : String → Option (Option Subscription) := fun _ => none
  reads : ℕ := 0
  events : List Event := []

namespace AdsManager

def log (m : AdsManager) (event : Event) : AdsManager := { m with events := m.events ++ [event] }

/-- `subscribe_map.insert`: a key that is present keeps its value. -/
def addSubscription (m : AdsManager) (sub : Subscription) : AdsManager :=
  match m.subscribeMap sub.typeUrl with
  | some _ => m
  | none => { m with subscribeMap := Function.update m.subscribeMap sub.typeUrl (some (some sub)) }

/-- `subscribe_map[key]`: a key that is absent is inserted with a null pointer. -/
def subscribeMapAt (m : AdsManager) (key : String) : Option Subscription × AdsManager :=
  match m.subscribeMap key with
  | some sub => (sub, m)
  | none => (none, { m with subscribeMap := Function.update m.subscribeMap key (some none) })

def follow : Option Subscription × AdsManager → Except AdsManager (Subscription × AdsManager)
  | (some sub, m) => .ok (sub, m)
  | (none, m) => .error m

def initSubscribe (m : AdsManager) (sub : Subscription) : DiscoveryRequest × AdsManager :=
  let request := sub.makeRequestDiscoveryService m.node
  (request, m.log (.subscribe request))

def read (m : AdsManager) (result : Option DiscoveryResponse) : AdsManager :=
  { m.log (.read result) with reads := m.reads + 1 }

/-- The response stays empty when the read fails. -/
def receiveADS (outcome : ℕ → Option DiscoveryResponse) (m : AdsManager) :
    Except AdsManager (DiscoveryResponse × AdsManager) :=
  match outcome m.reads with
  | some response =>
    (follow ((m.read (some response)).subscribeMapAt response.typeUrl)).bind fun (sub, m) =>
      .ok (response, m.log (.handed sub response))
  | none => .ok ({}, m.read none)

def sendACK (m : AdsManager) (request : DiscoveryRequest) (response : DiscoveryResponse) :
    AdsManager :=
  m.log (.ack { request with versionInfo := response.versionInfo, responseNonce := response.nonce })

/-- The body of the loop in `startClient`. -/
def subscribeUrl (outcome : ℕ → Option DiscoveryResponse) (m : AdsManager) (url : String) :
    Except AdsManager AdsManager :=
  (follow (m.subscribeMapAt url)).bind fun (sub, m) =>
    let (request, m) := m.initSubscribe sub
    -- neither the result of the read nor the type of the response is looked at
    (m.receiveADS outcome).bind fun (response, m) => .ok (m.sendACK request response)

def startClient (outcome : ℕ → Option DiscoveryResponse) (m : AdsManager) :
    Except AdsManager AdsManager :=
  urlList.foldlM (subscribeUrl outcome) m

end AdsManager

def subscribed (pilotUrl : String) (node : Node) (subs : List Subscription) : AdsManager :=
  subs.foldl AdsManager.addSubscription { pilotUrl := pilotUrl, node := node }

def linkSubscriptions : List Subscription :=
  [clusterSubscription 0, listenerSubscription 1, endpointSubscription 2, routeSubscription 3]

section Registration

def first (subs : List Subscription) (url : String) : Option Subscription :=
  subs.find? fun sub => sub.typeUrl = url

def Served (subs : List Subscription) (url : String) : Prop := ∃ sub ∈ subs, sub.typeUrl = url

instance (subs : List Subscription) (url : String) : Decidable (Served subs url) :=
  inferInstanceAs (Decidable (∃ sub ∈ subs, sub.typeUrl = url))

theorem first_typeUrl {subs : List Subscription} {url : String} {sub : Subscription}
    (h : first subs url = some sub) : sub.typeUrl = url := by
  simpa using List.find?_some h

theorem served_iff {subs : List Subscription} {url : String} :
    Served subs url ↔ ∃ sub, first subs url = some sub := by
  rw [← Option.isSome_iff_exists, first, List.find?_isSome]
  simp [Served]

theorem not_served_iff {subs : List Subscription} {url : String} :
    ¬ Served subs url ↔ first subs url = none := by
  simp [Served, first]

/-- The map that `addSubscription` leaves: the first registration of a type wins. -/
def table (subs : List Subscription) (url : String) : Option (Option Subscription) :=
  (first subs url).map some

theorem foldl_addSubscription_subscribeMap (subs : List Subscription) (m : AdsManager)
    (url : String) :
    (subs.foldl AdsManager.addSubscription m).subscribeMap url =
      (m.subscribeMap url).or (table subs url) := by
  induction subs generalizing m with
  | nil => simp [table, first]
  | cons sub subs ih =>
    rw [List.foldl_cons, ih]
    by_cases hurl : sub.typeUrl = url
    · subst hurl
      cases hsub : m.subscribeMap sub.typeUrl <;>
        simp [AdsManager.addSubscription, table, first, hsub]
    · have htable : table (sub :: subs) url = table subs url := by
        simp [table, first, hurl]
      have hadd : (m.addSubscription sub).subscribeMap url = m.subscribeMap url := by
        unfold AdsManager.addSubscription
        split
        · rfl
        · exact Function.update_of_ne (Ne.symm hurl) _ _
      rw [htable, hadd]

theorem foldl_addSubscription_rest (subs : List Subscription) (m : AdsManager) :
    (subs.foldl AdsManager.addSubscription m).pilotUrl = m.pilotUrl ∧
      (subs.foldl AdsManager.addSubscription m).node = m.node ∧
      (subs.foldl AdsManager.addSubscription m).reads = m.reads ∧
      (subs.foldl AdsManager.addSubscription m).events = m.events := by
  induction subs generalizing m with
  | nil => simp
  | cons sub subs ih =>
    rw [List.foldl_cons]
    obtain ⟨hurl, hnode, hreads, hevents⟩ := ih (m.addSubscription sub)
    rw [hurl, hnode, hreads, hevents]
    unfold AdsManager.addSubscription
    split <;> simp

theorem subscribed_eq (pilotUrl : String) (node : Node) (subs : List Subscription) :
    subscribed pilotUrl node subs =
      { pilotUrl := pilotUrl, node := node, subscribeMap := table subs } := by
  obtain ⟨hurl, hnode, hreads, hevents⟩ :=
    foldl_addSubscription_rest subs { pilotUrl := pilotUrl, node := node }
  have hmap : (subscribed pilotUrl node subs).subscribeMap = table subs := by
    funext url
    simp [subscribed, foldl_addSubscription_subscribeMap]
  cases h : subscribed pilotUrl node subs with
  | mk pilotUrl' node' map reads events =>
    rw [subscribed] at hmap h
    simp_all

end Registration
end XdsClient.Manager
