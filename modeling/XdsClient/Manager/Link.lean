import XdsClient.Manager.Startup

/-! # The link manager

`IstioLinkManager` keeps one manager for the whole process. `init` may be called any number of
times, in both of its forms; only the first call decides whom the manager connects to and as
what, while the loggers follow later calls. What is logged is left out, and so is a logging call
on a null logger.
-/
namespace XdsClient.Manager
open Ads

/-! ## The identity -/

/-- `(*metaData)[key] = value`. -/
def assign (struct : Struct) (key : String) (value : String) : Struct :=
  { fields := struct.fields.filter (·.1 ≠ key) ++ [(key, .stringValue value)] }

structure LocalInfo where
  node : Node := {}
  address : String

/-- `address.substr(0, address.find(":"))`: all of it if there is no colon. -/
def host (address : String) : String := String.ofList (address.toList.takeWhile (· ≠ ':'))

def LocalInfo.ofCluster (address clusterName nodeId : String) : LocalInfo :=
  let fullNodeId := "sidecar~" ++ host address ++ "~" ++ nodeId ++ "~" ++ "testDNS"
  let metaData := [("CLUSTER_ID", "Kubernetes"), ("CONFIG_NAMESPACE", "default"),
    ("ISTIO_VERSION", "1.5.1"), ("NAME", "test"), ("NAMESPACE", "default"), ("POD_NAME", "test")]
  { node := {
      -- an empty string is the value of a field that is not set
      cluster := clusterName
      id := if nodeId.isEmpty then "" else fullNodeId
      userAgentName := "anylinkLibrary"
      metadata := some (metaData.foldl (fun struct item => assign struct item.1 item.2) {}) }
    address := address }

/-- `getLocalAddress` asks the socket and then returns a constant. -/
def localAddress : String := "0.0.0.0"

def localNode (nodeId : String) : Node :=
  (LocalInfo.ofCluster localAddress "????????????" nodeId).node

def AdsManager.construct (pilotUrl nodeId : String) : AdsManager where
  pilotUrl := pilotUrl
  node := localNode nodeId

/-- Different names give different identities. -/
theorem localNode_injective : Function.Injective localNode := by
  intro nodeId other h
  have hid : (localNode nodeId).id = (localNode other).id := congrArg Node.id h
  have hset (name : String) (hname : name.isEmpty = false) :
      (localNode name).id = "sidecar~0.0.0.0~" ++ name ++ "~testDNS" := by
    simp only [localNode, LocalInfo.ofCluster, hname, Bool.false_eq_true, if_false]
    have hhost : host localAddress = "0.0.0.0" := by decide
    rw [hhost, String.append_assoc]
    rfl
  have hunset (name : String) (hname : name.isEmpty = true) : (localNode name).id = "" := by
    simp only [localNode, LocalInfo.ofCluster, hname, if_true]
  have hne (name : String) : "sidecar~0.0.0.0~" ++ name ++ "~testDNS" ≠ "" := by
    intro heq
    simpa using congrArg String.length heq
  cases hempty : nodeId.isEmpty <;> cases hother : other.isEmpty
  · rw [hset nodeId hempty, hset other hother] at hid
    simpa using hid
  · rw [hset nodeId hempty, hunset other hother] at hid
    exact absurd hid (hne nodeId)
  · rw [hunset nodeId hempty, hset other hother] at hid
    exact absurd hid.symm (hne other)
  · rw [String.isEmpty_iff] at hempty hother
    rw [hempty, hother]

/-! ## The statics -/

inductive Logger where
  | silent
  | given (address : ℕ)
  deriving DecidableEq

structure IstioLinkManager where
  pilotAddr : String
  nodeId : String
  adsManager : AdsManager

/-- The static members of `IstioLinkManager`, and the logger of `AdsManager`. The subscriptions
that `init` allocates get the addresses from `nextAddress` on. -/
structure Statics where
  linkInstance : Option IstioLinkManager := none
  logger : Option Logger := none
  managerLogger : Option Logger := none
  nextAddress : ℕ := 0

namespace Statics

def construct (l : Statics) (pilotAddr nodeId : String) : Statics :=
  { l with
    linkInstance := some ⟨pilotAddr, nodeId, AdsManager.construct pilotAddr nodeId⟩
    logger := some .silent
    managerLogger := some (l.managerLogger.getD .silent) }

def addSubscription (l : Statics) (sub : ℕ → Subscription) : Statics :=
  { l with
    linkInstance := l.linkInstance.map fun link =>
      { link with adsManager := link.adsManager.addSubscription (sub l.nextAddress) }
    nextAddress := l.nextAddress + 1 }

def init (l : Statics) (pilotAddr nodeId : String) (logger : Option ℕ) : Statics :=
  let l := if l.linkInstance.isNone then l.construct pilotAddr nodeId else l
  let l := match logger with
    | none => { l with logger := some .silent }
    | some address =>
      { l with logger := some (.given address), managerLogger := some (.given address) }
  (((l.addSubscription clusterSubscription).addSubscription listenerSubscription).addSubscription
    endpointSubscription).addSubscription routeSubscription

/-- `init` without an address, where `istioAddress` is what `getenv` finds. -/
def initFromEnvironment (l : Statics) (istioAddress : Option String) (nodeId : String)
    (logger : Option ℕ) : Statics :=
  l.init (istioAddress.getD "istiod.istio-system.svc.cluster.local:15010") nodeId logger

/-- `getIstioLinkManager()->startLink()`: the address of the channel and what becomes of the
manager, or nothing if the pointer is null. -/
def startLink (l : Statics) (outcome : ℕ → Option DiscoveryResponse) :
    Option (String × Except AdsManager AdsManager) :=
  l.linkInstance.map fun link => (link.adsManager.pilotUrl, link.adsManager.startClient outcome)

end Statics

structure Init where
  pilotAddr : Option String
  nodeId : String
  logger : Option ℕ

section Inits
variable (istioAddress : Option String)

def Init.address (call : Init) : String :=
  call.pilotAddr.getD (istioAddress.getD "istiod.istio-system.svc.cluster.local:15010")

def Statics.call (l : Statics) (call : Init) : Statics :=
  match call.pilotAddr with
  | some pilotAddr => l.init pilotAddr call.nodeId call.logger
  | none => l.initFromEnvironment istioAddress call.nodeId call.logger

def inits (calls : List Init) : Statics := calls.foldl (Statics.call istioAddress) {}

theorem call_eq (l : Statics) (call : Init) :
    l.call istioAddress call = l.init (call.address istioAddress) call.nodeId call.logger := by
  unfold Statics.call Init.address Statics.initFromEnvironment
  cases call.pilotAddr <;> rfl

theorem addSubscription_served {pilotUrl : String} {node : Node} {subs : List Subscription}
    {sub : Subscription} (h : Served subs sub.typeUrl) :
    (subscribed pilotUrl node subs).addSubscription sub = subscribed pilotUrl node subs := by
  obtain ⟨present, hpresent⟩ := served_iff.mp h
  rw [subscribed_eq]
  simp [AdsManager.addSubscription, table, hpresent]

def linked (first : Init) : IstioLinkManager where
  pilotAddr := first.address istioAddress
  nodeId := first.nodeId
  adsManager := subscribed (first.address istioAddress) (localNode first.nodeId) linkSubscriptions

theorem init_first (first : Init) :
    (Statics.call istioAddress {} first).linkInstance = some (linked istioAddress first) := by
  rw [call_eq]
  cases first.logger <;> rfl

/-- A later call adds nothing. -/
theorem init_later {l : Statics} {first : Init}
    (h : l.linkInstance = some (linked istioAddress first)) (call : Init) :
    (l.call istioAddress call).linkInstance = some (linked istioAddress first) := by
  have hadd (l : Statics) (hl : l.linkInstance = some (linked istioAddress first))
      (sub : ℕ → Subscription) (hsub : ∀ address, Served linkSubscriptions (sub address).typeUrl) :
      (l.addSubscription sub).linkInstance = some (linked istioAddress first) := by
    simp only [Statics.addSubscription, hl, Option.map_some, linked,
      addSubscription_served (hsub l.nextAddress)]
  have hserved (url : String) (hurl : url ∈ urlList) : Served linkSubscriptions url := by
    revert url
    decide
  rw [call_eq]
  simp only [Statics.init, h, Option.isNone_some, Bool.false_eq_true, if_false]
  apply hadd _ _ _ fun _ => hserved _ (by simp [urlList, routeSubscription])
  apply hadd _ _ _ fun _ => hserved _ (by simp [urlList, endpointSubscription])
  apply hadd _ _ _ fun _ => hserved _ (by simp [urlList, listenerSubscription])
  apply hadd _ _ _ fun _ => hserved _ (by simp [urlList, clusterSubscription])
  cases call.logger <;> rfl

theorem inits_linkInstance (first : Init) (later : List Init) :
    (inits istioAddress (first :: later)).linkInstance = some (linked istioAddress first) := by
  induction later using List.reverseRecOn with
  | nil => exact init_first istioAddress first
  | append_singleton later call ih =>
    rw [inits, ← List.cons_append, List.foldl_append]
    exact init_later istioAddress ih call

theorem call_logger (l : Statics) (call : Init) :
    (l.call istioAddress call).logger = some ((call.logger.map .given).getD .silent) := by
  rw [call_eq]
  cases hlogger : call.logger <;> simp [Statics.init, Statics.addSubscription]

theorem call_managerLogger (l : Statics) (call : Init) :
    (l.call istioAddress call).managerLogger = (call.logger.map .given).or
      (if l.linkInstance.isNone then some (l.managerLogger.getD .silent) else l.managerLogger) := by
  rw [call_eq]
  cases hinstance : l.linkInstance <;> cases hlogger : call.logger <;>
    simp [Statics.init, Statics.addSubscription, Statics.construct, hinstance]

/-- The link logs to what the last call passed, the manager to the last logger that was passed:
a null pointer silences the one and not the other. -/
theorem inits_loggers (first : Init) (later : List Init) :
    (inits istioAddress (first :: later)).logger =
        some (((((first :: later).getLast?).bind Init.logger).map .given).getD .silent) ∧
      (inits istioAddress (first :: later)).managerLogger =
        some ((((first :: later).filterMap Init.logger).getLast?.map .given).getD .silent) := by
  induction later using List.reverseRecOn with
  | nil =>
    refine ⟨call_logger istioAddress {} first, (call_managerLogger istioAddress {} first).trans ?_⟩
    cases hlogger : first.logger <;> simp [hlogger]
  | append_singleton later call ih =>
    have hsome := inits_linkInstance istioAddress first later
    have hlast : inits istioAddress (first :: (later ++ [call])) =
        (inits istioAddress (first :: later)).call istioAddress call := by
      rw [inits, inits, ← List.cons_append, List.foldl_append]
      rfl
    rw [hlast, call_logger, call_managerLogger, hsome, ih.2, ← List.cons_append,
      List.getLast?_concat, List.filterMap_append]
    refine ⟨rfl, ?_⟩
    cases hlogger : call.logger <;> simp [hlogger]

end Inits

/-- Whatever calls of `init` were made, in whatever order and form: `startLink` connects to the
address of the first one and runs the four subscriptions under its identity. It follows no null
pointer exactly when every response it reads is of one of the four types, and then it has
written one request and one acknowledgement for each type in the order of the list. -/
theorem link_starts (istioAddress : Option String) (first : Init) (later : List Init)
    (outcome : ℕ → Option DiscoveryResponse) :
    ∃ result, (inits istioAddress (first :: later)).startLink outcome =
        some (first.address istioAddress, result) ∧
      ((∃ m, result = .ok m) ↔ ∀ i < urlList.length, ∀ response, outcome i = some response →
        response.typeUrl ∈ urlList) ∧
      ∀ m, result = .ok m →
        m.events = exchanges linkSubscriptions outcome (localNode first.nodeId) 0 urlList := by
  have hserved (url : String) : Served linkSubscriptions url ↔ url ∈ urlList := by
    simp [Served, linkSubscriptions, urlList, clusterSubscription, listenerSubscription,
      endpointSubscription, routeSubscription, eq_comm]
  have hcovered := eachTurn_covered_iff linkSubscriptions outcome
  simp only [hserved] at hcovered
  refine ⟨(linked istioAddress first).adsManager.startClient outcome, ?_, ?_, ?_⟩
  · rw [Statics.startLink, inits_linkInstance, Option.map_some, linked, subscribed_eq]
  · constructor
    · rintro ⟨m, hm⟩
      by_contra h
      obtain ⟨m', hm'⟩ := startClient_not_covered (first.address istioAddress)
        (localNode first.nodeId) linkSubscriptions outcome
        (by rw [hcovered]; exact fun hall => h hall.2)
      simp only [linked] at hm
      rw [hm'] at hm
      cases hm
    · intro h
      exact ⟨_, startClient_covered _ _ _ _ (hcovered.mpr ⟨fun _ hurl => hurl, h⟩)⟩
  · intro m hm
    by_cases h : EachTurn (Covered linkSubscriptions outcome) 0 urlList
    · simp only [linked] at hm
      rw [startClient_covered _ _ _ _ h] at hm
      cases hm
      rfl
    · obtain ⟨m', hm'⟩ := startClient_not_covered (first.address istioAddress)
        (localNode first.nodeId) linkSubscriptions outcome h
      simp only [linked] at hm
      rw [hm'] at hm
      cases hm

end XdsClient.Manager
