import XdsClient.Manager.AdsManager

/-! # What `startClient` does with the table and with the responses

One turn of the loop is described once, for a type that has a subscription and for one that
has none. Both results about the whole loop follow by induction over the URLs.
-/
namespace XdsClient.Manager
open Ads

section Turn
variable (subs : List Subscription) (outcome : ℕ → Option DiscoveryResponse)

/-- The pointers followed in a turn are there: the URL and the response, if any, have a
subscription. -/
def Covered (n : ℕ) (url : String) : Prop :=
  Served subs url ∧ ∀ response, outcome n = some response → Served subs response.typeUrl

def handing : Option DiscoveryResponse → List Event
  | some response => (first subs response.typeUrl).toList.map fun sub => .handed sub response
  | none => []

/-- What the acknowledgement of a turn says: the request of the URL, with the version and the
nonce of whatever was read. -/
def answer (node : Node) (sub : Subscription) (result : Option DiscoveryResponse) :
    DiscoveryRequest :=
  { sub.makeRequestDiscoveryService node with
    versionInfo := (result.getD {}).versionInfo, responseNonce := (result.getD {}).nonce }

def exchange (node : Node) (sub : Subscription) (result : Option DiscoveryResponse) : List Event :=
  .subscribe (sub.makeRequestDiscoveryService node) :: .read result ::
    (handing subs result ++ [.ack (answer node sub result)])

theorem follow_served {m : AdsManager} (hm : m.subscribeMap = table subs) {url : String}
    {sub : Subscription} (h : first subs url = some sub) :
    AdsManager.follow (m.subscribeMapAt url) = .ok (sub, m) := by
  simp [AdsManager.subscribeMapAt, AdsManager.follow, hm, table, h]

theorem follow_not_served {m : AdsManager} (hm : m.subscribeMap = table subs) {url : String}
    (h : ¬ Served subs url) : ∃ m', AdsManager.follow (m.subscribeMapAt url) = .error m' := by
  simp [AdsManager.subscribeMapAt, AdsManager.follow, hm, table, not_served_iff.mp h]

theorem receiveADS_covered {m : AdsManager} (hm : m.subscribeMap = table subs)
    (h : ∀ response, outcome m.reads = some response → Served subs response.typeUrl) :
    m.receiveADS outcome = .ok ((outcome m.reads).getD {},
      { m with reads := m.reads + 1,
               events := m.events ++ .read (outcome m.reads) :: handing subs (outcome m.reads) }) := by
  cases hread : outcome m.reads with
  | none => simp [AdsManager.receiveADS, hread, handing, AdsManager.read, AdsManager.log]
  | some response =>
    obtain ⟨sub, hsub⟩ := served_iff.mp (h response hread)
    have hfollow := follow_served subs (m := m.read (some response)) hm hsub
    simp only [AdsManager.receiveADS, hread, hfollow, Except.bind]
    simp [handing, hsub, AdsManager.read, AdsManager.log]

theorem receiveADS_not_served {m : AdsManager} (hm : m.subscribeMap = table subs)
    {response : DiscoveryResponse} (hread : outcome m.reads = some response)
    (h : ¬ Served subs response.typeUrl) : ∃ m', m.receiveADS outcome = .error m' := by
  obtain ⟨m', hfollow⟩ := follow_not_served subs (m := m.read (some response)) hm h
  exact ⟨m', by simp only [AdsManager.receiveADS, hread, hfollow, Except.bind]⟩

theorem subscribeUrl_covered {m : AdsManager} (hm : m.subscribeMap = table subs) {url : String}
    {sub : Subscription} (hsub : first subs url = some sub)
    (h : ∀ response, outcome m.reads = some response → Served subs response.typeUrl) :
    AdsManager.subscribeUrl outcome m url = .ok { m with
      reads := m.reads + 1,
      events := m.events ++ exchange subs m.node sub (outcome m.reads) } := by
  have hreceive := receiveADS_covered subs outcome
    (m := m.log (.subscribe (sub.makeRequestDiscoveryService m.node))) hm h
  simp only [AdsManager.subscribeUrl, follow_served subs hm hsub, Except.bind,
    AdsManager.initSubscribe]
  rw [hreceive]
  simp [AdsManager.sendACK, AdsManager.log, exchange, answer]

theorem subscribeUrl_not_covered {m : AdsManager} (hm : m.subscribeMap = table subs) {url : String}
    (h : ¬ Covered subs outcome m.reads url) :
    ∃ m', AdsManager.subscribeUrl outcome m url = .error m' := by
  by_cases hurl : Served subs url
  · obtain ⟨sub, hsub⟩ := served_iff.mp hurl
    obtain ⟨response, hread, hresponse⟩ : ∃ response, outcome m.reads = some response ∧
        ¬ Served subs response.typeUrl := by
      simpa [Covered, hurl] using h
    obtain ⟨m', hreceive⟩ := receiveADS_not_served subs outcome
      (m := m.log (.subscribe (sub.makeRequestDiscoveryService m.node))) hm hread hresponse
    refine ⟨m', ?_⟩
    simp only [AdsManager.subscribeUrl, follow_served subs hm hsub, Except.bind,
      AdsManager.initSubscribe]
    rw [hreceive]
  · obtain ⟨m', hfollow⟩ := follow_not_served subs hm hurl
    exact ⟨m', by simp [AdsManager.subscribeUrl, hfollow, Except.bind]⟩

end Turn

section Loop
variable (subs : List Subscription) (outcome : ℕ → Option DiscoveryResponse)

def EachTurn (P : ℕ → String → Prop) (n : ℕ) (urls : List String) : Prop :=
  ∀ i url, urls[i]? = some url → P (n + i) url

theorem eachTurn_cons {P : ℕ → String → Prop} {n : ℕ} {url : String} {urls : List String} :
    EachTurn P n (url :: urls) ↔ P n url ∧ EachTurn P (n + 1) urls := by
  constructor
  · intro h
    refine ⟨h 0 url rfl, fun i other hi => ?_⟩
    have hshift : n + 1 + i = n + (i + 1) := by omega
    rw [hshift]
    exact h (i + 1) other hi
  · rintro ⟨hurl, hurls⟩ i other hi
    cases i with
    | zero =>
      rcases Option.some.inj hi with rfl
      exact hurl
    | succ i =>
      have hshift : n + (i + 1) = n + 1 + i := by omega
      rw [hshift]
      exact hurls i other hi

def exchanges (node : Node) : ℕ → List String → List Event
  | _, [] => []
  | n, url :: urls =>
    ((first subs url).toList.flatMap fun sub => exchange subs node sub (outcome n)) ++
      exchanges node (n + 1) urls

theorem foldlM_covered (urls : List String) (m : AdsManager) (hm : m.subscribeMap = table subs)
    (h : EachTurn (Covered subs outcome) m.reads urls) :
    urls.foldlM (AdsManager.subscribeUrl outcome) m = .ok { m with
      reads := m.reads + urls.length,
      events := m.events ++ exchanges subs outcome m.node m.reads urls } := by
  induction urls generalizing m with
  | nil =>
    simp [exchanges]
    rfl
  | cons url urls ih =>
    obtain ⟨⟨hurl, hread⟩, hurls⟩ := eachTurn_cons.mp h
    obtain ⟨sub, hsub⟩ := served_iff.mp hurl
    rw [List.foldlM_cons, subscribeUrl_covered subs outcome hm hsub hread]
    refine (ih ⟨m.pilotUrl, m.node, m.subscribeMap, m.reads + 1, _⟩ hm hurls).trans ?_
    simp only [exchanges, hsub, Option.toList_some, List.flatMap_singleton, List.append_assoc,
      List.length_cons]
    congr 2
    omega

theorem foldlM_not_covered (urls : List String) (m : AdsManager)
    (hm : m.subscribeMap = table subs) (h : ¬ EachTurn (Covered subs outcome) m.reads urls) :
    ∃ m', urls.foldlM (AdsManager.subscribeUrl outcome) m = .error m' := by
  induction urls generalizing m with
  | nil => exact absurd (fun i url hi => by simp at hi) h
  | cons url urls ih =>
    rw [eachTurn_cons, not_and_or] at h
    rw [List.foldlM_cons]
    by_cases hurl : Covered subs outcome m.reads url
    · obtain ⟨sub, hsub⟩ := served_iff.mp hurl.1
      rw [subscribeUrl_covered subs outcome hm hsub hurl.2]
      exact ih _ hm (h.resolve_left (not_not.mpr hurl))
    · obtain ⟨m', hm'⟩ := subscribeUrl_not_covered subs outcome hm hurl
      exact ⟨m', by rw [hm']; rfl⟩

end Loop

section Table
variable (pilotUrl : String) (node : Node) (subs : List Subscription)
  (outcome : ℕ → Option DiscoveryResponse)

theorem startClient_not_covered (h : ¬ EachTurn (Covered subs outcome) 0 urlList) :
    ∃ m, (subscribed pilotUrl node subs).startClient outcome = .error m := by
  rw [subscribed_eq]
  exact foldlM_not_covered subs outcome urlList _ rfl h

theorem startClient_covered (h : EachTurn (Covered subs outcome) 0 urlList) :
    (subscribed pilotUrl node subs).startClient outcome =
      .ok ⟨pilotUrl, node, table subs, 4, exchanges subs outcome node 0 urlList⟩ := by
  rw [subscribed_eq, AdsManager.startClient, foldlM_covered subs outcome urlList _ rfl h]
  rfl

theorem eachTurn_covered_iff :
    EachTurn (Covered subs outcome) 0 urlList ↔
      (∀ url ∈ urlList, Served subs url) ∧
        ∀ i < urlList.length, ∀ response, outcome i = some response →
          Served subs response.typeUrl := by
  constructor
  · intro h
    constructor
    · intro url hurl
      obtain ⟨i, hi⟩ := List.mem_iff_getElem?.mp hurl
      exact (h i url hi).1
    · intro i hi response hread
      refine (h i _ (List.getElem?_eq_getElem hi)).2 response ?_
      rw [Nat.zero_add]
      exact hread
  · rintro ⟨hurls, hreads⟩ i url hi
    refine ⟨hurls url (List.mem_of_getElem? hi), fun response hread => ?_⟩
    rw [Nat.zero_add] at hread
    exact hreads i (List.getElem?_eq_some_iff.mp hi).1 response hread

/-- No null pointer is followed and the table is left alone exactly when every URL and every
response has a subscription. -/
theorem start_follows_registered_iff :
    (∃ m, (subscribed pilotUrl node subs).startClient outcome = .ok m ∧
        ∀ url, m.subscribeMap url = (subs.find? fun sub => sub.typeUrl = url).map some) ↔
      (∀ url ∈ urlList, Served subs url) ∧
        ∀ i < urlList.length, ∀ response, outcome i = some response →
          Served subs response.typeUrl := by
  rw [← eachTurn_covered_iff]
  constructor
  · rintro ⟨m, hm, -⟩
    by_contra h
    obtain ⟨m', hm'⟩ := startClient_not_covered pilotUrl node subs outcome h
    rw [hm'] at hm
    cases hm
  · intro h
    exact ⟨_, startClient_covered pilotUrl node subs outcome h, fun url => rfl⟩

def strayPush (n : ℕ) : Option DiscoveryResponse :=
  if n = 0 then some { typeUrl := "type.googleapis.com/envoy.config.core.v3.ExtensionConfig" }
  else none

/-- The stray type is entered into the table with a null pointer, and the pointer is followed. -/
theorem stray_push_follows_null :
    ∃ m, (subscribed "" {} linkSubscriptions).startClient strayPush = .error m ∧
      m.subscribeMap "type.googleapis.com/envoy.config.core.v3.ExtensionConfig" = some none :=
  ⟨_, rfl, rfl⟩

end Table

section Acknowledgement
variable (subs : List Subscription)

def Acks (request : DiscoveryRequest) (response : DiscoveryResponse) : Prop :=
  request.typeUrl = response.typeUrl ∧ request.versionInfo = response.versionInfo ∧
    request.responseNonce = response.nonce

/-- Every acknowledgement is for one of the responses that are waiting for theirs. A response
waits from the moment it is handed, right after it was read, to the subscription registered for
its type, until it is acknowledged. `last` is the outcome of the latest read, as long as it was
not handed on. -/
def Acknowledges : Option DiscoveryResponse → List DiscoveryResponse → List Event → Prop
  | _, _, [] => True
  | last, waiting, .subscribe _ :: events => Acknowledges last waiting events
  | _, waiting, .read outcome :: events => Acknowledges outcome waiting events
  | last, waiting, .handed sub response :: events =>
    if last = some response ∧ first subs response.typeUrl = some sub then
      Acknowledges none (response :: waiting) events
    else Acknowledges last waiting events
  | last, waiting, .ack request :: events =>
    ∃ response ∈ waiting, Acks request response ∧
      Acknowledges last (waiting.erase response) events

/-- A turn that starts with no response waiting leaves none, if it acknowledges the one it
reads. -/
theorem acknowledges_exchange_iff (node : Node) {url : String} {sub : Subscription}
    (hsub : first subs url = some sub) (result : Option DiscoveryResponse)
    (hserved : ∀ response, result = some response → Served subs response.typeUrl)
    (last : Option DiscoveryResponse) (rest : List Event) :
    Acknowledges subs last [] (exchange subs node sub result ++ rest) ↔
      (∃ response, result = some response ∧ response.typeUrl = url) ∧
        Acknowledges subs none [] rest := by
  cases result with
  | none => simp [exchange, handing, Acknowledges]
  | some response =>
    obtain ⟨target, htarget⟩ := served_iff.mp (hserved response rfl)
    have hurl : sub.typeUrl = url := first_typeUrl hsub
    simp [exchange, handing, htarget, Acknowledges, Acks, answer,
      Subscription.makeRequestDiscoveryService, hurl, eq_comm (a := url)]

def InStep (outcome : ℕ → Option DiscoveryResponse) (n : ℕ) (url : String) : Prop :=
  ∃ response, outcome n = some response ∧ response.typeUrl = url

theorem acknowledges_exchanges_iff (outcome : ℕ → Option DiscoveryResponse) (node : Node)
    (urls : List String) (n : ℕ) (h : EachTurn (Covered subs outcome) n urls)
    (last : Option DiscoveryResponse) :
    Acknowledges subs last [] (exchanges subs outcome node n urls) ↔
      EachTurn (InStep outcome) n urls := by
  induction urls generalizing n last with
  | nil => simp [exchanges, Acknowledges, EachTurn]
  | cons url urls ih =>
    obtain ⟨⟨hurl, hread⟩, hurls⟩ := eachTurn_cons.mp h
    obtain ⟨sub, hsub⟩ := served_iff.mp hurl
    rw [exchanges, hsub, Option.toList_some, List.flatMap_singleton,
      acknowledges_exchange_iff subs node hsub _ hread, ih (n + 1) hurls, eachTurn_cons, InStep]

/-- The acknowledgements are right exactly when each read brings a response of the type that
was asked for just before. -/
theorem start_acknowledges_iff (pilotUrl : String) (node : Node)
    (outcome : ℕ → Option DiscoveryResponse)
    (hurls : ∀ url ∈ urlList, Served subs url)
    (hreads : ∀ i < urlList.length, ∀ response, outcome i = some response →
      Served subs response.typeUrl) :
    ∃ m, (subscribed pilotUrl node subs).startClient outcome = .ok m ∧
      (Acknowledges subs none [] m.events ↔
        ∀ i url, urlList[i]? = some url →
          ∃ response, outcome i = some response ∧ response.typeUrl = url) := by
  have hcovered := (eachTurn_covered_iff subs outcome).mpr ⟨hurls, hreads⟩
  refine ⟨_, startClient_covered pilotUrl node subs outcome hcovered, ?_⟩
  rw [acknowledges_exchanges_iff subs outcome node urlList 0 hcovered]
  simp [EachTurn, InStep]

end Acknowledgement

def orderlyServer (n : ℕ) : Option DiscoveryResponse :=
  urlList[n]?.map fun url => { typeUrl := url, versionInfo := "1", nonce := "n1" }

/-- A server that answers in the order of the list has every response acknowledged. -/
theorem start_acknowledges_iff_orderly :
    ∃ m, (subscribed "" {} linkSubscriptions).startClient orderlyServer = .ok m ∧
      Acknowledges linkSubscriptions none [] m.events := by
  obtain ⟨m, hm, hiff⟩ := start_acknowledges_iff linkSubscriptions "" {} orderlyServer (by decide)
    (by decide)
  refine ⟨m, hm, hiff.mpr ?_⟩
  intro i url hi
  exact ⟨_, by rw [orderlyServer, hi]; rfl, rfl⟩

/-- A second push of the clusters is acknowledged as the listeners that were asked for. -/
theorem repeated_push_acked_as_listener :
    ∃ m, (subscribed "" {} linkSubscriptions).startClient (fun _ => some clusterPush) = .ok m ∧
      ¬ Acknowledges linkSubscriptions none [] m.events := by
  have hcovered : EachTurn (Covered linkSubscriptions fun _ => some clusterPush) 0 urlList :=
    (eachTurn_covered_iff _ _).mpr ⟨by decide, fun i _ response h => by
      rcases Option.some.inj h with rfl
      decide⟩
  refine ⟨_, startClient_covered "" {} linkSubscriptions _ hcovered, ?_⟩
  rw [acknowledges_exchanges_iff _ _ _ _ _ hcovered]
  intro h
  obtain ⟨response, hresponse, htype⟩ := h 1 _ rfl
  rcases Option.some.inj hresponse with rfl
  revert htype
  decide

end XdsClient.Manager
