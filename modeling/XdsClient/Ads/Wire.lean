import XdsClient.Ads.Mux
import XdsClient.Ads.Registration

/-! # From the client to the multiplexer

`State.mux` forgets how the client keeps what it knows, and `wire` keeps of a history what
passes over the stream. The assignments of the client's functions are assignments of the
multiplexer; the list nodes and the stored iterators are where the registry of watches is used.
-/
namespace XdsClient.Ads
open Library Session

/-! ## What the two levels have in common -/

def Event.wire? : Event → Option Wire
  | .opened obtained => some (.opened obtained)
  | .write _ request => some (.request request)
  | .response message => some (.response message)
  | .writesDone => some .writesDone
  | .finish => some .finish
  | .nullCall => some .nullCall
  | _ => none

/-- What passed over the stream, in the order of time. -/
def wire (history : List Entry) : List Wire :=
  (history.filterMap fun e => e.event.wire?).reverse

theorem wire_cons (e : Entry) (past : List Entry) :
    wire (e :: past) = wire past ++ e.event.wire?.toList := by
  cases h : e.event.wire? <;> simp [wire, h]

def ApiState.topic (api : ApiState) : Topic where
  watches := api.watches.map WatchNode.watch
  versionInfo := api.request.versionInfo
  responseNonce := api.request.responseNonce
  subscribed := api.subscribed

/-- The client as a multiplexer. -/
def State.mux (s : State) : Mux where
  stub := s.stub
  streaming := s.stream.isSome
  shutdown := s.shutdown
  subscriptions := s.subscriptions
  topics typeUrl := (s.apiState typeUrl).map ApiState.topic
  watches watch := (s.watchers watch).map fun w => (w.typeUrl, w.resources)
  nextWatch := s.nextWatcher

theorem State.mux_topic (s : State) (typeUrl : String) :
    s.mux.topic typeUrl = (s.api typeUrl).topic := by
  cases h : s.apiState typeUrl with
  | none =>
    simp only [State.mux, Mux.topic, State.api, h]
    rfl
  | some api => simp [State.mux, Mux.topic, State.api, h]

theorem State.mux_names (s : State) (typeUrl : String) :
    s.mux.names typeUrl = s.resourceNames typeUrl := by
  have hnames (watch : ℕ) : ((s.mux.watches watch).map fun w => w.2.toList).getD [] =
      (s.resourcesOf watch).toList := by
    cases h : s.watchers watch with
    | none =>
      simp only [State.mux, State.resourcesOf, h]
      rfl
    | some w => simp [State.mux, State.resourcesOf, h]
  rw [State.resourceNames_eq, State.watchedNames, Mux.names, State.mux_topic, ApiState.topic,
    List.flatMap_map]
  simp only [hnames]

theorem State.mux_answers (s : State) (message : DiscoveryResponse) :
    s.mux.answers message = s.callsForAnswer message := by
  cases h : s.apiState message.typeUrl <;>
    simp [State.mux, Mux.answers, State.callsForAnswer, State.known, State.api, ApiState.topic, h]

/-! ## Assignments -/

section Assignments
variable (s : Session) (typeUrl : String)

theorem modifyApi_mux (f : ApiState → ApiState) (g : Topic → Topic)
    (h : (f (s.api typeUrl)).topic = g (s.api typeUrl).topic) :
    (s.modifyApi typeUrl f).mux = s.mux.alter typeUrl g := by
  have htopic := s.mux_topic typeUrl
  ext1 <;> try rfl
  funext t
  by_cases ht : t = typeUrl
  · subst ht
    simp [State.mux, Mux.alter, h] at htopic ⊢
    rw [htopic]
  · simp [State.mux, Mux.alter, ht]

theorem apiStateFor_mux : (s.apiStateFor typeUrl).mux = s.mux.alter typeUrl id := by
  rw [apiStateFor_eq_modifyApi]
  exact modifyApi_mux s typeUrl id id rfl

theorem updateResources_mux (watch : ℕ) (w : Watcher) (resources : OrderedSet String) :
    (s.updateResources watch w resources).mux = s.mux.enter watch w.typeUrl resources := by
  have halter : ((s.log (.register watch)).modifyApi w.typeUrl fun api =>
      { api with watches := ⟨s.nextNode, watch⟩ :: api.watches }).mux =
      s.mux.alter w.typeUrl fun topic => { topic with watches := watch :: topic.watches } :=
    modifyApi_mux _ _ _ _ rfl
  unfold Mux.enter
  rw [← halter]
  ext1 <;> try rfl
  funext a
  simp only [State.mux, updateResources_watchers]
  by_cases ha : a = watch
  · simp [ha]
  · simp [ha]

theorem newWatcher_mux (resources : OrderedSet String) :
    (s.newWatcher typeUrl resources).mux =
      { s.mux with nextWatch := s.nextWatcher + 1 }.enter s.nextWatcher typeUrl resources := by
  have halloc : State.mux { s.apiStateFor typeUrl with nextWatcher := s.nextWatcher + 1 }.toState =
      { s.mux.alter typeUrl id with nextWatch := s.nextWatcher + 1 } := by
    rw [← apiStateFor_mux]
    rfl
  unfold newWatcher
  rw [updateResources_mux, halloc]
  simp [Mux.enter, Mux.alter, Mux.topic]

theorem subscribe_mux : (s.subscribe typeUrl).mux = s.mux.mark typeUrl := by
  have hflag : (s.mux.topic typeUrl).subscribed = (s.api typeUrl).subscribed := by
    rw [State.mux_topic]
    rfl
  unfold subscribe Mux.mark
  rw [hflag]
  split_ifs
  · rfl
  · rw [← modifyApi_mux s typeUrl (fun api => { api with
      request := { api.request with typeUrl := typeUrl }, subscribed := true }) _ rfl]
    rfl

theorem ingest_mux (message : DiscoveryResponse) : (s.ingest message).mux = s.mux.ingest message := by
  have htopic (api : ApiState) : (api.ingest message).topic = api.topic.ingest message := by
    cases hw : api.watches.isEmpty <;>
      simp_all [ApiState.ingest, ApiState.topic, Topic.ingest]
  ext1 <;> try rfl
  funext t
  by_cases ht : t = message.typeUrl
  · subst ht
    simp [State.mux, Mux.ingest, htopic, Function.comp_def]
  · simp [State.mux, Mux.ingest, ht]

/-- The stored iterator names the watch. -/
theorem eraseWatch_mux (hregisters : Registers s.toState s.history) (watch : ℕ) (w : Watcher)
    (hw : s.watchers watch = some w) :
    (s.eraseWatch watch w).mux = s.mux.leave watch w.typeUrl := by
  have hkeep (n : WatchNode) (hn : n ∈ (s.api w.typeUrl).watches) :
      decide (n.node ≠ w.iter) = decide (n.watch ≠ watch) := by
    have hmem := hregisters.mem_erase watch w hw w.typeUrl n
    rw [eraseWatch_api, if_pos rfl, List.mem_filter] at hmem
    simpa [hn, not_iff_not] using hmem
  apply modifyApi_mux (s.log (.erase watch))
  have hfilter : ((s.api w.typeUrl).watches.filter fun n => n.node ≠ w.iter).map WatchNode.watch =
      ((s.api w.typeUrl).watches.map WatchNode.watch).filter (· ≠ watch) := by
    rw [List.filter_map, List.filter_congr hkeep]
    rfl
  simp only [ApiState.topic, Topic.mk.injEq, and_true]
  exact hfilter

theorem dropWatch_mux (hregisters : Registers s.toState s.history) (watch : ℕ) (w : Watcher)
    (hw : s.watchers watch = some w) :
    (s.dropWatch watch w).mux = s.mux.drop watch w.typeUrl := by
  unfold Mux.drop
  rw [← eraseWatch_mux s hregisters watch w hw]
  ext1 <;> try rfl
  funext a
  simp only [State.mux, dropWatch_watchers]
  by_cases ha : a = watch
  · simp [ha]
  · simp [ha]

/-- A send changes the multiplexer only if it subscribes its type. -/
theorem beginSend_mux (hknown : s.known typeUrl = true) : (s.beginSend typeUrl).mux =
    if s.subscribes typeUrl then s.mux.mark typeUrl else s.mux := by
  have hmux : (s.beginSend typeUrl).mux = { s.mux.alter typeUrl fun topic =>
      { topic with subscribed := topic.subscribed || s.subscribes typeUrl } with
      subscriptions := s.subscriptions ++ if s.subscribes typeUrl then [typeUrl] else [] } := by
    have hsent := modifyApi_mux s typeUrl (fun _ => (s.prepared typeUrl).afterWrite)
      (fun topic => { topic with subscribed := topic.subscribed || s.subscribes typeUrl }) rfl
    rw [← hsent, beginSend, writeRequest_toState]
    rfl
  obtain ⟨api, hapi⟩ := Option.isSome_iff_exists.mp hknown
  have htopics : s.mux.topics typeUrl = some (s.mux.topic typeUrl) := by
    simp [State.mux, Mux.topic, hapi]
  rw [hmux]
  cases hsub : s.subscribes typeUrl with
  | false =>
    simp only [Bool.or_false, Mux.alter, ← htopics, Function.update_eq_self]
    simp [State.mux]
  | true =>
    have hflag : (s.mux.topic typeUrl).subscribed = false := by
      have hboth := hsub
      rw [State.subscribes, Bool.and_eq_true, Bool.not_eq_true'] at hboth
      rw [State.mux_topic]
      exact hboth.2
    simp [Mux.mark, hflag]
    rfl

theorem firstQueued_mux (responses : List DiscoveryResponse) :
    (s.firstQueued responses).mux = s.mux.start := by
  have hopened : (s.openStream responses).mux = { s.mux with
      streaming := true
      topics := fun t => (s.mux.topics t).map fun topic => { topic with responseNonce := "" } } := by
    ext1 <;> try rfl
    funext t
    simp [State.mux, openStream, Function.comp_def, ApiState.topic]
  have hqueued : (s.firstQueued responses).mux =
      ((s.openStream responses).apiStateFor clusterTypeUrl).mux := by
    ext1 <;> simp [State.mux, firstQueued]
  rw [hqueued, apiStateFor_mux, hopened]
  rfl

end Assignments

end XdsClient.Ads
