import XdsClient.Ads.Registry

/-! # The registry along a run

Only `updateResources` and `eraseWatch` touch the registry; every other step of the
client leaves it as it is, and a send reads the names of its request off it. So the
registry is in order at every entry of the history, and so is every request.
-/
namespace XdsClient.Ads
open Library Session

/-! ## Steps that leave the registry alone -/

/-- The watches are the same if the lists and the heap are. -/
theorem State.registry_ext {s s' : State} (hwatches : ∀ t, (s'.api t).watches = (s.api t).watches)
    (hwatchers : s'.watchers = s.watchers) (hwatcher : s'.nextWatcher = s.nextWatcher)
    (hnode : s'.nextNode = s.nextNode) : s'.registry = s.registry := by
  unfold State.registry
  rw [hwatchers, hwatcher, hnode]
  congr 1
  funext t
  exact hwatches t

theorem ingest_registry (s : Session) (message : DiscoveryResponse) :
    (s.ingest message).registry = s.registry := by
  refine State.registry_ext (fun t => ?_) rfl rfl rfl
  rw [ingest_api]
  split_ifs <;> simp

theorem prepareRequest_registry (s : Session) (typeUrl : String) :
    (s.prepareRequest typeUrl).registry = s.registry := by
  rw [prepareRequest_eq]
  refine State.registry_ext (fun t => ?_) rfl rfl rfl
  by_cases ht : t = typeUrl
  · subst ht
    simp [State.api, State.prepared]
  · simp [State.api, ht]

theorem beginSend_registry (s : Session) (typeUrl : String) :
    (s.beginSend typeUrl).registry = s.registry := by
  have hsent (t : String) : ((s.beginSend typeUrl).api t).watches = (s.api t).watches := by
    by_cases ht : t = typeUrl
    · subst ht
      rw [beginSend_api_self]
      rfl
    · rw [beginSend_api_of_ne s typeUrl ht]
  apply State.registry_ext hsent <;> simp [beginSend, writeRequest_toState]

theorem apiStateFor_registry (s : Session) (typeUrl : String) :
    (s.apiStateFor typeUrl).registry = s.registry := by
  have hfixed : (s.apiStateFor typeUrl).watchers = s.watchers ∧
      (s.apiStateFor typeUrl).nextWatcher = s.nextWatcher ∧
      (s.apiStateFor typeUrl).nextNode = s.nextNode := by
    rw [apiStateFor_eq_modifyApi]
    exact ⟨rfl, rfl, rfl⟩
  apply State.registry_ext _ hfixed.1 hfixed.2.1 hfixed.2.2
  intro t
  rw [apiStateFor_api]

theorem openStream_registry (s : Session) (responses : List DiscoveryResponse) :
    (s.openStream responses).registry = s.registry := by
  refine State.registry_ext (fun t => ?_) rfl rfl rfl
  rw [openStream_api]

theorem subscribe_registry (s : Session) (typeUrl : String) :
    (s.subscribe typeUrl).registry = s.registry := by
  have hsame (t : String) : ((s.subscribe typeUrl).api t).watches = (s.api t).watches := by
    rw [subscribe_api]
    split_ifs <;> rfl
  unfold subscribe at *
  split_ifs at *
  · rfl
  · exact State.registry_ext hsame rfl rfl rfl

theorem State.resourceNames_congr {s s' : State} (h : s'.registry = s.registry)
    (typeUrl : String) : s'.resourceNames typeUrl = s.resourceNames typeUrl := by
  simp only [State.registry, Prod.mk.injEq] at h
  have hlist : (s'.api typeUrl).watches = (s.api typeUrl).watches := congrFun h.1 typeUrl
  simp only [State.resourceNames, State.resourcesOf, hlist, h.2.1]

/-! ## The registry along a run -/

def Event.Unlisted (event : Event) : Prop :=
  (∀ watch, event ≠ .register watch) ∧ ∀ watch, event ≠ .erase watch

/-- A request carries the names that the watches determine when it is written. -/
def Entry.Exact (e : Entry) : Prop :=
  ∀ typeUrl request, e.event = .write typeUrl request →
    request.resourceNames = e.state.resourceNames typeUrl

def Registering (s : Session) : Prop :=
  Always (fun e earlier => Registers e.state earlier ∧ e.Exact) s.history ∧
    Registers s.toState s.history

theorem Registers.unlisted {s s' : State} {past : List Entry} (h : Registers s past)
    {event : Event} (state : State) (hevent : event.Unlisted) (hregistry : s'.registry = s.registry) :
    Registers s' (⟨event, state⟩ :: past) := by
  apply h.congr hregistry
  · intro watch
    cases event with
    | register w => exact absurd rfl (hevent.1 w)
    | erase w => exact absurd rfl (hevent.2 w)
    | _ => rfl
  · intro watch
    cases event with
    | register w => exact absurd rfl (hevent.1 w)
    | _ => rfl

namespace Registering
variable {s : Session} (h : Registering s)
include h

theorem step {s' : Session} {event : Event} {state : State}
    (hhistory : s'.history = ⟨event, state⟩ :: s.history) (hevent : event.Unlisted)
    (hexact : Entry.Exact ⟨event, state⟩) (hstate : state.registry = s.registry)
    (hregistry : s'.registry = s.registry) : Registering s' := by
  unfold Registering
  rw [hhistory]
  have hpast : Registers state s.history := h.2.congr hstate (fun _ => rfl) (fun _ => rfl)
  exact ⟨⟨⟨hpast, hexact⟩, h.1⟩, h.2.unlisted state hevent hregistry⟩

theorem log (event : Event) (hevent : event.Unlisted) (hwrite : ∀ t r, event ≠ .write t r) :
    Registering (s.log event) :=
  h.step rfl hevent (fun t r hw => absurd hw (hwrite t r)) rfl rfl

theorem assign {s' : Session} (hhistory : s'.history = s.history)
    (hregistry : s'.registry = s.registry) : Registering s' := by
  unfold Registering
  rw [hhistory]
  exact ⟨h.1, h.2.congr hregistry (fun _ => rfl) (fun _ => rfl)⟩

theorem beginSend (typeUrl : String) (hstream : s.stream.isSome = true) :
    Registering (s.beginSend typeUrl) := by
  have hsend := h.log (.send typeUrl) ⟨by simp, by simp⟩ (by simp)
  have hprepared := prepareRequest_registry (s.log (.send typeUrl)) typeUrl
  refine hsend.step (beginSend_history s typeUrl hstream) ⟨by simp, by simp⟩ ?_ hprepared
    (beginSend_registry s typeUrl)
  intro t r hw
  rcases Event.write.inj hw with ⟨rfl, rfl⟩
  exact (State.resourceNames_congr hprepared typeUrl).symm

theorem ingest (message : DiscoveryResponse) : Registering (s.ingest message) :=
  h.step rfl ⟨by simp, by simp⟩ (by simp [Entry.Exact]) rfl (ingest_registry s message)

theorem openStream (responses : List DiscoveryResponse) : Registering (s.openStream responses) :=
  h.step rfl ⟨by simp, by simp⟩ (by simp [Entry.Exact]) rfl (openStream_registry s responses)

theorem apiStateFor (typeUrl : String) : Registering (s.apiStateFor typeUrl) :=
  h.assign (by rw [apiStateFor_eq_modifyApi]; rfl) (apiStateFor_registry s typeUrl)

theorem newWatcher (typeUrl : String) (resources : OrderedSet String) :
    Registering (s.newWatcher typeUrl resources) := by
  have halloc := h.apiStateFor typeUrl
  have hnext : (s.apiStateFor typeUrl).nextWatcher = s.nextWatcher := by
    rw [apiStateFor_eq_modifyApi]
    rfl
  have hnew : Registers { s.apiStateFor typeUrl with nextWatcher := s.nextWatcher + 1 }.toState
      (s.apiStateFor typeUrl).history := by
    refine ⟨halloc.2.live, halloc.2.listed, halloc.2.recent, halloc.2.distinct, halloc.2.nodes, ?_⟩
    intro watch hle
    apply halloc.2.fresh watch
    simp only at hle
    omega
  refine ⟨⟨⟨hnew, by simp [Entry.Exact]⟩, halloc.1⟩, hnew.updateResources _ _ _ ?_ (Nat.lt_succ_self _)⟩
  rintro t n hn heq
  rcases halloc.2.live t n hn with ⟨w, hw, _⟩
  have hnone := halloc.2.fresh n.watch (by omega)
  simp [hnone] at hw

theorem updateResources (watch : ℕ) (w : Watcher) (resources : OrderedSet String)
    (hw : s.watchers watch = some w) (herased : erased watch s.history = true) :
    Registering (s.updateResources watch w resources) := by
  refine ⟨⟨⟨h.2, by simp [Entry.Exact]⟩, h.1⟩, h.2.updateResources watch w resources ?_ ?_⟩
  · rintro t n hn rfl
    rcases h.2.live t n hn with ⟨_, _, _, _, hno⟩
    simp [herased] at hno
  · by_contra hge
    have hnone := h.2.fresh watch (by omega)
    simp [hw] at hnone

theorem eraseWatch (watch : ℕ) (w : Watcher) (hw : s.watchers watch = some w) :
    Registering (s.eraseWatch watch w) :=
  ⟨⟨⟨h.2, by simp [Entry.Exact]⟩, h.1⟩, h.2.eraseWatch watch w hw⟩

theorem dropWatch (watch : ℕ) (w : Watcher) (hw : s.watchers watch = some w) :
    Registering (s.dropWatch watch w) :=
  ⟨⟨⟨h.2, by simp [Entry.Exact]⟩, h.1⟩, h.2.dropWatch watch w hw⟩

end Registering

theorem registering_stable : Stable Registering := by
  constructor
  · exact fun s h => h.log _ ⟨by simp, by simp⟩ (by simp)
  · intro s message rest _ _ h
    have hread := h.log (.read (some message)) ⟨by simp, by simp⟩ (by simp)
    have hrest : Registering { s.log (.read (some message)) with stream := some rest } :=
      hread.assign rfl rfl
    exact hrest.ingest message
  · exact fun s t _ _ h => h.step rfl ⟨by simp, by simp⟩ (by simp [Entry.Exact]) rfl rfl
  · exact fun s t rest hs _ _ h => h.beginSend t hs
  · exact fun s t _ h => h.log _ ⟨by simp, by simp⟩ (by simp)
  · exact fun s t h => h.log _ ⟨by simp, by simp⟩ (by simp)
  · exact fun s h => h.step rfl ⟨by simp, by simp⟩ (by simp [Entry.Exact]) rfl rfl

theorem registering_kept : Kept Registering where
  toStable := registering_stable
  stub := fun s h => h.assign rfl rfl
  nullCall := fun s h => h.log _ ⟨by simp, by simp⟩ (by simp)
  openFailed := fun s h => (h.log (.opened false) ⟨by simp, by simp⟩ (by simp)).assign rfl rfl
  openStream := fun s responses _ hdown h => by
    have hopen := (h.openStream responses).apiStateFor clusterTypeUrl
    have hpush : Registering
        (((s.openStream responses).apiStateFor clusterTypeUrl).emplace clusterTypeUrl) :=
      hopen.step rfl ⟨by simp, by simp⟩ (by simp [Entry.Exact]) rfl rfl
    apply registering_stable.openStream_request s responses hdown
    exact hpush.beginSend clusterTypeUrl (by simp [Session.openStream])
  openStreamDown := fun s responses _ _ h => (h.openStream responses).apiStateFor clusterTypeUrl
  addWatch := fun s typeUrl resources _ h => by
    have hnew := h.newWatcher typeUrl resources
    apply hnew.assign _ (subscribe_registry _ typeUrl)
    unfold subscribe
    split_ifs <;> rfl
  eraseWatch := fun s watch w hw _ h => h.eraseWatch watch w hw
  updateResources := fun s watch w resources hw _ herased h =>
    h.updateResources watch w resources hw herased
  dropWatch := fun s watch w hw _ h => h.dropWatch watch w hw
  ingest := fun s message h => h.ingest message
  shutdown := fun s h => by
    unfold Ads.shutdown Session.endStream
    split
    · exact (h.log _ ⟨by simp, by simp⟩ (by simp)).assign rfl rfl
    · have hdone := h.log .writesDone ⟨by simp, by simp⟩ (by simp)
      exact (hdone.log .finish ⟨by simp, by simp⟩ (by simp)).assign rfl rfl

theorem registering_construct (channel : Bool) : Registering (construct channel) := by
  refine ⟨trivial, ⟨?_, ?_, ?_, ?_, ?_, ?_⟩⟩ <;> simp [construct, State.api]

/-! ## Between two calls no watch is inside `update` -/

theorem request_erased (s : Session) (typeUrl : String) (watch : ℕ) :
    erased watch (s.request typeUrl).history = erased watch s.history := by
  apply (erased_stable watch _).request_of_alloc s typeUrl rfl
  rw [apiStateFor_eq_modifyApi]
  rfl

theorem foldl_request_erased (l : List String) (s : Session) (watch : ℕ) :
    erased watch (l.foldl Session.request s).history = erased watch s.history := by
  induction l generalizing s with
  | nil => rfl
  | cons t l ih => rw [List.foldl_cons, ih, request_erased]

theorem foldl_request_watchers (l : List String) (s : Session) :
    (l.foldl Session.request s).watchers = s.watchers := by
  induction l generalizing s with
  | nil => rfl
  | cons t l ih => rw [List.foldl_cons, ih, request_watchers]

def Settled (s : Session) : Prop :=
  ∀ watch w, s.watchers watch = some w → erased watch s.history = false

namespace Settled
variable {s : Session} (h : Settled s)
include h

theorem request (typeUrl : String) : Settled (s.request typeUrl) := by
  intro watch w hw
  rw [request_watchers] at hw
  rw [request_erased]
  exact h watch w hw

theorem establish (hs : Quiet s) (responses : List DiscoveryResponse) :
    Settled (s.establish responses) := by
  have hopen : Settled (s.openStream responses) := h
  intro watch w hw
  rw [establish_eq hs, foldl_request_watchers] at hw
  rw [establish_eq hs, foldl_request_erased]
  exact hopen.request clusterTypeUrl watch w hw

end Settled

/-- Registering is what ends an update, so only the other watches matter. -/
theorem Settled.updateResources {s : Session} (watch : ℕ) (w : Watcher)
    (resources : OrderedSet String)
    (h : ∀ other v, other ≠ watch → s.watchers other = some v → erased other s.history = false) :
    Settled (s.updateResources watch w resources) := by
  intro other v hv
  have hhistory : (s.updateResources watch w resources).history =
      ⟨.register watch, s.toState⟩ :: s.history := rfl
  rw [hhistory]
  by_cases ho : other = watch
  · simp [erased, ho]
  · rw [updateResources_watchers, Function.update_of_ne ho] at hv
    simpa [erased] using fun _ => h other v ho hv

theorem Settled.addWatch {s : Session} (h : Settled s) (typeUrl : String)
    (resources : OrderedSet String) :
    Settled ((s.newWatcher typeUrl resources).subscribe typeUrl) := by
  have hnew : Settled (s.newWatcher typeUrl resources) := by
    apply Settled.updateResources
    intro other v _ hv
    rw [apiStateFor_eq_modifyApi] at hv ⊢
    exact h other v hv
  unfold Session.subscribe
  split_ifs <;> exact hnew

/-- The erased watch is registered again before `update` returns. -/
theorem Settled.updateWatch {s : Session} (h : Settled s) (watch : ℕ) (w : Watcher)
    (resources : OrderedSet String) : Settled (s.updateWatch watch w resources) := by
  have herase (other : ℕ) (v : Watcher) (ho : other ≠ watch)
      (hv : (s.eraseWatch watch w).watchers other = some v) :
      erased other (s.eraseWatch watch w).history = false := by
    have hbefore := h other v hv
    simpa [Session.eraseWatch, erased, ho.symm] using hbefore
  unfold Session.updateWatch
  apply Settled.request
  apply Settled.updateResources
  intro other v ho hv
  split_ifs at hv ⊢
  · exact herase other v ho hv
  · rw [request_watchers] at hv
    rw [request_erased]
    exact herase other v ho hv

theorem Settled.dropWatch {s : Session} (h : Settled s) (watch : ℕ) (w : Watcher) :
    Settled (s.dropWatch watch w) := by
  intro other v hv
  rw [dropWatch_watchers] at hv
  by_cases ho : other = watch
  · simp [ho] at hv
  · rw [Function.update_of_ne ho] at hv
    simpa [Session.dropWatch, Session.eraseWatch, erased, Ne.symm ho] using h other v hv

theorem Settled.perform {s : Session} (hs : Quiet s) (h : Settled s) (op : Op) :
    Settled (Ads.perform op s) := by
  cases op with
  | setChannel => exact h
  | shutdown =>
    have hend : Settled s.endStream := by
      unfold endStream
      split <;> exact h
    exact hend
  | onStreamEstablished outcome =>
    simp only [Ads.perform]
    split_ifs
    · cases outcome with
      | some responses => exact h.establish hs responses
      | none => exact h
    · exact h
  | addWatch typeUrl resources => exact (h.addWatch typeUrl resources).request typeUrl
  | update watch resources =>
    simp only [Ads.perform]
    cases s.watchers watch with
    | none => exact h
    | some w => exact h.updateWatch watch w resources
  | destroy watch =>
    simp only [Ads.perform]
    cases s.watchers watch with
    | none => exact h
    | some w =>
      simp only
      split_ifs
      · exact h.dropWatch watch w
      · exact (h.dropWatch watch w).request w.typeUrl
  | onDiscoveryResponse message =>
    have hingest : Settled (s.ingest message) := h
    simp only [Ads.perform, respond]
    split_ifs
    · exact hingest.request message.typeUrl
    · exact hingest

/-- In every run, the lists of watches are in order at every entry of the history and
between calls, and every request carries exactly the names its watches determine. -/
theorem run_resource_lists_exact (channel : Bool) (calls : List Op) (s : Session)
    (hrun : Run channel calls s) :
    (∀ later e earlier, s.history = later ++ e :: earlier → e.state.Registered earlier) ∧
    s.toState.Registered s.history ∧
    (∀ watch w, s.watchers watch = some w → s.occurrences w.typeUrl watch = 1) ∧
    ∀ later typeUrl request state earlier,
      s.history = later ++ ⟨.write typeUrl request, state⟩ :: earlier →
      request.resourceNames = (state.watchedNames typeUrl).eraseDups ∧
      request.resourceNames.Nodup ∧
      ∀ name, name ∈ request.resourceNames ↔ ∃ watch w, state.watchers watch = some w ∧
        w.typeUrl = typeUrl ∧ erased watch earlier = false ∧ name ∈ w.resources := by
  rcases registering_kept.run hrun (registering_construct channel) with ⟨halways, hregisters⟩
  have hsettled : Settled s := hrun.invariant (P := Settled) (by simp [Settled, construct])
    fun s op hs h => h.perform hs.quiet op
  have hpast := (always_iff_forall_split _ _).mp halways
  refine ⟨fun later e earlier hsplit => (hpast later e earlier hsplit).1.registered,
    hregisters.registered, fun watch w hw => ?_, fun later t r state earlier hsplit => ?_⟩
  · rw [hregisters.registered.own watch w hw, if_neg (by simp [hsettled watch w hw])]
  · rcases hpast later _ earlier hsplit with ⟨hstate, hexact⟩
    have hnames := hexact t r rfl
    refine ⟨hnames.trans (State.resourceNames_eq state t), ?_, fun name => ?_⟩
    · rw [hnames, State.resourceNames_eq]
      exact eraseDups_nodup _
    · rw [hnames]
      exact hstate.mem_resourceNames t name

/-- Two watches of one type with a name in common. -/
theorem run_resource_lists_exact_overlap :
    ∃ s later request state earlier,
      Run true [.onStreamEstablished (some []), .addWatch "E" ((∅ : OrderedSet String).insert "a"),
        .addWatch "E" (((∅ : OrderedSet String).insert "b").insert "a")] s ∧
      s.history = later ++ ⟨.write "E" request, state⟩ :: earlier ∧
      request.resourceNames = ["a", "b"] ∧ request.resourceNames.Nodup := by
  have hwrote : wrote (fun t r _ => t == "E" && r.resourceNames == ["a", "b"])
      (performAll (construct true) [.onStreamEstablished (some []),
        .addWatch "E" ((∅ : OrderedSet String).insert "a"),
        .addWatch "E" (((∅ : OrderedSet String).insert "b").insert "a")]).history = true := by
    decide
  rcases exists_split_of_wrote _ _ hwrote with ⟨later, t, r, state, earlier, hsplit, htest⟩
  rcases (by simpa using htest : t = "E" ∧ r.resourceNames = ["a", "b"]) with ⟨rfl, hnames⟩
  have hrun := performAll_run true [.onStreamEstablished (some []),
    .addWatch "E" ((∅ : OrderedSet String).insert "a"),
    .addWatch "E" (((∅ : OrderedSet String).insert "b").insert "a")]
  have hexact := (run_resource_lists_exact true _ _ hrun).2.2.2 later "E" r state earlier hsplit
  exact ⟨_, later, r, state, earlier, hrun, hsplit, hnames, hexact.2.1⟩

end XdsClient.Ads
