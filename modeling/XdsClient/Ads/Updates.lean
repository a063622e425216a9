import XdsClient.Ads.Registration

/-! # No update of a subscription is lost

Whenever the names of a type change, the change is followed by a request for that type
or happens without a stream, and a new stream requests every subscribed type. So the
last request written for a type on the present stream is up to date between calls.
-/
namespace XdsClient.Ads
open Library Session

/-- The last request written for the type since `onStreamEstablished` was last called. -/
def lastWritten (typeUrl : String) : List Entry → Option DiscoveryRequest
  | [] => none
  | e :: earlier =>
    match e.event with
    | .opened _ => none
    | .write t request => if t = typeUrl then some request else lastWritten typeUrl earlier
    | _ => lastWritten typeUrl earlier

/-- The last request for the type asks for what its watches want now. -/
def UpToDate (typeUrl : String) (s : Session) : Prop :=
  ∃ request, lastWritten typeUrl s.history = some request ∧
    request.resourceNames = s.resourceNames typeUrl

/-! ## During a drain -/

/-- Whatever is sent is up to date once it is written. -/
theorem beginSend_upToDate (s : Session) (typeUrl : String) (hstream : s.stream.isSome = true) :
    UpToDate typeUrl (s.beginSend typeUrl) := by
  have hnames := State.resourceNames_congr (beginSend_registry s typeUrl) typeUrl
  refine ⟨(s.prepared typeUrl).request, ?_, hnames.symm⟩
  rw [beginSend_history s typeUrl hstream]
  simp [lastWritten]

theorem UpToDate.beginSend {s : Session} {typeUrl : String} (h : UpToDate typeUrl s)
    (other : String) (hstream : s.stream.isSome = true) : UpToDate typeUrl (s.beginSend other) := by
  by_cases ho : other = typeUrl
  · rw [ho]
    exact beginSend_upToDate s typeUrl hstream
  · rcases h with ⟨request, hlast, hnames⟩
    refine ⟨request, ?_, ?_⟩
    · rw [beginSend_history s other hstream]
      simpa [lastWritten, ho] using hlast
    · rw [State.resourceNames_congr (beginSend_registry s other)]
      exact hnames

theorem upToDate_stable (typeUrl : String) : Stable (UpToDate typeUrl) := by
  constructor
  · exact fun s h => h
  · intro s message rest _ _ h
    rcases h with ⟨request, hlast, hnames⟩
    refine ⟨request, hlast, hnames.trans ?_⟩
    exact (State.resourceNames_congr (ingest_registry
      { s.log (.read (some message)) with stream := some rest } message) typeUrl).symm
  · exact fun s t _ _ h => h
  · exact fun s t rest hs _ _ h => h.beginSend t hs
  · exact fun s t _ h => h
  · exact fun s t h => h
  · exact fun s h => h

theorem UpToDate.request {s : Session} {typeUrl : String} (h : UpToDate typeUrl s)
    (other : String) : UpToDate typeUrl (s.request other) := by
  apply (upToDate_stable typeUrl).request_of_alloc s other h
  rcases h with ⟨request, hlast, hnames⟩
  refine ⟨request, ?_, ?_⟩
  · rw [apiStateFor_eq_modifyApi]
    exact hlast
  · rw [State.resourceNames_congr (apiStateFor_registry s other)]
    exact hnames

/-- A request on a live stream brings its own type up to date. -/
theorem request_upToDate (s : Session) (typeUrl : String) (hstream : s.stream.isSome = true)
    (hqueue : s.requestQueue = some []) (hdown : s.shutdown = false) :
    UpToDate typeUrl (s.request typeUrl) := by
  rcases Option.isSome_iff_exists.mp hstream with ⟨responses, hresponses⟩
  rw [request_of_empty s typeUrl responses hresponses hqueue, if_neg (by simp [hdown])]
  apply (upToDate_stable typeUrl).settle_serve typeUrl responses _ [] (by simpa using hresponses)
    (by simp [hqueue]) (by simpa using hdown)
  exact beginSend_upToDate _ typeUrl (by simpa using hstream)

/-! ## Between calls -/

def AllUpToDate (s : Session) : Prop :=
  s.shutdown = false → s.stream.isSome = true → ∀ t ∈ s.subscriptions, UpToDate t s

theorem allUpToDate_request {s : Session} (hs : Quiet s) (typeUrl : String)
    (hothers : s.shutdown = false → s.stream.isSome = true →
      ∀ t ∈ s.subscriptions, t ≠ typeUrl → UpToDate t s) : AllUpToDate (s.request typeUrl) := by
  intro hdown hstream t ht
  rw [request_shutdown] at hdown
  cases hsome : s.stream with
  | none => simp [Session.request, hsome] at hstream
  | some responses =>
    have hisSome : s.stream.isSome = true := by simp [hsome]
    rw [request_subscriptions s typeUrl hs.calm (hs.begun hisSome)] at ht
    by_cases htt : t = typeUrl
    · rw [htt]
      exact request_upToDate s typeUrl hisSome (hs.allocated hisSome) hdown
    · exact (hothers hdown hisSome t ht htt).request typeUrl

/-- A new stream asks for every type in the list. -/
theorem allUpToDate_establish {s : Session} (hs : Quiet s) (responses : List DiscoveryResponse) :
    AllUpToDate (s.establish responses) := by
  have hquiet := openStream_request_quiet hs responses
  have hbegun : Begun ((s.openStream responses).request clusterTypeUrl).toState :=
    request_begun _ _ rfl rfl
  intro hdown _ t ht
  rw [establish_eq hs] at hdown ht ⊢
  rw [hquiet.foldl_request_subscriptions _ hbegun] at ht
  have hlive : s.shutdown = false := by
    rw [foldl_request_shutdown, request_shutdown] at hdown
    exact hdown
  have hstream : ((s.openStream responses).request clusterTypeUrl).stream.isSome = true := by
    rw [request_stream (s.openStream responses) clusterTypeUrl rfl rfl hlive]
    rfl
  apply hquiet.foldl_request_reaches (t := t) _ (fun _ u _ _ _ h => h.request u)
    (fun s hs hstream hdown => request_upToDate s t hstream (hs.allocated hstream) hdown) hstream
    (by rw [request_shutdown]; exact hlive)
  have hfirst := hquiet.first
  cases hsubs : ((s.openStream responses).request clusterTypeUrl).subscriptions with
  | nil => simp [hsubs] at ht
  | cons first rest =>
    rw [hsubs, List.head?_cons, Option.some.injEq] at hfirst
    rw [hsubs, hfirst] at ht
    rcases List.mem_cons.mp ht with rfl | ht
    · exact Or.inr (request_upToDate _ _ rfl rfl hlive)
    · exact Or.inl ht

/-! ## Changes of the watches -/

/-- The names of a type depend on its own list and on the watches in it. -/
theorem State.resourceNames_of_watches {s s' : State} {typeUrl : String}
    (hlist : (s'.api typeUrl).watches = (s.api typeUrl).watches)
    (hwatchers : ∀ n ∈ (s.api typeUrl).watches, s'.watchers n.watch = s.watchers n.watch) :
    s'.resourceNames typeUrl = s.resourceNames typeUrl := by
  rw [State.resourceNames_eq, State.resourceNames_eq, State.watchedNames, State.watchedNames, hlist]
  congr 1
  apply List.flatMap_congr
  intro n hn
  rw [State.resourcesOf, State.resourcesOf, hwatchers n hn]

theorem eraseWatch_resourceNames (s : Session) (watch : ℕ) (w : Watcher) {typeUrl : String}
    (ht : typeUrl ≠ w.typeUrl) :
    (s.eraseWatch watch w).resourceNames typeUrl = s.resourceNames typeUrl := by
  apply State.resourceNames_of_watches
  · rw [eraseWatch_api, if_neg ht]
  · exact fun n _ => rfl

section Changes
variable {s : Session} (h : Registers s.toState s.history)
include h

/-- A watch that enters the list of one type is in no list of another. -/
theorem updateResources_resourceNames (watch : ℕ) (w : Watcher) (resources : OrderedSet String)
    {typeUrl : String} (ht : typeUrl ≠ w.typeUrl)
    (hw : ∀ v, s.watchers watch = some v → v.typeUrl = w.typeUrl) :
    (s.updateResources watch w resources).resourceNames typeUrl = s.resourceNames typeUrl := by
  apply State.resourceNames_of_watches
  · rw [updateResources_api, if_neg ht]
  · intro n hn
    rcases h.live typeUrl n hn with ⟨v, hv, htype, _⟩
    have hne : n.watch ≠ watch := by
      rintro rfl
      exact ht (htype ▸ hw v hv)
    rw [updateResources_watchers, Function.update_of_ne hne]

theorem newWatcher_resourceNames (resources : OrderedSet String) {typeUrl other : String}
    (ho : other ≠ typeUrl) :
    (s.newWatcher typeUrl resources).resourceNames other = s.resourceNames other := by
  apply State.resourceNames_of_watches
  · rw [newWatcher_api, if_neg ho]
  · intro n hn
    rcases h.live other n hn with ⟨v, hv, _⟩
    have hne : n.watch ≠ s.nextWatcher := by
      intro heq
      have hnone := h.fresh n.watch heq.ge
      simp [hv] at hnone
    rw [newWatcher_watchers, Function.update_of_ne hne]

theorem dropWatch_resourceNames (watch : ℕ) (w : Watcher) (hw : s.watchers watch = some w)
    (typeUrl : String) :
    (s.dropWatch watch w).resourceNames typeUrl = (s.eraseWatch watch w).resourceNames typeUrl := by
  refine State.resourceNames_of_watches rfl (fun n hn => ?_)
  have hne := ((h.mem_erase watch w hw typeUrl n).mp hn).2
  rw [dropWatch_watchers, Function.update_of_ne hne]
  rfl

/-- A watch without names contributes nothing, so that nothing changes when it goes. -/
theorem eraseWatch_resourceNames_of_isEmpty (watch : ℕ) (w : Watcher)
    (hw : s.watchers watch = some w) (hempty : w.resources.isEmpty = true) (typeUrl : String) :
    (s.eraseWatch watch w).resourceNames typeUrl = s.resourceNames typeUrl := by
  by_cases ht : typeUrl = w.typeUrl
  · subst ht
    rw [State.resourceNames_eq, State.resourceNames_eq, State.watchedNames, State.watchedNames,
      eraseWatch_api, if_pos rfl]
    congr 1
    apply flatMap_filter
    intro n hn hiter
    rcases h.live w.typeUrl n hn with ⟨v, hv, _, hnode, _⟩
    have hself : n.watch = watch := h.distinct _ _ v w hv hw (hnode.trans (by simpa using hiter))
    have hw' : (s.eraseWatch watch w).watchers watch = some w := hw
    simp only [hself, State.resourcesOf, hw']
    exact OrderedSet.toList_of_isEmpty hempty
  · exact eraseWatch_resourceNames s watch w ht

end Changes

/-! ## Every call -/

theorem UpToDate.transfer {s s' : Session} {typeUrl : String} (h : UpToDate typeUrl s)
    (hlast : lastWritten typeUrl s'.history = lastWritten typeUrl s.history)
    (hnames : s'.resourceNames typeUrl = s.resourceNames typeUrl) : UpToDate typeUrl s' := by
  rcases h with ⟨request, hrequest, heq⟩
  exact ⟨request, hlast.trans hrequest, heq.trans hnames.symm⟩

theorem allUpToDate_updateResources {s : Session} (hs : Quiet s) (hregistering : Registering s)
    (watch : ℕ) (w : Watcher) (hw : s.watchers watch = some w) (resources : OrderedSet String)
    (hothers : s.shutdown = false → s.stream.isSome = true →
      ∀ t ∈ s.subscriptions, t ≠ w.typeUrl → UpToDate t s) :
    AllUpToDate ((s.updateResources watch w resources).request w.typeUrl) := by
  apply allUpToDate_request (hs.updateResources watch w resources)
  intro hdown hstream t ht htt
  have hcurrent := hothers hdown hstream t ht htt
  refine hcurrent.transfer rfl (updateResources_resourceNames hregistering.2 watch w resources htt ?_)
  intro v hv
  rw [hw, Option.some.injEq] at hv
  rw [hv]

section Calls
variable {s : Session} (hs : Quiet s) (hregistering : Registering s) (h : AllUpToDate s)
include hs hregistering h

theorem allUpToDate_addWatch (typeUrl : String) (resources : OrderedSet String) :
    AllUpToDate (((s.newWatcher typeUrl resources).subscribe typeUrl).request typeUrl) := by
  have hsame : ((s.newWatcher typeUrl resources).subscribe typeUrl).shutdown = s.shutdown ∧
      ((s.newWatcher typeUrl resources).subscribe typeUrl).stream = s.stream ∧
      ∀ t ∈ ((s.newWatcher typeUrl resources).subscribe typeUrl).subscriptions,
        t ∈ s.subscriptions ∨ t = typeUrl := by
    unfold Session.subscribe Session.newWatcher
    rw [apiStateFor_eq_modifyApi]
    split_ifs
    · exact ⟨rfl, rfl, fun t ht => Or.inl ht⟩
    · exact ⟨rfl, rfl, fun t ht => (List.mem_append.mp ht).imp_right (by simp)⟩
  have hhistory (t : String) :
      lastWritten t ((s.newWatcher typeUrl resources).subscribe typeUrl).history =
        lastWritten t s.history := by
    unfold Session.subscribe Session.newWatcher
    rw [apiStateFor_eq_modifyApi]
    split_ifs <;> rfl
  apply allUpToDate_request ((hs.newWatcher typeUrl resources).subscribe typeUrl)
  intro hdown hstream t ht htt
  rw [hsame.1] at hdown
  rw [hsame.2.1] at hstream
  have hcurrent := h hdown hstream t ((hsame.2.2 t ht).resolve_right htt)
  apply hcurrent.transfer (hhistory t)
  rw [State.resourceNames_congr (subscribe_registry _ typeUrl)]
  exact newWatcher_resourceNames hregistering.2 resources htt

/-- Both halves of `update` touch the names of one type, and the second ends in a request. -/
theorem allUpToDate_updateWatch (watch : ℕ) (w : Watcher) (hw : s.watchers watch = some w)
    (resources : OrderedSet String) : AllUpToDate (s.updateWatch watch w resources) := by
  have hquiet := hs.eraseWatch watch w
  have hreg := hregistering.eraseWatch watch w hw
  have hothers : (s.eraseWatch watch w).shutdown = false →
      (s.eraseWatch watch w).stream.isSome = true → ∀ t ∈ (s.eraseWatch watch w).subscriptions,
      t ≠ w.typeUrl → UpToDate t (s.eraseWatch watch w) := fun hdown hstream t ht htt =>
    (h hdown hstream t ht).transfer rfl (eraseWatch_resourceNames s watch w htt)
  unfold Session.updateWatch
  split_ifs
  · exact allUpToDate_updateResources hquiet hreg watch w hw resources hothers
  · have hknown : (s.eraseWatch watch w).known w.typeUrl = true := by
      simp [eraseWatch_known]
    apply allUpToDate_updateResources (hquiet.request w.typeUrl)
      (registering_stable.request _ _ hknown hreg)
    · rw [request_watchers]
      exact hw
    · intro hdown hstream t ht _
      exact allUpToDate_request hquiet w.typeUrl hothers hdown hstream t ht

theorem allUpToDate_destroy (watch : ℕ) (w : Watcher) (hw : s.watchers watch = some w) :
    AllUpToDate (if w.resources.isEmpty then s.dropWatch watch w
      else (s.dropWatch watch w).request w.typeUrl) := by
  have hdrop (t : String) := dropWatch_resourceNames hregistering.2 watch w hw t
  split_ifs with hempty
  · intro hdown hstream t ht
    have herase := eraseWatch_resourceNames_of_isEmpty hregistering.2 watch w hw hempty t
    exact (h hdown hstream t ht).transfer rfl ((hdrop t).trans herase)
  · apply allUpToDate_request (hs.dropWatch watch w)
    intro hdown hstream t ht htt
    have herase := eraseWatch_resourceNames s watch w htt
    exact (h hdown hstream t ht).transfer rfl ((hdrop t).trans herase)

omit hregistering in
theorem allUpToDate_respond (message : DiscoveryResponse) : AllUpToDate (s.respond message) := by
  have hingest : AllUpToDate (s.ingest message) := fun hdown hstream t ht =>
    (h hdown hstream t ht).transfer rfl (State.resourceNames_congr (ingest_registry s message) t)
  unfold respond
  split_ifs
  · apply allUpToDate_request (hs.ingest message)
    exact fun hdown hstream t ht _ => hingest hdown hstream t ht
  · exact hingest

theorem allUpToDate_perform (op : Op) : AllUpToDate (perform op s) := by
  cases op with
  | setChannel => exact h
  | shutdown =>
    intro hdown
    simp [perform, shutdown] at hdown
  | onStreamEstablished outcome =>
    simp only [perform]
    split_ifs
    · cases outcome with
      | some responses => exact allUpToDate_establish hs responses
      | none =>
        intro _ hstream
        simp [openFailed] at hstream
    · exact h
  | addWatch typeUrl resources => exact allUpToDate_addWatch hs hregistering h typeUrl resources
  | update watch resources =>
    simp only [perform]
    cases hw : s.watchers watch with
    | none => exact h
    | some w => exact allUpToDate_updateWatch hs hregistering h watch w hw resources
  | destroy watch =>
    simp only [perform]
    cases hw : s.watchers watch with
    | none => exact h
    | some w => exact allUpToDate_destroy hs hregistering h watch w hw
  | onDiscoveryResponse message => exact allUpToDate_respond hs h message

end Calls

/-! ## Without a stream -/

theorem isSome_stream_stable : Stable fun s => s.stream.isSome = true := by
  apply Stable.of_state (P := fun s => s.stream.isSome = true)
  · exact fun s q h => h
  · exact fun s message rest _ _ _ => by simp
  · intro s t rest _ _ _ h
    rwa [beginSend_stream]

/-- A client without a stream has written nothing since it tried to obtain one. -/
def Silent (s : Session) : Prop := s.stream = none → ∀ t, lastWritten t s.history = none

theorem silent_of_isSome {s : Session} (h : s.stream.isSome = true) : Silent s := by
  intro hnone
  simp [hnone] at h

theorem silent_lasting : Lasting Silent where
  toCallSteps := by
    apply CallSteps.of_history
    · intro s s' h hhistory hstream _
      unfold Silent
      rw [hhistory, hstream]
      exact h
    · intro s event hevent h hnone t
      have hlast := h hnone t
      cases event <;> first | exact hlast | simp [Event.ofCall] at hevent
    · exact fun s _ _ t => rfl
    · exact fun s h => h
  request := fun s typeUrl _ hknown h => by
    cases hstream : s.stream with
    | none => simpa [Session.request, hstream] using h
    | some responses =>
      exact silent_of_isSome (isSome_stream_stable.request s typeUrl hknown (by simp [hstream]))
  openStream := fun s responses _ _ => by
    apply silent_of_isSome
    exact isSome_stream_stable.request_of_alloc _ _ rfl (by simp [Session.openStream])

/-- In every run, whenever no call is in progress and the client is not shut down, its queue is
empty and the last request for each subscribed type, if any was written since a stream was last
asked for, names what the watches of that type want. On a stream there is such a request. -/
theorem run_no_update_lost (channel : Bool) (calls : List Op) (s : Session)
    (hrun : Run channel calls s) (hdown : s.shutdown = false) :
    s.queue = [] ∧
    (s.stream.isSome = true → s.requestQueue = some [] ∧
      ∀ t ∈ s.subscriptions, ∃ request, lastWritten t s.history = some request) ∧
    ∀ t ∈ s.subscriptions, ∀ request, lastWritten t s.history = some request →
      request.resourceNames = (s.watchedNames t).eraseDups := by
  have hinvariant : Registering s ∧ AllUpToDate s := by
    apply hrun.invariant (P := fun s => Registering s ∧ AllUpToDate s)
    · refine ⟨registering_construct channel, fun _ hstream => ?_⟩
      simp [construct] at hstream
    · exact fun s op hs h =>
        ⟨registering_kept.lasting.perform hs op h.1, allUpToDate_perform hs.quiet h.1 h.2 op⟩
  have hsilent : Silent s := silent_lasting.run hrun fun _ t => rfl
  refine ⟨hrun.quiet.queue, fun hstream => ⟨hrun.quiet.allocated hstream, fun t ht => ?_⟩,
    fun t ht request hlast => ?_⟩
  · rcases hinvariant.2 hdown hstream t ht with ⟨request, hlast, _⟩
    exact ⟨request, hlast⟩
  · cases hstream : s.stream with
    | none => simp [hsilent hstream t] at hlast
    | some responses =>
      rcases hinvariant.2 hdown (by simp [hstream]) t ht with ⟨current, hcurrent, hnames⟩
      rw [hlast, Option.some.injEq] at hcurrent
      rw [hcurrent]
      exact hnames.trans (State.resourceNames_eq s.toState t)

/-- A watch whose names change before there is a stream, and an empty one that goes. -/
theorem run_no_update_lost_offline :
    ∃ s request, Run true [.addWatch "E" ((∅ : OrderedSet String).insert "a"), .addWatch "E" ∅,
        .update 0 ((∅ : OrderedSet String).insert "b"), .onStreamEstablished (some []),
        .destroy 1] s ∧
      lastWritten "E" s.history = some request ∧ request.resourceNames = ["b"] := by
  have hrun := performAll_run true [.addWatch "E" ((∅ : OrderedSet String).insert "a"),
    .addWatch "E" ∅, .update 0 ((∅ : OrderedSet String).insert "b"),
    .onStreamEstablished (some []), .destroy 1]
  rcases run_no_update_lost true _ _ hrun (by decide) with ⟨_, hwritten, hcurrent⟩
  rcases (hwritten (by decide)).2 "E" (by decide) with ⟨request, hlast⟩
  exact ⟨_, request, hrun, hlast, (hcurrent "E" (by decide) request hlast).trans (by decide)⟩

end XdsClient.Ads
