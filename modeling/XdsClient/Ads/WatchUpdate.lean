import XdsClient.Ads.Registration

/-! # What a watch sends while it is updated

`update` takes the watch out of its list, sends a request if the watch had names, puts the
watch back with its new names and sends again. Between two calls nothing is left to read, so
no response comes in while this happens, and each of the two requests shows the list of
watches as it is at that moment.
-/
namespace XdsClient.Ads
open Library Session

/-! ## Requests between which nothing is read -/

def Entry.Lists (names : String → List String) (e : Entry) : Prop :=
  (∀ typeUrl request, e.event = .write typeUrl request → request.resourceNames = names typeUrl) ∧
    ∀ message, e.event ≠ .response message

/-- The history has grown by requests for the registry as it is, and by no response. -/
def Listing (past : List Entry) (names : String → List String) (s : Session) : Prop :=
  Grows (Entry.Lists names) past s.history ∧ s.resourceNames = names

theorem Listing.log {past : List Entry} {names : String → List String} {s : Session}
    (h : Listing past names s) (event : Event) (hwrite : ∀ t r, event ≠ .write t r)
    (hresponse : ∀ m, event ≠ .response m) : Listing past names (s.log event) :=
  ⟨h.1.cons ⟨fun t r heq => absurd heq (hwrite t r), hresponse⟩, h.2⟩

theorem Listing.beginSend {past : List Entry} {names : String → List String} {s : Session}
    (h : Listing past names s) (typeUrl : String) (hstream : s.stream.isSome = true) :
    Listing past names (s.beginSend typeUrl) := by
  have hsend := h.log (.send typeUrl) (by simp) (by simp)
  constructor
  · rw [beginSend_history s typeUrl hstream]
    refine hsend.1.cons ⟨fun t r heq => ?_, by simp⟩
    rcases Event.write.inj heq with ⟨rfl, rfl⟩
    exact congrFun h.2 typeUrl
  · funext t
    rw [State.resourceNames_congr (beginSend_registry s typeUrl) t, h.2]

theorem listing_stable (past : List Entry) (names : String → List String) :
    Stable fun s => Listing past names s ∧ Ended s.toState := by
  apply stable_of_ended
  · exact fun s h => h.log _ (by simp) (by simp)
  · exact fun s t _ _ h => h.log (.push t) (by simp) (by simp)
  · exact fun s t rest hstream _ _ h => h.beginSend t hstream
  · exact fun s t _ h => h.log _ (by simp) (by simp)
  · exact fun s t h => h.log _ (by simp) (by simp)
  · exact fun s h => h.log .pop (by simp) (by simp)

theorem request_listing {s : Session} (hs : Quiet s) (typeUrl : String) :
    Grows (Entry.Lists s.resourceNames) s.history (s.request typeUrl).history := by
  have hstart : Listing s.history s.resourceNames s := ⟨Grows.refl _, rfl⟩
  have halloc : Listing s.history s.resourceNames (s.apiStateFor typeUrl) := by
    constructor
    · rw [apiStateFor_eq_modifyApi]
      exact hstart.1
    · funext t
      exact State.resourceNames_congr (apiStateFor_registry s typeUrl) t
  have hended : Ended (s.apiStateFor typeUrl).toState := by
    rw [apiStateFor_eq_modifyApi]
    exact hs.ended
  exact ((listing_stable _ _).request_of_alloc s typeUrl ⟨hstart, hs.ended⟩ ⟨halloc, hended⟩).1.1

/-! ## The names while the watch is out, and after it is back -/

/-- A live watch of the type other than `watch` asks for the name. -/
def State.watchedByOthers (s : State) (watch : ℕ) (typeUrl name : String) : Prop :=
  ∃ other v, other ≠ watch ∧ s.watchers other = some v ∧ v.typeUrl = typeUrl ∧ name ∈ v.resources

section Names
variable {s : Session} (hsettled : Settled s) (watch : ℕ) (w : Watcher)
  (hw : s.watchers watch = some w)
include hsettled hw

theorem eraseWatch_names (hreg : Registering s) (name : String) :
    name ∈ (s.eraseWatch watch w).resourceNames w.typeUrl ↔
      s.watchedByOthers watch w.typeUrl name := by
  rw [(hreg.eraseWatch watch w hw).2.mem_resourceNames]
  constructor
  · rintro ⟨other, v, hv, htype, herased, hname⟩
    have hne : other ≠ watch := by
      rintro rfl
      simp [Session.eraseWatch, erased] at herased
    exact ⟨other, v, hne, hv, htype, hname⟩
  · rintro ⟨other, v, hne, hv, htype, hname⟩
    refine ⟨other, v, hv, htype, ?_, hname⟩
    simpa [Session.eraseWatch, erased, hne.symm] using hsettled other v hv

end Names

/-- The client when the watch comes back: `update` up to `updateResources`. -/
def Session.withoutWatch (s : Session) (watch : ℕ) (w : Watcher) : Session :=
  if w.resources.isEmpty then s.eraseWatch watch w else (s.eraseWatch watch w).request w.typeUrl

section WithoutWatch
variable (s : Session) (watch : ℕ) (w : Watcher)

theorem withoutWatch_watchers : (s.withoutWatch watch w).watchers = s.watchers := by
  unfold Session.withoutWatch
  split_ifs
  · rfl
  · rw [request_watchers]
    rfl

theorem withoutWatch_erased (other : ℕ) :
    erased other (s.withoutWatch watch w).history =
      (decide (watch = other) || erased other s.history) := by
  have herase : erased other (s.eraseWatch watch w).history =
      (decide (watch = other) || erased other s.history) := by
    simp [Session.eraseWatch, erased]
  unfold Session.withoutWatch
  split_ifs
  · exact herase
  · rw [request_erased, herase]

variable {s}

theorem withoutWatch_quiet (hs : Quiet s) : Quiet (s.withoutWatch watch w) := by
  unfold Session.withoutWatch
  split_ifs
  · exact hs.eraseWatch watch w
  · exact (hs.eraseWatch watch w).request _

theorem withoutWatch_registering (hreg : Registering s) (hw : s.watchers watch = some w) :
    Registering (s.withoutWatch watch w) := by
  have herase := hreg.eraseWatch watch w hw
  unfold Session.withoutWatch
  split_ifs
  · exact herase
  · apply registering_stable.request _ _ _ herase
    simp [eraseWatch_known]

/-- Up to its return the watch sends at most the names of the others. -/
theorem withoutWatch_history (hs : Quiet s) :
    ∃ part, (s.withoutWatch watch w).history = part ++ ⟨.erase watch, s.toState⟩ :: s.history ∧
      (w.resources.isEmpty = true → part = []) ∧
      ∀ e ∈ part, e.Lists (s.eraseWatch watch w).resourceNames := by
  unfold Session.withoutWatch
  split_ifs with hempty
  · exact ⟨[], rfl, fun _ => rfl, by simp⟩
  · obtain ⟨part, hpart, hall⟩ := request_listing (hs.eraseWatch watch w) w.typeUrl
    exact ⟨part, hpart, fun h => absurd h hempty, hall⟩

/-- Back in its list, the watch adds its new names. -/
theorem updateResources_names (hreg : Registering s) (hsettled : Settled s)
    (hw : s.watchers watch = some w) (resources : OrderedSet String) (name : String) :
    name ∈ ((s.withoutWatch watch w).updateResources watch w resources).resourceNames w.typeUrl ↔
      name ∈ resources ∨ s.watchedByOthers watch w.typeUrl name := by
  have hw' : (s.withoutWatch watch w).watchers watch = some w := by
    rw [withoutWatch_watchers, hw]
  have hout : erased watch (s.withoutWatch watch w).history = true := by
    simp [withoutWatch_erased]
  have hback : Settled ((s.withoutWatch watch w).updateResources watch w resources) := by
    apply Settled.updateResources
    intro other v hne hv
    rw [withoutWatch_watchers] at hv
    simp [withoutWatch_erased, hne.symm, hsettled other v hv]
  have hreg' := withoutWatch_registering watch w hreg hw
  have hwatchers : ((s.withoutWatch watch w).updateResources watch w resources).watchers =
      Function.update s.watchers watch
        (some ⟨resources, w.typeUrl, (s.withoutWatch watch w).nextNode⟩) := by
    rw [updateResources_watchers, withoutWatch_watchers]
  rw [(hreg'.updateResources watch w resources hw' hout).2.mem_resourceNames]
  constructor
  · rintro ⟨other, v, hv, htype, -, hname⟩
    rw [hwatchers] at hv
    by_cases ho : other = watch
    · rw [ho, Function.update_self] at hv
      rcases Option.some.inj hv with rfl
      exact Or.inl hname
    · rw [Function.update_of_ne ho] at hv
      exact Or.inr ⟨other, v, ho, hv, htype, hname⟩
  · rintro (hname | ⟨other, v, hne, hv, htype, hname⟩)
    · have hself : ((s.withoutWatch watch w).updateResources watch w resources).watchers watch =
          some ⟨resources, w.typeUrl, (s.withoutWatch watch w).nextNode⟩ := by
        rw [hwatchers, Function.update_self]
      exact ⟨watch, _, hself, rfl, hback watch _ hself, hname⟩
    · have hother : ((s.withoutWatch watch w).updateResources watch w resources).watchers other =
          some v := by
        rw [hwatchers, Function.update_of_ne hne, hv]
      exact ⟨other, v, hother, htype, hback other v hother, hname⟩

/-- What `update` adds to the history, in the two halves around the return of the watch. -/
theorem updateWatch_history (hs : Quiet s) (resources : OrderedSet String) :
    ∃ part after, (s.updateWatch watch w resources).history =
        after ++ ⟨.register watch, (s.withoutWatch watch w).toState⟩ ::
          (part ++ ⟨.erase watch, s.toState⟩ :: s.history) ∧
      (w.resources.isEmpty = true → part = []) ∧
      (∀ e ∈ part, e.Lists (s.eraseWatch watch w).resourceNames) ∧
      ∀ e ∈ after,
        e.Lists ((s.withoutWatch watch w).updateResources watch w resources).resourceNames := by
  obtain ⟨part, hpart, hempty, hlists⟩ := withoutWatch_history watch w hs
  obtain ⟨after, hafter, hlists'⟩ := request_listing
    ((withoutWatch_quiet watch w hs).updateResources watch w resources) w.typeUrl
  have hregister : ((s.withoutWatch watch w).updateResources watch w resources).history =
      ⟨.register watch, (s.withoutWatch watch w).toState⟩ :: (s.withoutWatch watch w).history := rfl
  refine ⟨part, after, ?_, hempty, hlists, hlists'⟩
  rw [← hpart, ← hregister, ← hafter]
  rfl

end WithoutWatch

/-! ## Every run -/

/-- Every request of an update lists the names of the other watches. The ones written before
the watch is back list nothing else, and there are none if it had no names; the ones written
after it also list all its new names. No response is processed meanwhile. -/
theorem run_update_requests (channel : Bool) (calls : List Op) (s : Session)
    (hrun : Run channel calls s) (watch : ℕ) (w : Watcher) (hw : s.watchers watch = some w)
    (resources : OrderedSet String) :
    ∃ s' before registered after,
      Converges (fun fuel => exec fuel (.update watch resources) s) s' ∧
      s'.history = after ++ ⟨.register watch, registered⟩ :: (before ++ s.history) ∧
      (w.resources.isEmpty = true → requestsIn before = []) ∧
      (∀ request state, ⟨.write w.typeUrl request, state⟩ ∈ before →
        ∀ name, name ∈ request.resourceNames ↔ s.watchedByOthers watch w.typeUrl name) ∧
      (∀ request state, ⟨.write w.typeUrl request, state⟩ ∈ after →
        ∀ name, name ∈ request.resourceNames ↔
          name ∈ resources ∨ s.watchedByOthers watch w.typeUrl name) ∧
      ∀ message state, ⟨.response message, state⟩ ∉ after ++ before := by
  have hs := hrun.quiet
  have hreg := registering_kept.run hrun (registering_construct channel)
  have hsettled : Settled s := hrun.invariant (P := Settled) (by simp [Settled, construct])
    fun s op hs h => h.perform hs.quiet op
  have hconverges := exec_converges hs.calm (.update watch resources)
  have hupdate : perform (.update watch resources) s = s.updateWatch watch w resources := by
    rw [perform, hw]
  obtain ⟨part, after, hhistory, hempty, hlists, hlists'⟩ := updateWatch_history watch w hs resources
  refine ⟨_, part ++ [⟨.erase watch, s.toState⟩], (s.withoutWatch watch w).toState, after,
    hconverges, ?_, ?_, ?_, ?_, ?_⟩
  · rw [hupdate, hhistory, List.append_assoc]
    rfl
  · intro hnone
    rw [hempty hnone]
    rfl
  · intro request state hmem name
    have hwrite : ⟨.write w.typeUrl request, state⟩ ∈ part := by simpa using hmem
    rw [(hlists _ hwrite).1 _ _ rfl]
    exact eraseWatch_names hsettled watch w hw hreg name
  · intro request state hmem name
    rw [(hlists' _ hmem).1 _ _ rfl]
    exact updateResources_names watch w hreg hsettled hw resources name
  · intro message state hmem
    rcases List.mem_append.mp hmem with hmem | hmem
    · exact (hlists' _ hmem).2 message rfl
    · have hresponse : ⟨.response message, state⟩ ∈ part := by simpa using hmem
      exact (hlists _ hresponse).2 message rfl

def watchingA : List Op :=
  [.addWatch "E" ((∅ : OrderedSet String).insert "a"), .onStreamEstablished (some [])]

def namesAB : OrderedSet String := ((∅ : OrderedSet String).insert "a").insert "b"

theorem watchingA_alone (name : String) :
    ¬ (performAll (construct true) watchingA).watchedByOthers 0 "E" name := by
  rintro ⟨other, v, hne, hv, -, -⟩
  have hreg := registering_kept.run (performAll_run true watchingA) (registering_construct true)
  have hnone := hreg.2.fresh other (by
    have hnext : (performAll (construct true) watchingA).nextWatcher = 1 := by decide
    omega)
  rw [hv] at hnone
  exact absurd hnone (by simp)

/-- The watch for a is updated to a and b: a request with no name is written while it is out of
the list, and one with both names once it is back. -/
theorem run_update_requests_kept_name :
    ∃ (s s' : Session) (before after : List Entry) (registered out back : State)
      (first second : DiscoveryRequest),
      Run true watchingA s ∧ Converges (fun fuel => exec fuel (.update 0 namesAB) s) s' ∧
      s'.history = after ++ ⟨.register 0, registered⟩ :: (before ++ s.history) ∧
      ⟨.write "E" first, out⟩ ∈ before ∧ first.resourceNames = [] ∧
      ⟨.write "E" second, back⟩ ∈ after ∧
      (∀ name, name ∈ second.resourceNames ↔ name ∈ namesAB) ∧
      ∀ message state, ⟨.response message, state⟩ ∉ after ++ before := by
  have hrun := performAll_run true watchingA
  have hperforms := exec_converges hrun.quiet.calm (.update 0 namesAB)
  obtain ⟨w, hw, hE⟩ :
      ∃ w, (performAll (construct true) watchingA).watchers 0 = some w ∧ w.typeUrl = "E" :=
    ⟨_, rfl, rfl⟩
  obtain ⟨s', before, registered, after, hconverges, hhistory, -, hbefore, hafter, hresponse⟩ :=
    run_update_requests true _ _ hrun 0 w hw namesAB
  rw [hE] at hbefore hafter
  obtain rfl := hperforms.unique hconverges
  have hnew : (perform (.update 0 namesAB) (performAll (construct true) watchingA)).history =
      (after ++ ⟨.register 0, registered⟩ :: before) ++
        (performAll (construct true) watchingA).history := by
    rw [hhistory, List.append_assoc, List.cons_append]
  -- a request without the name a was written before the registration, one with b after it
  obtain ⟨first, out, hfirst, hwithout⟩ :=
    exists_mem_of_wrote "E" (fun r => !r.resourceNames.contains "a") hnew (by decide)
  obtain ⟨second, back, hsecond, hwith⟩ :=
    exists_mem_of_wrote "E" (fun r => r.resourceNames.contains "b") hnew (by decide)
  have hout : ⟨.write "E" first, out⟩ ∈ before := by
    rcases (by simpa using hfirst : ⟨.write "E" first, out⟩ ∈ after ∨ _ ∈ before) with hmem | hmem
    · have ha := (hafter first out hmem "a").mpr (Or.inl (by decide))
      simp [ha] at hwithout
    · exact hmem
  have hback : ⟨.write "E" second, back⟩ ∈ after := by
    rcases (by simpa using hsecond : ⟨.write "E" second, back⟩ ∈ after ∨ _ ∈ before) with hmem | hmem
    · exact hmem
    · exact absurd ((hbefore second back hmem "b").mp (by simpa using hwith)) (watchingA_alone "b")
  have hnames : first.resourceNames = [] := List.eq_nil_iff_forall_not_mem.mpr fun name hname =>
    watchingA_alone name ((hbefore first out hout name).mp hname)
  refine ⟨_, _, before, after, registered, out, back, first, second, hrun, hconverges, hhistory,
    hout, hnames, hback, fun name => ?_, hresponse⟩
  rw [hafter second back hback name, or_iff_left (watchingA_alone name)]

/-- While the watch for a is updated to a and b, a request without a is written. -/
theorem update_withdraws_kept_name :
    ∃ (s s' : Session) (w : Watcher) (later : List Entry) (request : DiscoveryRequest)
      (state : State) (earlier : List Entry),
      Run true watchingA s ∧ s.watchers 0 = some w ∧ "a" ∈ w.resources ∧ "a" ∈ namesAB ∧
      (∃ fuel, exec fuel (.update 0 namesAB) s = some s') ∧
      s'.history = later ++ ⟨.write "E" request, state⟩ :: earlier ∧ s.history <:+ earlier ∧
      "a" ∉ request.resourceNames := by
  let s := performAll (construct true) watchingA
  have hrun : Run true watchingA s := performAll_run true watchingA
  obtain ⟨w, hw, hname⟩ : ∃ w, s.watchers 0 = some w ∧ "a" ∈ w.resources := ⟨_, rfl, by decide⟩
  have hperform : perform (.update 0 namesAB) s = s.updateWatch 0 w namesAB := by
    rw [perform, hw]
  have hwrote : wrote (fun t r earlier => t == "E" && !r.resourceNames.contains "a" &&
      decide (s.history.length ≤ earlier.length)) (perform (.update 0 namesAB) s).history = true := by
    decide
  obtain ⟨later, t, request, state, earlier, hsplit, htest⟩ := exists_split_of_wrote _ _ hwrote
  obtain ⟨⟨rfl, hnone⟩, hlength⟩ : (t = "E" ∧ "a" ∉ request.resourceNames) ∧
      s.history.length ≤ earlier.length := by simpa using htest
  obtain ⟨part, after, hhistory, -⟩ := updateWatch_history 0 w hrun.quiet namesAB
  have hsuffix : s.history <:+ (perform (.update 0 namesAB) s).history := by
    rw [hperform, hhistory]
    exact ⟨after ++ ⟨.register 0, (s.withoutWatch 0 w).toState⟩ ::
      (part ++ [⟨.erase 0, s.toState⟩]), by simp⟩
  have hearlier : earlier <:+ (perform (.update 0 namesAB) s).history := by
    rw [hsplit]
    exact (List.suffix_cons _ _).trans (List.suffix_append _ _)
  obtain ⟨fuel, hexec⟩ := (exec_converges hrun.quiet.calm (.update 0 namesAB)).exists_fuel
  exact ⟨s, _, w, later, request, state, earlier, hrun, hw, hname, by decide, ⟨fuel, hexec⟩, hsplit,
    List.suffix_of_suffix_length_le hsuffix hearlier hlength, hnone⟩

end XdsClient.Ads
