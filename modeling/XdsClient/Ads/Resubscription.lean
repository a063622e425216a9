import XdsClient.Ads.Addressing

/-! # What a new stream asks for before it ends

`onStreamEstablished` queues a request for every type in `subscriptions_`, but the first
of them reads the stream to its end before it returns. Until `Read` has returned false,
requests are written for the first type only.
-/
namespace XdsClient.Ads
open Library

def requestedBeforeEnd (later : List Entry) : List String :=
  (requestsIn (upTo (fun e => e.event.isReadFalse) later)).map DiscoveryRequest.typeUrl

/-- What follows an opening: no request at all if the client was shut down, else some request
for the first type, and none for another one before `Read` returns false. -/
def StartsWithFirst (down : Bool) (later : List Entry) (e : Entry) : Prop :=
  e.event = .opened true →
    e.state.subscriptions.head? = some clusterTypeUrl ∧
    (e.state.shutdown = true → down = true ∧ requestsIn later = []) ∧
    (e.state.shutdown = false → (∃ a ∈ later, a.event.isReadFalse = true) ∧
      (∃ request state, ⟨.write clusterTypeUrl request, state⟩ ∈
        upTo (fun e => e.event.isReadFalse) later) ∧
      ∀ a ∈ upTo (fun e => e.event.isReadFalse) later, ∀ typeUrl request,
        a.event = .write typeUrl request → typeUrl = clusterTypeUrl)

theorem StartsWithFirst.append {down : Bool} {later : List Entry} {e : Entry}
    (h : StartsWithFirst down later e) (new : List Entry)
    (hsilent : down = true → requestsIn new = []) : StartsWithFirst down (new ++ later) e := by
  intro he
  rcases h he with ⟨hfirst, hdown, hlive⟩
  refine ⟨hfirst, fun hshut => ?_, fun hopen => ?_⟩
  · rcases hdown hshut with ⟨hd, hnone⟩
    exact ⟨hd, by rw [requestsIn_append, hsilent hd, hnone, List.append_nil]⟩
  · rcases hlive hopen with ⟨⟨a, ha, hfalse⟩, hwrite, hothers⟩
    rw [upTo_append_of_mem _ new ha hfalse]
    exact ⟨⟨a, List.mem_append_right _ ha, hfalse⟩, hwrite, hothers⟩

theorem since_startsWithFirst_cons {down : Bool} {past : List Entry}
    (h : Since (StartsWithFirst down) past) (a : Entry) (hopened : a.event ≠ .opened true)
    (hsilent : down = true → a.event.request? = none) :
    Since (StartsWithFirst down) (a :: past) := by
  refine h.cons (fun later e hstarts => ?_) (fun he => absurd he hopened)
  exact hstarts.append [a] (fun hdown => by simp [requestsIn, hsilent hdown])

namespace Session

/-- Every stream so far started with the first type, and nothing is left to read. -/
def AllStarted (s : Session) : Prop :=
  Since (StartsWithFirst s.shutdown) s.history ∧ Ended s.toState

theorem allStarted_stable : Stable AllStarted := by
  apply stable_of_ended
  · exact fun s h => since_startsWithFirst_cons h _ (by simp) (fun _ => rfl)
  · exact fun s t _ _ h => since_startsWithFirst_cons h _ (by simp) (fun _ => rfl)
  · intro s t rest hstream hdown _ h
    rw [beginSend_history s t hstream, beginSend_shutdown]
    have hsend := since_startsWithFirst_cons h ⟨.send t, s.toState⟩ (by simp) (fun _ => rfl)
    exact since_startsWithFirst_cons hsend _ (by simp) (by simp [hdown])
  · exact fun s t _ h => since_startsWithFirst_cons h _ (by simp) (fun _ => rfl)
  · exact fun s t h => since_startsWithFirst_cons h _ (by simp) (fun _ => rfl)
  · exact fun s h => since_startsWithFirst_cons h _ (by simp) (fun _ => rfl)

/-- A new stream up to the end of its first phase: everything in `gap` belongs to the sends of
the first type. -/
theorem since_startsWithFirst_block {past gap : List Entry} {written sent pushed ended : Entry}
    {state : State} {first : DiscoveryRequest} (h : Since (StartsWithFirst false) past)
    (hgap : ∀ e ∈ gap, e.event.Descends clusterTypeUrl) (hended : ended.event = .read none)
    (hwritten : written.event = .write clusterTypeUrl first)
    (hsent : sent.event = .send clusterTypeUrl) (hpushed : pushed.event = .push clusterTypeUrl)
    (hfirst : state.subscriptions.head? = some clusterTypeUrl) (hlive : state.shutdown = false) :
    Since (StartsWithFirst false)
      (ended :: (gap ++ written :: sent :: pushed :: ⟨.opened true, state⟩ :: past)) := by
  have hdescends : ∀ e ∈ gap ++ [written, sent, pushed], e.event.Descends clusterTypeUrl := by
    intro e he
    simp only [List.mem_append, List.mem_cons, List.not_mem_nil, or_false] at he
    rcases he with he | rfl | rfl | rfl
    · exact hgap e he
    · simp [hwritten, Event.Descends]
    · simp [hsent, Event.Descends]
    · simp [hpushed, Event.Descends]
  have hupTo : upTo (fun e => e.event.isReadFalse) (ended :: gap ++ [written, sent, pushed]) =
      (gap ++ [written, sent, pushed]).reverse :=
    upTo_append (fun e => e.event.isReadFalse) [] ended _ (by simp [hended, Event.isReadFalse])
      fun e he => (hdescends e he).isReadFalse_eq
  have hshape : ended :: (gap ++ written :: sent :: pushed :: ⟨.opened true, state⟩ :: past) =
      (ended :: gap ++ [written, sent, pushed]) ++ ⟨.opened true, state⟩ :: past := by simp
  rw [hshape]
  apply h.block
  · intro later e hstarts
    have hmore := hstarts.append (ended :: gap ++ [written, sent, pushed] ++ [⟨.opened true, state⟩])
      (by simp)
    rwa [List.append_assoc, List.singleton_append] at hmore
  · intro _
    refine ⟨hfirst, fun hdown => ?_, fun _ => ⟨⟨ended, by simp, by simp [hended, Event.isReadFalse]⟩,
      ⟨first, written.state, ?_⟩, ?_⟩⟩
    · simp [hlive] at hdown
    · rw [hupTo, ← hwritten]
      simp
    · intro a ha t r hwrite
      rw [hupTo, List.mem_reverse] at ha
      simpa [hwrite, Event.Descends] using hdescends a ha
  · apply since_of_forall
    intro e he later hopened
    rw [List.cons_append, List.mem_cons] at he
    rcases he with rfl | he
    · simp [hended] at hopened
    · have hd := hdescends e he
      simp [hopened, Event.Descends] at hd

theorem allStarted_openStream {s : Session} (hs : Quiet s) (hdown : s.shutdown = false)
    (responses : List DiscoveryResponse) (h : AllStarted s) :
    AllStarted ((absorb clusterTypeUrl responses (s.firstRequest responses)).log (.read none)) := by
  have hstream := absorb_stream clusterTypeUrl responses _ (firstRequest_stream s responses)
  rcases absorb_history clusterTypeUrl responses _ (firstRequest_stream s responses)
    with ⟨gap, hhistory, hgap⟩
  have hpast : Since (StartsWithFirst false) s.history := hdown ▸ h.1
  have hdown' : ((absorb clusterTypeUrl responses (s.firstRequest responses)).log
      (.read none)).shutdown = false := by
    rw [log_toState, absorb_shutdown, firstRequest_shutdown, hdown]
  refine ⟨?_, Or.inr (Or.inr hstream)⟩
  rw [hdown', log_history, hhistory, firstRequest_history]
  exact since_startsWithFirst_block hpast hgap rfl rfl rfl rfl hs.first hdown

theorem allStarted_callSteps : CallSteps AllStarted := by
  apply CallSteps.of_history
  · intro s s' h hhistory hstream hdown
    unfold AllStarted Ended
    rw [hhistory, hstream, hdown]
    exact h
  · intro s event hevent h
    refine ⟨since_startsWithFirst_cons h.1 _ ?_ (fun _ => ?_), h.2⟩
    · rintro rfl
      simp [Event.ofCall] at hevent
    · cases event <;> first | rfl | simp [Event.ofCall] at hevent
  · exact fun s h =>
      ⟨since_startsWithFirst_cons h.1 _ (by simp) (fun _ => rfl), Or.inr (Or.inl rfl)⟩
  · refine fun s h => ⟨fun later e earlier hsplit he => ?_, Or.inl rfl⟩
    rcases h.1 later e earlier hsplit he with ⟨hfirst, hdown, hlive⟩
    exact ⟨hfirst, fun hshut => ⟨rfl, (hdown hshut).2⟩, hlive⟩

theorem allStarted_kept : Kept AllStarted where
  toStable := allStarted_stable
  toCallSteps := allStarted_callSteps
  openStream := fun s responses hs hdown h =>
    allStarted_stable.openStream_request_of_absorb s responses hdown
      (allStarted_openStream hs.quiet hdown responses h)
  openStreamDown := fun s responses hs hdown h => by
    rw [apiStateFor_eq_modifyApi]
    refine ⟨h.1.cons (fun later e hstarts => hstarts.append [_] (fun _ => rfl)) (fun _ => ?_),
      Or.inl hdown⟩
    refine ⟨hs.quiet.first, fun _ => ⟨hdown, rfl⟩, fun hlive => ?_⟩
    simp [hdown] at hlive

theorem allStarted_construct (channel : Bool) : AllStarted (construct channel) :=
  ⟨by simp [construct, Since], Or.inr (Or.inl rfl)⟩

end Session
open Session

/-- For every stream of every run, each type in `subscriptions_` is requested before `Read` on
that stream returns false if and only if the client is not shut down and the list holds
no type but the one every stream starts with. -/
theorem run_resubscribes_iff (channel : Bool) (calls : List Op) (s : Session)
    (hrun : Run channel calls s) (later earlier : List Entry) (state : State)
    (hopened : s.history = later ++ ⟨.opened true, state⟩ :: earlier) :
    (∀ t ∈ state.subscriptions, t ∈ requestedBeforeEnd later) ↔
      state.shutdown = false ∧ ∀ t ∈ state.subscriptions, t = clusterTypeUrl := by
  have hstarted := (allStarted_kept.run hrun (allStarted_construct channel)).1
  have haddressed := (addressing_kept.run hrun (addressing_construct channel)).1
  rcases hstarted later _ earlier hopened rfl with ⟨hfirst, hdown, hlive⟩
  have hmem : clusterTypeUrl ∈ state.subscriptions := List.mem_of_head? hfirst
  have hsub {e : Entry} (he : e ∈ upTo (fun e => e.event.isReadFalse) later) : e ∈ s.history := by
    rw [hopened]
    exact List.mem_append_left _ (List.mem_reverse.mp ((List.takeWhile_sublist _).subset he))
  have htype {t : String} {r : DiscoveryRequest} {st : State}
      (he : ⟨.write t r, st⟩ ∈ upTo (fun e => e.event.isReadFalse) later) : r.typeUrl = t :=
    ((haddressed.written _ (hsub he)).1 t r rfl).1
  cases hshut : state.shutdown with
  | true =>
    have hnone : requestedBeforeEnd later = [] := by
      rw [requestedBeforeEnd, List.map_eq_nil_iff, List.eq_nil_iff_forall_not_mem]
      intro r hr
      rcases mem_requestsIn.mp hr with ⟨t, st, he⟩
      have hr' : r ∈ requestsIn later := mem_requestsIn.mpr
        ⟨t, st, List.mem_reverse.mp ((List.takeWhile_sublist _).subset he)⟩
      simp [(hdown hshut).2] at hr'
    rw [hnone]
    simpa using ⟨clusterTypeUrl, hmem⟩
  | false =>
    rcases hlive hshut with ⟨_, ⟨request, written, hwritten⟩, hothers⟩
    have hiff (t : String) : t ∈ requestedBeforeEnd later ↔ t = clusterTypeUrl := by
      rw [requestedBeforeEnd, List.mem_map]
      constructor
      · rintro ⟨r, hr, rfl⟩
        rcases mem_requestsIn.mp hr with ⟨u, st, he⟩
        rw [htype he]
        exact hothers _ he u r rfl
      · rintro rfl
        exact ⟨request, mem_requestsIn.mpr ⟨_, written, hwritten⟩, htype hwritten⟩
    simp [hiff]

/-- The first stream of a client without watches. -/
theorem run_resubscribes_iff_no_watch :
    ∃ s later state earlier, Run true [.onStreamEstablished (some [clusterPush])] s ∧
      s.history = later ++ ⟨.opened true, state⟩ :: earlier ∧
      ∀ t ∈ state.subscriptions, t ∈ requestedBeforeEnd later := by
  have hopens : opens (fun _ state => !state.shutdown &&
        state.subscriptions.all fun t => t == clusterTypeUrl)
      (performAll (construct true) [.onStreamEstablished (some [clusterPush])]).history = true := by
    decide
  rcases exists_split_of_opens _ _ hopens with ⟨later, state, earlier, hsplit, htest⟩
  have hrun := performAll_run true [.onStreamEstablished (some [clusterPush])]
  have hiff := run_resubscribes_iff true _ _ hrun later earlier state hsplit
  exact ⟨_, later, state, earlier, hrun, hsplit, hiff.mpr (by simpa using htest)⟩

/-- With a watch of another type, that type is not requested before the stream has ended. -/
theorem watched_type_requested_too_late :
    ∃ s later state earlier, Run true [.addWatch "E" ∅, .onStreamEstablished (some [])] s ∧
      s.history = later ++ ⟨.opened true, state⟩ :: earlier ∧
      "E" ∈ state.subscriptions ∧ "E" ∉ requestedBeforeEnd later := by
  have hopens : opens (fun later state => state.subscriptions.contains "E" &&
        !(requestedBeforeEnd later).contains "E")
      (performAll (construct true) [.addWatch "E" ∅, .onStreamEstablished (some [])]).history =
        true := by
    decide
  rcases exists_split_of_opens _ _ hopens with ⟨later, state, earlier, hsplit, htest⟩
  exact ⟨_, later, state, earlier, performAll_run true _, hsplit, by simpa using htest⟩

end XdsClient.Ads
