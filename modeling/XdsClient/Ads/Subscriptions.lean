import XdsClient.Ads.Runs
import XdsClient.Library.FlaggedList

/-! # The list of subscribed types

`subscriptions_` and the flags `subscribed_` are a list with a flag for every element: a type
is appended the first time it is marked. `addWatch` marks its type and the first request of a
stream marks its own; nothing else in the client touches the list or the flags. The
constructors put the Cluster type into the list and leave its flag unset, so the first of
these two marks of that type appends it a second time.
-/
namespace XdsClient.Ads
open Library

def State.tracking (s : State) : FlaggedList String :=
  ⟨s.subscriptions, fun typeUrl => (s.api typeUrl).subscribed⟩

/-- The type that a call made in this state marks. -/
def State.marks (s : State) : Op → Option String
  | .addWatch typeUrl _ => some typeUrl
  | .onStreamEstablished (some _) =>
    if s.stub && !s.shutdown then some clusterTypeUrl else none
  | _ => none

theorem State.tracking_eq {s s' : State} (hsubs : s'.subscriptions = s.subscriptions)
    (hapi : ∀ t, (s'.api t).subscribed = (s.api t).subscribed) : s'.tracking = s.tracking := by
  unfold State.tracking
  rw [hsubs]
  congr 1
  funext t
  exact hapi t

namespace Session

/-! ## The steps that mark a type -/

theorem subscribe_tracking (s : Session) (typeUrl : String) :
    (s.subscribe typeUrl).tracking = s.tracking.mark typeUrl := by
  have hflag (t : String) : ((s.subscribe typeUrl).api t).subscribed =
      Function.update (fun t => (s.api t).subscribed) typeUrl true t := by
    rw [subscribe_api]
    by_cases ht : t = typeUrl
    · simp [ht]
    · simp [ht]
  cases hs : (s.api typeUrl).subscribed with
  | true =>
    simp [State.tracking, FlaggedList.mark, subscribe, hs]
  | false =>
    have hsubs : (s.subscribe typeUrl).subscriptions = s.subscriptions ++ [typeUrl] := by
      simp [subscribe, hs]
    simp only [State.tracking, FlaggedList.mark, hs, hsubs, Bool.false_eq_true, if_false]
    congr 1
    funext t
    exact hflag t

/-- A request marks its type exactly if it is the one that has to carry the node. -/
theorem beginSend_tracking (s : Session) (typeUrl : String) :
    (s.beginSend typeUrl).tracking =
      if (s.api typeUrl).mustSendNode || s.firstStreamRequest then s.tracking.mark typeUrl
      else s.tracking := by
  have hflag (t : String) : ((s.beginSend typeUrl).api t).subscribed =
      ((s.api t).subscribed || (decide (t = typeUrl) && s.subscribes typeUrl)) := by
    by_cases ht : t = typeUrl
    · subst ht
      rw [beginSend_api_self]
      simp [ApiState.afterWrite, State.prepared]
    · rw [beginSend_api_of_ne s typeUrl ht]
      simp [ht]
  cases hmark : (s.api typeUrl).mustSendNode || s.firstStreamRequest with
  | false =>
    have hno : s.subscribes typeUrl = false := by simp [State.subscribes, hmark]
    apply State.tracking_eq
    · simp [beginSend_subscriptions, hno]
    · simp [hflag, hno]
  | true =>
    have hyes : s.subscribes typeUrl = !(s.api typeUrl).subscribed := by
      simp [State.subscribes, hmark]
    cases hs : (s.api typeUrl).subscribed with
    | true =>
      rw [hs] at hyes
      have hsame : s.tracking.mark typeUrl = s.tracking := by
        simp [FlaggedList.mark, State.tracking, hs]
      rw [if_pos rfl, hsame]
      apply State.tracking_eq
      · simp [beginSend_subscriptions, hyes]
      · simp [hflag, hyes]
    | false =>
      rw [hs] at hyes
      simp only [State.tracking, FlaggedList.mark, hs, beginSend_subscriptions, hyes,
        Bool.false_eq_true, if_false, if_true, Bool.not_false]
      congr 1
      funext t
      rw [hflag, hyes]
      by_cases ht : t = typeUrl <;> simp [ht]

/-! ## The steps that mark none -/

theorem modifyApi_tracking (s : Session) (typeUrl : String) (f : ApiState → ApiState)
    (hf : ∀ api, (f api).subscribed = api.subscribed) :
    (s.modifyApi typeUrl f).tracking = s.tracking := by
  refine State.tracking_eq rfl (fun t => ?_)
  rw [modifyApi_api]
  split_ifs
  · exact hf _
  · rfl

theorem apiStateFor_tracking (s : Session) (typeUrl : String) :
    (s.apiStateFor typeUrl).tracking = s.tracking := by
  rw [apiStateFor_eq_modifyApi]
  exact s.modifyApi_tracking typeUrl id (fun _ => rfl)

theorem updateResources_tracking (s : Session) (watch : ℕ) (w : Watcher)
    (resources : OrderedSet String) :
    (s.updateResources watch w resources).tracking = s.tracking :=
  (s.log (.register watch)).modifyApi_tracking w.typeUrl
    (fun api => { api with watches := ⟨s.nextNode, watch⟩ :: api.watches }) (fun _ => rfl)

theorem newWatcher_tracking (s : Session) (typeUrl : String)
    (resources : OrderedSet String) : (s.newWatcher typeUrl resources).tracking = s.tracking := by
  unfold newWatcher
  rw [updateResources_tracking]
  exact s.apiStateFor_tracking typeUrl

theorem eraseWatch_tracking (s : Session) (watch : ℕ) (w : Watcher) :
    (s.eraseWatch watch w).tracking = s.tracking :=
  (s.log (.erase watch)).modifyApi_tracking w.typeUrl
    (fun api => { api with watches := api.watches.filter fun n => n.node ≠ w.iter })
    (fun _ => rfl)

theorem ingest_tracking (s : Session) (message : DiscoveryResponse) :
    (s.ingest message).tracking = s.tracking := by
  refine State.tracking_eq rfl (fun t => ?_)
  rw [ingest_api]
  split_ifs <;> simp

theorem openStream_tracking (s : Session) (responses : List DiscoveryResponse) :
    (s.openStream responses).tracking = s.tracking := by
  refine State.tracking_eq rfl (fun t => ?_)
  rw [openStream_api]

/-- After the first request of a stream, no request marks a type. -/
theorem tracking_stable (l : FlaggedList String) :
    Stable fun s => s.tracking = l ∧ s.Calm ∧ Begun s.toState := by
  apply Stable.of_begun (P := fun s => s.tracking = l)
  · exact fun s q h => h
  · exact fun s message rest h => (ingest_tracking _ message).trans h
  · intro s t hcalm hfirst h
    rw [beginSend_tracking, hfirst, (hcalm t).2]
    exact h

theorem request_tracking (s : Session) (typeUrl : String) (hcalm : s.Calm)
    (hbegun : Begun s.toState) : (s.request typeUrl).tracking = s.tracking := by
  apply Stable.request_of_begun (P := fun s' => s'.tracking = s.tracking)
    (tracking_stable s.tracking) typeUrl hcalm hbegun rfl
  exact s.apiStateFor_tracking typeUrl

namespace Quiet
variable {s : Session} (hs : Quiet s)
include hs

theorem request_tracking (typeUrl : String) :
    (s.request typeUrl).tracking = s.tracking := by
  cases hstream : s.stream with
  | none => simp [Session.request, hstream]
  | some responses => exact Session.request_tracking s typeUrl hs.calm (hs.begun (by simp [hstream]))

theorem foldl_request_tracking (l : List String) :
    (l.foldl Session.request s).tracking = s.tracking := by
  induction l generalizing s with
  | nil => rfl
  | cons t l ih => rw [List.foldl_cons, ih (hs.request t), hs.request_tracking]

/-- The first request of a stream marks its type, unless nothing is sent any more. -/
theorem establish_tracking (responses : List DiscoveryResponse) :
    (s.establish responses).tracking =
      if s.shutdown then s.tracking else s.tracking.mark clusterTypeUrl := by
  rw [establish_eq hs, (openStream_request_quiet hs responses).foldl_request_tracking]
  cases hdown : s.shutdown with
  | true =>
    have hopened := Session.request_tracking (s.openStream responses) clusterTypeUrl
      (openStream_calm s responses hs.calm) (Or.inl hdown)
    exact hopened.trans (s.openStream_tracking responses)
  | false =>
    have hqueued : (s.firstQueued responses).tracking = s.tracking :=
      (apiStateFor_tracking _ clusterTypeUrl).trans (s.openStream_tracking responses)
    have hcalm : (s.firstQueued responses).Calm :=
      apiStateFor_calm _ clusterTypeUrl (openStream_calm s responses hs.calm)
    have hfirst : (s.firstRequest responses).tracking = s.tracking.mark clusterTypeUrl := by
      rw [firstRequest, beginSend_tracking, firstQueued_firstStreamRequest, Bool.or_true,
        if_pos rfl, hqueued]
    refine ((tracking_stable _).openStream_request s responses hdown
      ⟨hfirst, ?_, Or.inr (beginSend_firstStreamRequest _ _)⟩).1
    exact calm_stable.beginSend _ clusterTypeUrl [] (by simp [firstQueued, openStream])
      (by simpa [firstQueued, openStream] using hdown) (by simp [firstQueued, openStream, State.queue])
      hcalm

end Quiet
end Session
open Session

/-! ## Calls and runs -/

theorem tracking_watchSteps (l : FlaggedList String) :
    WatchSteps fun s => Quiet s ∧ s.tracking = l where
  eraseWatch := fun s watch w h =>
    ⟨h.1.eraseWatch watch w, (s.eraseWatch_tracking watch w).trans h.2⟩
  updateResources := fun s watch w resources h =>
    ⟨h.1.updateResources watch w resources,
      (s.updateResources_tracking watch w resources).trans h.2⟩
  dropWatch := fun s watch w h => ⟨h.1.dropWatch watch w, (s.eraseWatch_tracking watch w).trans h.2⟩
  ingest := fun s message h => ⟨h.1.ingest message, (s.ingest_tracking message).trans h.2⟩
  request := fun _ typeUrl h => ⟨h.1.request typeUrl, (h.1.request_tracking typeUrl).trans h.2⟩

/-- What a call does to the list and the flags. -/
theorem perform_tracking {s : Session} (hs : Quiet s) (op : Op) :
    (perform op s).tracking = (s.marks op).elim s.tracking s.tracking.mark := by
  cases op with
  | setChannel => rfl
  | onStreamEstablished outcome =>
    cases outcome with
    | none =>
      simp only [perform]
      split_ifs <;> rfl
    | some responses =>
      cases hstub : s.stub with
      | false => simp [perform, State.marks, hstub]
      | true =>
        rw [perform, if_pos hstub, hs.establish_tracking]
        cases hdown : s.shutdown <;> simp [State.marks, hstub, hdown]
  | addWatch typeUrl resources =>
    have hquiet := (hs.newWatcher typeUrl resources).subscribe typeUrl
    rw [perform, hquiet.request_tracking, subscribe_tracking, newWatcher_tracking]
    rfl
  | shutdown =>
    simp only [perform, Ads.shutdown, endStream]
    split <;> rfl
  | _ => exact ((tracking_watchSteps s.tracking).perform ⟨hs, rfl⟩ rfl).2

/-- The run started with the Cluster type in the list and no flag set, and has marked the
Cluster type exactly if some call of it did. -/
theorem Run.tracked {channel : Bool} {calls : List Op} {s : Session} (hrun : Run channel calls s) :
    s.tracking.Seeded clusterTypeUrl ∧
      (s.tracking.flag clusterTypeUrl = false ↔ ∀ before op after, calls = before ++ op :: after →
        ∀ s, Run channel before s → s.marks op ≠ some clusterTypeUrl) := by
  induction hrun with
  | construct =>
    refine ⟨FlaggedList.seeded_start clusterTypeUrl, ?_⟩
    simp [State.tracking, State.api, Ads.construct]
  | @call calls s s' op fuel hrun hexec ih =>
    obtain ⟨hseeded, hflag⟩ := ih
    have honly : (∀ s, Run channel calls s → s.marks op ≠ some clusterTypeUrl) ↔
        s.marks op ≠ some clusterTypeUrl := by
      refine ⟨fun h => h s hrun, fun h s₀ hrun₀ => ?_⟩
      rw [(run_iff channel calls s₀).mp hrun₀, ← (run_iff channel calls s).mp hrun]
      exact h
    rw [exec_eq_some hrun.quiet.calm hexec, perform_tracking hrun.quiet,
      forall_split_concat (fun before op => ∀ s, Run channel before s →
        s.marks op ≠ some clusterTypeUrl), honly, ← hflag]
    cases hmarks : s.marks op with
    | none => exact ⟨hseeded, by simp⟩
    | some typeUrl =>
      refine ⟨hseeded.mark typeUrl, ?_⟩
      rw [Option.elim_some, FlaggedList.mark_flag, Bool.or_eq_false_iff, decide_eq_false_iff_not,
        ne_eq, Option.some.injEq, eq_comm (a := typeUrl)]

/-- The loop of `onStreamEstablished` calls `queueDiscoveryRequest` for the list as the call
leaves it, entry by entry. -/
theorem establish_traced {s : Session} (hs : Quiet s) (responses : List DiscoveryResponse) :
    Converges (fun fuel => queueSubscriptionsTraced fuel 0 (s.openStream responses))
      ((s.establish responses).subscriptions, s.establish responses) := by
  have hquiet := openStream_request_quiet hs responses
  have hbegun : Begun ((s.openStream responses).request clusterTypeUrl).toState :=
    request_begun _ _ rfl rfl
  have hlist : (s.establish responses).subscriptions =
      ((s.openStream responses).request clusterTypeUrl).subscriptions := by
    rw [establish_eq hs, hquiet.foldl_request_subscriptions _ hbegun]
  have hhead : ∃ rest, (s.openStream responses).subscriptions = clusterTypeUrl :: rest :=
    List.head?_eq_some_iff.mp hs.first
  obtain ⟨rest, hrest⟩ := hhead
  have htraced := openStream_traced_converges hs.calm responses hrest
  rw [hlist, List.eq_cons_of_mem_head? hquiet.first]
  exact htraced

/-- The loop of an `onStreamEstablished` that obtains a stream calls `queueDiscoveryRequest` once
for each type in the list. -/
def QueuesEachOnce (s : Session) (responses : List DiscoveryResponse) : Prop :=
  ∃ types s',
    Converges (fun fuel => queueSubscriptionsTraced fuel 0 (s.openStream responses)) (types, s') ∧
      ∀ typeUrl ∈ s'.subscriptions, types.count typeUrl = 1

theorem queuesEachOnce_iff {s : Session} (hs : Quiet s) (responses : List DiscoveryResponse) :
    QueuesEachOnce s responses ↔ (s.establish responses).subscriptions.Nodup := by
  have htraced := establish_traced hs responses
  rw [List.nodup_iff_count_eq_one]
  constructor
  · rintro ⟨types, s', hconverges, hcount⟩
    obtain ⟨rfl, rfl⟩ := Prod.mk.inj (hconverges.unique htraced)
    exact hcount
  · exact fun hcount => ⟨_, _, htraced, hcount⟩

/-- At every point of a run between two calls, the list holds no type twice and every
subscribed type, and the loop of every `onStreamEstablished` of the run that obtains a stream
queues each type once, if and only if no call of the run marks the Cluster type. -/
theorem run_subscriptions_exact_iff (channel : Bool) (calls : List Op) :
    (∀ before after s, calls = before ++ after → Run channel before s →
      s.subscriptions.Nodup ∧
      (∀ typeUrl, (s.api typeUrl).subscribed = true → typeUrl ∈ s.subscriptions) ∧
      ∀ responses rest, after = .onStreamEstablished (some responses) :: rest → s.stub = true →
        QueuesEachOnce s responses) ↔
      ∀ before op after, calls = before ++ op :: after →
        ∀ s, Run channel before s → s.marks op ≠ some clusterTypeUrl := by
  constructor
  · intro h
    have hrun := performAll_run channel calls
    obtain ⟨hseeded, hflag⟩ := hrun.tracked
    exact hflag.mp (hseeded.nodup_iff.mp (h calls [] _ (List.append_nil calls).symm hrun).1)
  · intro h
    have hnodup {before after : List Op} {s : Session} (hsplit : calls = before ++ after)
        (hrun : Run channel before s) : s.subscriptions.Nodup := by
      obtain ⟨hseeded, hflag⟩ := hrun.tracked
      refine hseeded.nodup_iff.mpr (hflag.mpr fun earlier op later hbefore => ?_)
      apply h earlier op (later ++ after)
      rw [hsplit, hbefore, List.append_assoc, List.cons_append]
    intro before after s hsplit hrun
    refine ⟨hnodup hsplit hrun, hrun.tracked.1.flagged, fun responses rest hafter hstub => ?_⟩
    -- the list the loop runs through is the one the call leaves, at the next point of the run
    have hnext := performAll_run channel (before ++ [.onStreamEstablished (some responses)])
    rw [performAll_concat, ← (run_iff channel before s).mp hrun, perform, if_pos hstub] at hnext
    have hsplit' : calls = (before ++ [.onStreamEstablished (some responses)]) ++ rest := by
      rw [hsplit, hafter, List.append_assoc, List.singleton_append]
    exact (queuesEachOnce_iff hrun.quiet responses).mpr (hnodup hsplit' hnext)

/-- The first stream of a client: the Cluster type is listed twice and queued twice. -/
theorem first_stream_lists_cluster_twice :
    ∃ s, Run true [.onStreamEstablished (some [])] s ∧ ¬ s.subscriptions.Nodup ∧
      ¬ QueuesEachOnce (construct true) [] := by
  have hrepeated : ¬ ((construct true).establish []).subscriptions.Nodup := by decide
  refine ⟨_, performAll_run true _, hrepeated, fun honce => hrepeated ?_⟩
  exact (queuesEachOnce_iff (construct_quiet true) []).mp honce

end XdsClient.Ads
