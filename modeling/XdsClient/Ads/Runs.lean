import XdsClient.Ads.Phases

/-! # Runs

Every call returns from every state a run can reach, and its result is the one of
`perform`. The rules at the end are how the later modules use this: an invariant of
`perform` over quiet clients holds after every run.
-/
namespace XdsClient.Ads
open Library Session

/-- `queueSubscriptions` together with the types it calls `queueDiscoveryRequest` for. -/
def queueSubscriptionsTraced : ℕ → ℕ → Session → Option (List String × Session)
  | 0, _, _ => none
  | fuel + 1, i, s =>
    match s.subscriptions[i]? with
    | none => some ([], s)
    | some typeUrl =>
      (queueDiscoveryRequest fuel typeUrl s).bind fun s =>
        (queueSubscriptionsTraced fuel (i + 1) s).map fun rest => (typeUrl :: rest.1, rest.2)

theorem queueSubscriptionsTraced_snd (fuel i : ℕ) (s : Session) :
    (queueSubscriptionsTraced fuel i s).map Prod.snd = queueSubscriptions fuel i s := by
  induction fuel generalizing i s with
  | zero => rfl
  | succ fuel ih =>
    simp only [queueSubscriptionsTraced, queueSubscriptions]
    cases hi : s.subscriptions[i]? with
    | none => rfl
    | some typeUrl =>
      simp only [Option.map_bind, Function.comp_def, Option.map_map]
      congr 1
      ext1 s
      exact ih (i + 1) s

/-- The loop of `onStreamEstablished` from position `i` on, once the list no longer grows. -/
theorem queueSubscriptionsTraced_converges (l : List String) (i : ℕ) (s : Session)
    (hl : s.subscriptions.drop i = l) (hcalm : s.Calm) (hbegun : Begun s.toState) :
    Converges (fun fuel => queueSubscriptionsTraced fuel i s) (l, l.foldl request s) := by
  induction l generalizing i s with
  | nil =>
    have hi : s.subscriptions[i]? = none := by
      rw [List.getElem?_eq_none_iff]
      exact List.drop_eq_nil_iff.mp hl
    apply Converges.call _ (Converges.const ([], s))
    intro fuel
    simp only [queueSubscriptionsTraced, hi]
  | cons t l ih =>
    have hi : s.subscriptions[i]? = some t := by
      have h := congrArg (fun l => l[0]?) hl
      simpa using h
    have hrest : (s.request t).subscriptions.drop (i + 1) = l := by
      rw [request_subscriptions s t hcalm hbegun, ← List.drop_drop, hl]
      rfl
    have hnext := ih (i + 1) (s.request t) hrest (request_calm s t hcalm) (hbegun.request t)
    have hturn := (queueDiscoveryRequest_converges s t hcalm).bind
      (g := fun fuel s => (queueSubscriptionsTraced fuel (i + 1) s).map
        fun rest => (t :: rest.1, rest.2)) (hnext.map fun rest => (t :: rest.1, rest.2))
    apply Converges.call _ hturn
    intro fuel
    simp only [queueSubscriptionsTraced, hi]

/-- The first turn of the loop may make the list longer, the others do not. -/
theorem openStream_traced_converges {s : Session} (hs : s.Calm)
    (responses : List DiscoveryResponse) {first : String} {rest : List String}
    (hsubs : (s.openStream responses).subscriptions = first :: rest) :
    Converges (fun fuel => queueSubscriptionsTraced fuel 0 (s.openStream responses))
      (first :: ((s.openStream responses).request first).subscriptions.tail,
        s.establish responses) := by
  have hcalm := openStream_calm s responses hs
  have hbegun : Begun ((s.openStream responses).request first).toState := request_begun _ _ rfl rfl
  have hloop := queueSubscriptionsTraced_converges _ 1 _ rfl (request_calm _ first hcalm) hbegun
  have hturn := (queueDiscoveryRequest_converges _ first hcalm).bind
    (g := fun fuel s => (queueSubscriptionsTraced fuel 1 s).map
      fun rest => (first :: rest.1, rest.2)) (hloop.map fun rest => (first :: rest.1, rest.2))
  simp only [List.drop_one] at hturn
  simp only [establish, hsubs]
  apply Converges.call _ hturn
  intro fuel
  simp only [queueSubscriptionsTraced, hsubs, List.getElem?_cons_zero]

theorem onStreamEstablished_converges {s : Session} (hs : s.Calm)
    (responses : List DiscoveryResponse) :
    Converges (fun fuel => queueSubscriptions fuel 0 (s.openStream responses))
      (s.establish responses) := by
  cases hsubs : (s.openStream responses).subscriptions with
  | nil =>
    simp only [establish, hsubs]
    apply Converges.call _ (Converges.const _)
    intro fuel
    simp [queueSubscriptions, hsubs]
  | cons first rest =>
    have htraced := (openStream_traced_converges hs responses hsubs).map Prod.snd
    simpa only [queueSubscriptionsTraced_snd] using htraced

theorem update_converges {s : Session} (hs : s.Calm) (watch : ℕ) (w : Watcher)
    (resources : OrderedSet String) :
    Converges (fun fuel => update fuel watch w resources s) (s.updateWatch watch w resources) := by
  have herased := eraseWatch_calm s watch w hs
  simp only [update, updateWatch]
  split_ifs
  · exact queueDiscoveryRequest_converges _ _ (updateResources_calm _ watch w resources herased)
  · exact (queueDiscoveryRequest_converges _ w.typeUrl herased).bind
      (queueDiscoveryRequest_converges _ w.typeUrl
        (updateResources_calm _ watch w resources (request_calm _ w.typeUrl herased)))

theorem destroy_converges {s : Session} (hs : s.Calm) (watch : ℕ) (w : Watcher) :
    Converges (fun fuel => destroy fuel watch w s)
      (if w.resources.isEmpty then s.dropWatch watch w
        else (s.dropWatch watch w).request w.typeUrl) := by
  simp only [destroy]
  split_ifs
  · exact Converges.const _
  · exact queueDiscoveryRequest_converges (s.dropWatch watch w) _ (eraseWatch_calm s watch w hs)

theorem onDiscoveryResponse_converges {s : Session} (hs : s.Calm) (message : DiscoveryResponse) :
    Converges (fun fuel => onDiscoveryResponse fuel message s) (s.respond message) := by
  unfold respond
  split_ifs with hcalls
  · apply Converges.call _ (queueDiscoveryRequest_converges _ _ (ingest_calm s message hs))
    intro fuel
    rw [onDiscoveryResponse_succ, if_pos hcalls]
  · apply Converges.call _ (Converges.const _)
    intro fuel
    rw [onDiscoveryResponse_succ, if_neg hcalls]

/-- Every call on a calm client returns, whatever its list, its queue and its stream hold. -/
theorem exec_converges {s : Session} (hs : s.Calm) (op : Op) :
    Converges (fun fuel => exec fuel op s) (perform op s) := by
  cases op with
  | setChannel => exact Converges.const _
  | shutdown => exact Converges.const _
  | onStreamEstablished outcome =>
    simp only [exec, onStreamEstablished, perform]
    split_ifs
    · cases outcome with
      | some responses => exact onStreamEstablished_converges hs responses
      | none => exact Converges.const _
    · exact Converges.const _
  | addWatch typeUrl resources =>
    exact queueDiscoveryRequest_converges _ _
      (subscribe_calm _ typeUrl (newWatcher_calm s typeUrl resources hs))
  | update watch resources =>
    cases hw : s.watchers watch with
    | some w => simpa only [exec, perform, hw] using update_converges hs watch w resources
    | none => simpa only [exec, perform, hw] using Converges.const s
  | destroy watch =>
    cases hw : s.watchers watch with
    | some w => simpa only [exec, perform, hw] using destroy_converges hs watch w
    | none => simpa only [exec, perform, hw] using Converges.const s
  | onDiscoveryResponse message => exact onDiscoveryResponse_converges hs message

/-- The result of a call does not depend on how much fuel it was given. -/
theorem exec_eq_some {s s' : Session} (hs : s.Calm) {op : Op} {fuel : ℕ}
    (h : exec fuel op s = some s') : s' = perform op s :=
  ((exec_fuelMonotone op s).converges h).unique (exec_converges hs op)

def performAll (s : Session) (calls : List Op) : Session := calls.foldl (fun s op => perform op s) s

theorem performAll_concat (s : Session) (calls : List Op) (op : Op) :
    performAll s (calls ++ [op]) = perform op (performAll s calls) := by
  simp [performAll]

theorem performAll_quiet {s : Session} (hs : Quiet s) (calls : List Op) :
    Quiet (performAll s calls) := by
  induction calls generalizing s with
  | nil => exact hs
  | cons op calls ih => exact ih (perform_quiet hs op)

/-- A sequence of calls has exactly one outcome, the fold of `perform`. -/
theorem run_iff (channel : Bool) (calls : List Op) (s : Session) :
    Run channel calls s ↔ s = performAll (construct channel) calls := by
  constructor
  · intro h
    induction h with
    | construct => rfl
    | call fuel hrun hexec ih =>
      rw [performAll_concat]
      rw [ih] at hexec
      exact exec_eq_some (performAll_quiet (construct_quiet channel) _).calm hexec
  · rintro rfl
    induction calls using List.reverseRecOn with
    | nil => exact Run.construct
    | append_singleton calls op ih =>
      have hquiet := performAll_quiet (construct_quiet channel) calls
      rcases (exec_converges hquiet.calm op).exists_fuel with ⟨fuel, hexec⟩
      rw [performAll_concat]
      exact Run.call fuel ih hexec

theorem performAll_run (channel : Bool) (calls : List Op) :
    Run channel calls (performAll (construct channel) calls) :=
  (run_iff channel calls _).mpr rfl

theorem Run.quiet {channel : Bool} {calls : List Op} {s : Session} (h : Run channel calls s) :
    Quiet s := by
  rw [(run_iff channel calls s).mp h]
  exact performAll_quiet (construct_quiet channel) calls

def Reachable (s : Session) : Prop := ∃ channel calls, Run channel calls s

theorem Reachable.quiet {s : Session} (h : Reachable s) : Quiet s := by
  rcases h with ⟨channel, calls, hrun⟩
  exact hrun.quiet

/-- The induction rule over runs: what holds of a new client and survives every call from a
reachable state holds after every run. -/
theorem Run.invariant {P : Session → Prop} {channel : Bool} {calls : List Op} {s : Session}
    (h : Run channel calls s) (hconstruct : P (Ads.construct channel))
    (hperform : ∀ s op, Reachable s → P s → P (perform op s)) : P s := by
  induction h with
  | construct => exact hconstruct
  | call fuel hrun hexec ih =>
    rw [exec_eq_some hrun.quiet.calm hexec]
    exact hperform _ _ ⟨channel, _, hrun⟩ ih

/-! ## Termination -/

def Session.refill (s : Session) (stream : Option (List DiscoveryResponse))
    (subscriptions : List String) (requestQueue : Option (List String)) : Session :=
  { s with stream := stream, subscriptions := subscriptions, requestQueue := requestQueue }

/-- From every state a run can reach, every call returns, and so does `queueDiscoveryRequest`,
whatever the stream, the list of subscriptions and the queue hold. -/
theorem run_calls_terminate (channel : Bool) (calls : List Op) (s : Session)
    (hrun : Run channel calls s) (stream : Option (List DiscoveryResponse))
    (subscriptions : List String) (requestQueue : Option (List String)) :
    (∀ op, ∃ result, Converges
      (fun fuel => exec fuel op (s.refill stream subscriptions requestQueue)) result) ∧
    ∀ typeUrl, ∃ result, Converges
      (fun fuel => queueDiscoveryRequest fuel typeUrl
        (s.refill stream subscriptions requestQueue)) result := by
  have hcalm : (s.refill stream subscriptions requestQueue).Calm := hrun.quiet.calm
  exact ⟨fun op => ⟨_, exec_converges hcalm op⟩,
    fun typeUrl => ⟨_, queueDiscoveryRequest_converges _ typeUrl hcalm⟩⟩

/-- A list with repetitions and a queue left over, on a stream with two responses to come. -/
theorem run_calls_terminate_refilled :
    ∃ s, Run true [.addWatch "E" ∅] s ∧ ∃ result, Converges (fun fuel =>
      exec fuel (.addWatch "F" ∅)
        (s.refill (some [clusterPush, clusterPush]) ["E", "E", "F"] (some ["E", "F"]))) result := by
  have hrun := performAll_run true [.addWatch "E" ∅]
  exact ⟨_, hrun, (run_calls_terminate true _ _ hrun (some [clusterPush, clusterPush])
    ["E", "E", "F"] (some ["E", "F"])).1 (.addWatch "F" ∅)⟩

end XdsClient.Ads
