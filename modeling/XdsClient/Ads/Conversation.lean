import XdsClient.Ads.Acceptance
import XdsClient.Ads.Addressing
import XdsClient.Ads.Identity
import XdsClient.Ads.Observation
import XdsClient.Ads.Wire

/-! # The client refines the multiplexer

While a stream is under way the client is at some multiplexer `m` with some `past` on the wire.
Each step of a drain moves it to the next `m` and the next `past`, so a whole drain writes what
the flat machine emits, in the flat machine's order, however deep the sends were nested. A run
of the client is therefore a run of the multiplexer.
-/
namespace XdsClient.Ads
open Library Session

/-! ## While the client sends -/

namespace Session

def Ready (s : Session) : Prop :=
  (Addressing s ∧ Subscribed s.toState) ∧ s.Accepting ∧ Registering s

theorem ready_kept : Kept Ready := addressing_kept.and (accepting_kept.and registering_kept)

/-- A request is the one of the multiplexer, up to the node. -/
theorem prepared_eq {s : Session} (haddressing : Addressing s) (haccepting : s.Accepting)
    {typeUrl : String}
    (hsub : (s.api typeUrl).subscribed = true ∨ s.subscribes typeUrl = true) :
    (s.prepared typeUrl).request =
      { s.mux.request typeUrl with node := (s.prepared typeUrl).request.node } := by
  have htype := haddressing.prepared_typeUrl typeUrl hsub
  have herror := haccepting typeUrl
  unfold Mux.request
  rw [State.mux_names, State.mux_topic]
  simp only [State.prepared, ApiState.topic] at htype ⊢
  rw [htype, herror]

/-- The stream is under way: its first request is out and every queued type has a state. -/
structure Steady (s : Session) : Prop where
  live : s.shutdown = false
  streaming : s.stream.isSome = true
  poised : Poised s
  ready : Ready s

theorem Steady.prepared {s : Session} (h : Steady s) {typeUrl : String}
    (hknown : s.known typeUrl = true) :
    (s.prepared typeUrl).request = s.mux.request typeUrl := by
  have hfirst : s.firstStreamRequest = false := h.poised.2.1.resolve_left (by simp [h.live])
  have hsubscribed := h.ready.1.2.resolve_left (by simp [h.live]) typeUrl hknown
  rw [prepared_eq h.ready.1.1 h.ready.2.1 (Or.inl hsubscribed),
    prepared_node_of_begun typeUrl h.poised.1 hfirst]
  rfl

theorem Steady.ask {s : Session} (h : Steady s) (typeUrl : String) :
    s.mux.ask typeUrl = [.request (s.mux.request typeUrl)] := by
  have hstreaming : s.mux.streaming = true := h.streaming
  have hlive : s.mux.shutdown = false := h.live
  simp [Mux.ask, hstreaming, hlive]

/-- The stream is under way, and the client is at `m` with `past` on the wire. -/
structure Speaks (m : Mux) (past : List Wire) (s : Session) : Prop extends Steady s where
  mux : s.mux = m
  wire : Ads.wire s.history = past

namespace Speaks
variable {m : Mux} {past : List Wire} {s : Session} (h : Speaks m past s)
include h

theorem readFalse : Speaks m past (s.log (.read none)) :=
  ⟨⟨h.live, h.streaming, poised_stable.readFalse s h.poised, ready_kept.readFalse s h.ready⟩,
    h.mux, (wire_cons _ _).trans (by simp [Event.wire?, h.wire])⟩

theorem sent (typeUrl : String) : Speaks m past (s.log (.sent typeUrl)) :=
  ⟨⟨h.live, h.streaming, poised_stable.sent s typeUrl h.poised,
    ready_kept.sent s typeUrl h.ready⟩, h.mux, (wire_cons _ _).trans (by simp [Event.wire?, h.wire])⟩

theorem pop : Speaks m past s.pop :=
  ⟨⟨h.live, h.streaming, poised_stable.pop s h.poised, ready_kept.pop s h.ready⟩,
    h.mux, (wire_cons _ _).trans (by simp [Event.wire?, h.wire])⟩

theorem emplace {typeUrl : String} (hknown : s.known typeUrl = true) :
    Speaks m past (s.emplace typeUrl) :=
  ⟨⟨h.live, h.streaming, poised_stable.emplace s typeUrl h.streaming hknown h.poised,
    ready_kept.emplace s typeUrl h.streaming hknown h.ready⟩,
    h.mux, (wire_cons _ _).trans (by simp [Event.wire?, h.wire])⟩

theorem receive {message : DiscoveryResponse} {rest : List DiscoveryResponse}
    (hstream : s.stream = some (message :: rest)) :
    Speaks (m.ingest message) (past ++ [.response message]) (s.receive message rest) := by
  refine ⟨⟨h.live, rfl, poised_stable.receive s message rest hstream h.live h.poised,
    ready_kept.receive s message rest hstream h.live h.ready⟩, ?_, ?_⟩
  · rw [Session.receive, ingest_mux, ← h.mux]
    have hread : State.mux { s.log (.read (some message)) with stream := some rest }.toState =
        s.mux := by
      ext1 <;> simp [State.mux, hstream]
    rw [hread]
  · rw [receive_history, wire_cons, wire_cons, h.wire]
    simp [Event.wire?]

theorem beginSend {typeUrl : String} {rest : List String} (hqueue : s.queue = typeUrl :: rest) :
    Speaks m (past ++ [.request (m.request typeUrl)]) (s.beginSend typeUrl) := by
  have hknown : s.known typeUrl = true := h.poised.2.2 typeUrl (by simp [hqueue])
  refine ⟨⟨by simpa using h.live, by simpa using h.streaming,
    poised_stable.beginSend s typeUrl rest h.streaming h.live hqueue h.poised,
    ready_kept.beginSend s typeUrl rest h.streaming h.live hqueue h.ready⟩, ?_, ?_⟩
  · rw [beginSend_mux s typeUrl hknown, h.poised.subscribes h.live typeUrl]
    exact h.mux
  · rw [beginSend_history s typeUrl h.streaming, wire_cons, wire_cons, h.wire,
      h.toSteady.prepared hknown, h.mux]
    simp [Event.wire?]

/-- With nothing to read, the queue is written out in its order. -/
theorem flush (q : List String) (hqueue : s.queue = q) :
    Speaks m (past ++ q.map fun typeUrl => .request (m.request typeUrl)) (Session.flush q s) := by
  induction q generalizing s past with
  | nil => simpa [Session.flush] using h
  | cons typeUrl q ih =>
    have hlive : ¬ s.shutdown = true := by simp [h.live]
    have hsent : Speaks m (past ++ [.request (m.request typeUrl)]) (s.deliver typeUrl) := by
      unfold Session.deliver
      rw [if_neg hlive]
      exact (h.beginSend hqueue).readFalse.sent typeUrl
    have hrest := ih hsent.pop (by rw [deliver_pop_queue, hqueue, List.tail_cons])
    rw [List.append_assoc] at hrest
    exact hrest

theorem settle (front : String) : Speaks m
    (past ++ s.queue.tail.map fun typeUrl => .request (m.request typeUrl)) (s.settle front) := by
  have hqueue : ((s.log (.sent front)).pop).queue = s.queue.tail := pop_queue _
  unfold Session.settle
  rw [hqueue]
  exact (h.sent front).pop.flush _ hqueue

/-- The innermost send writes the queue out, and the outer ones find it empty. -/
theorem settle_unwind (front : String) (n : ℕ) : Speaks m
    (past ++ s.queue.tail.map fun typeUrl => .request (m.request typeUrl))
    (((Session.unwind front)^[n] s).settle front) := by
  induction n with
  | zero => exact h.settle front
  | succ n ih =>
    have hempty : ((((Session.unwind front)^[n] s).settle front).log (.read none)).queue = [] :=
      flush_queue _ _ rfl
    have houter := ih.readFalse.settle front
    rw [hempty, List.tail_nil, List.map_nil, List.append_nil] at houter
    rw [Function.iterate_succ_apply']
    exact houter

/-- The first phase: the responses are heard, and the types of those that are answered wait. -/
theorem absorb (responses : List DiscoveryResponse) (q : List String)
    (hstream : s.stream = some responses)
    (hqueue : s.requestQueue = some (clusterTypeUrl :: q)) :
    Speaks (responses.foldl Mux.ingest m) (past ++ Mux.hearing.output m responses)
        (Session.absorb clusterTypeUrl responses s) ∧
      (Session.absorb clusterTypeUrl responses s).queue = clusterTypeUrl :: q ++
        (responses.filter m.answers).map DiscoveryResponse.typeUrl := by
  induction responses generalizing s m past q with
  | nil => simpa [Session.absorb, State.queue, hqueue] using h
  | cons message rest ih =>
    have hcalls : m.answers message = s.callsForAnswer message := by
      rw [← h.mux, State.mux_answers]
    have hreceived := h.receive hstream
    unfold Session.absorb
    cases hanswer : s.callsForAnswer message with
    | false =>
      rw [hanswer] at hcalls
      have hrest := ih hreceived q (by simp) (by simpa using hqueue)
      rw [Mux.ingest_answers] at hrest
      simpa [Mux.hearing, hcalls] using hrest
    | true =>
      rw [hanswer] at hcalls
      have hknown : (s.receive message rest).known message.typeUrl = true := by
        rw [receive_known]
        exact State.known_of_callsForAnswer hanswer
      have hfront : ((s.receive message rest).emplace message.typeUrl).queue =
          clusterTypeUrl :: (q ++ [message.typeUrl]) := by simp [State.queue, hqueue]
      have hsent := (hreceived.emplace hknown).beginSend hfront
      have hrest := ih hsent (q ++ [message.typeUrl]) (by simp) (by simp [hqueue])
      rw [Mux.ingest_answers] at hrest
      simpa [Mux.hearing, hcalls] using hrest

theorem request (hs : Quiet s) {typeUrl : String} (hknown : s.known typeUrl = true) :
    Speaks m (past ++ [.request (m.request typeUrl)]) (s.request typeUrl) := by
  have hempty := hs.allocated h.streaming
  have hsome := h.streaming
  have hstream : s.stream = some [] := by
    rcases hs.ended with hdown | hnone | hend
    · simp [h.live] at hdown
    · simp [hnone] at hsome
    · exact hend
  have hqueue : (s.emplace typeUrl).queue = [typeUrl] := by simp [State.queue, hempty]
  have hsent := ((h.emplace hknown).beginSend hqueue).readFalse.settle typeUrl
  have hrest : (((s.emplace typeUrl).beginSend typeUrl).log (.read none)).queue.tail = [] := by
    simp [State.queue, hempty]
  rw [hrest, List.map_nil, List.append_nil] at hsent
  rw [request_of_empty s typeUrl [] hstream hempty, if_neg (by simp [h.live]),
    apiStateFor_of_known s typeUrl hknown]
  exact hsent

end Speaks

/-! ## Between calls -/

/-- What a request between calls leaves: the same multiplexer, with the request on the wire if
the client still sends. -/
theorem request_wire {s : Session} (hs : Quiet s) (hready : Ready s) {typeUrl : String}
    (hknown : s.known typeUrl = true) : (s.request typeUrl).mux = s.mux ∧
      wire (s.request typeUrl).history = wire s.history ++ s.mux.ask typeUrl := by
  cases hstream : s.stream with
  | none =>
    have hask : s.mux.ask typeUrl = [] := by simp [Mux.ask, State.mux, hstream]
    have hsame : s.request typeUrl = s := by simp [request, hstream]
    rw [hsame, hask, List.append_nil]
    exact ⟨rfl, rfl⟩
  | some responses =>
    have hsome : s.stream.isSome = true := by simp [hstream]
    cases hdown : s.shutdown with
    | false =>
      have hspeaks : Speaks s.mux (wire s.history) s :=
        ⟨⟨hdown, hsome, ⟨hs.calm, hs.begun hsome, by simp [hs.queue]⟩, hready⟩, rfl, rfl⟩
      have hsent := hspeaks.request hs hknown
      rw [hspeaks.toSteady.ask]
      exact ⟨hsent.mux, hsent.wire⟩
    | true =>
      have hask : s.mux.ask typeUrl = [] := by simp [Mux.ask, State.mux, hdown]
      rw [request_of_empty s typeUrl responses hstream (hs.allocated hsome), if_pos hdown,
        apiStateFor_of_known s typeUrl hknown, hask, List.append_nil]
      have hdown' : (s.emplace typeUrl).shutdown = true := hdown
      unfold flush flush deliver
      rw [if_pos hdown']
      exact ⟨rfl, rfl⟩

theorem foldl_request_wire (l : List String) {s : Session} (hs : Quiet s) (hready : Ready s)
    (hknown : ∀ t ∈ l, s.known t = true) : (l.foldl request s).mux = s.mux ∧
      wire (l.foldl request s).history = wire s.history ++ l.flatMap s.mux.ask := by
  induction l generalizing s with
  | nil => simp
  | cons t l ih =>
    have hself := hknown t List.mem_cons_self
    have hfirst := request_wire hs hready hself
    have hrest := ih (hs.request t) (ready_kept.toStable.request s t hself hready)
      fun u hu => request_known s t u (hknown u (List.mem_cons_of_mem t hu))
    rw [List.foldl_cons, hrest.1, hrest.2, hfirst.1, hfirst.2, List.flatMap_cons,
      List.append_assoc]
    exact ⟨rfl, rfl⟩

/-! ## A new stream -/

section NewStream
variable {s : Session} (responses : List DiscoveryResponse)

theorem firstRequest_speaks (hs : Reachable s) (hready : Ready s) (hdown : s.shutdown = false) :
    Speaks s.mux.greeted (wire s.history ++ [.opened true, .request s.mux.firstRequest])
      (s.firstRequest responses) := by
  have haccepting : (s.firstQueued responses).Accepting :=
    accepting_of_apiStateFor (accepting_of_openStream hready.2.1 responses) clusterTypeUrl
  have hregistering : Registering (s.firstQueued responses) :=
    ((hready.2.2.openStream responses).apiStateFor clusterTypeUrl).step rfl ⟨by simp, by simp⟩
      (by simp [Entry.Exact]) rfl rfl
  have hknown : (s.firstQueued responses).known clusterTypeUrl = true := by
    simp [firstQueued, apiStateFor_eq_modifyApi, State.known]
  have haddressing : Addressing (s.firstQueued responses) :=
    ((hready.1.1.openStream responses).apiStateFor clusterTypeUrl).emplace clusterTypeUrl
      (by simp [apiStateFor_eq_modifyApi, State.known])
  have hsome : (s.firstQueued responses).stream.isSome = true := by simp [firstQueued, openStream]
  have hflag : ((s.firstQueued responses).api clusterTypeUrl).subscribed =
      (s.api clusterTypeUrl).subscribed := by rw [firstQueued_api]
  have hsubscribes : (s.firstQueued responses).subscribes clusterTypeUrl =
      !(s.api clusterTypeUrl).subscribed := by
    simp [State.subscribes, firstQueued_firstStreamRequest, hflag]
  have hlive : ¬ s.mux.shutdown = true := by simp [State.mux, hdown]
  have htopic : (s.mux.topic clusterTypeUrl).subscribed = (s.api clusterTypeUrl).subscribed := by
    rw [State.mux_topic]
    rfl
  refine ⟨⟨by simpa using hdown, by simp, firstRequest_poised s responses hs.quiet.calm hdown,
    addressing_of_firstRequest hready.1 hdown responses,
    accepting_of_beginSend haccepting clusterTypeUrl,
    hregistering.beginSend clusterTypeUrl hsome⟩, ?_, ?_⟩
  · have hstarted : (s.mux.start.topic clusterTypeUrl).subscribed =
        (s.api clusterTypeUrl).subscribed := by
      rw [← firstQueued_mux s responses, State.mux_topic]
      exact hflag
    unfold firstRequest Mux.greeted
    rw [if_neg hlive, beginSend_mux _ _ hknown, firstQueued_mux, hsubscribes]
    cases hs : (s.api clusterTypeUrl).subscribed with
    | false => rfl
    | true => simp [Mux.mark, hstarted, hs]
  · have hsub : ((s.firstQueued responses).api clusterTypeUrl).subscribed = true ∨
        (s.firstQueued responses).subscribes clusterTypeUrl = true := by
      rw [hflag, hsubscribes]
      cases (s.api clusterTypeUrl).subscribed <;> simp
    have hnode := firstRequest_node responses
      ((nodeless_of_reachable hs).resolve_left (by simp [hdown]) clusterTypeUrl)
    have hwritten : ((s.firstQueued responses).prepared clusterTypeUrl).request =
        s.mux.firstRequest := by
      rw [prepared_eq haddressing haccepting hsub, hnode, firstQueued_mux, Mux.firstRequest, htopic]
    rw [firstRequest_history, hwritten]
    simp [wire_cons, Event.wire?]

/-- The first phase and the innermost drain of a new stream. -/
theorem openStream_request_speaks (hs : Reachable s) (hready : Ready s)
    (hdown : s.shutdown = false) :
    Speaks (s.mux.establish responses)
      (wire s.history ++ .opened true :: .request s.mux.firstRequest ::
        Mux.hearing.output s.mux.greeted responses ++
        ((responses.filter s.mux.greeted.answers).map DiscoveryResponse.typeUrl).map fun typeUrl =>
          .request ((s.mux.establish responses).request typeUrl))
      ((s.openStream responses).request clusterTypeUrl) := by
  have hfirst := firstRequest_speaks responses hs hready hdown
  obtain ⟨habsorbed, hqueue⟩ := hfirst.absorb responses [] (by simp) (by simp)
  have hlast := habsorbed.readFalse.settle_unwind clusterTypeUrl
    (answered clusterTypeUrl responses (s.firstRequest responses))
  have hwaiting : ((Session.absorb clusterTypeUrl responses (s.firstRequest responses)).log
      (.read none)).queue.tail =
      (responses.filter s.mux.greeted.answers).map DiscoveryResponse.typeUrl := by
    rw [show ((Session.absorb clusterTypeUrl responses (s.firstRequest responses)).log
      (.read none)).queue = _ from hqueue]
    rfl
  have hestablish : s.mux.establish responses = responses.foldl Mux.ingest s.mux.greeted := by
    simp [Mux.establish, State.mux, hdown]
  rw [openStream_request_eq s responses hdown, serve_eq, hestablish]
  rw [hwaiting] at hlast
  simpa using hlast

/-- A client that was shut down obtains its stream and is silent on it. -/
theorem openStream_request_of_shutdown (hdown : s.shutdown = true) :
    ((s.openStream responses).request clusterTypeUrl).mux = s.mux.start ∧
      wire ((s.openStream responses).request clusterTypeUrl).history =
        wire s.history ++ [.opened true] := by
  have hopen : (s.openStream responses).shutdown = true := hdown
  have hqueued : (s.firstQueued responses).shutdown = true := by simpa [firstQueued] using hopen
  have hflush : flush [clusterTypeUrl] (s.firstQueued responses) =
      (((s.firstQueued responses).log (.send clusterTypeUrl)).log (.sent clusterTypeUrl)).pop := by
    unfold flush flush deliver
    rw [if_pos hqueued]
  have hrequest : (s.openStream responses).request clusterTypeUrl =
      (((s.firstQueued responses).log (.send clusterTypeUrl)).log (.sent clusterTypeUrl)).pop := by
    rw [request_of_empty _ _ responses rfl rfl, if_pos hopen]
    exact hflush
  rw [hrequest]
  refine ⟨firstQueued_mux s responses, ?_⟩
  simp [wire_cons, Event.wire?, firstQueued_history]

theorem establish_wire (hs : Reachable s) (hready : Ready s) :
    (s.establish responses).mux = s.mux.establish responses ∧
      wire (s.establish responses).history =
        wire s.history ++ .opened true :: s.mux.conversation responses := by
  have hquiet := openStream_request_quiet hs.quiet responses
  have hnext := ready_kept.openStream_request hs responses hready
  have hknown (t : String)
      (ht : t ∈ ((s.openStream responses).request clusterTypeUrl).subscriptions.tail) :
      ((s.openStream responses).request clusterTypeUrl).known t = true :=
    openStream_request_known hs.quiet responses t (List.mem_of_mem_tail ht)
  obtain ⟨hmux, hwire⟩ := foldl_request_wire _ hquiet hnext hknown
  rw [establish_eq hs.quiet, hmux, hwire]
  cases hdown : s.shutdown with
  | true =>
    have hmuted : s.mux.shutdown = true := hdown
    obtain ⟨hstart, hopened⟩ := openStream_request_of_shutdown responses hdown
    have hask (t : String) : s.mux.start.ask t = [] := by
      have hstill : s.mux.start.shutdown = true := hdown
      simp [Mux.ask, hstill]
    rw [hstart, hopened]
    simp [Mux.establish, Mux.greeted, Mux.conversation, hmuted, hask]
  | false =>
    have hlive : s.mux.shutdown = false := hdown
    have hspeaks := openStream_request_speaks responses hs hready hdown
    have hsubs : ((s.openStream responses).request clusterTypeUrl).subscriptions =
        s.mux.greeted.subscriptions := by
      rw [← Mux.establish_subscriptions s.mux responses, ← hspeaks.mux]
      rfl
    have hask : (s.mux.establish responses).ask =
        fun t => [.request ((s.mux.establish responses).request t)] := by
      funext t
      rw [← hspeaks.mux]
      exact hspeaks.toSteady.ask t
    rw [hspeaks.mux, hspeaks.wire, hsubs, hask]
    simp [Mux.conversation, hlive, Mux.pending, ← List.map_eq_flatMap]

end NewStream

/-! ## Every call -/

section Calls
variable {s : Session} (hs : Reachable s) (hready : Ready s)
include hs hready

theorem addWatch_wire (typeUrl : String) (resources : OrderedSet String) :
    (perform (.addWatch typeUrl resources) s).mux = s.mux.perform (.addWatch typeUrl resources) ∧
      wire (perform (.addWatch typeUrl resources) s).history =
        wire s.history ++ s.mux.emit (.addWatch typeUrl resources) := by
  have hnew : (s.newWatcher typeUrl resources).known typeUrl = true := by simp [newWatcher_known]
  have hknown : ((s.newWatcher typeUrl resources).subscribe typeUrl).known typeUrl = true := by
    rw [subscribe_known _ _ _ hnew]
    exact hnew
  have hmux : ((s.newWatcher typeUrl resources).subscribe typeUrl).mux =
      s.mux.perform (.addWatch typeUrl resources) := by
    rw [subscribe_mux, newWatcher_mux]
    rfl
  have hwire : wire ((s.newWatcher typeUrl resources).subscribe typeUrl).history =
      wire s.history := by
    have hhistory : ((s.newWatcher typeUrl resources).subscribe typeUrl).history =
        (s.newWatcher typeUrl resources).history := by
      unfold subscribe
      split_ifs <;> rfl
    have halloc : (s.apiStateFor typeUrl).history = s.history := by
      rw [apiStateFor_eq_modifyApi]
      rfl
    rw [hhistory]
    exact (wire_cons _ _).trans (by simp [Event.wire?, halloc])
  have hsent := request_wire ((hs.quiet.newWatcher typeUrl resources).subscribe typeUrl)
    (ready_kept.addWatch s typeUrl resources hs hready) hknown
  rw [hmux, hwire] at hsent
  exact hsent

theorem updateWatch_wire {watch : ℕ} {w : Watcher} (hw : s.watchers watch = some w)
    (resources : OrderedSet String) :
    (s.updateWatch watch w resources).mux =
        (s.mux.leave watch w.typeUrl).enter watch w.typeUrl resources ∧
      wire (s.updateWatch watch w resources).history = wire s.history ++
        ((if w.resources.isEmpty then [] else (s.mux.leave watch w.typeUrl).ask w.typeUrl) ++
          ((s.mux.leave watch w.typeUrl).enter watch w.typeUrl resources).ask w.typeUrl) := by
  have hquiet := hs.quiet.eraseWatch watch w
  have hfirst := ready_kept.eraseWatch s watch w hw (hs.quiet.owned watch w hw) hready
  have hmux := eraseWatch_mux s hready.2.2.2 watch w hw
  have hknown : (s.eraseWatch watch w).known w.typeUrl = true := by simp [eraseWatch_known]
  have herased : erased watch (s.eraseWatch watch w).history = true := by
    simp [eraseWatch, erased]
  have hwire : wire (s.eraseWatch watch w).history = wire s.history :=
    (wire_cons _ _).trans (by simp [Event.wire?])
  -- the second half, from whatever state the first half leaves
  have hlast (s' : Session) (hq : Quiet s') (hr : Ready s') (hw' : s'.watchers watch = some w)
      (hk : s'.known w.typeUrl = true) (he : erased watch s'.history = true) :
      ((s'.updateResources watch w resources).request w.typeUrl).mux =
          s'.mux.enter watch w.typeUrl resources ∧
        wire ((s'.updateResources watch w resources).request w.typeUrl).history =
          wire s'.history ++ (s'.mux.enter watch w.typeUrl resources).ask w.typeUrl := by
    have hentered := request_wire (hq.updateResources watch w resources)
      (ready_kept.updateResources s' watch w resources hw' hk he hr)
      (by simp [updateResources_known] : (s'.updateResources watch w resources).known w.typeUrl = true)
    have hregistered : wire (s'.updateResources watch w resources).history = wire s'.history :=
      (wire_cons _ _).trans (by simp [Event.wire?])
    rw [updateResources_mux, hregistered] at hentered
    exact hentered
  unfold updateWatch
  cases hempty : w.resources.isEmpty with
  | true =>
    have hdone := hlast _ hquiet hfirst hw hknown herased
    rw [hmux, hwire] at hdone
    simpa using hdone
  | false =>
    have hasked := request_wire hquiet hfirst hknown
    have hdone := hlast _ (hquiet.request w.typeUrl) (ready_kept.toStable.request _ _ hknown hfirst)
      (by rw [request_watchers]; exact hw) (request_known _ _ _ hknown)
      ((erased_stable watch true).request _ _ hknown herased)
    rw [hasked.1, hasked.2, hmux, hwire, List.append_assoc] at hdone
    simpa using hdone

theorem dropWatch_wire {watch : ℕ} {w : Watcher} (hw : s.watchers watch = some w) :
    (perform (.destroy watch) s).mux = s.mux.drop watch w.typeUrl ∧
      wire (perform (.destroy watch) s).history = wire s.history ++
        if w.resources.isEmpty then [] else (s.mux.drop watch w.typeUrl).ask w.typeUrl := by
  have hdropped := ready_kept.dropWatch s watch w hw (hs.quiet.owned watch w hw) hready
  have hmux := dropWatch_mux s hready.2.2.2 watch w hw
  have hwire : wire (s.dropWatch watch w).history = wire s.history :=
    (wire_cons _ _).trans (by simp [Event.wire?])
  simp only [perform, hw]
  cases hempty : w.resources.isEmpty with
  | true => simpa [hmux] using hwire
  | false =>
    have hasked := request_wire (hs.quiet.dropWatch watch w) hdropped
      (by simp [dropWatch_known] : (s.dropWatch watch w).known w.typeUrl = true)
    rw [hmux, hwire] at hasked
    simpa using hasked

theorem respond_wire (message : DiscoveryResponse) :
    (s.respond message).mux = s.mux.ingest message ∧
      wire (s.respond message).history = wire s.history ++
        .response message ::
          if s.mux.answers message then (s.mux.ingest message).ask message.typeUrl else [] := by
  have hmux := ingest_mux s message
  have hwire : wire (s.ingest message).history = wire s.history ++ [.response message] :=
    (wire_cons _ _).trans (by simp [Event.wire?])
  rw [State.mux_answers]
  unfold respond
  cases hcalls : s.callsForAnswer message with
  | false => simpa [hmux] using hwire
  | true =>
    have hknown : (s.ingest message).known message.typeUrl = true := by
      rw [ingest_known]
      exact State.known_of_callsForAnswer hcalls
    have hasked := request_wire (hs.quiet.ingest message) (ready_kept.ingest s message hready) hknown
    rw [hmux, hwire] at hasked
    simpa using hasked

/-- The client refines the multiplexer, call by call. -/
theorem perform_wire (op : Op) : (perform op s).mux = s.mux.perform op ∧
    wire (perform op s).history = wire s.history ++ s.mux.emit op := by
  have hwatches (watch : ℕ) : s.mux.watches watch =
      (s.watchers watch).map fun w => (w.typeUrl, w.resources) := rfl
  have hstub : s.mux.stub = s.stub := rfl
  cases op with
  | setChannel => exact ⟨rfl, (List.append_nil _).symm⟩
  | onStreamEstablished outcome =>
    cases outcome with
    | none =>
      simp only [perform, Mux.perform, Mux.emit, hstub]
      split_ifs
      · exact ⟨rfl, wire_cons _ _⟩
      · exact ⟨rfl, wire_cons _ _⟩
    | some responses =>
      simp only [perform, Mux.perform, Mux.emit, hstub]
      split_ifs
      · exact establish_wire responses hs hready
      · exact ⟨rfl, wire_cons _ _⟩
  | addWatch typeUrl resources => exact addWatch_wire hs hready typeUrl resources
  | update watch resources =>
    simp only [perform, Mux.perform, Mux.emit, hwatches]
    cases hw : s.watchers watch with
    | none => exact ⟨rfl, (List.append_nil _).symm⟩
    | some w => exact updateWatch_wire hs hready hw resources
  | destroy watch =>
    simp only [Mux.perform, Mux.emit, hwatches]
    cases hw : s.watchers watch with
    | none => simp [perform, hw]
    | some w => exact dropWatch_wire hs hready hw
  | onDiscoveryResponse message => exact respond_wire hs hready message
  | shutdown =>
    have hstreaming : s.mux.streaming = s.stream.isSome := rfl
    simp only [perform, shutdown, Mux.perform, Mux.emit, hstreaming]
    unfold endStream
    cases hstream : s.stream with
    | none => exact ⟨by simp [State.mux, hstream], by simp [wire_cons, Event.wire?]⟩
    | some responses => exact ⟨by simp [State.mux, hstream], by simp [wire_cons, Event.wire?]⟩

end Calls
end Session

/-! ## Runs -/

def Mux.construct (channel : Bool) : Mux where
  stub := channel

theorem Reachable.perform {s : Session} (hs : Reachable s) (op : Op) :
    Reachable (Ads.perform op s) := by
  obtain ⟨channel, calls, hrun⟩ := hs
  refine ⟨channel, calls ++ [op], (run_iff channel _ _).mpr ?_⟩
  rw [performAll_concat, ← (run_iff channel calls s).mp hrun]

theorem Reachable.ready {s : Session} (hs : Reachable s) : Ready s := by
  obtain ⟨channel, calls, hrun⟩ := hs
  exact ready_kept.run hrun ⟨addressing_construct channel, fun _ => rfl,
    registering_construct channel⟩

section Runs
variable {channel : Bool} {calls : List Op} {s : Session}

theorem Run.mux_eq (hrun : Run channel calls s) :
    s.mux = calls.foldl Mux.machine.step (Mux.construct channel) := by
  rw [(run_iff channel calls s).mp hrun]
  exact observe_foldl (fun s : Session => s.mux) (fun s op hs => hs.perform op)
    (fun s op hs => (perform_wire hs hs.ready op).1) calls _ ⟨channel, [], Run.construct⟩

theorem Run.wire_eq (hrun : Run channel calls s) :
    wire s.history = Mux.machine.output (Mux.construct channel) calls := by
  rw [(run_iff channel calls s).mp hrun]
  exact Mux.machine.trace_foldl (fun s : Session => s.mux) (fun s => wire s.history)
    (fun s op hs => hs.perform op) (fun s op hs => (perform_wire hs hs.ready op).1)
    (fun s op hs => (perform_wire hs hs.ready op).2) calls _ ⟨channel, [], Run.construct⟩

end Runs

/-- A run of the client is a run of the multiplexer: whatever its queue and its nested drains
do, the client ends where the flat machine ends, and exactly the requests, responses and calls
that the flat machine emits have passed over its streams, in that order. -/
theorem run_refines_multiplexer (channel : Bool) (calls : List Op) (s : Session)
    (hrun : Run channel calls s) :
    s.mux = calls.foldl Mux.machine.step (Mux.construct channel) ∧
      wire s.history = Mux.machine.output (Mux.construct channel) calls :=
  ⟨hrun.mux_eq, hrun.wire_eq⟩

/-- A watch, a stream with two answered responses, and a second stream: the types of the
answered responses are requested after the last response, and the node goes out once. -/
theorem run_refines_multiplexer_two_streams :
    ∃ s, Run true [.addWatch "E" ∅, .onStreamEstablished (some [clusterPush, clusterPush]),
        .onStreamEstablished (some [])] s ∧
      (wire s.history).filterMap (fun w => w.request?.map fun r => (r.typeUrl, r.node.isSome)) =
        [(clusterTypeUrl, true), (clusterTypeUrl, false), (clusterTypeUrl, false),
          (clusterTypeUrl, false), (clusterTypeUrl, false), ("E", false), (clusterTypeUrl, false),
          (clusterTypeUrl, false), ("E", false), (clusterTypeUrl, false)] := by
  have hrun := performAll_run true [.addWatch "E" ∅,
    .onStreamEstablished (some [clusterPush, clusterPush]), .onStreamEstablished (some [])]
  refine ⟨_, hrun, ?_⟩
  rw [(run_refines_multiplexer true _ _ hrun).2]
  decide

end XdsClient.Ads
