import XdsClient.Ads.Conversation

/-! # What passes over a stream

Facts about the multiplexer's output, and through the refinement about the client: which
responses are handled, which requests a stream costs, and what the server was last told.
-/
namespace XdsClient.Ads
open Library Session

/-! ## Responses -/

/-- Which responses reach the client: those of a stream obtained before the shutdown, and those
handed in from outside. The state is whether there is a stub and whether it was shut down. -/
def deliveries : Transducer (Bool × Bool) Op DiscoveryResponse where
  step flags
    | .setChannel => (true, flags.2)
    | .shutdown => (flags.1, true)
    | _ => flags
  emit flags
    | .onStreamEstablished (some responses) => if flags.1 && !flags.2 then responses else []
    | .onDiscoveryResponse message => [message]
    | _ => []

namespace Mux

theorem ask_responses (m : Mux) (typeUrl : String) :
    (m.ask typeUrl).filterMap Wire.response? = [] := by
  unfold ask
  split_ifs <;> simp [Wire.response?]

theorem hearing_responses (m : Mux) (responses : List DiscoveryResponse) :
    (hearing.output m responses).filterMap Wire.response? = responses := by
  induction responses generalizing m with
  | nil => rfl
  | cons message responses ih =>
    have hhead : (hearing.emit m message).filterMap Wire.response? = [message] := by
      simp only [hearing]
      split_ifs <;> simp [Wire.response?]
    rw [Transducer.output_cons, List.filterMap_append, hhead, ih, List.singleton_append]

theorem conversation_responses (m : Mux) (responses : List DiscoveryResponse) :
    (m.conversation responses).filterMap Wire.response? =
      if m.shutdown then [] else responses := by
  unfold conversation
  split_ifs
  · rfl
  · have hrequests (l : List String) :
        (l.map fun t => Wire.request ((m.establish responses).request t)).filterMap Wire.response? =
          [] := by
      simp [List.filterMap_map, Function.comp_def, Wire.response?]
    rw [List.filterMap_append, hrequests, List.append_nil, List.filterMap_cons]
    exact hearing_responses _ responses

theorem foldl_ingest_flags (m : Mux) (responses : List DiscoveryResponse) :
    (responses.foldl ingest m).stub = m.stub ∧
      (responses.foldl ingest m).shutdown = m.shutdown := by
  induction responses generalizing m with
  | nil => exact ⟨rfl, rfl⟩
  | cons message responses ih => exact ih (m.ingest message)

theorem mark_flags (m : Mux) (typeUrl : String) :
    (m.mark typeUrl).stub = m.stub ∧ (m.mark typeUrl).shutdown = m.shutdown := by
  unfold mark
  split_ifs <;> exact ⟨rfl, rfl⟩

theorem establish_flags (m : Mux) (responses : List DiscoveryResponse) :
    (m.establish responses).stub = m.stub ∧ (m.establish responses).shutdown = m.shutdown := by
  have hgreeted : m.greeted.stub = m.stub ∧ m.greeted.shutdown = m.shutdown := by
    unfold greeted
    split_ifs
    · exact ⟨rfl, rfl⟩
    · exact mark_flags _ _
  unfold establish
  split_ifs
  · exact hgreeted
  · rw [(foldl_ingest_flags _ _).1, (foldl_ingest_flags _ _).2]
    exact hgreeted

theorem perform_flags (m : Mux) (op : Op) :
    ((m.perform op).stub, (m.perform op).shutdown) = deliveries.step (m.stub, m.shutdown) op := by
  cases op with
  | onStreamEstablished outcome =>
    cases outcome with
    | none =>
      simp only [perform, deliveries]
      split_ifs <;> rfl
    | some responses =>
      simp only [perform, deliveries]
      split_ifs
      · rw [(m.establish_flags responses).1, (m.establish_flags responses).2]
      · rfl
  | addWatch typeUrl resources =>
    simp only [perform, deliveries]
    rw [(mark_flags _ _).1, (mark_flags _ _).2]
    rfl
  | update watch resources =>
    simp only [perform, deliveries]
    split <;> rfl
  | destroy watch =>
    simp only [perform, deliveries]
    split <;> rfl
  | _ => rfl

theorem emit_responses (m : Mux) (op : Op) :
    (m.emit op).filterMap Wire.response? = deliveries.emit (m.stub, m.shutdown) op := by
  cases op with
  | setChannel => rfl
  | onStreamEstablished outcome =>
    cases outcome with
    | none =>
      simp only [emit, deliveries]
      split_ifs <;> simp [Wire.response?]
    | some responses =>
      simp only [emit, deliveries]
      cases hstub : m.stub with
      | false => simp [Wire.response?]
      | true =>
        have hspoken := m.conversation_responses responses
        rw [if_pos rfl, List.filterMap_cons_none rfl, hspoken]
        cases m.shutdown <;> rfl
  | addWatch typeUrl resources => exact ask_responses _ _
  | update watch resources =>
    simp only [emit, deliveries]
    split
    · rw [List.filterMap_append, ask_responses, List.append_nil]
      split_ifs
      · rfl
      · exact ask_responses _ _
    · rfl
  | destroy watch =>
    simp only [emit, deliveries]
    split
    · split_ifs
      · rfl
      · exact ask_responses _ _
    · rfl
  | onDiscoveryResponse message =>
    simp only [emit, deliveries]
    split_ifs
    · simp [Wire.response?, ask_responses]
    · simp [Wire.response?]
  | shutdown =>
    simp only [emit, deliveries]
    split_ifs <;> simp [Wire.response?]

end Mux

/-- In every run, the responses the client handles are exactly those that its streams delivered
before it was shut down, and those handed in, each once and in the order of delivery: none is
lost or handled twice in the nested read loops. -/
theorem run_responses_handled_once (channel : Bool) (calls : List Op) (s : Session)
    (hrun : Run channel calls s) :
    (wire s.history).filterMap Wire.response? = deliveries.output (channel, false) calls := by
  rw [hrun.wire_eq]
  exact Mux.machine.filterMap_output deliveries (fun m => (m.stub, m.shutdown)) Wire.response?
    Mux.perform_flags Mux.emit_responses calls (Mux.construct channel)

/-- The responses of two streams, the second one obtained after the shutdown. -/
theorem run_responses_handled_once_shutdown :
    ∃ s, Run true [.onStreamEstablished (some [clusterPush, {}]), .shutdown,
        .onStreamEstablished (some [clusterPush])] s ∧
      (wire s.history).filterMap Wire.response? = [clusterPush, {}] := by
  have hrun := performAll_run true [.onStreamEstablished (some [clusterPush, {}]), .shutdown,
    .onStreamEstablished (some [clusterPush])]
  refine ⟨_, hrun, ?_⟩
  rw [run_responses_handled_once true _ _ hrun]
  rfl

/-! ## Requests -/

/-- The types of the requests among what passed, in their order. -/
def requested (spoken : List Wire) : List String :=
  (spoken.filterMap Wire.request?).map DiscoveryRequest.typeUrl

theorem requested_append (spoken more : List Wire) :
    requested (spoken ++ more) = requested spoken ++ requested more := by
  simp [requested]

theorem requested_map (m : Mux) (l : List String) :
    requested (l.map fun t => .request (m.request t)) = l := by
  induction l with
  | nil => rfl
  | cons t l ih => exact congrArg (t :: ·) ih

namespace Mux

theorem foldl_ingest_answers (m : Mux) (responses : List DiscoveryResponse) :
    (responses.foldl ingest m).answers = m.answers := by
  induction responses generalizing m with
  | nil => rfl
  | cons message responses ih => rw [List.foldl_cons, ih, ingest_answers]

theorem establish_answers (m : Mux) (responses : List DiscoveryResponse) :
    (m.establish responses).answers = m.greeted.answers := by
  unfold establish
  split_ifs
  · rfl
  · exact foldl_ingest_answers _ _

theorem requested_hearing (m : Mux) (responses : List DiscoveryResponse) :
    requested (hearing.output m responses) =
      List.replicate (responses.countP m.answers) clusterTypeUrl := by
  induction responses generalizing m with
  | nil => rfl
  | cons message responses ih =>
    have hstep : (hearing.step m message).answers = m.answers := ingest_answers m message
    have hspoken : requested (hearing.emit m message) =
        if m.answers message then [clusterTypeUrl] else [] := by
      simp only [hearing]
      split_ifs <;> rfl
    rw [Transducer.output_cons, requested_append, ih, hstep, hspoken, List.countP_cons]
    cases m.answers message with
    | false => rfl
    | true => exact List.replicate_succ.symm

theorem requested_conversation (m : Mux) (responses : List DiscoveryResponse)
    (hdown : m.shutdown = false) : requested (m.conversation responses) =
      clusterTypeUrl :: List.replicate (responses.countP m.greeted.answers) clusterTypeUrl ++
        (responses.filter m.greeted.answers).map DiscoveryResponse.typeUrl ++
        m.greeted.subscriptions.tail := by
  have hfirst (rest : List Wire) :
      requested (.request m.firstRequest :: rest) = clusterTypeUrl :: requested rest := rfl
  unfold conversation
  rw [if_neg (by simp [hdown]), List.cons_append, hfirst, requested_append, requested_hearing,
    requested_map, pending, ← List.append_assoc, List.cons_append, List.cons_append]

end Mux

/-- What `onStreamEstablished` writes on the stream it obtains: a request for the Cluster type, one
more for the Cluster type after each answered response, then one for the type of each
answered response, then one for every further entry of the list. Every answered response
costs two requests, whatever its type. -/
theorem run_stream_requests (channel : Bool) (calls : List Op) (s s' : Session)
    (responses : List DiscoveryResponse) (hrun : Run channel calls s)
    (hrun' : Run channel (calls ++ [.onStreamEstablished (some responses)]) s')
    (hstub : s.stub = true) (hdown : s.shutdown = false) :
    ∃ spoken, wire s'.history = wire s.history ++ .opened true :: spoken ∧
      requested spoken = clusterTypeUrl ::
        List.replicate (responses.countP s'.callsForAnswer) clusterTypeUrl ++
        (responses.filter s'.callsForAnswer).map DiscoveryResponse.typeUrl ++
        s'.subscriptions.tail ∧
      (requested spoken).length =
        s'.subscriptions.length + 2 * responses.countP s'.callsForAnswer := by
  have hlive : s.mux.shutdown = false := hdown
  have hreachable : Reachable s := ⟨channel, calls, hrun⟩
  have hstep : s' = s.establish responses := by
    rw [(run_iff _ _ _).mp hrun', performAll_concat, ← (run_iff _ _ _).mp hrun, perform,
      if_pos hstub]
  obtain ⟨hmux, hwire⟩ := establish_wire responses hreachable hreachable.ready
  rw [← hstep] at hmux hwire
  have hanswers : s.mux.greeted.answers = s'.callsForAnswer := by
    rw [← Mux.establish_answers s.mux responses, ← hmux]
    funext message
    exact s'.mux_answers message
  have hsubs : s.mux.greeted.subscriptions = s'.subscriptions := by
    rw [← Mux.establish_subscriptions s.mux responses, ← hmux]
    rfl
  have htypes := s.mux.requested_conversation responses hlive
  rw [hanswers, hsubs] at htypes
  refine ⟨_, hwire, htypes, ?_⟩
  have hhead : s'.subscriptions ≠ [] := by
    rintro hnil
    have hfirst := hrun'.quiet.first
    simp [hnil] at hfirst
  have hlength : s'.subscriptions.tail.length + 1 = s'.subscriptions.length := by
    rw [List.length_tail, Nat.sub_add_cancel (List.length_pos_iff.mpr hhead)]
  rw [htypes]
  simp only [List.length_append, List.length_cons, List.length_replicate, List.length_map,
    ← List.countP_eq_length_filter]
  omega

/-- One answered response on the first stream of a client without watches: four requests, all
for the Cluster type. -/
theorem run_stream_requests_push :
    ∃ s' spoken, Run true [.onStreamEstablished (some [clusterPush])] s' ∧
      wire s'.history = .opened true :: spoken ∧ (requested spoken).length = 4 := by
  have hrun' := performAll_run true [.onStreamEstablished (some [clusterPush])]
  obtain ⟨spoken, hwire, -, hlength⟩ :=
    run_stream_requests true [] _ _ [clusterPush] Run.construct hrun' rfl rfl
  exact ⟨_, spoken, hrun', hwire, hlength⟩

end XdsClient.Ads
