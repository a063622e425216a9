import XdsClient.Ads.Isolation
import XdsClient.Ads.Traffic

/-! # Types are walled off on the wire

Responses for one type do not show in what is said about another: what passes over the streams
about a type is the same whatever the server says about the others. The type of every stream
is the exception, because a stream that is being read answers everything with a request for
that type.
-/
namespace XdsClient.Ads
open Library Session

/-- Not about another type. -/
def Wire.concerns (typeUrl : String) : Wire → Bool
  | .request r => r.typeUrl = typeUrl
  | .response message => message.typeUrl = typeUrl
  | _ => true

namespace Mux

/-- The same as far as the type can tell: of the others only the subscriptions are compared. -/
structure SameTo (typeUrl : String) (m m' : Mux) : Prop where
  stub : m.stub = m'.stub
  streaming : m.streaming = m'.streaming
  shutdown : m.shutdown = m'.shutdown
  subscriptions : m.subscriptions = m'.subscriptions
  topics : m.topics typeUrl = m'.topics typeUrl
  subscribed : ∀ t, (m.topic t).subscribed = (m'.topic t).subscribed
  watches : m.watches = m'.watches
  nextWatch : m.nextWatch = m'.nextWatch

theorem SameTo.refl (typeUrl : String) (m : Mux) : SameTo typeUrl m m :=
  ⟨rfl, rfl, rfl, rfl, rfl, fun _ => rfl, rfl, rfl⟩

theorem ask_other (m : Mux) {t typeUrl : String} (ht : t ≠ typeUrl) :
    (m.ask t).filter (Wire.concerns typeUrl) = [] := by
  unfold ask
  split_ifs <;> simp [Wire.concerns, ht]

namespace SameTo
variable {typeUrl : String} {m m' : Mux} (h : SameTo typeUrl m m')
include h

theorem symm : SameTo typeUrl m' m :=
  ⟨h.stub.symm, h.streaming.symm, h.shutdown.symm, h.subscriptions.symm, h.topics.symm,
    fun t => (h.subscribed t).symm, h.watches.symm, h.nextWatch.symm⟩

theorem trans {m'' : Mux} (h' : SameTo typeUrl m' m'') : SameTo typeUrl m m'' :=
  ⟨h.stub.trans h'.stub, h.streaming.trans h'.streaming, h.shutdown.trans h'.shutdown,
    h.subscriptions.trans h'.subscriptions, h.topics.trans h'.topics,
    fun t => (h.subscribed t).trans (h'.subscribed t), h.watches.trans h'.watches,
    h.nextWatch.trans h'.nextWatch⟩

theorem topic : m.topic typeUrl = m'.topic typeUrl := by rw [Mux.topic, Mux.topic, h.topics]

theorem request : m.request typeUrl = m'.request typeUrl := by
  simp [Mux.request, names, h.topic, h.watches]

theorem answers (message : DiscoveryResponse) (hm : message.typeUrl = typeUrl) :
    m.answers message = m'.answers message := by
  rw [Mux.answers, Mux.answers, hm, h.topics]

theorem ask (t : String) :
    (m.ask t).filter (Wire.concerns typeUrl) = (m'.ask t).filter (Wire.concerns typeUrl) := by
  by_cases ht : t = typeUrl
  · simp [Mux.ask, ht, h.streaming, h.shutdown, h.request]
  · rw [ask_other m ht, ask_other m' ht]

/-! ## Assignments -/

theorem alter (t : String) {f : Topic → Topic}
    (hf : ∀ a b : Topic, a.subscribed = b.subscribed → (f a).subscribed = (f b).subscribed) :
    SameTo typeUrl (m.alter t f) (m'.alter t f) := by
  refine ⟨h.stub, h.streaming, h.shutdown, h.subscriptions, ?_, fun u => ?_, h.watches, h.nextWatch⟩
  · by_cases ht : typeUrl = t
    · subst ht
      simp [Mux.alter, h.topic]
    · simp [Mux.alter, ht, h.topics]
  · rw [alter_topic, alter_topic]
    split_ifs
    · exact hf _ _ (h.subscribed u)
    · exact h.subscribed u

theorem mark (t : String) : SameTo typeUrl (m.mark t) (m'.mark t) := by
  have halter := h.alter t (f := fun topic => { topic with subscribed := true }) fun _ _ _ => rfl
  unfold Mux.mark
  rw [h.subscribed t, h.subscriptions]
  split_ifs
  · exact h
  · exact ⟨h.stub, h.streaming, h.shutdown, rfl, halter.topics, halter.subscribed, h.watches,
      h.nextWatch⟩

theorem enter (watch : ℕ) (t : String) (resources : OrderedSet String) :
    SameTo typeUrl (m.enter watch t resources) (m'.enter watch t resources) := by
  have halter := h.alter t (f := fun topic => { topic with watches := watch :: topic.watches })
    fun _ _ hab => hab
  refine ⟨h.stub, h.streaming, h.shutdown, h.subscriptions, halter.topics, halter.subscribed, ?_,
    h.nextWatch⟩
  simp only [Mux.enter, h.watches]

theorem leave (watch : ℕ) (t : String) : SameTo typeUrl (m.leave watch t) (m'.leave watch t) :=
  h.alter t fun _ _ hab => hab

theorem drop (watch : ℕ) (t : String) : SameTo typeUrl (m.drop watch t) (m'.drop watch t) := by
  have hleft := h.leave watch t
  refine ⟨h.stub, h.streaming, h.shutdown, h.subscriptions, hleft.topics, hleft.subscribed, ?_,
    h.nextWatch⟩
  simp only [Mux.drop, h.watches]

theorem ingest (message : DiscoveryResponse) :
    SameTo typeUrl (m.ingest message) (m'.ingest message) := by
  refine ⟨h.stub, h.streaming, h.shutdown, h.subscriptions, ?_, fun t => ?_, h.watches, h.nextWatch⟩
  · by_cases ht : typeUrl = message.typeUrl
    · subst ht
      simp [Mux.ingest, h.topics]
    · simp [Mux.ingest, ht, h.topics]
  · rw [ingest_subscribed, ingest_subscribed, h.subscribed]

/-- A response for another type changes nothing for the type. -/
theorem ingest_other (message : DiscoveryResponse) (hm : message.typeUrl ≠ typeUrl) :
    SameTo typeUrl (m.ingest message) m' := by
  refine ⟨h.stub, h.streaming, h.shutdown, h.subscriptions, ?_, fun t => ?_, h.watches, h.nextWatch⟩
  · simp [Mux.ingest, hm.symm, h.topics]
  · rw [ingest_subscribed, h.subscribed]

/-- Of a stream the type hears its own responses. -/
theorem foldl_ingest_ofType (responses : List DiscoveryResponse) :
    SameTo typeUrl (responses.foldl Mux.ingest m)
      ((ofType typeUrl responses).foldl Mux.ingest m') := by
  induction responses generalizing m m' with
  | nil => exact h
  | cons message responses ih =>
    by_cases hm : message.typeUrl = typeUrl
    · have hkept : ofType typeUrl (message :: responses) = message :: ofType typeUrl responses := by
        simp [ofType, hm]
      rw [hkept]
      exact ih (h.ingest message)
    · have hskipped : ofType typeUrl (message :: responses) = ofType typeUrl responses := by
        simp [ofType, hm]
      rw [hskipped]
      exact ih (h.ingest_other message hm)

theorem foldl_ingest {responses responses' : List DiscoveryResponse}
    (hsame : ofType typeUrl responses = ofType typeUrl responses') :
    SameTo typeUrl (responses.foldl Mux.ingest m) (responses'.foldl Mux.ingest m') := by
  have hfirst := (SameTo.refl typeUrl m).foldl_ingest_ofType responses
  have hlast := h.symm.foldl_ingest_ofType responses'
  rw [hsame] at hfirst
  exact hfirst.trans hlast.symm

/-! ## A stream -/

theorem greeted : SameTo typeUrl m.greeted m'.greeted := by
  have hstart : SameTo typeUrl m.start m'.start := by
    refine ⟨h.stub, rfl, h.shutdown, h.subscriptions, ?_, fun t => ?_, h.watches, h.nextWatch⟩
    · by_cases ht : typeUrl = clusterTypeUrl
      · subst ht
        simp [start, Mux.alter, Mux.topic, h.topics]
      · simp [start, Mux.alter, ht, h.topics]
    · rw [start_topic, start_topic]
      exact h.subscribed t
  unfold Mux.greeted
  rw [h.shutdown]
  split_ifs
  · exact hstart
  · exact hstart.mark clusterTypeUrl

theorem establish {responses responses' : List DiscoveryResponse}
    (hsame : ofType typeUrl responses = ofType typeUrl responses') :
    SameTo typeUrl (m.establish responses) (m'.establish responses') := by
  unfold Mux.establish
  rw [h.shutdown]
  split_ifs
  · exact h.greeted
  · exact h.greeted.foldl_ingest hsame

end SameTo

theorem concerns_hearing (m : Mux) {typeUrl : String} (ht : typeUrl ≠ clusterTypeUrl)
    (responses : List DiscoveryResponse) :
    (hearing.output m responses).filter (Wire.concerns typeUrl) =
      (ofType typeUrl responses).map .response := by
  induction responses generalizing m with
  | nil => rfl
  | cons message responses ih =>
    have hhead : (hearing.emit m message).filter (Wire.concerns typeUrl) =
        (ofType typeUrl [message]).map .response := by
      simp only [hearing]
      by_cases hm : message.typeUrl = typeUrl <;> split_ifs <;>
        simp [Wire.concerns, ofType, hm, ht.symm]
    rw [Transducer.output_cons, List.filter_append, hhead, ih, ← List.map_append]
    simp [ofType, ← List.filter_append]

theorem concerns_map (m : Mux) (typeUrl : String) (l : List String) :
    (l.map fun t => Wire.request (m.request t)).filter (Wire.concerns typeUrl) =
      (l.filter (· = typeUrl)).map fun _ => .request (m.request typeUrl) := by
  induction l with
  | nil => rfl
  | cons t l ih =>
    by_cases ht : t = typeUrl
    · simp [Wire.concerns, ht, ih]
    · simp [Wire.concerns, ht, ih]

theorem SameTo.conversation {typeUrl : String} {m m' : Mux} (h : SameTo typeUrl m m')
    (ht : typeUrl ≠ clusterTypeUrl) {responses responses' : List DiscoveryResponse}
    (hsame : ofType typeUrl responses = ofType typeUrl responses') :
    (m.conversation responses).filter (Wire.concerns typeUrl) =
      (m'.conversation responses').filter (Wire.concerns typeUrl) := by
  have hpending (m : Mux) (responses : List DiscoveryResponse) :
      (m.pending responses).filter (· = typeUrl) =
        ((ofType typeUrl responses).filter m.greeted.answers).map DiscoveryResponse.typeUrl ++
          m.greeted.subscriptions.tail.filter (· = typeUrl) := by
    rw [pending, List.filter_append, List.filter_map, ofType, List.filter_filter, List.filter_filter]
    simp [Bool.and_comm]
  have hanswered : (ofType typeUrl responses').filter m.greeted.answers =
      (ofType typeUrl responses').filter m'.greeted.answers := by
    apply List.filter_congr
    intro message hmem
    exact h.greeted.answers message (by simpa [ofType] using (List.mem_filter.mp hmem).2)
  have hfirst (m : Mux) : Wire.concerns typeUrl (.request m.firstRequest) = false := by
    simp [Wire.concerns, firstRequest, ht.symm]
  unfold Mux.conversation
  rw [h.shutdown]
  split_ifs
  · rfl
  · rw [List.filter_append, List.filter_append, List.filter_cons_of_neg (by simp [hfirst]),
      List.filter_cons_of_neg (by simp [hfirst]), concerns_hearing _ ht, concerns_hearing _ ht,
      concerns_map, concerns_map, hpending, hpending, hsame, hanswered, h.greeted.subscriptions,
      (h.establish hsame).request]

/-! ## Calls -/

namespace SameTo
variable {typeUrl : String} {m m' : Mux} (h : SameTo typeUrl m m')
include h

theorem perform {op op' : Op} (halike : Alike typeUrl op op') :
    SameTo typeUrl (m.perform op) (m'.perform op') := by
  cases halike with
  | streams hsame =>
    simp only [Mux.perform, h.stub]
    split_ifs
    · exact h.establish hsame
    · exact h
  | same =>
    cases op with
    | setChannel => exact { h with stub := rfl }
    | onStreamEstablished outcome =>
      cases outcome with
      | none =>
        simp only [Mux.perform, h.stub]
        split_ifs
        · exact ⟨rfl, rfl, h.shutdown, h.subscriptions, h.topics, h.subscribed, h.watches,
            h.nextWatch⟩
        · exact h
      | some responses =>
        simp only [Mux.perform, h.stub]
        split_ifs
        · exact h.establish rfl
        · exact h
    | addWatch t resources =>
      have hnext : SameTo typeUrl { m with nextWatch := m.nextWatch + 1 }
          { m' with nextWatch := m'.nextWatch + 1 } :=
        { h with nextWatch := by rw [h.nextWatch] }
      simp only [Mux.perform, h.nextWatch] at hnext ⊢
      exact (hnext.enter m'.nextWatch t resources).mark t
    | update watch resources =>
      simp only [Mux.perform, h.watches]
      cases m'.watches watch with
      | none => exact h
      | some w => exact (h.leave watch w.1).enter watch w.1 resources
    | destroy watch =>
      simp only [Mux.perform, h.watches]
      cases m'.watches watch with
      | none => exact h
      | some w => exact h.drop watch w.1
    | onDiscoveryResponse message => exact h.ingest message
    | shutdown => exact { h with shutdown := rfl }

theorem emit (ht : typeUrl ≠ clusterTypeUrl) {op op' : Op} (halike : Alike typeUrl op op') :
    (m.emit op).filter (Wire.concerns typeUrl) = (m'.emit op').filter (Wire.concerns typeUrl) := by
  have hstream {responses responses' : List DiscoveryResponse}
      (hsame : ofType typeUrl responses = ofType typeUrl responses') :
      (m.emit (.onStreamEstablished (some responses))).filter (Wire.concerns typeUrl) =
        (m'.emit (.onStreamEstablished (some responses'))).filter (Wire.concerns typeUrl) := by
    simp only [Mux.emit, h.stub]
    split_ifs
    · rw [List.filter_cons_of_pos rfl, List.filter_cons_of_pos rfl, h.conversation ht hsame]
    · rfl
  cases halike with
  | streams hsame => exact hstream hsame
  | same =>
    cases op with
    | setChannel => rfl
    | onStreamEstablished outcome =>
      cases outcome with
      | none => simp only [Mux.emit, h.stub]
      | some responses => exact hstream rfl
    | addWatch t resources => exact (h.perform (.same (.addWatch t resources))).ask t
    | update watch resources =>
      simp only [Mux.emit, h.watches]
      cases m'.watches watch with
      | none => rfl
      | some w =>
        have hleft := h.leave watch w.1
        have hentered := hleft.enter watch w.1 resources
        simp only [List.filter_append, hentered.ask]
        cases w.2.isEmpty with
        | true => rfl
        | false => simp [hleft.ask]
    | destroy watch =>
      simp only [Mux.emit, h.watches]
      cases m'.watches watch with
      | none => rfl
      | some w =>
        cases hempty : w.2.isEmpty with
        | true => simp [hempty]
        | false => simp [hempty, (h.drop watch w.1).ask]
    | onDiscoveryResponse message =>
      simp only [Mux.emit]
      by_cases hm : message.typeUrl = typeUrl
      · rw [h.answers message hm]
        cases m'.answers message with
        | true => simp [List.filter_cons, (h.ingest message).ask]
        | false => rfl
      · have hsilent (m : Mux) : (Wire.response message :: if m.answers message then
            (m.ingest message).ask message.typeUrl else []).filter (Wire.concerns typeUrl) = [] := by
          split_ifs <;> simp [Wire.concerns, hm, ask_other]
        rw [hsilent, hsilent]
    | shutdown => simp only [Mux.emit, h.streaming]

end SameTo
end Mux

/-- Two runs that differ in a response for a watched type only: it is answered, and so the first
type of the stream is requested once more. -/
theorem first_type_not_separated (channel : Bool) :
    ∃ calls calls' s s', List.Forall₂ (Alike clusterTypeUrl) calls calls' ∧
      Run channel calls s ∧ Run channel calls' s' ∧
      (wire s.history).filter (Wire.concerns clusterTypeUrl) ≠
        (wire s'.history).filter (Wire.concerns clusterTypeUrl) := by
  have hpushed := performAll_run channel [.setChannel, .addWatch "E" ∅,
    .onStreamEstablished (some [{ clusterPush with typeUrl := "E" }])]
  have hsilent := performAll_run channel [.setChannel, .addWatch "E" ∅,
    .onStreamEstablished (some [])]
  refine ⟨_, _, _, _, .cons (.same _) (.cons (.same _) (.cons (.streams ?_) .nil)), hpushed,
    hsilent, ?_⟩
  · decide
  · rw [hpushed.wire_eq, hsilent.wire_eq]
    cases channel <;> decide

/-- Two runs are alike to a type if they make the same calls, on streams that deliver the same
responses for the type among any others. What passes over the streams about the type is then
the same, for every type but the first one of every stream. -/
theorem run_types_separated_iff (channel : Bool) (typeUrl : String) :
    (∀ calls calls' s s', List.Forall₂ (Alike typeUrl) calls calls' →
      Run channel calls s → Run channel calls' s' →
        (wire s.history).filter (Wire.concerns typeUrl) =
          (wire s'.history).filter (Wire.concerns typeUrl)) ↔
      typeUrl ≠ clusterTypeUrl := by
  constructor
  · rintro hseparated rfl
    rcases first_type_not_separated channel with ⟨calls, calls', s, s', halike, hrun, hrun', hne⟩
    exact hne (hseparated calls calls' s s' halike hrun hrun')
  · intro ht calls calls' s s' halike hrun hrun'
    rw [hrun.wire_eq, hrun'.wire_eq]
    exact Mux.machine.filter_output_eq (Wire.concerns typeUrl)
      (fun _ _ _ _ h hop => Mux.SameTo.perform h hop) (fun _ _ _ _ h hop => Mux.SameTo.emit h ht hop)
      halike _ _ (Mux.SameTo.refl typeUrl (Mux.construct channel))

/-- A response for a watched type, alone or between two for the first type of the stream. -/
theorem run_types_separated_iff_interleaved :
    ∃ s s', Run true [.addWatch "E" ∅,
        .onStreamEstablished (some [{ clusterPush with typeUrl := "E" }])] s ∧
      Run true [.addWatch "E" ∅, .onStreamEstablished
        (some [clusterPush, { clusterPush with typeUrl := "E" }, clusterPush])] s' ∧
      (wire s.history).filter (Wire.concerns "E") = (wire s'.history).filter (Wire.concerns "E") := by
  have hrun := performAll_run true
    [.addWatch "E" ∅, .onStreamEstablished (some [{ clusterPush with typeUrl := "E" }])]
  have hrun' := performAll_run true [.addWatch "E" ∅, .onStreamEstablished
    (some [clusterPush, { clusterPush with typeUrl := "E" }, clusterPush])]
  have hseparated := (run_types_separated_iff true "E").mpr (by decide)
  exact ⟨_, _, hrun, hrun', hseparated _ _ _ _ (.cons (.same _) (.cons (.streams (by decide)) .nil))
    hrun hrun'⟩

end XdsClient.Ads
