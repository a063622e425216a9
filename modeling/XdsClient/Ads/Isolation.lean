import XdsClient.Ads.Observation
import XdsClient.Library.Unwinding

/-! # Types are walled off from each other

Two runs that make the same calls, on streams that differ only in the responses for other
types, go through the same observations. The nesting of sends and reads differs between
them; what the type sees does not.
-/
namespace XdsClient.Ads
open Library Session

/-- Two calls that the type cannot tell apart: the same call, or two streams that deliver
the same responses for the type. -/
inductive Alike (typeUrl : String) : Op → Op → Prop
  | same (op : Op) : Alike typeUrl op op
  | streams {responses responses' : List DiscoveryResponse}
      (h : ofType typeUrl responses = ofType typeUrl responses') :
      Alike typeUrl (.onStreamEstablished (some responses)) (.onStreamEstablished (some responses'))

theorem Alike.step {typeUrl : String} {op op' : Op} (h : Alike typeUrl op op') (o : Observation) :
    o.step typeUrl op = o.step typeUrl op' := by
  cases h with
  | same => rfl
  | streams h => simp only [Observation.step, h]

/-- Runs of calls that the type cannot tell apart look the same to it. -/
theorem Run.observe_eq {channel : Bool} {typeUrl : String} {calls calls' : List Op} {s s' : Session}
    (h : Run channel calls s) (h' : Run channel calls' s')
    (halike : List.Forall₂ (Alike typeUrl) calls calls') : s.observe typeUrl = s'.observe typeUrl := by
  rw [(run_iff channel calls s).mp h, (run_iff channel calls' s').mp h']
  have hinv (s : Session) (op : Op) (hs : Quiet s) : Quiet (perform op s) := perform_quiet hs op
  exact observe_foldl_eq (fun s : Session => s.observe typeUrl) hinv
    (fun _ op hs => perform_observe hs typeUrl op) (fun o _ _ hop => hop.step o) halike _
    (construct_quiet channel)

/-- After every call of two runs that differ only in the responses for other types, the type
has the same nonce, version, flags and watches. -/
theorem run_types_isolated (channel : Bool) (typeUrl : String) (calls calls' : List Op)
    (halike : List.Forall₂ (Alike typeUrl) calls calls') (n : ℕ) (s s' : Session)
    (hrun : Run channel (calls.take n) s) (hrun' : Run channel (calls'.take n) s') :
    (s.api typeUrl).request.responseNonce = (s'.api typeUrl).request.responseNonce ∧
      (s.api typeUrl).request.versionInfo = (s'.api typeUrl).request.versionInfo ∧
      (s.api typeUrl).previouslyFetchedData = (s'.api typeUrl).previouslyFetchedData ∧
      (s.api typeUrl).subscribed = (s'.api typeUrl).subscribed ∧
      (s.api typeUrl).watches = (s'.api typeUrl).watches := by
  have hsame := hrun.observe_eq hrun' (List.forall₂_take n halike)
  exact ⟨congrArg Observation.responseNonce hsame, congrArg Observation.versionInfo hsame,
    congrArg Observation.previouslyFetchedData hsame, congrArg Observation.subscribed hsame,
    congrArg Observation.watches hsame⟩

/-- Responses for the first type around one for a watched type: the runs nest differently. -/
theorem run_types_isolated_interleaved :
    ∃ s s', Run true [.addWatch "E" ∅,
        .onStreamEstablished (some [{ clusterPush with typeUrl := "E" }])] s ∧
      Run true [.addWatch "E" ∅, .onStreamEstablished
        (some [clusterPush, { clusterPush with typeUrl := "E" }, clusterPush])] s' ∧
      s.history.length ≠ s'.history.length ∧
      (s.api "E").request.responseNonce = (s'.api "E").request.responseNonce ∧
      (s.api "E").previouslyFetchedData = (s'.api "E").previouslyFetchedData ∧
      (s.api "E").watches = (s'.api "E").watches := by
  have halike : List.Forall₂ (Alike "E")
      [.addWatch "E" ∅, .onStreamEstablished (some [{ clusterPush with typeUrl := "E" }])]
      [.addWatch "E" ∅, .onStreamEstablished
        (some [clusterPush, { clusterPush with typeUrl := "E" }, clusterPush])] :=
    .cons (.same _) (.cons (.streams (by decide)) .nil)
  have hrun := performAll_run true
    [.addWatch "E" ∅, .onStreamEstablished (some [{ clusterPush with typeUrl := "E" }])]
  have hrun' := performAll_run true [.addWatch "E" ∅, .onStreamEstablished
    (some [clusterPush, { clusterPush with typeUrl := "E" }, clusterPush])]
  rcases run_types_isolated true "E" _ _ halike 2 _ _ hrun hrun' with
    ⟨hnonce, _, hfetched, _, hwatches⟩
  exact ⟨_, _, hrun, hrun', by decide, hnonce, hfetched, hwatches⟩

end XdsClient.Ads
