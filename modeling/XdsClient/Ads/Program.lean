import XdsClient.Ads.Traffic

/-! # The program

`main` builds a client from a `Config`, gives it a channel, has it establish one stream and
shuts it down. The server alone decides what happens in between, so the program has one
conversation for every list of responses, and it can be written down.
-/
namespace XdsClient.Ads
open Library Session

/-- `address_` is the only member that is ever given a value. -/
structure Config where
  address : String

namespace Config

/-- The second parameter is not used. -/
def constructInitialRequest (requestType : String) (_noOnDemand : Bool) : DiscoveryRequest where
  node := some node
  typeUrl := "" ++ requestType

/-- The address is not passed on: the client is built without a channel. -/
def build (_config : Config) : Session := construct false

end Config

/-- The calls of `main` on the client, where `outcome` is what becomes of the stream. -/
def mainCalls (outcome : Option (List DiscoveryResponse)) : List Op :=
  [.setChannel, .onStreamEstablished outcome, .shutdown]

/-! ## What the program has heard -/

def clusterNonce (heard : List DiscoveryResponse) : String :=
  ((heard.filter (·.typeUrl = clusterTypeUrl)).getLast?.map DiscoveryResponse.nonce).getD ""

/-- A response about clusters is answered if it has resources. -/
def isPush (message : DiscoveryResponse) : Bool :=
  message.typeUrl = clusterTypeUrl && !message.resources.isEmpty

/-- The version of the last response about clusters without a resource. -/
def clusterVersion (heard : List DiscoveryResponse) : String :=
  ((heard.filter fun message =>
    message.typeUrl = clusterTypeUrl && message.resources.isEmpty).getLast?.map
      DiscoveryResponse.versionInfo).getD ""

def clusterRequest (heard : List DiscoveryResponse) : DiscoveryRequest where
  versionInfo := clusterVersion heard
  typeUrl := clusterTypeUrl
  responseNonce := clusterNonce heard

def exchange (heard : List DiscoveryResponse) : List DiscoveryResponse → List Wire
  | [] => []
  | message :: rest =>
    .response message ::
      (if isPush message then [.request (clusterRequest (heard ++ [message]))] else []) ++
        exchange (heard ++ [message]) rest

def transcript : Option (List DiscoveryResponse) → List Wire
  | none => [.opened false, .nullCall]
  | some responses =>
    .opened true :: .request (Config.constructInitialRequest clusterTypeUrl false) ::
      exchange [] responses ++
      List.replicate (responses.countP isPush + 1) (.request (clusterRequest responses)) ++
      [.writesDone, .finish]

namespace Mux

def lone (heard : List DiscoveryResponse) : Mux where
  stub := true
  streaming := true
  subscriptions := [clusterTypeUrl, clusterTypeUrl]
  topics := Function.update (fun _ => none) clusterTypeUrl (some {
    versionInfo := clusterVersion heard
    responseNonce := clusterNonce heard
    subscribed := true })

theorem lone_ingest (heard : List DiscoveryResponse) (message : DiscoveryResponse) :
    (lone heard).ingest message = lone (heard ++ [message]) := by
  by_cases ht : message.typeUrl = clusterTypeUrl
  · have hnonce : clusterNonce (heard ++ [message]) = message.nonce := by
      simp [clusterNonce, List.filter_append, ht]
    have hversion : clusterVersion (heard ++ [message]) =
        if message.resources.isEmpty then message.versionInfo else clusterVersion heard := by
      cases hempty : message.resources.isEmpty <;>
        simp [clusterVersion, List.filter_append, ht, hempty]
    simp [lone, ingest, Topic.ingest, ht, hnonce, hversion]
  · have hnonce : clusterNonce (heard ++ [message]) = clusterNonce heard := by
      simp [clusterNonce, List.filter_append, ht]
    have hversion : clusterVersion (heard ++ [message]) = clusterVersion heard := by
      simp [clusterVersion, List.filter_append, ht]
    simp [lone, ingest, ht, hnonce, hversion]

theorem lone_answers (heard : List DiscoveryResponse) : (lone heard).answers = isPush := by
  funext message
  by_cases ht : message.typeUrl = clusterTypeUrl <;> simp [lone, answers, isPush, ht]

theorem lone_request (heard : List DiscoveryResponse) :
    (lone heard).request clusterTypeUrl = clusterRequest heard := by
  simp [lone, request, topic, names, clusterRequest]

theorem lone_hearing (heard responses : List DiscoveryResponse) :
    hearing.output (lone heard) responses = exchange heard responses := by
  induction responses generalizing heard with
  | nil => rfl
  | cons message rest ih =>
    have hstep : hearing.step (lone heard) message = lone (heard ++ [message]) :=
      lone_ingest heard message
    rw [Transducer.output_cons, hstep, ih, exchange]
    simp only [hearing, lone_answers, lone_ingest, lone_request, List.cons_append]

theorem foldl_lone (heard responses : List DiscoveryResponse) :
    responses.foldl ingest (lone heard) = lone (heard ++ responses) := by
  induction responses generalizing heard with
  | nil => rw [List.foldl_nil, List.append_nil]
  | cons message rest ih =>
    rw [List.foldl_cons, lone_ingest, ih, List.append_assoc, List.singleton_append]

def connected : Mux where
  stub := true

theorem connected_greeted : connected.greeted = lone [] := by
  ext1 <;> try rfl
  funext t
  by_cases ht : t = clusterTypeUrl
  · subst ht
    rfl
  · simp [connected, greeted, start, mark, alter, topic, lone, ht]

theorem connected_firstRequest :
    connected.firstRequest = Config.constructInitialRequest clusterTypeUrl false := by
  decide

theorem connected_establish (responses : List DiscoveryResponse) :
    connected.establish responses = lone responses := by
  have hlive : connected.shutdown = false := rfl
  rw [establish, hlive, connected_greeted]
  exact foldl_lone [] responses

/-- All that is pending at the end is about clusters: once for each push, and once more because
the first request listed the type a second time. -/
theorem connected_pending (responses : List DiscoveryResponse) :
    connected.pending responses =
      List.replicate (responses.countP isPush + 1) clusterTypeUrl := by
  have hpushes : (responses.filter isPush).map DiscoveryResponse.typeUrl =
      List.replicate (responses.countP isPush) clusterTypeUrl := by
    rw [List.countP_eq_length_filter, ← List.length_map, List.eq_replicate_length]
    intro t ht
    obtain ⟨message, hmessage, rfl⟩ := List.mem_map.mp ht
    have hpush := (List.mem_filter.mp hmessage).2
    simp only [isPush, Bool.and_eq_true, decide_eq_true_eq] at hpush
    exact hpush.1
  rw [pending, connected_greeted, lone_answers, hpushes, List.replicate_succ']
  rfl

theorem connected_conversation (responses : List DiscoveryResponse) :
    connected.conversation responses =
      .request (Config.constructInitialRequest clusterTypeUrl false) :: exchange [] responses ++
        List.replicate (responses.countP isPush + 1) (.request (clusterRequest responses)) := by
  have hlive : connected.shutdown = false := rfl
  rw [conversation, hlive, connected_firstRequest, connected_greeted, lone_hearing,
    connected_establish, connected_pending, List.map_replicate, lone_request]
  rfl

end Mux

/-- What the program says is decided by what it hears. Without a stream it ends in a call on a
null stream. On a stream its first request is the one `Config` describes; every push is
answered at once, and once more at the end, and each answer carries the nonce of the last
response about clusters and the version of the last one without a resource. -/
theorem main_transcript (config : Config) (outcome : Option (List DiscoveryResponse)) (s : Session)
    (hrun : Run config.build.stub (mainCalls outcome) s) :
    wire s.history = transcript outcome := by
  have hwire := hrun.wire_eq
  cases outcome with
  | none => exact hwire
  | some responses =>
    have hspoken : wire s.history =
        .opened true :: Mux.connected.conversation responses ++
          (Mux.connected.establish responses).emit .shutdown := by
      rw [hwire, mainCalls, Transducer.output_cons, Transducer.output_cons, Transducer.output_cons,
        Transducer.output_nil, List.append_nil]
      rfl
    have hend : (Mux.lone responses).emit .shutdown = [.writesDone, .finish] := rfl
    rw [hspoken, Mux.connected_conversation, Mux.connected_establish, hend]
    simp [transcript]

/-- Two pushes and a removal. -/
theorem main_transcript_pushes :
    ∃ s, Run false (mainCalls (some [clusterPush, { clusterPush with nonce := "n2" },
        { typeUrl := clusterTypeUrl, versionInfo := "2", nonce := "n3" }])) s ∧
      (wire s.history).filterMap (fun w => w.request?.map fun r => (r.versionInfo, r.responseNonce)) =
        [("", ""), ("", "n1"), ("", "n2"), ("2", "n3"), ("2", "n3"), ("2", "n3")] := by
  have hrun := performAll_run false (mainCalls (some [clusterPush, { clusterPush with nonce := "n2" },
    { typeUrl := clusterTypeUrl, versionInfo := "2", nonce := "n3" }]))
  refine ⟨_, hrun, ?_⟩
  rw [main_transcript ⟨"192.168.56.101:18000"⟩ _ _ hrun]
  decide

end XdsClient.Ads
