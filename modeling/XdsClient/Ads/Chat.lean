import XdsClient.Ads.Client

/-! # The hand-written chat

`AggregatedDiscoveryService` and `continueChat` talk on the same stream as the rest of the
client, but keep one request, version and nonce of their own for the whole life of the client.
-/
namespace XdsClient.Ads

/-- The members of `AdsClient` that only the chat uses. -/
structure Chat where
  discoveryRequest : DiscoveryRequest := {}
  versionInfo : String := ""
  nonce : String := ""
  isOk : Bool := false

structure Client extends Session where
  chat : Chat := {}

namespace Client

def continueChat (c : Client) : Client :=
  let request := { c.chat.discoveryRequest with
    versionInfo := c.chat.versionInfo, responseNonce := c.chat.nonce }
  { toSession := c.toSession.write request.typeUrl request
    chat := { c.chat with discoveryRequest := request, isOk := true } }

/-- The first request of `AggregatedDiscoveryService`. The id and the cluster are appended to
what the node holds already, and the nonce is left as it is. -/
def firstRequest (chat : Chat) : DiscoveryRequest :=
  let node := chat.discoveryRequest.node.getD {}
  { chat.discoveryRequest with
    versionInfo := ""
    node := some { node with
      cluster := node.cluster ++ "test-cluster", id := node.id ++ "test-id" }
    typeUrl := clusterTypeUrl }

/-- `AggregatedDiscoveryService` up to its read loop. -/
def openChat (c : Client) : Client :=
  { toSession := c.toSession.write clusterTypeUrl (firstRequest c.chat)
    chat := { c.chat with discoveryRequest := firstRequest c.chat } }

/-- The body of the read loop, for a response that was read. Unpacking its resources only
prints them. -/
def reply (c : Client) (response : DiscoveryResponse) : Client :=
  continueChat { c with chat := { c.chat with
    versionInfo := response.versionInfo, nonce := response.nonce } }

@[simp] theorem reply_stream (c : Client) (response : DiscoveryResponse) :
    (c.reply response).stream = c.stream := by
  simp only [reply, continueChat, Session.write]
  split <;> rfl

/-- Every successful read leaves fewer responses. -/
theorem read_length_lt {s s' : Session} {response : DiscoveryResponse}
    (h : s.read = (some response, s')) : (s'.stream.getD []).length < (s.stream.getD []).length := by
  unfold Session.read at h
  split at h
  · cases h
  · cases h
  · rename_i message rest hstream
    cases h
    simp [hstream]

/-- The loop `while (stream_->Read(&discoveryResponse))`. -/
def chatReads (c : Client) : Client :=
  match _h : c.toSession.read with
  | (none, s) => { c with toSession := s }
  | (some response, s) => chatReads (reply { c with toSession := s } response)
  termination_by (c.stream.getD []).length
  decreasing_by
    rw [reply_stream]
    exact read_length_lt _h

def aggregatedDiscoveryService (c : Client) : Bool × Client :=
  let c := c.openChat.chatReads
  (c.chat.isOk, c)

def chatOver (c : Client) (responses : List DiscoveryResponse) : Client :=
  (aggregatedDiscoveryService { c with stream := some responses }).2

variable (c : Client)

def answerTo (request : DiscoveryRequest) (response : DiscoveryResponse) : DiscoveryRequest :=
  { request with versionInfo := response.versionInfo, responseNonce := response.nonce }

/-- The requests written between two states of the client, the oldest first. -/
def Wrote (c c' : Client) (requests : List DiscoveryRequest) : Prop :=
  ∃ part, c'.history = part ++ c.history ∧ (requestsIn part).reverse = requests

theorem Wrote.trans {c c' c'' : Client} {requests requests' : List DiscoveryRequest}
    (h : Wrote c c' requests) (h' : Wrote c' c'' requests') :
    Wrote c c'' (requests ++ requests') := by
  obtain ⟨part, hpart, rfl⟩ := h
  obtain ⟨part', hpart', rfl⟩ := h'
  refine ⟨part' ++ part, by rw [hpart', hpart, List.append_assoc], ?_⟩
  rw [requestsIn_append, List.reverse_append]

theorem Wrote.unique {c c' : Client} {requests requests' : List DiscoveryRequest}
    (h : Wrote c c' requests) (h' : Wrote c c' requests') : requests = requests' := by
  obtain ⟨part, hpart, rfl⟩ := h
  obtain ⟨part', hpart', rfl⟩ := h'
  rw [hpart] at hpart'
  rw [List.append_cancel_right hpart']

theorem reply_wrote {responses : List DiscoveryResponse} (hstream : c.stream = some responses)
    (response : DiscoveryResponse) :
    Wrote c (c.reply response) [answerTo c.chat.discoveryRequest response] ∧
      (c.reply response).chat.discoveryRequest = answerTo c.chat.discoveryRequest response := by
  let request := answerTo c.chat.discoveryRequest response
  refine ⟨⟨[⟨.write request.typeUrl request, c.toState⟩], ?_, rfl⟩, rfl⟩
  simp [reply, continueChat, Session.write, hstream, request, answerTo]

/-- The loop answers the responses one by one. -/
theorem chatReads_wrote (responses : List DiscoveryResponse) (hstream : c.stream = some responses) :
    Wrote c c.chatReads (responses.map (answerTo c.chat.discoveryRequest)) ∧
      c.chatReads.chat.discoveryRequest.node = c.chat.discoveryRequest.node := by
  induction responses generalizing c with
  | nil =>
    have hread : c.toSession.read = (none, c.toSession.log (.read none)) := by
      simp [Session.read, hstream]
    have hend : c.chatReads = { c with toSession := c.toSession.log (.read none) } := by
      rw [chatReads]
      split <;> simp_all
    rw [hend]
    exact ⟨⟨[⟨.read none, c.toState⟩], rfl, rfl⟩, rfl⟩
  | cons response rest ih =>
    let s : Session := { c.toSession.log (.read (some response)) with stream := some rest }
    have hread : c.toSession.read = (some response, s) := by simp [Session.read, hstream, s]
    have hnext : c.chatReads = chatReads (reply { c with toSession := s } response) := by
      rw [chatReads]
      split <;> simp_all
    have hstream' : ({ c with toSession := s } : Client).stream = some rest := rfl
    obtain ⟨hreply, hrequest⟩ := reply_wrote { c with toSession := s } hstream' response
    obtain ⟨hrest, hnode⟩ := ih (reply { c with toSession := s } response) (by simp [s])
    have hstep : Wrote c { c with toSession := s } [] := ⟨[⟨.read (some response), c.toState⟩], rfl, rfl⟩
    rw [hnext]
    rw [hrequest] at hrest hnode
    exact ⟨hstep.trans (hreply.trans hrest), hnode⟩

/-- One invocation: the first request, then the answers. -/
theorem chatOver_wrote (responses : List DiscoveryResponse) :
    Wrote c (c.chatOver responses)
        (firstRequest c.chat :: responses.map (answerTo (firstRequest c.chat))) ∧
      (c.chatOver responses).chat.discoveryRequest.node = (firstRequest c.chat).node := by
  let c' : Client := { c with stream := some responses }
  have hopen : Wrote c' c'.openChat [firstRequest c.chat] :=
    ⟨[⟨.write clusterTypeUrl (firstRequest c.chat), c'.toState⟩], rfl, rfl⟩
  obtain ⟨hreads, hnode⟩ := chatReads_wrote c'.openChat responses rfl
  have hstart : Wrote c c' [] := ⟨[], rfl, rfl⟩
  exact ⟨hstart.trans (hopen.trans hreads), hnode⟩

/-- A client on which `AggregatedDiscoveryService` was invoked over these streams. -/
def chatted (s : Session) (streams : List (List DiscoveryResponse)) : Client :=
  streams.foldl chatOver { toSession := s }

def Identified (request : DiscoveryRequest) : Prop :=
  request.node.map Node.id = some "test-id" ∧ request.node.map Node.cluster = some "test-cluster"

/-- A clean first request, then one answer to each response, all under the same identity. -/
def StartsClean (requests : List DiscoveryRequest) (responses : List DiscoveryResponse) : Prop :=
  ∃ initial answers, requests = initial :: answers ∧
    initial.versionInfo = "" ∧ initial.responseNonce = "" ∧ Identified initial ∧
    List.Forall₂ (fun answer response => answer.versionInfo = response.versionInfo ∧
      answer.responseNonce = response.nonce ∧ Identified answer) answers responses

def nodeId (c : Client) : String := (c.chat.discoveryRequest.node.getD {}).id

theorem chatOver_nodeId (responses : List DiscoveryResponse) :
    (c.chatOver responses).nodeId = c.nodeId ++ "test-id" := by
  rw [nodeId, (chatOver_wrote c responses).2]
  rfl

/-- Every invocation makes the id longer. -/
theorem chatted_nodeId_length (s : Session) (streams : List (List DiscoveryResponse)) :
    (chatted s streams).nodeId.length = 7 * streams.length := by
  induction streams using List.reverseRecOn with
  | nil => rfl
  | append_singleton streams responses ih =>
    have hlast : chatted s (streams ++ [responses]) = (chatted s streams).chatOver responses := by
      simp [chatted]
    have hid : "test-id".length = 7 := rfl
    rw [hlast, chatOver_nodeId, String.length_append, ih, hid, List.length_append,
      List.length_singleton]
    omega

theorem startsClean_first (responses : List DiscoveryResponse) :
    StartsClean (firstRequest {} :: responses.map (answerTo (firstRequest {}))) responses := by
  have hid : Identified (firstRequest {}) := ⟨by decide, by decide⟩
  refine ⟨_, _, rfl, rfl, rfl, hid, ?_⟩
  rw [List.forall₂_map_left_iff]
  exact List.forall₂_same.mpr fun response _ => ⟨rfl, rfl, hid⟩

/-- Only the first invocation on a client writes the requests of a clean start: every later one
goes on with the node of the invocations before it. -/
theorem chat_starts_clean_iff (s : Session) (before : List (List DiscoveryResponse))
    (responses : List DiscoveryResponse) :
    (∃ requests, Wrote (chatted s before) ((chatted s before).chatOver responses) requests ∧
      StartsClean requests responses) ↔ before = [] := by
  have hwrote := (chatOver_wrote (chatted s before) responses).1
  constructor
  · rintro ⟨requests, hrequests, initial, answers, rfl, -, -, hid, -⟩
    rcases (List.cons.inj (hrequests.unique hwrote)).1 with rfl
    have hlength : ((chatted s before).nodeId ++ "test-id").length = "test-id".length :=
      congrArg String.length (Option.some.inj hid.1)
    rw [String.length_append, chatted_nodeId_length] at hlength
    have hzero : before.length = 0 := by omega
    exact List.length_eq_zero_iff.mp hzero
  · rintro rfl
    exact ⟨_, hwrote, startsClean_first responses⟩

/-- The second of two invocations without a response shows the id twice. -/
theorem second_chat_repeats_identity :
    ∃ request, Wrote (chatted {} [[]]) ((chatted {} [[]]).chatOver []) [request] ∧
      request.node.map Node.id = some "test-idtest-id" ∧ ¬ StartsClean [request] [] := by
  have hid : (chatted {} [[]]).nodeId = "" ++ "test-id" := chatOver_nodeId _ []
  have hrequest : (firstRequest (chatted {} [[]]).chat).node.map Node.id =
      some ((chatted {} [[]]).nodeId ++ "test-id") := rfl
  rw [hid] at hrequest
  refine ⟨_, (chatOver_wrote (chatted {} [[]]) []).1, hrequest, ?_⟩
  rintro ⟨initial, answers, heq, -, -, hidentified, -⟩
  rcases (List.cons.inj heq).1 with rfl
  rw [Identified, hrequest] at hidentified
  exact absurd hidentified.1 (by decide)

end Client
end XdsClient.Ads
