import XdsClient.Ads.Addressing

/-! # Which responses are answered

A response that calls for an answer is followed by one request before the next read.
But the answer is queued behind the type whose send reads the response, and it is the
front of the queue that is sent: the request is always for the type the stream started
with. So a response is answered exactly if it is of that type.
-/
namespace XdsClient.Ads
open Library

/-- The requests after a point of the history and before the next read. -/
def requestsBeforeRead (later : List Entry) : List DiscoveryRequest :=
  requestsIn (upTo (fun e => e.event.isRead) later)

/-- One request, of the type and with the nonce of the response. -/
def Answer (message : DiscoveryResponse) (requests : List DiscoveryRequest) : Prop :=
  ∃ request, requests = [request] ∧ request.typeUrl = message.typeUrl ∧
    request.responseNonce = message.nonce

/-- A response that calls for an answer was followed by one request, for the first type, and
by another read. The request acknowledges the response if that is of the first type. -/
def AnsweredFirst (later : List Entry) (e : Entry) : Prop :=
  ∀ message, e.event = .read (some message) → e.state.callsForAnswer message = true →
    (∃ a ∈ later, a.event.isRead = true) ∧
    ∃ request state, requestsBeforeRead later = [request] ∧
      ⟨.write clusterTypeUrl request, state⟩ ∈ later ∧
      (message.typeUrl = clusterTypeUrl → request.responseNonce = message.nonce)

/-- The same, once the next read takes place. -/
def AnsweredAtRead (later : List Entry) (e : Entry) : Prop :=
  ∀ a : Entry, a.event.isRead = true → AnsweredFirst (a :: later) e

theorem AnsweredFirst.append {later : List Entry} {e : Entry} (h : AnsweredFirst later e)
    (new : List Entry) : AnsweredFirst (new ++ later) e := by
  intro message he hcalls
  rcases h message he hcalls with ⟨⟨a, ha, hread⟩, request, state, hone, hwrite, hnonce⟩
  refine ⟨⟨a, List.mem_append_right _ ha, hread⟩, request, state, ?_,
    List.mem_append_right _ hwrite, hnonce⟩
  rw [requestsBeforeRead, upTo_append_of_mem _ new ha hread]
  exact hone

theorem since_answeredFirst_cons {past : List Entry} (h : Since AnsweredFirst past) (a : Entry)
    (ha : ∀ message, a.event ≠ .read (some message)) : Since AnsweredFirst (a :: past) :=
  h.cons (fun _ _ hf => hf.append [a]) (fun message he => absurd he (ha message))

namespace Session

/-! ## The first phase -/

/-- The request that the answer to a response of the first type turns into carries its nonce. -/
theorem answer_nonce (s : Session) (message : DiscoveryResponse) (rest : List DiscoveryResponse)
    (hcalls : s.callsForAnswer message = true) (ht : message.typeUrl = clusterTypeUrl) :
    (((s.receive message rest).emplace message.typeUrl).prepared
      clusterTypeUrl).request.responseNonce = message.nonce := by
  have hknown : s.known message.typeUrl = true := State.known_of_callsForAnswer hcalls
  have hapi : ((s.receive message rest).emplace message.typeUrl).api clusterTypeUrl =
      (s.receive message rest).api clusterTypeUrl := rfl
  rw [ht] at hknown
  unfold State.prepared
  rw [hapi, receive_api, if_pos ⟨ht, hknown⟩]
  simp

/-- A response is read and handled without a further read. Its reading completes what
follows the responses before it. -/
theorem since_answeredAtRead_block {past gap : List Entry} {message : DiscoveryResponse}
    {state : State} (h : Since AnsweredAtRead past)
    (hgap : ∀ e ∈ gap, e.event.isRead = false)
    (hanswer : state.callsForAnswer message = true → ∃ request state, requestsIn gap = [request] ∧
      ⟨.write clusterTypeUrl request, state⟩ ∈ gap ∧
      (message.typeUrl = clusterTypeUrl → request.responseNonce = message.nonce)) :
    Since AnsweredAtRead (gap ++ ⟨.read (some message), state⟩ :: past) := by
  apply h.block
  · intro later e hanswered a _
    exact (hanswered _ rfl).append (a :: gap)
  · intro a ha m hm hcalls
    rcases Option.some.inj (Event.read.inj hm) with rfl
    rcases hanswer hcalls with ⟨request, written, hone, hwrite, hnonce⟩
    refine ⟨⟨a, List.mem_cons_self, ha⟩, request, written, ?_, List.mem_cons_of_mem a hwrite, hnonce⟩
    have hupTo : upTo (fun e => e.event.isRead) (a :: gap) = gap.reverse :=
      upTo_append (fun e => e.event.isRead) [] a gap ha hgap
    rw [requestsBeforeRead, hupTo, requestsIn, List.filterMap_reverse, ← requestsIn, hone]
    rfl
  · apply since_of_forall
    intro e he later a _ m hm
    have hread := hgap e he
    simp [hm, Event.isRead] at hread

/-- Along the first phase, every response is answered by the time of the next read. -/
theorem absorb_answeredAtRead (responses : List DiscoveryResponse) (s : Session)
    (hstream : s.stream = some responses) (h : Since AnsweredAtRead s.history) :
    Since AnsweredAtRead (absorb clusterTypeUrl responses s).history := by
  induction responses generalizing s with
  | nil => exact h
  | cons message rest ih =>
    unfold absorb
    split_ifs with hcalls
    · apply ih _ (by simp)
      have hhistory : (((s.receive message rest).emplace message.typeUrl).beginSend
          clusterTypeUrl).history =
          [_, _, _, _] ++ ⟨.read (some message), s.toState⟩ :: s.history :=
        beginSend_history _ clusterTypeUrl (by simp)
      rw [hhistory]
      apply since_answeredAtRead_block h
      · simp [Event.isRead]
      · exact fun _ => ⟨_, _, rfl, List.mem_cons_self, answer_nonce s message rest hcalls⟩
    · apply ih _ (by simp)
      have hhistory : (s.receive message rest).history =
          [_] ++ ⟨.read (some message), s.toState⟩ :: s.history := receive_history s message rest
      rw [hhistory]
      apply since_answeredAtRead_block h
      · simp [Event.isRead]
      · exact fun hcalls' => absurd hcalls' hcalls

/-! ## The second phase and the calls -/

/-- Every response that called for an answer was followed by a request for the first type, and
nothing is left to read. -/
def AllAnswered (s : Session) : Prop := Since AnsweredFirst s.history ∧ Ended s.toState

theorem allAnswered_stable : Stable AllAnswered := by
  apply stable_of_ended
  · exact fun s h => since_answeredFirst_cons h _ (by simp)
  · exact fun s t _ _ h => since_answeredFirst_cons h _ (by simp)
  · intro s t rest hstream _ _ h
    rw [beginSend_history s t hstream]
    exact since_answeredFirst_cons (since_answeredFirst_cons h _ (by simp)) _ (by simp)
  · exact fun s t _ h => since_answeredFirst_cons h _ (by simp)
  · exact fun s t h => since_answeredFirst_cons h _ (by simp)
  · exact fun s h => since_answeredFirst_cons h _ (by simp)

/-- The end of the first phase is the read that the last response waited for. -/
theorem allAnswered_openStream {s : Session} (responses : List DiscoveryResponse)
    (h : AllAnswered s) :
    AllAnswered ((absorb clusterTypeUrl responses (s.firstRequest responses)).log (.read none)) := by
  have hold : Since AnsweredFirst (s.firstRequest responses).history := by
    rw [firstRequest_history]
    have hopened := since_answeredFirst_cons h.1 ⟨.opened true, s.toState⟩ (by simp)
    have hpushed := since_answeredFirst_cons hopened
      ⟨.push clusterTypeUrl, ((s.openStream responses).apiStateFor clusterTypeUrl).toState⟩ (by simp)
    exact since_answeredFirst_cons (since_answeredFirst_cons hpushed _ (by simp)) _ (by simp)
  have hfirst : Since AnsweredAtRead (s.firstRequest responses).history :=
    fun later e earlier hsplit a _ => (hold later e earlier hsplit).append [a]
  have hstream := absorb_stream clusterTypeUrl responses _ (firstRequest_stream s responses)
  have habsorb := absorb_answeredAtRead responses _ (firstRequest_stream s responses) hfirst
  refine ⟨?_, Or.inr (Or.inr hstream)⟩
  intro later e earlier hsplit
  cases later with
  | nil =>
    rcases List.cons.inj hsplit with ⟨rfl, _⟩
    intro message he
    simp at he
  | cons a later =>
    rcases List.cons.inj hsplit with ⟨rfl, hpast⟩
    exact habsorb later e earlier hpast _ rfl

theorem allAnswered_callSteps : CallSteps AllAnswered := by
  apply CallSteps.of_history
  · intro s s' h hhistory hstream hdown
    unfold AllAnswered Ended
    rw [hhistory, hstream, hdown]
    exact h
  · intro s event hevent h
    refine ⟨since_answeredFirst_cons h.1 _ (fun message hread => ?_), h.2⟩
    simp only at hread
    simp [hread, Event.ofCall] at hevent
  · exact fun s h => ⟨since_answeredFirst_cons h.1 _ (by simp), Or.inr (Or.inl rfl)⟩
  · exact fun s h => ⟨h.1, Or.inl rfl⟩

theorem allAnswered_kept : Kept AllAnswered where
  toStable := allAnswered_stable
  toCallSteps := allAnswered_callSteps
  openStream := fun s responses _ hdown h =>
    allAnswered_stable.openStream_request_of_absorb s responses hdown
      (allAnswered_openStream responses h)
  openStreamDown := fun s responses _ hdown h => by
    have hopened := since_answeredFirst_cons h.1 ⟨.opened true, s.toState⟩ (by simp)
    rw [apiStateFor_eq_modifyApi]
    exact ⟨hopened, Or.inl hdown⟩

theorem allAnswered_construct (channel : Bool) : AllAnswered (construct channel) :=
  ⟨by simp [construct, Since], Or.inr (Or.inl rfl)⟩

end Session
open Session

/-- In every run, a response that calls for an answer is answered by exactly one request of its
type and with its nonce before the next read, if and only if it is of the type that every
stream starts with. -/
theorem run_response_answered_iff (channel : Bool) (calls : List Op) (s : Session)
    (hrun : Run channel calls s) (later earlier : List Entry) (message : DiscoveryResponse)
    (state : State)
    (hread : s.history = later ++ ⟨.read (some message), state⟩ :: earlier)
    (hcalls : state.callsForAnswer message = true) :
    Answer message (requestsBeforeRead later) ↔ message.typeUrl = clusterTypeUrl := by
  have hanswered := (allAnswered_kept.run hrun (allAnswered_construct channel)).1
  have haddressed := (addressing_kept.run hrun (addressing_construct channel)).1
  rcases hanswered later _ earlier hread message rfl hcalls with
    ⟨_, request, written, hone, hwrite, hnonce⟩
  have hmem : ⟨.write clusterTypeUrl request, written⟩ ∈ s.history := by
    rw [hread]
    exact List.mem_append_left _ hwrite
  have htype : request.typeUrl = clusterTypeUrl := ((haddressed.written _ hmem).1 _ _ rfl).1
  constructor
  · rintro ⟨r, hr, hrtype, _⟩
    rw [hone] at hr
    rcases List.cons.inj hr with ⟨rfl, _⟩
    rw [← hrtype, htype]
  · intro ht
    exact ⟨request, hone, htype.trans ht.symm, hnonce ht⟩

/-- The first response of a stream is of the first type. -/
theorem run_response_answered_iff_cluster :
    ∃ s later message state earlier,
      Run true [.onStreamEstablished (some [clusterPush])] s ∧
      s.history = later ++ ⟨.read (some message), state⟩ :: earlier ∧
      state.callsForAnswer message = true ∧ Answer message (requestsBeforeRead later) := by
  have hreads : reads (fun _ message state => state.callsForAnswer message &&
        message.typeUrl == clusterTypeUrl)
      (performAll (construct true) [.onStreamEstablished (some [clusterPush])]).history = true := by
    decide
  rcases exists_split_of_reads _ _ hreads with ⟨later, message, state, earlier, hsplit, htest⟩
  rcases (by simpa using htest : state.callsForAnswer message = true ∧
    message.typeUrl = clusterTypeUrl) with ⟨hcalls, htype⟩
  have hrun := performAll_run true [.onStreamEstablished (some [clusterPush])]
  have hiff := run_response_answered_iff true _ _ hrun later earlier message state hsplit hcalls
  exact ⟨_, later, message, state, earlier, hrun, hsplit, hcalls, hiff.mpr htype⟩

/-- A response for a watched type other than the first is followed by a request of another type. -/
theorem answer_goes_to_front_type :
    ∃ s later message state earlier,
      Run true [.addWatch "E" ∅, .onStreamEstablished (some [{ clusterPush with typeUrl := "E" }])] s ∧
      s.history = later ++ ⟨.read (some message), state⟩ :: earlier ∧
      state.callsForAnswer message = true ∧ ¬ Answer message (requestsBeforeRead later) := by
  have hreads : reads (fun later message state => state.callsForAnswer message &&
        (requestsBeforeRead later).all fun r => r.typeUrl != message.typeUrl)
      (performAll (construct true) [.addWatch "E" ∅,
        .onStreamEstablished (some [{ clusterPush with typeUrl := "E" }])]).history = true := by
    decide
  rcases exists_split_of_reads _ _ hreads with ⟨later, message, state, earlier, hsplit, htest⟩
  rcases Bool.and_eq_true_iff.mp htest with ⟨hcalls, hall⟩
  refine ⟨_, later, message, state, earlier, performAll_run true _, hsplit, hcalls, ?_⟩
  rintro ⟨request, hone, htype, _⟩
  simp [hone, htype] at hall

end XdsClient.Ads
