import XdsClient.Ads.Lifecycle
import XdsClient.Ads.Nesting

/-! # The depth of the stack

Every send that is open stands on the stack of the client. Whoever answers a response opens one
more, and none returns before the stream has ended, so the stack grows with every answer and
the server decides how far.
-/
namespace XdsClient.Ads
open Library

def answeredOnStream : List Entry → ℕ
  | [] => 0
  | e :: earlier =>
    if e.event.obtains then 0 else answeredOnStream earlier + if e.answered then 1 else 0

def streamEnded : List Entry → Bool
  | [] => false
  | e :: earlier => !e.event.obtains && (e.event.isReadFalse || streamEnded earlier)

/-- No send more than one for each answered response and one besides is open; and where `Read`
returns false for the first time on a stream, all of these are. -/
def Deep (e : Entry) (earlier : List Entry) : Prop :=
  openSends (e :: earlier) ≤ answeredOnStream (e :: earlier) + 1 ∧
    (e.event.isReadFalse = true → streamEnded earlier = false →
      openSends earlier = answeredOnStream earlier + 1)

/-- What neither opens nor closes a send, nor reads, nor obtains a stream. -/
def Event.level : Event → Bool
  | .opened obtained => !obtained
  | .send _ => false
  | .sent _ => false
  | .read _ => false
  | _ => true

/-- Where a history stands: the open sends, the answered responses of the stream, and whether it
has ended. -/
structure Level (past : List Entry) (sends answers : ℕ) (ended : Bool) : Prop where
  always : Always Deep past
  sends : openSends past = sends
  answers : answeredOnStream past = answers
  ended : streamEnded past = ended

namespace Level
variable {past : List Entry} {sends answers : ℕ} {ended : Bool}
  (h : Level past sends answers ended)
include h

theorem bound : sends ≤ answers + 1 := by
  rw [← h.sends, ← h.answers]
  cases past with
  | nil => exact Nat.zero_le _
  | cons e earlier => exact h.always.1.1

theorem level {e : Entry} (he : e.event.level = true) : Level (e :: past) sends answers ended := by
  have hbound := h.bound
  obtain ⟨event, state⟩ := e
  have hsends : openSends (⟨event, state⟩ :: past) = sends := by
    cases event <;> first | exact h.sends | cases he
  have hobtains : event.obtains = false := by
    cases event <;> first | rfl | simpa [Event.level, Event.obtains] using he
  have hread : event.isReadFalse = false := by
    cases event <;> first | rfl | cases he
  have hanswered : Entry.answered ⟨event, state⟩ = false := by
    cases event <;> first | rfl | cases he
  have hanswers : answeredOnStream (⟨event, state⟩ :: past) = answers := by
    simp [answeredOnStream, hobtains, hanswered, h.answers]
  refine ⟨⟨⟨?_, ?_⟩, h.always⟩, hsends, hanswers, ?_⟩
  · rw [hsends, hanswers]
    exact hbound
  · simp [hread]
  · simp [streamEnded, hobtains, hread, h.ended]

theorem send (hlow : sends ≤ answers) (typeUrl : String) (state : State) :
    Level (⟨.send typeUrl, state⟩ :: past) (sends + 1) answers ended := by
  have hsends : openSends (⟨.send typeUrl, state⟩ :: past) = sends + 1 :=
    congrArg (· + 1) h.sends
  have hanswers : answeredOnStream (⟨.send typeUrl, state⟩ :: past) = answers := h.answers
  refine ⟨⟨⟨?_, by simp [Event.isReadFalse]⟩, h.always⟩, hsends, hanswers, h.ended⟩
  rw [hsends, hanswers]
  omega

theorem sent (typeUrl : String) (state : State) :
    Level (⟨.sent typeUrl, state⟩ :: past) (sends - 1) answers ended := by
  have hbound := h.bound
  have hsends : openSends (⟨.sent typeUrl, state⟩ :: past) = sends - 1 :=
    congrArg (· - 1) h.sends
  have hanswers : answeredOnStream (⟨.sent typeUrl, state⟩ :: past) = answers := h.answers
  refine ⟨⟨⟨?_, by simp [Event.isReadFalse]⟩, h.always⟩, hsends, hanswers, h.ended⟩
  rw [hsends, hanswers]
  omega

theorem readFalse (hfirst : ended = false → sends = answers + 1) (state : State) :
    Level (⟨.read none, state⟩ :: past) sends answers true := by
  have hbound := h.bound
  have hanswers : answeredOnStream (⟨.read none, state⟩ :: past) = answers := h.answers
  refine ⟨⟨⟨?_, fun _ hend => ?_⟩, h.always⟩, h.sends, hanswers, rfl⟩
  · rw [show openSends (⟨.read none, state⟩ :: past) = sends from h.sends, hanswers]
    exact hbound
  · rw [h.sends, h.answers]
    exact hfirst (h.ended.symm.trans hend)

theorem read (message : DiscoveryResponse) (state : State) :
    Level (⟨.read (some message), state⟩ :: past) sends
      (answers + if state.callsForAnswer message then 1 else 0) ended := by
  have hbound := h.bound
  have hanswers : answeredOnStream (⟨.read (some message), state⟩ :: past) =
      answers + if state.callsForAnswer message then 1 else 0 :=
    congrArg (· + if state.callsForAnswer message then 1 else 0) h.answers
  refine ⟨⟨⟨?_, by simp [Event.isReadFalse]⟩, h.always⟩, h.sends, hanswers, h.ended⟩
  rw [show openSends (⟨.read (some message), state⟩ :: past) = sends from h.sends, hanswers]
  omega

theorem opened (hidle : sends = 0) (state : State) :
    Level (⟨.opened true, state⟩ :: past) 0 0 false := by
  have hsends : openSends (⟨.opened true, state⟩ :: past) = 0 := h.sends.trans hidle
  refine ⟨⟨⟨?_, by simp [Event.isReadFalse]⟩, h.always⟩, hsends, rfl, rfl⟩
  rw [hsends]
  exact Nat.zero_le _

end Level

namespace Session
variable {s : Session} {sends answers : ℕ} {ended : Bool}

theorem beginSend_level (h : Level s.history sends answers ended) (hlow : sends ≤ answers)
    (hstream : s.stream.isSome = true) (typeUrl : String) :
    Level (s.beginSend typeUrl).history (sends + 1) answers ended := by
  rw [beginSend_history s typeUrl hstream]
  exact (h.send hlow typeUrl s.toState).level rfl

/-- On the way up every send is closed before the next one is opened. -/
theorem flush_level (q : List String) (h : Level s.history sends answers ended)
    (hlow : sends ≤ answers) (hstream : s.stream.isSome = true)
    (hend : ended = true ∨ s.shutdown = true) :
    Level (flush q s).history sends answers ended := by
  induction q generalizing s with
  | nil => exact h
  | cons typeUrl q ih =>
    have hdelivered : Level (s.deliver typeUrl).pop.history sends answers ended := by
      unfold deliver
      split_ifs with hdown
      · exact ((h.send hlow typeUrl s.toState).sent typeUrl _).level rfl
      · rcases hend.resolve_right hdown with rfl
        have hread := (beginSend_level h hlow hstream typeUrl).readFalse (by simp)
          (s.beginSend typeUrl).toState
        exact (hread.sent typeUrl _).level rfl
    exact ih hdelivered (by simpa using hstream) (by simpa using hend)

theorem settle_level (h : Level s.history (sends + 1) answers ended) (front : String)
    (hstream : s.stream.isSome = true) (hend : ended = true ∨ s.shutdown = true) :
    Level (s.settle front).history sends answers ended := by
  have hbound := h.bound
  have hpopped : Level (s.log (.sent front)).pop.history sends answers ended :=
    (h.sent front s.toState).level rfl
  unfold settle
  exact flush_level _ hpopped (by omega) hstream hend

theorem unwind_level (front : String) (n : ℕ) (h : Level s.history (sends + n) answers true)
    (hstream : s.stream.isSome = true) : Level ((unwind front)^[n] s).history sends answers true := by
  induction n generalizing s with
  | zero => exact h
  | succ n ih =>
    have hsettled : Level (s.settle front).history (sends + n) answers true :=
      settle_level h front hstream (Or.inl rfl)
    rw [Function.iterate_succ_apply]
    exact ih (hsettled.readFalse (by simp) _) (by simpa [unwind] using hstream)

/-- On the way down every answer opens a send. -/
theorem absorb_level (front : String) (responses : List DiscoveryResponse)
    (h : Level s.history (answers + 1) answers false) (hstream : s.stream = some responses) :
    Level (absorb front responses s).history (answers + answered front responses s + 1)
      (answers + answered front responses s) false := by
  induction responses generalizing s answers with
  | nil => exact h
  | cons message rest ih =>
    have hread := h.read message s.toState
    unfold absorb answered
    split_ifs with hcalls
    · rw [if_pos hcalls] at hread
      have hreceived : Level ((s.receive message rest).emplace message.typeUrl).history
          (answers + 1) (answers + 1) false := by
        rw [emplace_history, log_history, receive_history]
        exact (hread.level rfl).level rfl
      have hrest := ih (beginSend_level hreceived le_rfl (by simp) front) (by simp)
      rwa [Nat.add_right_comm answers 1, Nat.add_assoc answers _ 1] at hrest
    · rw [if_neg hcalls, Nat.add_zero] at hread
      apply ih _ (by simp)
      rw [receive_history]
      exact hread.level rfl

theorem openStream_request_level (h : Level s.history 0 answers ended)
    (responses : List DiscoveryResponse) (hdown : s.shutdown = false) :
    Level ((s.openStream responses).request clusterTypeUrl).history 0
      (answered clusterTypeUrl responses (s.firstRequest responses)) true := by
  have hqueued : Level (s.firstQueued responses).history 0 0 false := by
    rw [firstQueued_history]
    exact (h.opened rfl s.toState).level rfl
  have hfirst : Level (s.firstRequest responses).history (0 + 1) 0 false :=
    beginSend_level hqueued le_rfl (by simp [firstQueued, openStream]) clusterTypeUrl
  have hstream := firstRequest_stream s responses
  have hdeep := absorb_level clusterTypeUrl responses hfirst hstream
  have hread := hdeep.readFalse (fun _ => rfl)
    (absorb clusterTypeUrl responses (s.firstRequest responses)).toState
  rw [Nat.zero_add, Nat.add_comm] at hread
  have hsome := absorb_stream clusterTypeUrl responses _ hstream
  have hserved := unwind_level (s := (absorb clusterTypeUrl responses
    (s.firstRequest responses)).log (.read none)) clusterTypeUrl
    (answered clusterTypeUrl responses (s.firstRequest responses)) hread (by simp [hsome])
  rw [← serve_eq] at hserved
  rw [openStream_request_eq s responses hdown]
  apply settle_level (by simpa using hserved) clusterTypeUrl _ (Or.inl rfl)
  rw [serve_stream _ _ _ hstream]
  rfl

theorem request_level (h : Level s.history 0 answers ended) {responses : List DiscoveryResponse}
    (hstream : s.stream = some responses) (hqueue : s.requestQueue = some [])
    (hend : s.shutdown = true ∨ responses = [] ∧ ended = true) (typeUrl : String) :
    Level (s.request typeUrl).history 0 answers ended := by
  have hqueued : Level ((s.apiStateFor typeUrl).emplace typeUrl).history 0 answers ended := by
    rw [apiStateFor_eq_modifyApi]
    exact h.level rfl
  have hsome : ((s.apiStateFor typeUrl).emplace typeUrl).stream.isSome = true := by simp [hstream]
  rw [request_of_empty s typeUrl responses hstream hqueue]
  split_ifs with hdown
  · exact flush_level [typeUrl] hqueued (Nat.zero_le _) hsome (Or.inr (by simpa using hdown))
  · obtain ⟨rfl, rfl⟩ := hend.resolve_left hdown
    have hread := (beginSend_level hqueued (Nat.zero_le _) hsome typeUrl).readFalse (by simp)
      (((s.apiStateFor typeUrl).emplace typeUrl).beginSend typeUrl).toState
    exact settle_level hread typeUrl (by simpa [serve] using hsome) (Or.inl rfl)

/-! ## Between calls -/

def Surfaced (s : Session) : Prop :=
  ∃ answers ended, Level s.history 0 answers ended ∧
    (s.stream.isSome = true → s.shutdown = true ∨ ended = true)

theorem surfaced_callSteps : CallSteps Surfaced := by
  apply CallSteps.of_history
  · rintro s s' ⟨answers, ended, h, hend⟩ hhistory hstream hdown
    refine ⟨answers, ended, ?_, ?_⟩
    · rw [hhistory]
      exact h
    · rw [hstream, hdown]
      exact hend
  · rintro s event hevent ⟨answers, ended, h, hend⟩
    exact ⟨answers, ended, h.level (by cases event <;> first | rfl | cases hevent), hend⟩
  · rintro s ⟨answers, ended, h, -⟩
    exact ⟨answers, ended, h.level rfl, by simp [openFailed]⟩
  · rintro s ⟨answers, ended, h, -⟩
    exact ⟨answers, ended, h, fun _ => Or.inl rfl⟩

theorem surfaced_lasting : Lasting Surfaced where
  toCallSteps := surfaced_callSteps
  request := by
    rintro s typeUrl hs - ⟨answers, ended, h, hend⟩
    cases hstream : s.stream with
    | none =>
      have hsame : s.request typeUrl = s := by simp [request, hstream]
      rw [hsame]
      exact ⟨answers, ended, h, hend⟩
    | some responses =>
      have hsome : s.stream.isSome = true := by simp [hstream]
      have hover : s.shutdown = true ∨ responses = [] ∧ ended = true := by
        rcases hs.ended with hdown | hnone | hempty
        · exact Or.inl hdown
        · simp [hnone] at hstream
        · rw [hempty, Option.some.injEq] at hstream
          exact (hend hsome).imp_right fun hended => ⟨hstream.symm, hended⟩
      refine ⟨answers, ended, request_level h hstream (hs.allocated hsome) hover typeUrl, fun _ => ?_⟩
      rw [request_shutdown]
      exact hover.imp_right And.right
  openStream := by
    rintro s responses hs ⟨answers, ended, h, -⟩
    cases hdown : s.shutdown with
    | false =>
      exact ⟨_, true, openStream_request_level h responses hdown, fun _ => Or.inr rfl⟩
    | true =>
      have hopened : Level (s.openStream responses).history 0 0 false := h.opened rfl s.toState
      refine ⟨0, false, request_level hopened rfl rfl (Or.inl hdown) clusterTypeUrl, fun _ => ?_⟩
      rw [request_shutdown]
      exact Or.inl hdown

theorem surfaced_construct (channel : Bool) : Surfaced (construct channel) :=
  ⟨0, false, ⟨trivial, rfl, rfl, rfl⟩, by simp [construct]⟩

end Session
open Session

/-- In every run, the sends open at any moment are at most one more than the answered responses
of the present stream, and at the moment when `Read` returns false for the first time on a
stream they are exactly that many: the server alone bounds the depth of the stack. -/
theorem run_stack_depth (channel : Bool) (calls : List Op) (s : Session)
    (hrun : Run channel calls s) :
    (∀ past, past <:+ s.history → openSends past ≤ answeredOnStream past + 1) ∧
      (∀ later state earlier, s.history = later ++ ⟨.read none, state⟩ :: earlier →
        streamEnded earlier = false → openSends earlier = answeredOnStream earlier + 1) ∧
      openSends s.history = 0 := by
  obtain ⟨answers, ended, h, -⟩ := surfaced_lasting.run hrun (surfaced_construct channel)
  refine ⟨fun past hpast => ?_, fun later state earlier hsplit => ?_, h.sends⟩
  · have hlevel : Level past (openSends past) (answeredOnStream past) (streamEnded past) :=
      ⟨h.always.suffix hpast, rfl, rfl, rfl⟩
    exact hlevel.bound
  · exact ((always_iff_forall_split _ _).mp h.always later _ earlier hsplit).2 rfl

/-- Two answered responses and one that is not: three sends are open when the stream ends. -/
theorem run_stack_depth_pushes :
    ∃ s, Run true [.onStreamEstablished (some [clusterPush, {}, clusterPush])] s ∧
      ∃ past, past <:+ s.history ∧ openSends past = 3 ∧ answeredOnStream past = 2 ∧
        openSends past ≤ answeredOnStream past + 1 := by
  have hrun := performAll_run true [.onStreamEstablished (some [clusterPush, {}, clusterPush])]
  have hdeep : ((performAll (construct true) [.onStreamEstablished
      (some [clusterPush, {}, clusterPush])]).history.tails.any fun past =>
        openSends past == 3 && answeredOnStream past == 2) = true := by
    decide
  obtain ⟨past, hpast, hdepth⟩ := List.any_eq_true.mp hdeep
  rw [Bool.and_eq_true, beq_iff_eq, beq_iff_eq] at hdepth
  have hsuffix := (List.mem_tails past _).mp hpast
  exact ⟨_, hrun, past, hsuffix, hdepth.1, hdepth.2, (run_stack_depth true _ _ hrun).1 past hsuffix⟩

end XdsClient.Ads
