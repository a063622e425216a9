import XdsClient.Ads.Lifecycle

/-! # When the rules of a stream are kept

The calls alone tell whether there is a stream and whether the client is shut down. From
this the rules are decided call by call: only a second stream, and `shutdown` and
`continueChat` without a stream or after a shutdown, break them.
-/
namespace XdsClient.Ads
open Library Session

/-! ## What can be read off the calls -/

def Call.obtains : Call → Bool
  | .op (.onStreamEstablished outcome) => outcome.isSome
  | _ => false

def Call.isShutdown : Call → Bool
  | .op .shutdown => true
  | _ => false

/-- There is a stream after the call, if there was one before it or not. -/
def Call.present (before : Bool) : Call → Bool
  | .op (.onStreamEstablished outcome) => outcome.isSome
  | _ => before

def hasStream (calls : List Call) : Bool := calls.foldl Call.present false

theorem hasStream_concat (calls : List Call) (call : Call) :
    hasStream (calls ++ [call]) = call.present (hasStream calls) := by
  simp [hasStream]

theorem any_obtains_of_hasStream {calls : List Call} (h : hasStream calls = true) :
    calls.any Call.obtains = true := by
  induction calls using List.reverseRecOn with
  | nil => simp [hasStream] at h
  | append_singleton calls call ih =>
    rw [List.any_append, Bool.or_eq_true]
    rw [hasStream_concat] at h
    cases call with
    | op op =>
      cases op with
      | onStreamEstablished outcome => exact Or.inr (by simpa [Call.obtains, Call.present] using h)
      | _ => exact Or.inl (ih h)
    | _ => exact Or.inl (ih h)

/-- The condition on a call, given the calls before it. -/
def Permits (before : List Call) : Call → Prop
  | .op (.onStreamEstablished (some _)) => before.any Call.obtains = false
  | .op .shutdown => hasStream before = true ∧ before.any Call.isShutdown = false
  | .continueChat => hasStream before = true ∧ before.any Call.isShutdown = false
  | _ => True

/-! ## The history against the calls -/

/-- How the history and the status of a client follow from its calls. A shutdown that kept the
rules has left its mark on the stream. -/
structure Tracked (calls : List Call) (history : List Entry) (status : Bool × Bool × Bool) : Prop where
  stub : status.1 = true
  present : status.2.1 = hasStream calls
  down : status.2.2 = calls.any Call.isShutdown
  obtained : history.any (fun e => e.event.obtains) = calls.any Call.obtains
  open_ : status.2.2 = false →
    ∀ e ∈ history, e.event.isWritesDone = false ∧ e.event.isFinish = false
  closed : status.2.2 = true → Always Permitted history →
    history.any (fun e => e.event.obtains) = true ∧
      ∃ e ∈ sinceObtained history, e.event.isWritesDone = true

namespace Tracked
variable {calls : List Call} {history : List Entry} {status : Bool × Bool × Bool}
  (h : Tracked calls history status)
include h

theorem always_append {part : List Entry} (hpart : ∀ e ∈ part, Steady status.2.2 e) :
    Always Permitted (part ++ history) ↔ Always Permitted history :=
  always_permitted_append hpart fun hd f hf => (h.open_ hd f hf).1

/-- Steady entries say nothing about the life of the stream. -/
theorem extend {part : List Entry} (hpart : ∀ e ∈ part, Steady status.2.2 e) :
    Tracked calls (part ++ history) status where
  stub := h.stub
  present := h.present
  down := h.down
  obtained := by
    have hnone : part.any (fun e => e.event.obtains) = false := by
      rw [List.any_eq_false]
      intro e he
      simp [(Event.plain_cases (hpart e he).1).1]
    rw [List.any_append, hnone, h.obtained, Bool.false_or]
  open_ := by
    intro hd e he
    rcases List.mem_append.mp he with he | he
    · exact (Event.plain_cases (hpart e he).1).2
    · exact h.open_ hd e he
  closed := by
    intro hd halways
    obtain ⟨hany, e, he, hdone⟩ := h.closed hd ((h.always_append hpart).mp halways)
    rw [sinceObtained_append hpart, List.any_append, hany, Bool.or_true]
    exact ⟨rfl, e, List.mem_append_right part he, hdone⟩

/-- Nor do the calls that obtain no stream and do not shut down. -/
theorem concat (call : Call) (hobtains : call.obtains = false) (hshutdown : call.isShutdown = false) :
    Tracked (calls ++ [call]) history (status.1, call.present status.2.1, status.2.2) where
  stub := h.stub
  present := by rw [hasStream_concat, ← h.present]
  down := by simp [h.down, hshutdown]
  obtained := by simpa [hobtains] using h.obtained
  open_ := h.open_
  closed := h.closed

/-- Opening a stream: the second one breaks the rules. -/
theorem obtain_stream {s : State} (hs : s.status = status) (call : Call)
    (hobtains : call.obtains = true) (hshutdown : call.isShutdown = false) :
    Tracked (calls ++ [call]) (⟨.opened true, s⟩ :: history)
        (status.1, call.present status.2.1, status.2.2) ∧
      (Always Permitted (⟨.opened true, s⟩ :: history) ↔
        Always Permitted history ∧ calls.any Call.obtains = false) := by
  have hrule : Permitted ⟨.opened true, s⟩ history ↔ calls.any Call.obtains = false := by
    rw [← h.obtained]
    constructor
    · intro hp
      exact List.any_eq_false.mpr fun e he => by simp [hp.1 e he]
    · intro hnone
      refine ⟨fun f hf => by simpa using List.any_eq_false.mp hnone f hf, fun hstream => ?_⟩
      have hpresent : hasStream calls = true := by
        rw [← h.present, ← hs]
        exact hstream
      have hany := any_obtains_of_hasStream hpresent
      rw [← h.obtained, hnone] at hany
      cases hany
  refine ⟨⟨h.stub, by rw [hasStream_concat, ← h.present], by simp [h.down, hshutdown],
    by simp [Event.obtains, hobtains], ?_, ?_⟩, ?_⟩
  · intro hd e he
    rcases List.mem_cons.mp he with rfl | he
    · exact ⟨rfl, rfl⟩
    · exact h.open_ hd e he
  · rintro hd ⟨hp, halways⟩
    have hany := (h.closed hd halways).1
    rw [h.obtained, hrule.mp hp] at hany
    cases hany
  · rw [always_cons, hrule, and_comm]

theorem end_stream {s : State} (hstream : status.2.1 = true) :
    Tracked (calls ++ [.op .shutdown]) (⟨.finish, s⟩ :: ⟨.writesDone, s⟩ :: history)
        (status.1, status.2.1, true) ∧
      (Always Permitted (⟨.finish, s⟩ :: ⟨.writesDone, s⟩ :: history) ↔
        Always Permitted history ∧ Permits calls (.op .shutdown)) := by
  have hhas : hasStream calls = true := by rw [← h.present, hstream]
  constructor
  · constructor
    · exact h.stub
    · rw [hasStream_concat, ← h.present]
      rfl
    · simp [Call.isShutdown]
    · simpa [Event.obtains, Call.obtains] using h.obtained
    · intro hd
      cases hd
    · intro _ _
      refine ⟨?_, ⟨.writesDone, s⟩, by simp [sinceObtained, Event.obtains], rfl⟩
      have hany := any_obtains_of_hasStream hhas
      rw [← h.obtained] at hany
      rw [List.any_cons, List.any_cons, hany, Bool.or_true, Bool.or_true]
  · simp only [always_cons, Permits, hhas, true_and, ← h.down]
    cases hd : status.2.2 with
    | false =>
      have hopen := h.open_ hd
      have hdone : Permitted ⟨.writesDone, s⟩ history := fun f hf =>
        (hopen f (mem_of_mem_sinceObtained hf)).1
      have hfinish : Permitted ⟨.finish, s⟩ (⟨.writesDone, s⟩ :: history) := by
        intro f hf
        rcases List.mem_cons.mp (mem_of_mem_sinceObtained hf) with rfl | hf
        · rfl
        · exact (hopen f hf).2
      simp [hdone, hfinish]
    | true =>
      refine ⟨fun hall => ?_, fun hall => absurd hall.2 (by simp)⟩
      obtain ⟨-, e, he, hdone⟩ := h.closed hd hall.2.2
      have hnone : e.event.isWritesDone = false := hall.2.1 e he
      rw [hnone] at hdone
      cases hdone

theorem chat {s : State} (hs : s.status = status) (hstream : status.2.1 = true) (typeUrl : String)
    (request : DiscoveryRequest) :
    Tracked (calls ++ [.continueChat]) (⟨.write typeUrl request, s⟩ :: history) status ∧
      (Always Permitted (⟨.write typeUrl request, s⟩ :: history) ↔
        Always Permitted history ∧ Permits calls .continueChat) := by
  have hhas : hasStream calls = true := by rw [← h.present, hstream]
  have hdown : s.shutdown = status.2.2 := by rw [← hs]; rfl
  constructor
  · constructor
    · exact h.stub
    · rw [hasStream_concat, h.present]
      rfl
    · simp [h.down, Call.isShutdown]
    · simpa [Event.obtains, Call.obtains] using h.obtained
    · intro hd e he
      rcases List.mem_cons.mp he with rfl | he
      · exact ⟨rfl, rfl⟩
      · exact h.open_ hd e he
    · rintro hd ⟨⟨hopen, -⟩, -⟩
      have hopen' : s.shutdown = false := hopen
      rw [hdown, hd] at hopen'
      cases hopen'
  · simp only [always_cons, Permits, hhas, true_and, ← h.down]
    constructor
    · rintro ⟨⟨hopen, -⟩, halways⟩
      exact ⟨halways, hdown.symm.trans hopen⟩
    · rintro ⟨halways, hd⟩
      exact ⟨⟨hdown.trans hd, fun f hf => (h.open_ hd f (mem_of_mem_sinceObtained hf)).1⟩, halways⟩

theorem null_call {s : State} {call : Call} (hobtains : call.obtains = false)
    (hpresent : call.present status.2.1 = status.2.1) (down : Bool)
    (hdown : (status.2.2 || call.isShutdown) = down) :
    Tracked (calls ++ [call]) (⟨.nullCall, s⟩ :: history) (status.1, status.2.1, down) where
  stub := h.stub
  present := by rw [hasStream_concat, ← h.present, hpresent]
  down := by simp [← hdown, h.down]
  obtained := by simpa [Event.obtains, hobtains] using h.obtained
  open_ := by
    intro hd e he
    have hd' : down = false := hd
    rw [hd'] at hdown
    rcases List.mem_cons.mp he with rfl | he
    · exact ⟨rfl, rfl⟩
    · exact h.open_ (Bool.or_eq_false_iff.mp hdown).1 e he
  closed := fun _ hall => absurd hall.1 id

end Tracked

/-! ## Call by call -/

/-- The calls that neither open nor end a stream nor write to it unasked. -/
def Call.steady : Call → Bool
  | .op call => call.steady
  | .queueDiscoveryRequest _ => true
  | .continueChat => false

theorem Call.steady_cases {call : Call} (h : call.steady = true) (before : List Call) (b : Bool) :
    call.obtains = false ∧ call.isShutdown = false ∧ call.present b = b ∧ Permits before call := by
  cases call with
  | op call =>
    cases call <;>
      simp_all [Call.steady, Op.steady, Call.obtains, Call.isShutdown, Call.present, Permits]
  | queueDiscoveryRequest typeUrl => exact ⟨rfl, rfl, rfl, trivial⟩
  | continueChat => simp [Call.steady] at h

theorem Client.carried (c : Client) (hstub : c.stub = true) (call : Call)
    (hcall : call.steady = true) : Carried c.history c.status (c.perform call).toSession := by
  cases call with
  | op op => exact carried_perform c.toSession hstub op hcall
  | queueDiscoveryRequest typeUrl => exact (Carried.refl c.toSession).request typeUrl
  | continueChat => simp [Call.steady] at hcall

theorem establish_carried {s : Session} (hs : Quiet s) (responses : List DiscoveryResponse) :
    Carried (⟨.opened true, s.toState⟩ :: s.history) (s.stub, true, s.shutdown)
      (s.establish responses) := by
  rw [establish_eq hs]
  apply Carried.foldl_request
  apply Carried.request
  exact ⟨Grows.refl _, rfl⟩

def Follows (calls : List Call) (c : Client) (call : Call) : Prop :=
  Tracked (calls ++ [call]) (c.perform call).history (c.perform call).status ∧
    (Always Permitted (c.perform call).history ↔ Always Permitted c.history ∧ Permits calls call)

section Step
variable {calls : List Call} {c : Client} (h : Tracked calls c.history c.status)
include h

theorem steady_follows {call : Call} (hcall : call.steady = true) : Follows calls c call := by
  obtain ⟨⟨part, hpart, hall⟩, hstatus⟩ := c.carried h.stub call hcall
  obtain ⟨hobtains, hshutdown, hpresent, hpermits⟩ := Call.steady_cases hcall calls c.status.2.1
  have htracked := (h.extend hall).concat call hobtains hshutdown
  rw [hpresent] at htracked
  rw [Follows, hpart, hstatus]
  exact ⟨htracked, by simp [h.always_append hall, hpermits]⟩

theorem continueChat_follows : Follows calls c .continueChat := by
  have hstate : (c.perform .continueChat).status = c.status := by
    rw [Client.perform, Client.continueChat_toState]
  rw [Follows, hstate]
  cases hstream : c.stream with
  | none =>
    have hhistory : (c.perform .continueChat).history = ⟨.nullCall, c.toState⟩ :: c.history := by
      simp [Client.perform, Client.continueChat, Session.write, hstream]
    have hhas : hasStream calls = false := by
      rw [← h.present]
      simp [State.status, hstream]
    rw [hhistory]
    exact ⟨h.null_call rfl rfl _ (Bool.or_false _), by simp [Permitted, Permits, hhas]⟩
  | some responses =>
    have hhistory : ∃ typeUrl request, (c.perform .continueChat).history =
        ⟨.write typeUrl request, c.toState⟩ :: c.history := by
      simp only [Client.perform, Client.continueChat, Session.write, hstream]
      exact ⟨_, _, rfl⟩
    obtain ⟨typeUrl, request, hhistory⟩ := hhistory
    rw [hhistory]
    exact h.chat rfl (by simp [State.status, hstream]) typeUrl request

theorem openFailed_follows : Follows calls c (.op (.onStreamEstablished none)) := by
  have hstub : c.stub = true := h.stub
  have hperform : c.perform (.op (.onStreamEstablished none)) =
      { c with toSession := c.toSession.openFailed } := by
    simp [Client.perform, Ads.perform, hstub]
  have hentry : ∀ e ∈ [(⟨.opened false, c.toState⟩ : Entry)], Steady c.status.2.2 e := by
    simp [Steady, Event.plain, Event.request?]
  have htracked := (h.extend hentry).concat (.op (.onStreamEstablished none)) rfl rfl
  rw [Follows, hperform]
  exact ⟨htracked, (h.always_append hentry).trans (by simp [Permits])⟩

theorem establish_follows (hquiet : Quiet c.toSession) (responses : List DiscoveryResponse) :
    Follows calls c (.op (.onStreamEstablished (some responses))) := by
  have hstub : c.stub = true := h.stub
  have hperform : c.perform (.op (.onStreamEstablished (some responses))) =
      { c with toSession := c.toSession.establish responses } := by
    simp [Client.perform, Ads.perform, hstub]
  obtain ⟨⟨part, hpart, hall⟩, hstatus⟩ := establish_carried hquiet responses
  obtain ⟨hopened, hiff⟩ := h.obtain_stream (s := c.toState) rfl
    (.op (.onStreamEstablished (some responses))) rfl rfl
  rw [Follows, hperform, hpart, hstatus]
  exact ⟨hopened.extend hall, (hopened.always_append hall).trans hiff⟩

theorem shutdown_follows : Follows calls c (.op .shutdown) := by
  cases hstream : c.stream with
  | none =>
    have hperform : c.perform (.op .shutdown) =
        { c with history := ⟨.nullCall, c.toState⟩ :: c.history, shutdown := true } := by
      simp [Client.perform, Ads.perform, Ads.shutdown, Session.endStream, hstream, Session.log]
    have hhas : hasStream calls = false := by
      rw [← h.present]
      simp [State.status, hstream]
    rw [Follows, hperform]
    exact ⟨h.null_call rfl rfl _ (Bool.or_true _), by simp [Permitted, Permits, hhas]⟩
  | some responses =>
    have hperform : c.perform (.op .shutdown) =
        { c with
          history := ⟨.finish, c.toState⟩ :: ⟨.writesDone, c.toState⟩ :: c.history
          shutdown := true } := by
      simp [Client.perform, Ads.perform, Ads.shutdown, Session.endStream, hstream, Session.log]
    rw [Follows, hperform]
    exact h.end_stream (by simp [State.status, hstream])

theorem Tracked.follows (hquiet : Quiet c.toSession) (call : Call) : Follows calls c call := by
  cases call with
  | queueDiscoveryRequest typeUrl => exact steady_follows h rfl
  | continueChat => exact continueChat_follows h
  | op op =>
    cases op with
    | onStreamEstablished outcome =>
      cases outcome with
      | none => exact openFailed_follows h
      | some responses => exact establish_follows h hquiet responses
    | shutdown => exact shutdown_follows h
    | _ => exact steady_follows h rfl

end Step

/-! ## Every run -/

theorem ClientRun.tracked {calls : List Call} {c : Client} (h : ClientRun calls c) :
    Tracked calls c.history c.status := by
  induction h with
  | start => exact ⟨rfl, rfl, rfl, rfl, by simp [construct], by simp [construct, State.status]⟩
  | call fuel hrun hexec ih =>
    rw [Client.exec_eq_some hrun.quiet.calm hexec]
    exact (ih.follows hrun.quiet _).1

/-- The rules are kept exactly when a stream is obtained at most once, and `shutdown` and
`continueChat` are called only while there is a stream and before any shutdown. -/
theorem run_stream_discipline_iff (calls : List Call) (c : Client) (hrun : ClientRun calls c) :
    Always Permitted c.history ↔
      ∀ before call after, calls = before ++ call :: after → Permits before call := by
  induction hrun with
  | start => simp [construct]
  | call fuel hrun hexec ih =>
    rw [Client.exec_eq_some hrun.quiet.calm hexec, (hrun.tracked.follows hrun.quiet _).2, ih,
      forall_split_concat]

/-- One stream, a request on it and a shutdown. -/
theorem run_stream_discipline_iff_one_stream :
    ∃ c, ClientRun [.op (.onStreamEstablished (some [])), .continueChat, .op .shutdown] c ∧
      Always Permitted c.history := by
  have hrun := ((ClientRun.start.exists_call (.op (.onStreamEstablished (some [])))).exists_call
    .continueChat).exists_call (.op .shutdown)
  refine ⟨_, hrun, (run_stream_discipline_iff _ _ hrun).mpr ?_⟩
  simp only [forall_split_concat]
  simp [Permits, hasStream, Call.present, Call.obtains, Call.isShutdown]

/-- A client that is shut down before it has a stream follows a null pointer; one that
reconnects after a shutdown opens its second stream with the context of the first. -/
theorem shutdown_and_reconnect_break_rules :
    (∃ c, ClientRun [.op .shutdown] c ∧ ¬ Always Permitted c.history) ∧
      ∃ c, ClientRun [.op (.onStreamEstablished (some [])), .op .shutdown,
        .op (.onStreamEstablished (some []))] c ∧ ¬ Always Permitted c.history := by
  have hopen := ClientRun.start.exists_call (.op (.onStreamEstablished (some [])))
  have hdown := hopen.exists_call (.op .shutdown)
  constructor
  · refine ⟨_, ClientRun.start.exists_call (.op .shutdown), ?_⟩
    rw [(ClientRun.start.tracked.follows ClientRun.start.quiet _).2]
    simp [Permits, hasStream]
  · refine ⟨_, hdown.exists_call (.op (.onStreamEstablished (some []))), ?_⟩
    rw [(hdown.tracked.follows hdown.quiet _).2]
    simp [Permits, Call.obtains]

end XdsClient.Ads
