import XdsClient.Ads.Invariants

/-! # A request from its push to its pop

As long as no response calls for an answer, a request is one turn: its type is pushed,
sent once, and popped after the send has returned. Between two turns nothing touches the
queue. The rule at the end is for what turns keep; what it leaves open is a new stream
that delivers a response to be answered.
-/
namespace XdsClient.Ads
open Library

/-- A response was read that calls for an answer. -/
def Entry.answered (e : Entry) : Bool :=
  match e.event with
  | .read (some message) => e.state.callsForAnswer message
  | _ => false

theorem forall_answered_iff (history : List Entry) :
    (∀ e ∈ history, e.answered = false) ↔ ∀ later message state earlier,
      history = later ++ ⟨.read (some message), state⟩ :: earlier →
        state.callsForAnswer message = false := by
  constructor
  · intro hnone later message state earlier hsplit
    exact hnone ⟨.read (some message), state⟩ (by simp [hsplit])
  · intro hnone e he
    rcases List.append_of_mem he with ⟨later, earlier, hsplit⟩
    rcases e with ⟨event, state⟩
    cases event with
    | read result =>
      cases result with
      | none => rfl
      | some message => exact hnone later message state earlier hsplit
    | _ => rfl

def Event.idle : Event → Bool
  | .push _ => false
  | .pop => false
  | .send _ => false
  | .sent _ => false
  | _ => true

/-- The entries of one request during which nothing is answered. -/
structure Turn (typeUrl : String) (popped sent : Entry) (part : List Entry) (passed pushed : Entry) :
    Prop where
  pop : popped.event = .pop
  queue : popped.state.queue = [typeUrl]
  ends : sent.event = .sent typeUrl
  between : ∀ e ∈ part, e.event.idle = true ∧ e.answered = false
  begins : passed.event = .send typeUrl
  push : pushed.event = .push typeUrl

theorem Turn.answered_iff {typeUrl : String} {part past : List Entry}
    {popped sent passed pushed : Entry} (h : Turn typeUrl popped sent part passed pushed) :
    (∀ e ∈ popped :: sent :: (part ++ passed :: pushed :: past), e.answered = false) ↔
      ∀ e ∈ past, e.answered = false := by
  constructor
  · exact fun hall e he => hall e (by simp [he])
  · intro hall e he
    simp only [List.mem_cons, List.mem_append] at he
    rcases he with rfl | rfl | he | rfl | rfl | he
    · simp [Entry.answered, h.pop]
    · simp [Entry.answered, h.ends]
    · exact (h.between e he).2
    · simp [Entry.answered, h.begins]
    · simp [Entry.answered, h.push]
    · exact hall e he

namespace Session

theorem absorb_of_answered_eq_zero (front : String) (responses : List DiscoveryResponse)
    (s : Session) (hzero : answered front responses s = 0) :
    (absorb front responses s).requestQueue = s.requestQueue ∧
      ∃ part, (absorb front responses s).history = part ++ s.history ∧
        ∀ e ∈ part, e.event.idle = true ∧ e.answered = false := by
  induction responses generalizing s with
  | nil => exact ⟨rfl, [], rfl, by simp⟩
  | cons message rest ih =>
    unfold answered at hzero
    unfold absorb
    split_ifs at hzero ⊢ with hcalls
    · rcases ih (s.receive message rest) hzero with ⟨hqueue, part, hpart, hall⟩
      rw [receive_history] at hpart
      refine ⟨by simpa using hqueue, part ++ [_, _], by rw [hpart, List.append_assoc]; rfl,
        fun e he => ?_⟩
      simp only [List.mem_append, List.mem_cons, List.not_mem_nil, or_false] at he
      rcases he with he | rfl | rfl
      · exact hall e he
      · exact ⟨rfl, rfl⟩
      · exact ⟨rfl, by simpa [Entry.answered] using hcalls⟩

theorem absorb_of_answered_ne_zero (front : String) (responses : List DiscoveryResponse)
    (s : Session) (hstream : s.stream = some responses) (hsome : answered front responses s ≠ 0) :
    ∃ e ∈ (absorb front responses s).history, e.answered = true := by
  induction responses generalizing s with
  | nil => simp [answered] at hsome
  | cons message rest ih =>
    unfold answered at hsome
    unfold absorb
    split_ifs at hsome ⊢ with hcalls
    · rcases absorb_history front rest
        (((s.receive message rest).emplace message.typeUrl).beginSend front) (by simp)
        with ⟨gap, hgap, _⟩
      refine ⟨⟨.read (some message), s.toState⟩, ?_, hcalls⟩
      rw [hgap, beginSend_history _ front (by simp), emplace_history, log_history, receive_history]
      simp
    · exact ih (s.receive message rest) (by simp) hsome

theorem settle_history (s : Session) (front : String) (h : s.queue.tail = []) :
    (s.settle front).history =
      ⟨.pop, s.toState⟩ :: ⟨.sent front, s.toState⟩ :: s.history := by
  have hnext : ((s.log (.sent front)).pop).queue = [] := by
    rw [pop_queue]
    exact h
  unfold settle
  rw [hnext]
  rfl

/-- A request during which no response is answered is one turn. -/
theorem request_turn {s : Session} {responses : List DiscoveryResponse}
    (hstream : s.stream = some responses) (hqueue : s.requestQueue = some []) (typeUrl : String)
    (hzero : s.shutdown = true ∨
      answered typeUrl responses (((s.apiStateFor typeUrl).emplace typeUrl).beginSend typeUrl) = 0) :
    ∃ popped sent part passed pushed, Turn typeUrl popped sent part passed pushed ∧
      (s.request typeUrl).history = popped :: sent :: (part ++ passed :: pushed :: s.history) := by
  have hpast : (s.apiStateFor typeUrl).history = s.history := by
    rw [apiStateFor_eq_modifyApi]
    rfl
  have hqueued : ((s.apiStateFor typeUrl).emplace typeUrl).queue = [typeUrl] := by
    simp [State.queue, hqueue]
  rw [request_of_empty s typeUrl responses hstream hqueue]
  split_ifs with hdown
  · have hdown' : ((s.apiStateFor typeUrl).emplace typeUrl).shutdown = true := by simpa using hdown
    have hflush : (flush [typeUrl] ((s.apiStateFor typeUrl).emplace typeUrl)).history =
        ⟨.pop, ((s.apiStateFor typeUrl).emplace typeUrl).toState⟩ ::
          ⟨.sent typeUrl, ((s.apiStateFor typeUrl).emplace typeUrl).toState⟩ ::
          ([] ++ ⟨.send typeUrl, ((s.apiStateFor typeUrl).emplace typeUrl).toState⟩ ::
            ⟨.push typeUrl, (s.apiStateFor typeUrl).toState⟩ :: s.history) := by
      unfold flush flush deliver
      rw [if_pos hdown', ← hpast]
      rfl
    exact ⟨_, _, _, _, _, ⟨rfl, hqueued, rfl, by simp, rfl, rfl⟩, hflush⟩
  · have hnone := hzero.resolve_left hdown
    rcases absorb_of_answered_eq_zero typeUrl responses _ hnone with ⟨habsorbed, part, hpart, hall⟩
    have hfront : ((absorb typeUrl responses (((s.apiStateFor typeUrl).emplace
        typeUrl).beginSend typeUrl)).log (.read none)).queue = [typeUrl] := by
      rw [log_toState, State.queue, habsorbed]
      simpa [State.queue] using hqueued
    rw [serve_eq, hnone, Function.iterate_zero_apply, settle_history _ _ (by rw [hfront]; rfl),
      log_history, hpart, beginSend_history _ _ (by simp [hstream]), emplace_history, log_history,
      hpast]
    rw [← List.cons_append, List.append_cons]
    refine ⟨_, _, _, _, _, ⟨rfl, hfront, rfl, fun e he => ?_, rfl, rfl⟩, rfl⟩
    simp only [List.mem_append, List.mem_cons, List.not_mem_nil, or_false] at he
    rcases he with (rfl | he) | rfl
    · exact ⟨rfl, rfl⟩
    · exact hall e he
    · exact ⟨rfl, rfl⟩

theorem Quiet.request_turn {s : Session} (hs : Quiet s) (hstream : s.stream.isSome = true)
    (typeUrl : String) :
    ∃ popped sent part passed pushed, Turn typeUrl popped sent part passed pushed ∧
      (s.request typeUrl).history = popped :: sent :: (part ++ passed :: pushed :: s.history) := by
  rcases Option.isSome_iff_exists.mp hstream with ⟨responses, hresponses⟩
  apply Session.request_turn hresponses (hs.allocated hstream)
  rcases hs.ended with hdown | hnone | hend
  · exact Or.inl hdown
  · simp [hnone] at hresponses
  · rw [hend, Option.some.injEq] at hresponses
    rw [← hresponses]
    exact Or.inr rfl

/-! ## Streams with answers -/

theorem suffix_history_stable (past : List Entry) : Stable fun s => past <:+ s.history := by
  have hcons (e : Entry) {h : List Entry} (hsuffix : past <:+ h) : past <:+ e :: h :=
    hsuffix.trans (List.suffix_cons e h)
  constructor
  · exact fun s h => hcons _ h
  · intro s message rest _ _ h
    rw [receive_history]
    exact hcons _ (hcons _ h)
  · exact fun s t _ _ h => hcons _ h
  · intro s t rest hstream _ _ h
    rw [beginSend_history s t hstream]
    exact hcons _ (hcons _ h)
  · exact fun s t _ h => hcons _ h
  · exact fun s t h => hcons _ h
  · exact fun s h => hcons _ h

/-- The end of the first phase of a new stream is in its past. -/
theorem openStream_request_suffix (s : Session) (responses : List DiscoveryResponse)
    (hdown : s.shutdown = false) :
    (absorb clusterTypeUrl responses (s.firstRequest responses)).history <:+
      ((s.openStream responses).request clusterTypeUrl).history :=
  (suffix_history_stable _).openStream_request_of_absorb s responses hdown (List.suffix_cons _ _)

/-! ## The rule -/

section Rule
variable {P : List Entry → Prop}
  (idle : ∀ e past, e.event.idle = true → e.answered = false → P past → P (e :: past))
  (turn : ∀ typeUrl popped sent part passed pushed past,
    Turn typeUrl popped sent part passed pushed → P past →
    P (popped :: sent :: (part ++ passed :: pushed :: past)))
  (nested : ∀ (s : Session) responses, s.shutdown = false →
    answered clusterTypeUrl responses (s.firstRequest responses) ≠ 0 → P s.history →
    P ((s.openStream responses).request clusterTypeUrl).history)
include idle

theorem callSteps_of_idle : CallSteps fun s => P s.history := by
  apply CallSteps.of_history
  · intro s s' h hhistory _ _
    rwa [hhistory]
  · intro s event hevent h
    apply idle _ _ _ _ h
    · cases event <;> first | rfl | simp [Event.ofCall] at hevent
    · cases event <;> first | rfl | simp [Event.ofCall] at hevent
  · exact fun s h => idle _ _ rfl rfl h
  · exact fun s h => h

include turn nested

/-- What single entries and turns keep lasts if it survives the streams on which responses
are answered. -/
theorem lasting_of_turns : Lasting fun s => P s.history where
  toCallSteps := callSteps_of_idle idle
  request := fun s typeUrl hs _ h => by
    cases hstream : s.stream with
    | none => simpa [request, hstream] using h
    | some responses =>
      rcases hs.request_turn (by simp [hstream]) typeUrl with ⟨_, _, _, _, _, hturn, hhistory⟩
      rw [hhistory]
      exact turn _ _ _ _ _ _ _ hturn h
  openStream := fun s responses _ h => by
    have hopen : P (s.openStream responses).history := idle _ _ rfl rfl h
    have hunanswered (hzero : (s.openStream responses).shutdown = true ∨
        answered clusterTypeUrl responses (s.firstRequest responses) = 0) :
        P ((s.openStream responses).request clusterTypeUrl).history := by
      rcases Session.request_turn rfl rfl clusterTypeUrl hzero with ⟨_, _, _, _, _, hturn, hhistory⟩
      rw [hhistory]
      exact turn _ _ _ _ _ _ _ hturn hopen
    cases hdown : s.shutdown with
    | true => exact hunanswered (Or.inl hdown)
    | false =>
      by_cases hzero : answered clusterTypeUrl responses (s.firstRequest responses) = 0
      · exact hunanswered (Or.inr hzero)
      · exact nested s responses hdown hzero h

end Rule
end Session
end XdsClient.Ads
