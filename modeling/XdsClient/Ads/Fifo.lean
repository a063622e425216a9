import XdsClient.Ads.Turns

/-! # When the drain is a FIFO drain

As long as no response calls for an answer, every request is pushed, sent once and popped
after its send has returned. The first answered response breaks this for good: the
innermost drain leaves an empty queue behind, and the send that read the response is
still followed by a pop.
-/
namespace XdsClient.Ads
open Library

def Event.pushed? : Event → Option String
  | .push typeUrl => some typeUrl
  | _ => none

def Event.passed? : Event → Option String
  | .send typeUrl => some typeUrl
  | _ => none

/-- A pop takes off the element whose send has just returned. -/
def PopsSent (e : Entry) (earlier : List Entry) : Prop :=
  e.event = .pop → ∃ typeUrl rest state before,
    e.state.queue = typeUrl :: rest ∧ earlier = ⟨.sent typeUrl, state⟩ :: before

/-- What is pushed is passed to `sendDiscoveryRequest` once and in the same order, and every
pop takes off the element whose send has just returned. -/
structure FifoDrain (history : List Entry) : Prop where
  passed : history.filterMap (fun e => e.event.passed?) =
    history.filterMap fun e => e.event.pushed?
  popped : Always PopsSent history

def Event.offQueue : Event → Bool
  | .push _ => false
  | .pop => false
  | .send _ => false
  | _ => true

theorem Event.offQueue_of_idle {event : Event} (h : event.idle = true) : event.offQueue = true := by
  cases event <;> first | rfl | simp [Event.idle] at h

theorem fifoDrain_cons_iff {e : Entry} {past : List Entry} (h : e.event.offQueue = true) :
    FifoDrain (e :: past) ↔ FifoDrain past := by
  have hpassed : e.event.passed? = none := by
    cases hevent : e.event <;> simp_all [Event.offQueue, Event.passed?]
  have hpushed : e.event.pushed? = none := by
    cases hevent : e.event <;> simp_all [Event.offQueue, Event.pushed?]
  have hpop : e.event ≠ .pop := by
    intro hevent
    simp [hevent, Event.offQueue] at h
  constructor
  · rintro ⟨hp, hq⟩
    exact ⟨by simpa [hpassed, hpushed] using hp, hq.2⟩
  · rintro ⟨hp, hq⟩
    exact ⟨by simpa [hpassed, hpushed] using hp, fun he => absurd he hpop, hq⟩

theorem fifoDrain_append_iff {part past : List Entry} (h : ∀ e ∈ part, e.event.offQueue = true) :
    FifoDrain (part ++ past) ↔ FifoDrain past := by
  induction part with
  | nil => rfl
  | cons e part ih =>
    rw [List.cons_append, fifoDrain_cons_iff (h e List.mem_cons_self)]
    exact ih fun a ha => h a (List.mem_cons_of_mem e ha)

theorem fifoDrain_turn_iff {typeUrl : String} {part past : List Entry}
    {popped sent passed pushed : Entry} (h : Turn typeUrl popped sent part passed pushed) :
    FifoDrain (popped :: sent :: (part ++ passed :: pushed :: past)) ↔ FifoDrain past := by
  have hstart : FifoDrain (passed :: pushed :: past) ↔ FifoDrain past := by
    constructor
    · rintro ⟨hp, _, _, hq⟩
      exact ⟨by simpa [h.begins, h.push, Event.passed?, Event.pushed?] using hp, hq⟩
    · rintro ⟨hp, hq⟩
      exact ⟨by simpa [h.begins, h.push, Event.passed?, Event.pushed?] using hp,
        fun he => by simp [h.begins] at he, fun he => by simp [h.push] at he, hq⟩
  have hrest : FifoDrain (sent :: (part ++ passed :: pushed :: past)) ↔ FifoDrain past := by
    rw [fifoDrain_cons_iff (by simp [h.ends, Event.offQueue]),
      fifoDrain_append_iff (fun e he => Event.offQueue_of_idle (h.between e he).1), hstart]
  rw [← hrest]
  have hpop : PopsSent popped (sent :: (part ++ passed :: pushed :: past)) :=
    fun _ => ⟨typeUrl, [], sent.state, _, h.queue, by rw [← h.ends]⟩
  constructor
  · rintro ⟨hp, hq⟩
    exact ⟨by simpa [h.pop, Event.passed?, Event.pushed?] using hp, hq.2⟩
  · rintro ⟨hp, hq⟩
    exact ⟨by simpa [h.pop, Event.passed?, Event.pushed?] using hp, hpop, hq⟩

theorem FifoDrain.queue_ne_nil {history : List Entry} (h : FifoDrain history) {e : Entry}
    (he : e ∈ history) (hpop : e.event = .pop) : e.state.queue ≠ [] := by
  rcases List.append_of_mem he with ⟨later, earlier, hsplit⟩
  rcases (always_iff_forall_split _ _).mp h.popped later e earlier hsplit hpop
    with ⟨typeUrl, rest, _, _, hqueue, _⟩
  simp [hqueue]

/-- The drains so far were FIFO drains exactly if no response called for an answer. -/
def Explained (history : List Entry) : Prop :=
  FifoDrain history ↔ ∀ e ∈ history, e.answered = false

theorem explained_cons_iff {e : Entry} {past : List Entry} (h : e.event.offQueue = true)
    (hanswered : e.answered = false) : Explained (e :: past) ↔ Explained past := by
  unfold Explained
  rw [fifoDrain_cons_iff h]
  simp [hanswered]

theorem explained_turn_iff {typeUrl : String} {part past : List Entry}
    {popped sent passed pushed : Entry} (h : Turn typeUrl popped sent part passed pushed) :
    Explained (popped :: sent :: (part ++ passed :: pushed :: past)) ↔ Explained past := by
  unfold Explained
  rw [fifoDrain_turn_iff h, h.answered_iff]

/-- An answered response together with a pop of an empty queue. -/
theorem explained_of_empty_pop {history : List Entry} {a e : Entry} (ha : a ∈ history)
    (hanswered : a.answered = true) (he : e ∈ history) (hpop : e.event = .pop)
    (hqueue : e.state.queue = []) : Explained history := by
  constructor
  · exact fun h => absurd hqueue (h.queue_ne_nil he hpop)
  · intro hnone
    simp [hnone a ha] at hanswered

namespace Session

/-! ## Streams with answers -/

theorem settle_queue (s : Session) (front : String) : (s.settle front).queue = [] :=
  flush_queue _ _ rfl

theorem iterate_unwind_queue (front : String) (n : ℕ) (s : Session) :
    ((unwind front)^[n + 1] s).queue = [] := by
  rw [Function.iterate_succ_apply']
  exact settle_queue _ front

theorem explained_openStream_of_answered {s : Session} {responses : List DiscoveryResponse}
    (hdown : s.shutdown = false)
    (hsome : answered clusterTypeUrl responses (s.firstRequest responses) ≠ 0) :
    Explained ((s.openStream responses).request clusterTypeUrl).history := by
  have hstream := firstRequest_stream s responses
  rcases Nat.exists_eq_succ_of_ne_zero hsome with ⟨n, hn⟩
  rcases absorb_of_answered_ne_zero _ _ _ hstream hsome with ⟨a, ha, hanswered⟩
  have hempty : (serve clusterTypeUrl responses (s.firstRequest responses)).queue = [] := by
    rw [serve_eq, hn]
    exact iterate_unwind_queue _ _ _
  have hmem : a ∈ ((s.openStream responses).request clusterTypeUrl).history :=
    (openStream_request_suffix s responses hdown).mem ha
  rw [openStream_request_eq s responses hdown, settle_history _ _ (by rw [hempty]; rfl)] at hmem ⊢
  exact explained_of_empty_pop hmem hanswered List.mem_cons_self rfl hempty

theorem explained_lasting : Lasting fun s => Explained s.history := by
  apply lasting_of_turns
  · exact fun e past hidle hanswered h =>
      (explained_cons_iff (Event.offQueue_of_idle hidle) hanswered).mpr h
  · exact fun _ _ _ _ _ _ past hturn h => (explained_turn_iff hturn).mpr h
  · exact fun s responses hdown hsome _ => explained_openStream_of_answered hdown hsome

theorem explained_construct (channel : Bool) : Explained (construct channel).history := by
  constructor
  · simp [construct]
  · exact fun _ => ⟨rfl, trivial⟩

end Session
open Session

/-- In every run, the queue was drained first in, first out, if and only if no response read
from a stream called for an answer. -/
theorem run_fifo_drain_iff (channel : Bool) (calls : List Op) (s : Session)
    (hrun : Run channel calls s) :
    FifoDrain s.history ↔ ∀ later message state earlier,
      s.history = later ++ ⟨.read (some message), state⟩ :: earlier →
        state.callsForAnswer message = false := by
  have h := explained_lasting.run hrun (explained_construct channel)
  exact h.trans (forall_answered_iff s.history)

/-- Two watches on a stream that delivers nothing. -/
theorem run_fifo_drain_iff_silent_stream :
    ∃ s, Run true [.addWatch "E" ∅, .onStreamEstablished (some []), .addWatch "F" ∅] s ∧
      (s.history.filterMap fun e => e.event.pushed?) =
        ["F", clusterTypeUrl, "E", clusterTypeUrl] ∧ FifoDrain s.history := by
  have hrun := performAll_run true [.addWatch "E" ∅, .onStreamEstablished (some []), .addWatch "F" ∅]
  have hnone : ∀ e ∈ (performAll (construct true) [.addWatch "E" ∅, .onStreamEstablished (some []),
      .addWatch "F" ∅]).history, e.answered = false := by
    decide
  exact ⟨_, hrun, by decide, (run_fifo_drain_iff true _ _ hrun).mpr ((forall_answered_iff _).mp hnone)⟩

/-- One answered response: the last pop of the drain finds the queue empty. -/
theorem drain_pops_empty_queue :
    ∃ s e, Run true [.onStreamEstablished (some [clusterPush])] s ∧ e ∈ s.history ∧
      e.event = .pop ∧ e.state.queue = [] ∧ ¬ FifoDrain s.history := by
  have hpop : somewhere (fun _ e _ => match e.event with
      | .pop => e.state.queue.isEmpty
      | _ => false) []
      (performAll (construct true) [.onStreamEstablished (some [clusterPush])]).history = true := by
    decide
  rcases exists_split_of_somewhere _ _ _ hpop with ⟨later, ⟨event, state⟩, earlier, hsplit, htest⟩
  cases event with
  | pop =>
    have hmem : ⟨.pop, state⟩ ∈
        (performAll (construct true) [.onStreamEstablished (some [clusterPush])]).history := by
      rw [List.nil_append] at hsplit
      simp [hsplit]
    have hqueue : state.queue = [] := by simpa using htest
    exact ⟨_, ⟨.pop, state⟩, performAll_run true _, hmem, rfl, hqueue,
      fun h => h.queue_ne_nil hmem rfl hqueue⟩
  | _ => simp at htest

end XdsClient.Ads
