import XdsClient.Ads.Turns

/-! # How deep the sends nest

Every answered response opens another send inside the one that read it, and none of them
returns before the stream ends. The depth of the nesting is one more than the number of
answered responses, so that at most one send is open at a time exactly if no response is
answered.
-/
namespace XdsClient.Ads
open Library

/-- The activations of `sendDiscoveryRequest` that have not returned. -/
def openSends : List Entry → ℕ
  | [] => 0
  | e :: earlier =>
    match e.event with
    | .send _ => openSends earlier + 1
    | .sent _ => openSends earlier - 1
    | _ => openSends earlier

/-- At no moment was more than one send open. -/
def SingleSend (history : List Entry) : Prop := ∀ past, past <:+ history → openSends past ≤ 1

theorem singleSend_cons_iff (e : Entry) (past : List Entry) :
    SingleSend (e :: past) ↔ openSends (e :: past) ≤ 1 ∧ SingleSend past := by
  constructor
  · exact fun h => ⟨h _ List.suffix_rfl,
      fun earlier hpast => h _ (hpast.trans (List.suffix_cons e past))⟩
  · rintro ⟨hnow, hpast⟩ earlier hsuffix
    rcases List.suffix_cons_iff.mp hsuffix with rfl | hsuffix
    · exact hnow
    · exact hpast earlier hsuffix

theorem openSends_idle {e : Entry} (h : e.event.idle = true) (past : List Entry) :
    openSends (e :: past) = openSends past := by
  rcases e with ⟨event, state⟩
  cases event <;> first | rfl | simp [Event.idle] at h

theorem openSends_idle_append {part : List Entry} (h : ∀ e ∈ part, e.event.idle = true)
    (past : List Entry) : openSends (part ++ past) = openSends past := by
  induction part with
  | nil => rfl
  | cons e part ih =>
    rw [List.cons_append, openSends_idle (h e List.mem_cons_self)]
    exact ih fun a ha => h a (List.mem_cons_of_mem e ha)

theorem singleSend_idle_append {part past : List Entry} (h : ∀ e ∈ part, e.event.idle = true) :
    SingleSend (part ++ past) ↔ SingleSend past := by
  induction part with
  | nil => rfl
  | cons e part ih =>
    have hpart : ∀ a ∈ part, a.event.idle = true := fun a ha => h a (List.mem_cons_of_mem e ha)
    rw [List.cons_append, singleSend_cons_iff, ih hpart, openSends_idle (h e List.mem_cons_self),
      openSends_idle_append hpart]
    exact and_iff_right_of_imp fun hpast => hpast _ List.suffix_rfl

namespace Turn
variable {typeUrl : String} {part past : List Entry} {popped sent passed pushed : Entry}
  (h : Turn typeUrl popped sent part passed pushed)
include h

theorem openSends_eq :
    openSends (popped :: sent :: (part ++ passed :: pushed :: past)) = openSends past := by
  have hpart := openSends_idle_append (fun e he => (h.between e he).1) (passed :: pushed :: past)
  simp only [openSends, h.pop, h.ends, hpart, h.begins, h.push]
  omega

theorem singleSend_iff (hpast : openSends past = 0) :
    SingleSend (popped :: sent :: (part ++ passed :: pushed :: past)) ↔ SingleSend past := by
  have hidle : ∀ e ∈ part, e.event.idle = true := fun e he => (h.between e he).1
  have hopen : openSends (passed :: pushed :: past) = 1 := by
    simp [openSends, h.begins, h.push, hpast]
  have hdone : openSends (sent :: (part ++ passed :: pushed :: past)) = 0 := by
    simp [openSends, h.ends, openSends_idle_append hidle, h.begins, h.push, hpast]
  have hwhole : openSends (popped :: sent :: (part ++ passed :: pushed :: past)) = 0 := by
    rw [h.openSends_eq, hpast]
  have hpushed : openSends (pushed :: past) = 0 := by
    simp [openSends, h.push, hpast]
  rw [singleSend_cons_iff, singleSend_cons_iff, singleSend_idle_append hidle, singleSend_cons_iff,
    singleSend_cons_iff, hwhole, hdone, hopen, hpushed]
  simp

end Turn

namespace Session

/-! ## The depth during a drain -/

theorem beginSend_openSends (s : Session) (typeUrl : String) (h : s.stream.isSome = true) :
    openSends (s.beginSend typeUrl).history = openSends s.history + 1 := by
  rw [beginSend_history s typeUrl h]
  rfl

theorem deliver_openSends (s : Session) (typeUrl : String) (h : s.stream.isSome = true) :
    openSends (s.deliver typeUrl).history = openSends s.history := by
  unfold deliver
  split_ifs
  · rfl
  · have hbegun := beginSend_openSends s typeUrl h
    simp only [log_history, openSends, hbegun]
    omega

theorem flush_openSends (q : List String) (s : Session) (h : s.stream.isSome = true) :
    openSends (flush q s).history = openSends s.history := by
  induction q generalizing s with
  | nil => rfl
  | cons typeUrl q ih =>
    rw [flush, ih _ (by simpa using h)]
    exact deliver_openSends s typeUrl h

theorem settle_openSends (s : Session) (front : String) (h : s.stream.isSome = true) :
    openSends (s.settle front).history = openSends s.history - 1 := by
  unfold settle
  rw [flush_openSends _ _ (by simpa using h)]
  rfl

/-- What a read loop opens it closes again. -/
theorem serve_openSends (front : String) (responses : List DiscoveryResponse) (s : Session)
    (h : s.stream = some responses) :
    openSends (serve front responses s).history = openSends s.history := by
  induction responses generalizing s with
  | nil => rfl
  | cons message rest ih =>
    unfold serve
    split_ifs
    · have hinner := ih (((s.receive message rest).emplace message.typeUrl).beginSend front) (by simp)
      rw [beginSend_openSends _ front (by simp)] at hinner
      have hsettled := settle_openSends (serve front rest
        (((s.receive message rest).emplace message.typeUrl).beginSend front)) front
        (by rw [serve_stream _ _ _ (by simp)]; rfl)
      rw [hinner] at hsettled
      exact hsettled
    · exact ih _ (by simp)

/-- At the end of the first phase every answered response has left a send open. -/
theorem absorb_openSends (front : String) (responses : List DiscoveryResponse) (s : Session)
    (h : s.stream = some responses) :
    openSends (absorb front responses s).history =
      openSends s.history + answered front responses s := by
  induction responses generalizing s with
  | nil => rfl
  | cons message rest ih =>
    unfold absorb answered
    split_ifs
    · rw [ih _ (by simp), beginSend_openSends _ front (by simp)]
      have hsame : openSends ((s.receive message rest).emplace message.typeUrl).history =
          openSends s.history := rfl
      omega
    · rw [ih _ (by simp)]
      rfl

theorem firstRequest_openSends (s : Session) (responses : List DiscoveryResponse) :
    openSends (s.firstRequest responses).history = openSends s.history + 1 := by
  rw [firstRequest_history]
  rfl

/-! ## Between calls -/

/-- Every send has returned, and at most one was open at a time exactly if no response called
for an answer. -/
def Unnested (history : List Entry) : Prop :=
  openSends history = 0 ∧ (SingleSend history ↔ ∀ e ∈ history, e.answered = false)

theorem unnested_cons {e : Entry} {past : List Entry} (hidle : e.event.idle = true)
    (hanswered : e.answered = false) (h : Unnested past) : Unnested (e :: past) := by
  have hopen : openSends (e :: past) = 0 := by rw [openSends_idle hidle, h.1]
  refine ⟨hopen, ?_⟩
  rw [singleSend_cons_iff, hopen, h.2]
  simp [hanswered]

/-- A stream on which a response is answered: two sends are open at the end of its first phase. -/
theorem unnested_openStream {s : Session} {responses : List DiscoveryResponse}
    (hdown : s.shutdown = false)
    (hsome : answered clusterTypeUrl responses (s.firstRequest responses) ≠ 0)
    (h : Unnested s.history) :
    Unnested ((s.openStream responses).request clusterTypeUrl).history := by
  have hstream := firstRequest_stream s responses
  have hsuffix := openStream_request_suffix s responses hdown
  have hdeep := absorb_openSends clusterTypeUrl responses _ hstream
  rw [firstRequest_openSends, h.1] at hdeep
  constructor
  · have hserved := serve_openSends clusterTypeUrl responses _ hstream
    rw [openStream_request_eq s responses hdown, settle_openSends _ _ (by
      rw [serve_stream _ _ _ hstream]; rfl), hserved, firstRequest_openSends, h.1]
  · constructor
    · intro hsingle
      have hone := hsingle _ hsuffix
      omega
    · intro hnone
      rcases absorb_of_answered_ne_zero _ _ _ hstream hsome with ⟨e, he, hanswered⟩
      simp [hnone e (hsuffix.mem he)] at hanswered

theorem unnested_lasting : Lasting fun s => Unnested s.history := by
  apply lasting_of_turns
  · exact fun e past hidle hanswered h => unnested_cons hidle hanswered h
  · intro typeUrl popped sent part passed pushed past hturn h
    refine ⟨hturn.openSends_eq.trans h.1, ?_⟩
    rw [hturn.singleSend_iff h.1, hturn.answered_iff]
    exact h.2
  · exact fun s responses hdown hsome h => unnested_openStream hdown hsome h

theorem unnested_construct (channel : Bool) : Unnested (construct channel).history :=
  ⟨rfl, by simp [construct, SingleSend, openSends]⟩

end Session
open Session

/-- In every run, at most one activation of `sendDiscoveryRequest` was open at every moment if and
only if no response read from a stream called for an answer. -/
theorem run_single_send_iff (channel : Bool) (calls : List Op) (s : Session)
    (hrun : Run channel calls s) :
    (∀ past, past <:+ s.history → openSends past ≤ 1) ↔ ∀ later message state earlier,
      s.history = later ++ ⟨.read (some message), state⟩ :: earlier →
        state.callsForAnswer message = false := by
  have h := unnested_lasting.run hrun (unnested_construct channel)
  exact h.2.trans (forall_answered_iff s.history)

/-- A stream that delivers nothing for a client with a watch. -/
theorem run_single_send_iff_silent_stream :
    ∃ s, Run true [.addWatch "E" ∅, .onStreamEstablished (some [])] s ∧
      (∃ past, past <:+ s.history ∧ openSends past = 1) ∧
      ∀ past, past <:+ s.history → openSends past ≤ 1 := by
  have hrun := performAll_run true [.addWatch "E" ∅, .onStreamEstablished (some [])]
  have hone : ((performAll (construct true) [.addWatch "E" ∅,
      .onStreamEstablished (some [])]).history.tails.any fun past => openSends past == 1) = true := by
    decide
  rcases List.any_eq_true.mp hone with ⟨past, hpast, hopen⟩
  have hnone : ∀ e ∈ (performAll (construct true) [.addWatch "E" ∅,
      .onStreamEstablished (some [])]).history, e.answered = false := by
    decide
  exact ⟨_, hrun, ⟨past, (List.mem_tails past _).mp hpast, by simpa using hopen⟩,
    (run_single_send_iff true _ _ hrun).mpr ((forall_answered_iff _).mp hnone)⟩

/-- Two answered responses: three sends are open at once. -/
theorem sends_nest_with_responses :
    ∃ s past, Run true [.onStreamEstablished (some [clusterPush, clusterPush])] s ∧
      past <:+ s.history ∧ openSends past = 3 := by
  have hdeep : ((performAll (construct true) [.onStreamEstablished
      (some [clusterPush, clusterPush])]).history.tails.any fun past => openSends past == 3) =
        true := by
    decide
  rcases List.any_eq_true.mp hdeep with ⟨past, hpast, hopen⟩
  exact ⟨_, past, performAll_run true _, (List.mem_tails past _).mp hpast, by simpa using hopen⟩

end XdsClient.Ads
