import XdsClient.Ads.Quiet

/-! # The two phases of a read loop

While the stream delivers responses the client only goes deeper: each answered response
opens another send of the type at the front of the queue, and nothing is popped. Once
`Read` has returned false it only comes back up: each level settles the queue and reads
false again. A new stream goes through both phases in its first request, and every
later request finds the stream at its end.
-/
namespace XdsClient.Ads
open Library

/-- What happens in the first phase while `front` is being sent. -/
def Event.Descends (front : String) : Event → Prop
  | .read (some _) => True
  | .response _ => True
  | .push _ => True
  | .send typeUrl => typeUrl = front
  | .write typeUrl _ => typeUrl = front
  | _ => False

theorem Event.Descends.isReadFalse_eq {front : String} {event : Event} (h : event.Descends front) :
    event.isReadFalse = false := by
  cases event with
  | read result =>
    cases result with
    | none => cases h
    | some message => rfl
  | _ => rfl

namespace Session

/-- The first phase, up to the point where `Read` returns false. -/
def absorb (front : String) : List DiscoveryResponse → Session → Session
  | [], s => s
  | message :: rest, s =>
    if s.callsForAnswer message then
      absorb front rest (((s.receive message rest).emplace message.typeUrl).beginSend front)
    else absorb front rest (s.receive message rest)

/-- How many sends are nested at the end of the first phase. -/
def answered (front : String) : List DiscoveryResponse → Session → ℕ
  | [], _ => 0
  | message :: rest, s =>
    if s.callsForAnswer message then
      answered front rest (((s.receive message rest).emplace message.typeUrl).beginSend front) + 1
    else answered front rest (s.receive message rest)

def unwind (front : String) (s : Session) : Session := (s.settle front).log (.read none)

theorem serve_eq (front : String) (responses : List DiscoveryResponse) (s : Session) :
    serve front responses s =
      (unwind front)^[answered front responses s] ((absorb front responses s).log (.read none)) := by
  induction responses generalizing s with
  | nil => rfl
  | cons message rest ih =>
    unfold serve answered absorb
    split_ifs
    · rw [ih, Function.iterate_succ_apply']
      rfl
    · exact ih _

theorem absorb_stream (front : String) (responses : List DiscoveryResponse) (s : Session)
    (h : s.stream = some responses) : (absorb front responses s).stream = some [] := by
  induction responses generalizing s with
  | nil => exact h
  | cons message rest ih =>
    unfold absorb
    split_ifs <;> exact ih _ (by simp)

@[simp] theorem absorb_shutdown (front : String) (responses : List DiscoveryResponse) (s : Session) :
    (absorb front responses s).shutdown = s.shutdown := by
  induction responses generalizing s with
  | nil => rfl
  | cons message rest ih =>
    unfold absorb
    split_ifs <;> simp [ih]

theorem absorb_history (front : String) (responses : List DiscoveryResponse) (s : Session)
    (h : s.stream = some responses) :
    ∃ gap, (absorb front responses s).history = gap ++ s.history ∧
      ∀ e ∈ gap, e.event.Descends front := by
  induction responses generalizing s with
  | nil => exact ⟨[], rfl, by simp⟩
  | cons message rest ih =>
    unfold absorb
    split_ifs
    · rcases ih (((s.receive message rest).emplace message.typeUrl).beginSend front) (by simp)
        with ⟨gap, hgap, hevents⟩
      rw [beginSend_history _ front (by simp)] at hgap
      refine ⟨gap ++ [_, _, _, _, _], by rw [hgap, List.append_assoc]; rfl, fun e he => ?_⟩
      simp only [List.mem_append, List.mem_cons, List.not_mem_nil, or_false] at he
      rcases he with he | rfl | rfl | rfl | rfl | rfl
      · exact hevents e he
      all_goals simp [Event.Descends]
    · rcases ih (s.receive message rest) (by simp) with ⟨gap, hgap, hevents⟩
      rw [receive_history] at hgap
      refine ⟨gap ++ [_, _], by rw [hgap, List.append_assoc]; rfl, fun e he => ?_⟩
      simp only [List.mem_append, List.mem_cons, List.not_mem_nil, or_false] at he
      rcases he with he | rfl | rfl
      · exact hevents e he
      all_goals simp [Event.Descends]

/-! ## The second phase -/

/-- The rule of the second phase: no obligation for a delivered response. -/
theorem stable_of_ended {P : Session → Prop}
    (readFalse : ∀ s, P s → P (s.log (.read none)))
    (emplace : ∀ s typeUrl, s.stream.isSome = true → s.known typeUrl = true → P s →
      P (s.emplace typeUrl))
    (beginSend : ∀ s typeUrl rest, s.stream.isSome = true → s.shutdown = false →
      s.queue = typeUrl :: rest → P s → P (s.beginSend typeUrl))
    (send : ∀ s typeUrl, s.shutdown = true → P s → P (s.log (.send typeUrl)))
    (sent : ∀ s typeUrl, P s → P (s.log (.sent typeUrl)))
    (pop : ∀ s, P s → P s.pop) : Stable fun s => P s ∧ Ended s.toState := by
  constructor
  · exact fun s h => ⟨readFalse s h.1, h.2⟩
  · exact fun s message rest hstream hdown h => (h.2.elim hstream hdown).elim
  · exact fun s t hstream hknown h => ⟨emplace s t hstream hknown h.1, h.2⟩
  · intro s t rest hstream hdown hqueue h
    refine ⟨beginSend s t rest hstream hdown hqueue h.1, ?_⟩
    unfold Ended
    rw [beginSend_shutdown, beginSend_stream]
    exact h.2
  · exact fun s t hdown h => ⟨send s t hdown h.1, h.2⟩
  · exact fun s t h => ⟨sent s t h.1, h.2⟩
  · exact fun s h => ⟨pop s h.1, h.2⟩

theorem Stable.unwind {P : Session → Prop} (hP : Stable P) (front : String) (n : ℕ) (s : Session)
    (hstream : s.stream.isSome = true) (h : P s) : P ((Session.unwind front)^[n] s) := by
  have hsome (n : ℕ) : ((Session.unwind front)^[n] s).stream = s.stream := by
    induction n with
    | zero => rfl
    | succ n ih =>
      rw [Function.iterate_succ_apply', ← ih]
      simp [Session.unwind]
  induction n with
  | zero => exact h
  | succ n ih =>
    rw [Function.iterate_succ_apply']
    exact hP.readFalse _ (hP.settle _ front (by rw [hsome n]; exact hstream) ih)

/-! ## A new stream -/

def firstQueued (s : Session) (responses : List DiscoveryResponse) : Session :=
  ((s.openStream responses).apiStateFor clusterTypeUrl).emplace clusterTypeUrl

def firstRequest (s : Session) (responses : List DiscoveryResponse) : Session :=
  (s.firstQueued responses).beginSend clusterTypeUrl

section First
variable (s : Session) (responses : List DiscoveryResponse)

@[simp] theorem firstRequest_stream : (s.firstRequest responses).stream = some responses := by
  simp [firstRequest, firstQueued, openStream]

@[simp] theorem firstRequest_requestQueue :
    (s.firstRequest responses).requestQueue = some [clusterTypeUrl] := by
  simp [firstRequest, firstQueued, openStream]

@[simp] theorem firstRequest_shutdown : (s.firstRequest responses).shutdown = s.shutdown := by
  simp [firstRequest, firstQueued, openStream]

theorem firstQueued_api (typeUrl : String) : (s.firstQueued responses).api typeUrl =
    { s.api typeUrl with request := { (s.api typeUrl).request with responseNonce := "" } } :=
  (apiStateFor_api (s.openStream responses) clusterTypeUrl typeUrl).trans
    (openStream_api s responses typeUrl)

theorem firstQueued_firstStreamRequest : (s.firstQueued responses).firstStreamRequest = true := by
  unfold firstQueued
  rw [apiStateFor_eq_modifyApi]
  rfl

theorem firstQueued_history : (s.firstQueued responses).history =
    ⟨.push clusterTypeUrl, ((s.openStream responses).apiStateFor clusterTypeUrl).toState⟩ ::
      ⟨.opened true, s.toState⟩ :: s.history := by
  simp only [firstQueued, emplace_history, apiStateFor_eq_modifyApi]
  rfl

theorem firstRequest_history : (s.firstRequest responses).history =
    ⟨.write clusterTypeUrl ((s.firstQueued responses).prepared clusterTypeUrl).request,
      (((s.firstQueued responses).log (.send clusterTypeUrl)).prepareRequest clusterTypeUrl).toState⟩ ::
      ⟨.send clusterTypeUrl, (s.firstQueued responses).toState⟩ ::
      ⟨.push clusterTypeUrl, ((s.openStream responses).apiStateFor clusterTypeUrl).toState⟩ ::
      ⟨.opened true, s.toState⟩ :: s.history := by
  unfold firstRequest
  rw [beginSend_history _ _ (by simp [firstQueued, openStream]), firstQueued_history]

theorem openStream_request_eq (hdown : s.shutdown = false) :
    (s.openStream responses).request clusterTypeUrl =
      (serve clusterTypeUrl responses (s.firstRequest responses)).settle clusterTypeUrl := by
  have hdown' : (s.openStream responses).shutdown = false := hdown
  rw [request_of_empty _ _ responses rfl rfl, if_neg (by simp [hdown'])]
  rfl

/-- What survives both phases need only hold after the first request. -/
theorem Stable.openStream_request {P : Session → Prop} (hP : Stable P) (hdown : s.shutdown = false)
    (h : P (s.firstRequest responses)) : P ((s.openStream responses).request clusterTypeUrl) := by
  rw [openStream_request_eq s responses hdown]
  apply hP.settle
  · rw [serve_stream _ _ _ (firstRequest_stream s responses)]
    rfl
  · exact hP.serve clusterTypeUrl responses _ [] (by simp) (by simp) (by simpa using hdown) h

/-- What survives the second phase need only hold after the first. -/
theorem Stable.openStream_request_of_absorb {P : Session → Prop} (hP : Stable P)
    (hdown : s.shutdown = false)
    (h : P ((absorb clusterTypeUrl responses (s.firstRequest responses)).log (.read none))) :
    P ((s.openStream responses).request clusterTypeUrl) := by
  have hstream := absorb_stream clusterTypeUrl responses _ (firstRequest_stream s responses)
  rw [openStream_request_eq s responses hdown]
  apply hP.settle
  · rw [serve_stream _ _ _ (firstRequest_stream s responses)]
    rfl
  · rw [serve_eq]
    apply hP.unwind
    · simp [hstream]
    · exact h

end First
end Session
end XdsClient.Ads
