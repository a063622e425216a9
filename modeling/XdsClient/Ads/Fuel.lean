import XdsClient.Ads.Settlement

/-! # The recursion always returns

More fuel never changes an answer of the client's functions, and with enough fuel
they give the answer of the settlement functions. The recursion ends because each
nested activation has one response less to read, and because a drain that reads
nothing shortens the queue at every turn.
-/
namespace XdsClient.Ads
open Library Session

/-! ## More fuel gives the same answer -/

private structure Extends (fuel : ℕ) : Prop where
  queue : ∀ t s a, queueDiscoveryRequest fuel t s = some a →
    queueDiscoveryRequest (fuel + 1) t s = some a
  drain : ∀ s a, drainRequests fuel s = some a → drainRequests (fuel + 1) s = some a
  send : ∀ t s a, sendDiscoveryRequest fuel t s = some a →
    sendDiscoveryRequest (fuel + 1) t s = some a
  read : ∀ s a, readResponses fuel s = some a → readResponses (fuel + 1) s = some a
  respond : ∀ m s a, onDiscoveryResponse fuel m s = some a →
    onDiscoveryResponse (fuel + 1) m s = some a

private theorem extends_all (fuel : ℕ) : Extends fuel := by
  induction fuel with
  | zero =>
    constructor <;> intros <;>
      simp_all [queueDiscoveryRequest, drainRequests, sendDiscoveryRequest, readResponses,
        onDiscoveryResponse]
  | succ fuel ih =>
    constructor
    · intro t s a h
      rw [queueDiscoveryRequest] at h ⊢
      cases hs : s.stream with
      | none => simpa [hs] using h
      | some rs =>
        simp only [hs] at h ⊢
        split_ifs at h ⊢ with hp
        · exact h
        · exact ih.drain _ _ h
    · intro s a h
      rw [drainRequests] at h ⊢
      cases hq : s.queue with
      | nil => simpa [hq] using h
      | cons front rest =>
        simp only [hq] at h ⊢
        rcases Option.bind_eq_some_iff.mp h with ⟨s', hsend, hdrain⟩
        exact Option.bind_eq_some_iff.mpr ⟨s', ih.send _ _ _ hsend, ih.drain _ _ hdrain⟩
    · intro t s a h
      rw [sendDiscoveryRequest] at h ⊢
      split_ifs at h ⊢ with hd
      · exact h
      · rcases Option.map_eq_some_iff.mp h with ⟨s', hread, rfl⟩
        exact Option.map_eq_some_iff.mpr ⟨s', ih.read _ _ hread, rfl⟩
    · intro s a h
      rw [readResponses] at h ⊢
      rcases hr : s.read with ⟨_ | message, s'⟩
      · simpa [hr] using h
      · simp only [hr] at h ⊢
        rcases Option.bind_eq_some_iff.mp h with ⟨s'', hresp, hread⟩
        exact Option.bind_eq_some_iff.mpr ⟨s'', ih.respond _ _ _ hresp, ih.read _ _ hread⟩
    · intro m s a h
      rw [onDiscoveryResponse_succ] at h ⊢
      split_ifs at h ⊢ with hc
      · exact ih.queue _ _ _ h
      · exact h

theorem queueDiscoveryRequest_fuelMonotone (typeUrl : String) (s : Session) :
    FuelMonotone fun fuel => queueDiscoveryRequest fuel typeUrl s :=
  fun fuel => (extends_all fuel).queue typeUrl s

theorem onDiscoveryResponse_fuelMonotone (message : DiscoveryResponse) (s : Session) :
    FuelMonotone fun fuel => onDiscoveryResponse fuel message s :=
  fun fuel => (extends_all fuel).respond message s

/-! ## Enough fuel gives an answer -/

theorem calm_stable : Stable fun s => s.Calm := by
  apply Stable.of_state
  · exact fun s q h => h
  · intro s message rest _ _ h t
    rw [receive_api]
    split_ifs
    · simpa using h t
    · exact h t
  · intro s t rest _ _ _ h u
    by_cases hu : u = t
    · subst hu
      rw [beginSend_api_self]
      exact ⟨(h u).1, rfl⟩
    · simpa [beginSend_api_of_ne s t hu] using h u

theorem readResponses_ended (s : Session) (h : s.stream = some []) :
    Converges (fun fuel => readResponses fuel s) (s.log (.read none)) := by
  apply Converges.call (g := fun _ => some (s.log (.read none)))
  · intro fuel
    simp [readResponses, Session.read, h]
  · exact Converges.const _

theorem sendDiscoveryRequest_ended (s : Session) (typeUrl : String)
    (h : s.shutdown = true ∨ s.stream = some []) :
    Converges (fun fuel => sendDiscoveryRequest fuel typeUrl s) (s.deliver typeUrl) := by
  cases hd : s.shutdown with
  | true =>
    apply Converges.call (g := fun _ => some (s.deliver typeUrl))
    · intro fuel
      simp [sendDiscoveryRequest, deliver, hd]
    · exact Converges.const _
  | false =>
    have hs : s.stream = some [] := by simpa [hd] using h
    have hread := readResponses_ended (s.beginSend typeUrl) (by simpa using hs)
    have hsend := hread.map fun s => s.log (.sent typeUrl)
    have hdeliver : s.deliver typeUrl =
        ((s.beginSend typeUrl).log (.read none)).log (.sent typeUrl) := by
      simp [deliver, hd]
    rw [hdeliver]
    apply Converges.call _ hsend
    intro fuel
    simp [sendDiscoveryRequest, beginSend, hd]

theorem drainRequests_ended (s : Session) (q : List String) (hq : s.queue = q)
    (h : s.shutdown = true ∨ s.stream = some []) :
    Converges (fun fuel => drainRequests fuel s) (flush q s) := by
  induction q generalizing s with
  | nil =>
    apply Converges.call (g := fun _ => some s)
    · intro fuel
      simp [drainRequests, hq]
    · exact Converges.const _
  | cons typeUrl q ih =>
    have hrest := ih (s.deliver typeUrl).pop (by rw [deliver_pop_queue, hq, List.tail_cons])
      (by simpa using h)
    have hturn := (sendDiscoveryRequest_ended s typeUrl h).bind
      (g := fun fuel s => drainRequests fuel s.pop) hrest
    apply Converges.call _ hturn
    intro fuel
    simp [drainRequests, hq]

theorem queueDiscoveryRequest_of_drain (s s' : Session) (typeUrl : String)
    (responses : List DiscoveryResponse) (hstream : s.stream = some responses) (hcalm : s.Calm)
    (h : Converges (fun fuel => drainRequests fuel ((s.apiStateFor typeUrl).emplace typeUrl)) s') :
    Converges (fun fuel => queueDiscoveryRequest fuel typeUrl s) s' := by
  apply Converges.call _ h
  intro fuel
  simp [queueDiscoveryRequest, hstream, ApiState.paused, (hcalm typeUrl).1]

/-- A drain whose front element is being sent: the send returns with `serve`, and the
rest of the queue is flushed. -/
theorem drainRequests_of_read (s : Session) (front : String) (q : List String)
    (responses : List DiscoveryResponse) (hstream : s.stream = some responses)
    (hqueue : s.requestQueue = some (front :: q)) (hdown : s.shutdown = false)
    (hread : Converges (fun fuel => readResponses fuel (s.beginSend front))
      (serve front responses (s.beginSend front))) :
    Converges (fun fuel => drainRequests fuel s)
      ((serve front responses (s.beginSend front)).settle front) := by
  have hsend : Converges (fun fuel => sendDiscoveryRequest fuel front s)
      ((serve front responses (s.beginSend front)).log (.sent front)) := by
    apply Converges.call _ (hread.map fun s => s.log (.sent front))
    intro fuel
    simp [sendDiscoveryRequest, beginSend, hdown]
  have hended := serve_stream (s.beginSend front) front responses (by simpa using hstream)
  have hrest := drainRequests_ended
    ((serve front responses (s.beginSend front)).log (.sent front)).pop _ rfl
    (Or.inr (by simpa using hended))
  apply Converges.call _ (hsend.bind (g := fun fuel s => drainRequests fuel s.pop) hrest)
  intro fuel
  simp [drainRequests, State.queue, hqueue]

/-- The read loop computes `serve`: induction on the responses still to be read. -/
theorem readResponses_converges (front : String) (responses : List DiscoveryResponse)
    (s : Session) (q : List String) (hstream : s.stream = some responses)
    (hqueue : s.requestQueue = some (front :: q)) (hdown : s.shutdown = false) (hcalm : s.Calm) :
    Converges (fun fuel => readResponses fuel s) (serve front responses s) := by
  induction responses generalizing s q with
  | nil => exact readResponses_ended s hstream
  | cons message rest ih =>
    have hreceived : (s.receive message rest).Calm :=
      calm_stable.receive s message rest hstream hdown hcalm
    have hturn (s' s'' : Session)
        (hresp : Converges (fun fuel => onDiscoveryResponse fuel message
          { s.log (.read (some message)) with stream := some rest }) s')
        (hnext : Converges (fun fuel => readResponses fuel s') s'') :
        Converges (fun fuel => readResponses fuel s) s'' := by
      apply Converges.call _ (hresp.bind (g := fun fuel s => readResponses fuel s) hnext)
      intro fuel
      simp [readResponses, Session.read, hstream]
    have hsame : State.callsForAnswer { s.toState with stream := some rest } message =
        s.callsForAnswer message := rfl
    cases hcalls : s.callsForAnswer message with
    | false =>
      simp only [serve, hcalls, Bool.false_eq_true, if_false]
      apply hturn (s.receive message rest)
      · apply Converges.call _ (Converges.const (s.receive message rest))
        intro fuel
        rw [onDiscoveryResponse_succ]
        simp [hsame, hcalls, receive]
      · exact ih _ q (by simp) (by simpa using hqueue) (by simpa using hdown) hreceived
    | true =>
      have hknown : (s.receive message rest).known message.typeUrl = true := by
        rw [receive_known]
        exact State.known_of_callsForAnswer hcalls
      have hpushed : ((s.receive message rest).emplace message.typeUrl).Calm := hreceived
      have hbegun := calm_stable.beginSend _ front (q ++ [message.typeUrl]) (by simp)
        (by simpa using hdown) (by simp [State.queue, hqueue]) hpushed
      have hread := ih (((s.receive message rest).emplace message.typeUrl).beginSend front)
        (q ++ [message.typeUrl]) (by simp) (by simp [hqueue]) (by simpa using hdown) hbegun
      have hdrain := drainRequests_of_read ((s.receive message rest).emplace message.typeUrl) front
        (q ++ [message.typeUrl]) rest (by simp) (by simp [hqueue]) (by simpa using hdown) hread
      have hqueued := queueDiscoveryRequest_of_drain (s.receive message rest) _ message.typeUrl rest
        (by simp) hreceived (by rw [apiStateFor_of_known _ _ hknown]; exact hdrain)
      simp only [serve, hcalls, if_true]
      apply hturn _ _ (Converges.call _ hqueued) (readResponses_ended _ _)
      · intro fuel
        rw [onDiscoveryResponse_succ]
        simp [hsame, hcalls, receive]
      · rw [settle_stream, serve_stream _ _ _ (by simp)]

theorem drainRequests_converges (s : Session) (responses : List DiscoveryResponse)
    (hstream : s.stream = some responses) (hcalm : s.Calm) :
    Converges (fun fuel => drainRequests fuel s) (s.drain responses) := by
  unfold drain
  split
  · rename_i hq
    apply Converges.call _ (Converges.const s)
    intro fuel
    simp [drainRequests, hq]
  · rename_i front q hq
    have hqueue : s.requestQueue = some (front :: q) := by
      cases hr : s.requestQueue <;> simp_all [State.queue]
    split_ifs with hdown
    · exact drainRequests_ended s _ hq (Or.inl hdown)
    · have hfalse : s.shutdown = false := by simpa using hdown
      apply drainRequests_of_read s front q responses hstream hqueue hfalse
      have hbegun := calm_stable.beginSend s front q (by simp [hstream]) hfalse hq hcalm
      exact readResponses_converges front responses _ q (by simpa using hstream)
        (by simpa using hqueue) (by simpa using hfalse) hbegun

theorem apiStateFor_calm (s : Session) (typeUrl : String) (hcalm : s.Calm) :
    (s.apiStateFor typeUrl).Calm := by
  intro t
  rw [apiStateFor_api]
  exact hcalm t

theorem queueDiscoveryRequest_converges (s : Session) (typeUrl : String) (hcalm : s.Calm) :
    Converges (fun fuel => queueDiscoveryRequest fuel typeUrl s) (s.request typeUrl) := by
  unfold request
  split
  · rename_i hstream
    apply Converges.call _ (Converges.const s)
    intro fuel
    simp [queueDiscoveryRequest, hstream]
  · rename_i responses hstream
    apply queueDiscoveryRequest_of_drain s _ typeUrl responses hstream hcalm
    apply drainRequests_converges
    · simpa using hstream
    · exact apiStateFor_calm s typeUrl hcalm

theorem queueSubscriptions_fuelMonotone (i : ℕ) (s : Session) :
    FuelMonotone fun fuel => queueSubscriptions fuel i s := by
  intro fuel
  induction fuel generalizing i s with
  | zero => simp [queueSubscriptions]
  | succ fuel ih =>
    intro a h
    simp only [queueSubscriptions] at h ⊢
    cases hi : s.subscriptions[i]? with
    | none => simpa [hi] using h
    | some t =>
      simp only [hi] at h ⊢
      rcases Option.bind_eq_some_iff.mp h with ⟨s', hq, hrest⟩
      exact Option.bind_eq_some_iff.mpr
        ⟨s', queueDiscoveryRequest_fuelMonotone t s _ _ hq, ih _ _ _ hrest⟩

theorem exec_fuelMonotone (op : Op) (s : Session) : FuelMonotone fun fuel => exec fuel op s := by
  intro fuel a h
  cases op with
  | setChannel => exact h
  | shutdown => exact h
  | onDiscoveryResponse message => exact onDiscoveryResponse_fuelMonotone message s fuel a h
  | addWatch t resources => exact queueDiscoveryRequest_fuelMonotone t _ fuel a h
  | onStreamEstablished outcome =>
    simp only [exec, onStreamEstablished] at h ⊢
    cases outcome with
    | none => exact h
    | some responses =>
      cases hstub : s.stub with
      | false => simpa [hstub] using h
      | true =>
        simp only [hstub, if_true] at h ⊢
        exact queueSubscriptions_fuelMonotone 0 _ fuel a h
  | update watch resources =>
    simp only [exec, update] at h ⊢
    cases hw : s.watchers watch with
    | none => simpa [hw] using h
    | some w =>
      simp only [hw] at h ⊢
      rcases Option.bind_eq_some_iff.mp h with ⟨s', hfirst, hsecond⟩
      refine Option.bind_eq_some_iff.mpr ⟨s', ?_, queueDiscoveryRequest_fuelMonotone _ _ _ _ hsecond⟩
      split_ifs at hfirst ⊢
      · exact hfirst
      · exact queueDiscoveryRequest_fuelMonotone _ _ _ _ hfirst
  | destroy watch =>
    simp only [exec, destroy] at h ⊢
    cases hw : s.watchers watch with
    | none => simpa [hw] using h
    | some w =>
      simp only [hw] at h ⊢
      split_ifs at h ⊢
      · exact h
      · exact queueDiscoveryRequest_fuelMonotone _ _ _ _ h

end XdsClient.Ads
