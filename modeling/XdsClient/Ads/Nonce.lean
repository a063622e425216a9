import XdsClient.Ads.Tracking

/-! # Nonces are fresh

A request names the response it answers by its nonce. The history says which nonce
that is: the one of the last response of the type that was not ignored, as long as
it came over the present stream.
-/
namespace XdsClient.Ads
open Library Session

/-- The nonce of the last response for the type since the stream was obtained that
`onDiscoveryResponse` did not ignore; empty if there was none. -/
def lastNonce (typeUrl : String) : List Entry → String
  | [] => ""
  | e :: earlier =>
    match e.event with
    | .opened true => ""
    | .response message =>
      if message.typeUrl = typeUrl ∧ e.state.known typeUrl = true then message.nonce
      else lastNonce typeUrl earlier
    | _ => lastNonce typeUrl earlier

/-- Only the response's own type takes over its nonce, and only if it has a state. -/
theorem ingest_nonce (s : Session) (message : DiscoveryResponse) (typeUrl : String) :
    ((s.ingest message).api typeUrl).request.responseNonce =
      if message.typeUrl = typeUrl ∧ s.known typeUrl = true then message.nonce
      else (s.api typeUrl).request.responseNonce := by
  rw [ingest_api]
  split_ifs <;> simp

theorem nonce_tracks : Tracks DiscoveryRequest.responseNonce lastNonce where
  initial := fun _ => rfl
  neutral := by
    rintro t event state earlier ⟨hresponse, hopened⟩
    cases event with
    | opened obtained => cases obtained <;> simp_all [lastNonce]
    | response message => exact absurd rfl (hresponse message)
    | _ => rfl
  prepared := fun _ _ => rfl
  errorDetail := fun _ => rfl
  addressed := fun _ _ => rfl
  response := by
    intro s message t earlier h
    rw [ingest_nonce, h]
    rfl
  opened := fun _ _ _ _ _ => rfl

/-- In every run, every request carries the nonce of the last response of its type on
the present stream. -/
theorem run_nonce_fresh (channel : Bool) (calls : List Op) (s : Session)
    (hrun : Run channel calls s) (later earlier : List Entry) (typeUrl : String)
    (request : DiscoveryRequest) (state : State)
    (hwrite : s.history = later ++ ⟨.write typeUrl request, state⟩ :: earlier) :
    request.responseNonce = lastNonce typeUrl earlier :=
  nonce_tracks.written hrun hwrite

/-- The answer to a response on the first stream carries that response's nonce. -/
theorem run_nonce_fresh_answer :
    ∃ s later earlier request state,
      Run true [.onStreamEstablished (some [clusterPush])] s ∧
      s.history = later ++ ⟨.write clusterTypeUrl request, state⟩ :: earlier ∧
      request.responseNonce = "n1" ∧ lastNonce clusterTypeUrl earlier = "n1" := by
  have hwrote : wrote (fun t r _ => t == clusterTypeUrl && r.responseNonce == "n1")
      (performAll (construct true) [.onStreamEstablished (some [clusterPush])]).history = true := by
    decide
  rcases exists_split_of_wrote _ _ hwrote with ⟨later, t, r, state, earlier, hsplit, htest⟩
  rcases (by simpa using htest : t = clusterTypeUrl ∧ r.responseNonce = "n1") with ⟨rfl, hnonce⟩
  have hrun := performAll_run true [.onStreamEstablished (some [clusterPush])]
  have hfresh := run_nonce_fresh true _ _ hrun later earlier clusterTypeUrl r state hsplit
  exact ⟨_, later, earlier, r, state, hrun, hsplit, hnonce, hfresh ▸ hnonce⟩

end XdsClient.Ads
