import XdsClient.Ads.Lifecycle

/-! # The chat on a stream of the client

`AggregatedDiscoveryService` may be called between any other calls, on the stream that
`onStreamEstablished` obtained. Both read the stream to its end, and the client reads first.
-/
namespace XdsClient.Ads
open Library Session

inductive Use where
  | call (call : Call)
  | aggregatedDiscoveryService

def Use.isChat : Use → Bool
  | .aggregatedDiscoveryService => true
  | _ => false

def Use.isContinued : Use → Bool
  | .call .continueChat => true
  | _ => false

namespace Client

def use (fuel : ℕ) : Use → Client → Option Client
  | .call call, c => c.exec fuel call
  | .aggregatedDiscoveryService, c => some c.aggregatedDiscoveryService.2

end Client

inductive UseRun (channel : Bool) : List Use → Client → Prop
  | start : UseRun channel [] { toSession := construct channel }
  | use {uses : List Use} {c c' : Client} {use : Use} (fuel : ℕ) :
      UseRun channel uses c → c.use fuel use = some c' → UseRun channel (uses ++ [use]) c'

/-! ## The client stays quiet -/

theorem perform_shutdown {s : Session} (hs : Quiet s) (op : Op) (hdown : s.shutdown = true) :
    (perform op s).shutdown = true := by
  have hwatch : WatchSteps fun s => s.shutdown = true :=
    ⟨fun _ _ _ h => h, fun _ _ _ _ h => h, fun _ _ _ h => h, fun _ _ h => h,
      fun s t h => by rw [request_shutdown]; exact h⟩
  cases op with
  | setChannel => exact hdown
  | onStreamEstablished outcome =>
    simp only [perform]
    split_ifs
    · cases outcome with
      | some responses =>
        simp only
        rw [establish_shutdown hs]
        exact hdown
      | none => exact hdown
    · exact hdown
  | addWatch typeUrl resources =>
    simp only [perform]
    have hnew : (s.newWatcher typeUrl resources).shutdown = true := by
      rw [newWatcher, apiStateFor_eq_modifyApi]
      exact hdown
    rw [request_shutdown]
    unfold subscribe
    split_ifs <;> exact hnew
  | shutdown => rfl
  | _ => exact hwatch.perform hdown rfl

namespace Client

/-- The chat drains the stream and changes nothing else that the client reads. -/
def drained (s : State) : State := { s with stream := s.stream.map fun _ => [] }

theorem drained_of_read {s : State} (h : s.stream = none ∨ s.stream = some []) : drained s = s := by
  obtain ⟨stub, stream⟩ := s
  rcases h with h | h
  · subst h
    rfl
  · subst h
    rfl

theorem reply_toState (c : Client) (response : DiscoveryResponse) :
    (c.reply response).toState = c.toState := continueChat_toState _

theorem read_toState {s s' : Session} {result : Option DiscoveryResponse}
    (h : s.read = (result, s')) : drained s'.toState = drained s.toState ∧
      (result = none → s'.toState = drained s.toState) := by
  unfold Session.read at h
  split at h
  · rename_i hstream
    cases h
    exact ⟨rfl, fun _ => (drained_of_read (Or.inl hstream)).symm⟩
  · rename_i hstream
    cases h
    exact ⟨rfl, fun _ => (drained_of_read (Or.inr hstream)).symm⟩
  · rename_i hstream
    cases h
    exact ⟨by simp [drained, hstream], fun hnone => by cases hnone⟩

theorem chatReads_toState (c : Client) : c.chatReads.toState = drained c.toState := by
  fun_induction chatReads c with
  | case1 c s hread => exact (read_toState hread).2 rfl
  | case2 c response s hread ih =>
    rw [ih, reply_toState]
    exact (read_toState hread).1

theorem openChat_toState (c : Client) : c.openChat.toState = c.toState := by
  simp only [openChat, Session.write]
  split <;> rfl

theorem aggregatedDiscoveryService_toState (c : Client) :
    c.aggregatedDiscoveryService.2.toState = drained c.toState := by
  rw [aggregatedDiscoveryService, chatReads_toState, openChat_toState]

theorem quiet_drained {s s' : Session} (hs : Quiet s) (h : s'.toState = drained s.toState) :
    Quiet s' := by
  have hstream : (drained s.toState).stream.isSome = s.stream.isSome := by simp [drained]
  constructor <;> rw [h]
  · exact hs.calm
  · exact hs.queue
  · rw [hstream]
    exact hs.allocated
  · cases hnow : s.stream with
    | none => exact Or.inr (Or.inl (by simp [drained, hnow]))
    | some responses => exact Or.inr (Or.inr (by simp [drained, hnow]))
  · rw [hstream]
    exact hs.begun
  · exact hs.first
  · exact hs.known
  · exact hs.owned

end Client

theorem UseRun.quiet {channel : Bool} {uses : List Use} {c : Client} (h : UseRun channel uses c) :
    Quiet c.toSession := by
  induction h with
  | start => exact construct_quiet channel
  | @use uses c c' use fuel _ hexec ih =>
    cases use with
    | call call =>
      rw [Client.exec_eq_some ih.calm hexec]
      exact Client.perform_quiet ih call
    | aggregatedDiscoveryService =>
      rcases Option.some.inj hexec with rfl
      exact Client.quiet_drained ih (Client.aggregatedDiscoveryService_toState c)

/-! ## What the chat hears -/

def repeated (part : String) : ℕ → String
  | 0 => ""
  | n + 1 => repeated part n ++ part

def silentRequest : ℕ → DiscoveryRequest
  | 0 => {}
  | n + 1 => {
    node := some { id := repeated "test-id" (n + 1), cluster := repeated "test-cluster" (n + 1) }
    typeUrl := clusterTypeUrl }

def silentChat (n : ℕ) (continued : Bool) : Chat where
  discoveryRequest := silentRequest n
  isOk := continued

theorem firstRequest_silent (n : ℕ) (continued : Bool) :
    Client.firstRequest (silentChat n continued) = silentRequest (n + 1) := by
  cases n <;> rfl

namespace Client
variable {c : Client}

theorem continueChat_silent {n : ℕ} {continued : Bool} (h : c.chat = silentChat n continued) :
    c.continueChat.chat = silentChat n true := by
  simp only [continueChat, h]
  cases n <;> rfl

theorem chatReads_chat (h : c.stream = none ∨ c.stream = some []) : c.chatReads.chat = c.chat := by
  rw [chatReads]
  split
  · rfl
  · rename_i hread
    rcases h with h | h <;> simp [Session.read, h] at hread

theorem aggregatedDiscoveryService_silent (hstream : c.stream = none ∨ c.stream = some [])
    {n : ℕ} {continued : Bool} (h : c.chat = silentChat n continued) :
    c.aggregatedDiscoveryService.2.chat = silentChat (n + 1) continued := by
  have hopen : c.openChat.stream = none ∨ c.openChat.stream = some [] := by
    rw [openChat_toState]
    exact hstream
  rw [aggregatedDiscoveryService, chatReads_chat hopen]
  simp only [openChat, h, firstRequest_silent]
  rfl

end Client

theorem UseRun.silent {channel : Bool} {uses : List Use} {c : Client} (h : UseRun channel uses c)
    (hlive : c.shutdown = false) :
    c.chat = silentChat (uses.countP Use.isChat) (uses.any Use.isContinued) := by
  induction h with
  | start => rfl
  | @use uses c c' use fuel hrun hexec ih =>
    have hquiet := hrun.quiet
    rw [List.countP_append, List.any_append]
    cases use with
    | call call =>
      rw [Client.exec_eq_some hquiet.calm hexec] at hlive ⊢
      cases call with
      | op op =>
        have hbefore : c.shutdown = false := by
          by_contra hdown
          rw [Bool.not_eq_false] at hdown
          simp [Client.perform, perform_shutdown hquiet op hdown] at hlive
        simpa [Client.perform, Use.isChat, Use.isContinued] using ih hbefore
      | queueDiscoveryRequest typeUrl =>
        have hbefore : c.shutdown = false := by simpa [Client.perform] using hlive
        simpa [Client.perform, Use.isChat, Use.isContinued] using ih hbefore
      | continueChat =>
        rw [Client.perform, Client.continueChat_toState] at hlive
        rw [Client.perform, Client.continueChat_silent (ih hlive)]
        simp [Use.isChat, Use.isContinued]
    | aggregatedDiscoveryService =>
      rcases Option.some.inj hexec with rfl
      rw [Client.aggregatedDiscoveryService_toState] at hlive
      have hstream := hquiet.ended.resolve_left (by simp [show c.shutdown = false from hlive])
      rw [Client.aggregatedDiscoveryService_silent hstream (ih hlive)]
      simp [Use.isChat, Use.isContinued]

/-- Whatever was called before, in any order: on a client that was not shut down, the chat finds
the stream read to its end. It writes one request, with its identity once more than it was
invoked before and without a version or a nonce, reads nothing, leaves the state of the client
alone, and returns true only if somebody called `continueChat`. -/
theorem chat_hears_nothing (channel : Bool) (uses : List Use) (c : Client)
    (hrun : UseRun channel uses c) (hlive : c.shutdown = false)
    (hstream : c.stream.isSome = true) :
    Client.Wrote c c.aggregatedDiscoveryService.2 [silentRequest (uses.countP Use.isChat + 1)] ∧
      c.aggregatedDiscoveryService.2.toState = c.toState ∧
      c.aggregatedDiscoveryService.1 = uses.any Use.isContinued := by
  have hended := hrun.quiet.ended.resolve_left (by simp [hlive])
  have hempty : c.stream = some [] := hended.resolve_left fun hnone => by simp [hnone] at hstream
  have hchat := hrun.silent hlive
  have hsame : ({ c with stream := some [] } : Client) = c := by rw [← hempty]
  have hwrote := (Client.chatOver_wrote c []).1
  rw [Client.chatOver, hsame, hchat, firstRequest_silent] at hwrote
  refine ⟨hwrote, ?_, ?_⟩
  · rw [Client.aggregatedDiscoveryService_toState, Client.drained_of_read hended]
  · exact congrArg Chat.isOk (Client.aggregatedDiscoveryService_silent hended hchat)

/-- A chat after a stream with a response that the client has read already. -/
theorem chat_hears_nothing_after_push :
    ∃ c, UseRun true [.call (.op (.onStreamEstablished (some [clusterPush])))] c ∧
      c.aggregatedDiscoveryService.1 = false ∧
      Client.Wrote c c.aggregatedDiscoveryService.2 [silentRequest 1] := by
  let established : Use := .call (.op (.onStreamEstablished (some [clusterPush])))
  let c : Client := { toSession := construct true }
  obtain ⟨fuel, hfuel⟩ := (Client.exec_converges (c := c) (construct_quiet true).calm
    (.op (.onStreamEstablished (some [clusterPush])))).exists_fuel
  have hused : c.use fuel established = some _ := hfuel
  have hrun := UseRun.use fuel UseRun.start hused
  obtain ⟨hwrote, -, hok⟩ := chat_hears_nothing true _ _ hrun (by decide) (by decide)
  exact ⟨_, hrun, hok, hwrote⟩

end XdsClient.Ads
