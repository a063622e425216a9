import XdsClient.Ads.Chat
import XdsClient.Ads.Runs

/-! # The life of a stream

A stream is obtained, written to, half-closed and finished. The rules of the synchronous
gRPC interface are stated against the history, one for each call on a gRPC object. Which
sequences of public calls keep them can be read off the sequence alone.
-/
namespace XdsClient.Ads
open Library Session

/-! ## Public calls -/

inductive Call where
  | op (op : Op)
  | queueDiscoveryRequest (typeUrl : String)
  | continueChat

namespace Client

def exec (fuel : ℕ) : Call → Client → Option Client
  | .op op, c => (Ads.exec fuel op c.toSession).map fun s => { c with toSession := s }
  | .queueDiscoveryRequest typeUrl, c =>
    (Ads.queueDiscoveryRequest fuel typeUrl c.toSession).map fun s => { c with toSession := s }
  | .continueChat, c => some c.continueChat

def perform : Call → Client → Client
  | .op op, c => { c with toSession := Ads.perform op c.toSession }
  | .queueDiscoveryRequest typeUrl, c => { c with toSession := c.toSession.request typeUrl }
  | .continueChat, c => c.continueChat

theorem exec_converges {c : Client} (hc : c.Calm) (call : Call) :
    Converges (fun fuel => c.exec fuel call) (c.perform call) := by
  cases call with
  | op op => exact (Ads.exec_converges hc op).map fun s => { c with toSession := s }
  | queueDiscoveryRequest typeUrl =>
    exact (queueDiscoveryRequest_converges c.toSession typeUrl hc).map
      fun s => { c with toSession := s }
  | continueChat => exact Converges.const _

theorem exec_eq_some {c c' : Client} (hc : c.Calm) {call : Call} {fuel : ℕ}
    (h : c.exec fuel call = some c') : c' = c.perform call := by
  cases call with
  | op op =>
    obtain ⟨s, hs, rfl⟩ := Option.map_eq_some_iff.mp h
    rw [Ads.exec_eq_some hc hs]
    rfl
  | queueDiscoveryRequest typeUrl =>
    obtain ⟨s, hs, rfl⟩ := Option.map_eq_some_iff.mp h
    rw [((queueDiscoveryRequest_fuelMonotone typeUrl c.toSession).converges hs).unique
      (queueDiscoveryRequest_converges c.toSession typeUrl hc)]
    rfl
  | continueChat => exact (Option.some.inj h).symm

theorem continueChat_toState (c : Client) : c.continueChat.toState = c.toState := by
  simp only [continueChat, Session.write]
  split <;> rfl

theorem perform_quiet {c : Client} (hc : Quiet c.toSession) (call : Call) :
    Quiet (c.perform call).toSession := by
  cases call with
  | op op => exact Ads.perform_quiet hc op
  | queueDiscoveryRequest typeUrl => exact hc.request typeUrl
  | continueChat =>
    simp only [perform, continueChat, Session.write]
    split <;> exact hc.log _

end Client

inductive ClientRun : List Call → Client → Prop
  | start : ClientRun [] { toSession := construct true }
  | call {calls : List Call} {c c' : Client} {call : Call} (fuel : ℕ) :
      ClientRun calls c → c.exec fuel call = some c' → ClientRun (calls ++ [call]) c'

theorem ClientRun.quiet {calls : List Call} {c : Client} (h : ClientRun calls c) :
    Quiet c.toSession := by
  induction h with
  | start => exact construct_quiet true
  | call fuel _ hexec ih =>
    rw [Client.exec_eq_some ih.calm hexec]
    exact Client.perform_quiet ih _

theorem ClientRun.exists_call {calls : List Call} {c : Client} (h : ClientRun calls c)
    (call : Call) : ClientRun (calls ++ [call]) (c.perform call) := by
  obtain ⟨fuel, hfuel⟩ := (Client.exec_converges h.quiet.calm call).exists_fuel
  exact ClientRun.call fuel h hfuel

/-! ## The rules of a stream -/

def Event.obtains : Event → Bool
  | .opened obtained => obtained
  | _ => false

def Event.isWritesDone : Event → Bool
  | .writesDone => true
  | _ => false

def Event.isFinish : Event → Bool
  | .finish => true
  | _ => false

def sinceObtained (earlier : List Entry) : List Entry :=
  earlier.takeWhile fun e => !e.event.obtains

/-- The rule for each call on a gRPC object. All streams are opened with the one `context_` of
the client, so that only the first one has a context that was not used before. -/
def Permitted (e : Entry) (earlier : List Entry) : Prop :=
  match e.event with
  | .nullCall => False
  | .opened true =>
    (∀ f ∈ earlier, f.event.obtains = false) ∧
      (e.state.stream.isSome = true → ∃ f ∈ sinceObtained earlier, f.event.isFinish = true)
  | .write _ _ =>
    e.state.shutdown = false ∧ ∀ f ∈ sinceObtained earlier, f.event.isWritesDone = false
  | .writesDone => ∀ f ∈ sinceObtained earlier, f.event.isWritesDone = false
  | .finish => ∀ f ∈ sinceObtained earlier, f.event.isFinish = false
  | _ => True

/-! ## What most calls do -/

/-- Neither a call through a null pointer nor a step in the life of a stream. -/
def Event.plain : Event → Bool
  | .opened obtained => !obtained
  | .writesDone => false
  | .finish => false
  | .nullCall => false
  | _ => true

/-- An entry that keeps the rules on a client that is shut down or not. -/
def Steady (down : Bool) (e : Entry) : Prop :=
  e.event.plain = true ∧ ((e.event.request?).isSome = true → down = false ∧ e.state.shutdown = false)

def State.status (s : State) : Bool × Bool × Bool := (s.stub, s.stream.isSome, s.shutdown)

def Carried (past : List Entry) (status : Bool × Bool × Bool) (s : Session) : Prop :=
  Grows (Steady status.2.2) past s.history ∧ s.status = status

namespace Carried
variable {past : List Entry} {status : Bool × Bool × Bool} {s : Session}

theorem refl (s : Session) : Carried s.history s.status s := ⟨Grows.refl _, rfl⟩

theorem same {s' : Session} (h : Carried past status s) (hhistory : s'.history = s.history)
    (hstatus : s'.status = s.status) : Carried past status s' := by
  refine ⟨?_, hstatus.trans h.2⟩
  rw [hhistory]
  exact h.1

theorem cons {s' : Session} (e : Entry) (h : Carried past status s)
    (hhistory : s'.history = e :: s.history) (he : Steady status.2.2 e)
    (hstatus : s'.status = s.status) : Carried past status s' := by
  refine ⟨?_, hstatus.trans h.2⟩
  rw [hhistory]
  exact h.1.cons he

theorem log (h : Carried past status s) (event : Event) (hplain : event.plain = true)
    (hrequest : event.request? = none) : Carried past status (s.log event) :=
  h.cons ⟨event, s.toState⟩ rfl ⟨hplain, by simp [hrequest]⟩ rfl

end Carried

theorem carried_stable (past : List Entry) (status : Bool × Bool × Bool) :
    Stable (Carried past status) where
  readFalse := fun s h => h.log _ rfl rfl
  receive := fun s message rest hstream _ h => by
    have hread : Carried past status { s.log (.read (some message)) with stream := some rest } :=
      h.cons ⟨.read (some message), s.toState⟩ rfl ⟨rfl, by simp [Event.request?]⟩
        (by simp [State.status, hstream])
    exact (hread.log (.response message) rfl rfl).same rfl rfl
  emplace := fun s typeUrl _ _ h => (h.log (.push typeUrl) rfl rfl).same rfl rfl
  beginSend := fun s typeUrl rest hstream hdown _ h => by
    have hsend := h.log (.send typeUrl) rfl rfl
    have hd : status.2.2 = false := by
      rw [← h.2]
      exact hdown
    have hprepared : ((s.log (.send typeUrl)).prepareRequest typeUrl).shutdown = false := by
      rw [prepareRequest_eq]
      exact hdown
    apply hsend.cons _ (beginSend_history s typeUrl hstream) ⟨rfl, fun _ => ⟨hd, hprepared⟩⟩
    rw [State.status, beginSend, writeRequest_toState]
    rfl
  send := fun s typeUrl _ h => h.log _ rfl rfl
  sent := fun s typeUrl h => h.log _ rfl rfl
  pop := fun s h => (h.log .pop rfl rfl).same rfl rfl

namespace Carried
variable {past : List Entry} {status : Bool × Bool × Bool} {s : Session}

theorem request (h : Carried past status s) (typeUrl : String) :
    Carried past status (s.request typeUrl) := by
  apply (carried_stable past status).request_of_alloc s typeUrl h
  rw [apiStateFor_eq_modifyApi]
  exact h.same rfl rfl

theorem foldl_request (l : List String) (h : Carried past status s) :
    Carried past status (l.foldl Session.request s) := by
  induction l generalizing s with
  | nil => exact h
  | cons t l ih => exact ih (h.request t)

theorem updateResources (h : Carried past status s) (watch : ℕ) (w : Watcher)
    (resources : OrderedSet String) :
    Carried past status (s.updateResources watch w resources) :=
  (h.log (.register watch) rfl rfl).same rfl rfl

theorem eraseWatch (h : Carried past status s) (watch : ℕ) (w : Watcher) :
    Carried past status (s.eraseWatch watch w) :=
  (h.log (.erase watch) rfl rfl).same rfl rfl

end Carried

def Op.steady : Op → Bool
  | .onStreamEstablished _ => false
  | .shutdown => false
  | _ => true

theorem carried_watchSteps (past : List Entry) (status : Bool × Bool × Bool) :
    WatchSteps (Carried past status) where
  eraseWatch := fun _ watch w h => h.eraseWatch watch w
  updateResources := fun _ watch w resources h => h.updateResources watch w resources
  dropWatch := fun _ watch w h => (h.eraseWatch watch w).same rfl rfl
  ingest := fun _ message h => (h.log (.response message) rfl rfl).same rfl rfl
  request := fun _ typeUrl h => h.request typeUrl

theorem carried_perform (s : Session) (hstub : s.stub = true) (op : Op) (hop : op.steady = true) :
    Carried s.history s.status (perform op s) := by
  have h := Carried.refl s
  cases op with
  | setChannel =>
    have hstatus : (perform .setChannel s).status = s.status := by
      simp [perform, State.status, hstub]
    exact h.same rfl hstatus
  | onStreamEstablished outcome => simp [Op.steady] at hop
  | addWatch typeUrl resources =>
    have halloc : Carried s.history s.status
        { s.apiStateFor typeUrl with nextWatcher := s.nextWatcher + 1 } := by
      rw [apiStateFor_eq_modifyApi]
      exact h.same rfl rfl
    have hnew := halloc.updateResources s.nextWatcher ⟨∅, typeUrl, 0⟩ resources
    apply Carried.request
    unfold Session.subscribe
    split_ifs
    · exact hnew
    · exact hnew.same rfl rfl
  | shutdown => simp [Op.steady] at hop
  | _ => exact (carried_watchSteps _ _).perform h rfl

/-! ## Steady entries keep the rules -/

theorem Event.plain_cases {event : Event} (h : event.plain = true) :
    event.obtains = false ∧ event.isWritesDone = false ∧ event.isFinish = false := by
  cases event <;> simp_all [Event.plain, Event.obtains, Event.isWritesDone, Event.isFinish]

theorem sinceObtained_append {part past : List Entry} {down : Bool}
    (h : ∀ e ∈ part, Steady down e) : sinceObtained (part ++ past) = part ++ sinceObtained past := by
  apply List.takeWhile_append_of_pos
  intro e he
  simp [(Event.plain_cases (h e he).1).1]

theorem mem_of_mem_sinceObtained {e : Entry} {past : List Entry} (h : e ∈ sinceObtained past) :
    e ∈ past := (List.takeWhile_prefix _).subset h

theorem always_permitted_append {part past : List Entry} {down : Bool}
    (hpart : ∀ e ∈ part, Steady down e)
    (hopen : down = false → ∀ f ∈ past, f.event.isWritesDone = false) :
    Always Permitted (part ++ past) ↔ Always Permitted past := by
  induction part with
  | nil => rfl
  | cons e part ih =>
    have hrest : ∀ f ∈ part, Steady down f := fun f hf => hpart f (List.mem_cons_of_mem e hf)
    have he := hpart e List.mem_cons_self
    have hopen' (hd : down = false) : ∀ f ∈ sinceObtained (part ++ past),
        f.event.isWritesDone = false := by
      intro f hf
      rcases List.mem_append.mp (mem_of_mem_sinceObtained hf) with hf | hf
      · exact (Event.plain_cases (hrest f hf).1).2.1
      · exact hopen hd f hf
    have hself : Permitted e (part ++ past) := by
      obtain ⟨event, state⟩ := e
      cases event with
      | write typeUrl request =>
        obtain ⟨hd, hdown⟩ := he.2 rfl
        exact ⟨hdown, hopen' hd⟩
      | opened obtained =>
        cases obtained with
        | false => trivial
        | true => simp [Steady, Event.plain] at he
      | writesDone => simp [Steady, Event.plain] at he
      | finish => simp [Steady, Event.plain] at he
      | nullCall => simp [Steady, Event.plain] at he
      | _ => trivial
    rw [List.cons_append, always_cons, ih hrest]
    exact ⟨fun h => h.2, fun h => ⟨hself, h⟩⟩

end XdsClient.Ads
