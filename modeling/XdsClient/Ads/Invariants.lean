import XdsClient.Ads.Runs

/-! # The invariant rules of the client

What has to be shown so that `P` holds after every run. Both rules have an obligation
for each thing a call does before it queues a request. `Lasting P` takes a request as
one step, `Kept P` has an obligation for each elementary step of a drain instead.
-/
namespace XdsClient.Ads
open Library

/-- The watch took itself out of its list and has not come back yet. -/
def erased (watch : ℕ) : List Entry → Bool
  | [] => false
  | e :: earlier =>
    match e.event with
    | .erase w => w = watch || erased watch earlier
    | .register w => w ≠ watch && erased watch earlier
    | _ => erased watch earlier

def Event.ofCall : Event → Bool
  | .response _ => true
  | .register _ => true
  | .erase _ => true
  | .writesDone => true
  | .finish => true
  | .nullCall => true
  | _ => false

namespace Session

theorem erased_stable (watch : ℕ) (b : Bool) : Stable fun s => erased watch s.history = b := by
  constructor
  · exact fun s h => h
  · exact fun s m rest _ _ h => h
  · exact fun s t _ _ h => h
  · intro s t rest hs _ _ h
    rw [beginSend_history s t hs]
    exact h
  · exact fun s t _ h => h
  · exact fun s t h => h
  · exact fun s h => h

/-! ## The rules -/

structure CallSteps (P : Session → Prop) : Prop where
  stub : ∀ s, P s → P { s with stub := true }
  nullCall : ∀ s, P s → P (s.log .nullCall)
  openFailed : ∀ s, P s → P s.openFailed
  addWatch : ∀ s typeUrl resources, Reachable s → P s →
    P ((s.newWatcher typeUrl resources).subscribe typeUrl)
  eraseWatch : ∀ s watch w, s.watchers watch = some w → s.known w.typeUrl = true → P s →
    P (s.eraseWatch watch w)
  updateResources : ∀ s watch w resources, s.watchers watch = some w →
    s.known w.typeUrl = true → erased watch s.history = true → P s →
    P (s.updateResources watch w resources)
  dropWatch : ∀ s watch w, s.watchers watch = some w → s.known w.typeUrl = true → P s →
    P (s.dropWatch watch w)
  ingest : ∀ s message, P s → P (s.ingest message)
  shutdown : ∀ s, P s → P (Ads.shutdown s)

/-- The rule for what can be read off the history and the stream: the events of the calls
themselves, a stream that is not obtained, and a shutdown. -/
theorem CallSteps.of_history {P : Session → Prop}
    (same : ∀ s s' : Session, P s → s'.history = s.history → s'.stream = s.stream →
      s'.shutdown = s.shutdown → P s')
    (log : ∀ s event, Event.ofCall event = true → P s → P (s.log event))
    (openFailed : ∀ s, P s → P s.openFailed)
    (down : ∀ s, P s → P { s with shutdown := true }) : CallSteps P where
  stub := fun s h => same s _ h rfl rfl rfl
  nullCall := fun s h => log s _ rfl h
  openFailed := openFailed
  addWatch := fun s typeUrl resources _ h => by
    have halloc : P { s.apiStateFor typeUrl with nextWatcher := s.nextWatcher + 1 } := by
      rw [apiStateFor_eq_modifyApi]
      exact same s _ h rfl rfl rfl
    have hnew : P (s.newWatcher typeUrl resources) :=
      same _ _ (log _ (.register s.nextWatcher) rfl halloc) rfl rfl rfl
    unfold Session.subscribe
    split_ifs
    · exact hnew
    · exact same _ _ hnew rfl rfl rfl
  eraseWatch := fun s watch w _ _ h => same _ _ (log s (.erase watch) rfl h) rfl rfl rfl
  updateResources := fun s watch w resources _ _ _ h =>
    same _ _ (log s (.register watch) rfl h) rfl rfl rfl
  dropWatch := fun s watch w _ _ h => same _ _ (log s (.erase watch) rfl h) rfl rfl rfl
  ingest := fun s message h => same _ _ (log s (.response message) rfl h) rfl rfl rfl
  shutdown := fun s h => by
    apply down
    unfold Session.endStream
    split
    · exact log s _ rfl h
    · exact log _ _ rfl (log s _ rfl h)

/-- `P` survives the calls, with their requests as single steps. -/
structure Lasting (P : Session → Prop) : Prop extends CallSteps P where
  request : ∀ s typeUrl, Quiet s → s.known typeUrl = true → P s → P (s.request typeUrl)
  openStream : ∀ s responses, Reachable s → P s →
    P ((s.openStream responses).request clusterTypeUrl)

namespace Lasting
variable {P : Session → Prop} (hP : Lasting P)
include hP

theorem foldl_request (l : List String) {s : Session} (hs : Quiet s)
    (hknown : ∀ t ∈ l, s.known t = true) (h : P s) : P (l.foldl Session.request s) := by
  induction l generalizing s with
  | nil => exact h
  | cons t l ih =>
    apply ih (hs.request t)
    · intro u hu
      exact request_known s t u (hknown u (List.mem_cons_of_mem t hu))
    · exact hP.request s t hs (hknown t List.mem_cons_self) h

theorem establish {s : Session} (hs : Reachable s) (responses : List DiscoveryResponse) (h : P s) :
    P (s.establish responses) := by
  have hquiet := openStream_request_quiet hs.quiet responses
  rw [establish_eq hs.quiet]
  apply hP.foldl_request _ hquiet
  · exact fun t ht => openStream_request_known hs.quiet responses t (List.mem_of_mem_tail ht)
  · exact hP.openStream s responses hs h

theorem updateWatch {s : Session} (hs : Reachable s) (watch : ℕ) (w : Watcher)
    (resources : OrderedSet String) (hw : s.watchers watch = some w) (h : P s) :
    P (s.updateWatch watch w resources) := by
  have hknown : (s.eraseWatch watch w).known w.typeUrl = true := by
    simp [eraseWatch_known]
  have herased : erased watch (s.eraseWatch watch w).history = true := by
    simp [Session.eraseWatch, erased]
  have hw' : (s.eraseWatch watch w).watchers watch = some w := hw
  have hquiet := hs.quiet.eraseWatch watch w
  have hfirst := hP.eraseWatch s watch w hw (hs.quiet.owned watch w hw) h
  have hlast (s : Session) (hs : Quiet s) (h : P (s.updateResources watch w resources)) :
      P ((s.updateResources watch w resources).request w.typeUrl) := by
    apply hP.request _ _ (hs.updateResources watch w resources) _ h
    simp [updateResources_known]
  unfold Session.updateWatch
  split_ifs
  · exact hlast _ hquiet (hP.updateResources _ watch w resources hw' hknown herased hfirst)
  · apply hlast _ (hquiet.request w.typeUrl)
    apply hP.updateResources _ watch w resources
    · rw [request_watchers]
      exact hw'
    · exact request_known _ _ _ hknown
    · exact (erased_stable watch true).request _ _ hknown herased
    · exact hP.request _ _ hquiet hknown hfirst

theorem perform {s : Session} (hs : Reachable s) (op : Op) (h : P s) : P (Ads.perform op s) := by
  cases op with
  | setChannel => exact hP.stub s h
  | shutdown => exact hP.shutdown s h
  | onStreamEstablished outcome =>
    simp only [Ads.perform]
    split_ifs
    · cases outcome with
      | some responses => exact hP.establish hs responses h
      | none => exact hP.openFailed s h
    · exact hP.nullCall s h
  | addWatch typeUrl resources =>
    apply hP.request _ _ ((hs.quiet.newWatcher typeUrl resources).subscribe typeUrl) _
      (hP.addWatch s typeUrl resources hs h)
    rw [subscribe_known _ _ _ (by simp [newWatcher_known])]
    simp [newWatcher_known]
  | update watch resources =>
    simp only [Ads.perform]
    cases hw : s.watchers watch with
    | none => exact h
    | some w => exact hP.updateWatch hs watch w resources hw h
  | destroy watch =>
    simp only [Ads.perform]
    cases hw : s.watchers watch with
    | none => exact h
    | some w =>
      have hdropped := hP.dropWatch s watch w hw (hs.quiet.owned watch w hw) h
      simp only
      split_ifs
      · exact hdropped
      · apply hP.request _ _ (hs.quiet.dropWatch watch w) _ hdropped
        simp [dropWatch_known]
  | onDiscoveryResponse message =>
    have hingested := hP.ingest s message h
    simp only [Ads.perform, respond]
    split_ifs with hcalls
    · apply hP.request _ _ (hs.quiet.ingest message) _ hingested
      rw [ingest_known]
      exact State.known_of_callsForAnswer hcalls
    · exact hingested

theorem run {channel : Bool} {calls : List Op} {s : Session} (hrun : Run channel calls s)
    (h : P (construct channel)) : P s :=
  hrun.invariant h fun _ op hs => hP.perform hs op

end Lasting

/-- `P` survives the calls, with one obligation for each elementary step of a drain. -/
structure Kept (P : Session → Prop) : Prop extends Stable P, CallSteps P where
  openStream : ∀ s responses, Reachable s → s.shutdown = false → P s →
    P ((s.openStream responses).request clusterTypeUrl)
  openStreamDown : ∀ s responses, Reachable s → s.shutdown = true → P s →
    P ((s.openStream responses).apiStateFor clusterTypeUrl)

namespace Kept
variable {P : Session → Prop} (hP : Kept P)
include hP

/-- The first request of a stream, which may be the first one for its type. -/
theorem openStream_request {s : Session} (hs : Reachable s) (responses : List DiscoveryResponse)
    (h : P s) : P ((s.openStream responses).request clusterTypeUrl) := by
  cases hdown : s.shutdown with
  | false => exact hP.openStream s responses hs hdown h
  | true =>
    have hdown' : (s.openStream responses).shutdown = true := hdown
    rw [request_of_empty _ _ responses rfl rfl, if_pos hdown']
    apply hP.flush
    · simp [Session.openStream]
    · simp [State.queue, Session.openStream]
    · apply hP.emplace _ _ (by simp [Session.openStream]) _ (hP.openStreamDown s responses hs hdown h)
      simp [apiStateFor_eq_modifyApi, State.known]

theorem lasting : Lasting P where
  toCallSteps := hP.toCallSteps
  request := fun s typeUrl _ hknown h => hP.toStable.request s typeUrl hknown h
  openStream := fun _ responses hs h => hP.openStream_request hs responses h

theorem run {channel : Bool} {calls : List Op} {s : Session} (hrun : Run channel calls s)
    (h : P (construct channel)) : P s :=
  hP.lasting.run hrun h

theorem and {Q : Session → Prop} (hQ : Kept Q) : Kept fun s => P s ∧ Q s where
  readFalse := fun s h => ⟨hP.readFalse s h.1, hQ.readFalse s h.2⟩
  receive := fun s message rest hs hd h =>
    ⟨hP.receive s message rest hs hd h.1, hQ.receive s message rest hs hd h.2⟩
  emplace := fun s t hs hk h => ⟨hP.emplace s t hs hk h.1, hQ.emplace s t hs hk h.2⟩
  beginSend := fun s t rest hs hd hq h =>
    ⟨hP.beginSend s t rest hs hd hq h.1, hQ.beginSend s t rest hs hd hq h.2⟩
  send := fun s t hd h => ⟨hP.send s t hd h.1, hQ.send s t hd h.2⟩
  sent := fun s t h => ⟨hP.sent s t h.1, hQ.sent s t h.2⟩
  pop := fun s h => ⟨hP.pop s h.1, hQ.pop s h.2⟩
  stub := fun s h => ⟨hP.stub s h.1, hQ.stub s h.2⟩
  nullCall := fun s h => ⟨hP.nullCall s h.1, hQ.nullCall s h.2⟩
  openFailed := fun s h => ⟨hP.openFailed s h.1, hQ.openFailed s h.2⟩
  addWatch := fun s t r hs h => ⟨hP.addWatch s t r hs h.1, hQ.addWatch s t r hs h.2⟩
  eraseWatch := fun s a w hw hk h => ⟨hP.eraseWatch s a w hw hk h.1, hQ.eraseWatch s a w hw hk h.2⟩
  updateResources := fun s a w r hw hk he h =>
    ⟨hP.updateResources s a w r hw hk he h.1, hQ.updateResources s a w r hw hk he h.2⟩
  dropWatch := fun s a w hw hk h => ⟨hP.dropWatch s a w hw hk h.1, hQ.dropWatch s a w hw hk h.2⟩
  ingest := fun s message h => ⟨hP.ingest s message h.1, hQ.ingest s message h.2⟩
  shutdown := fun s h => ⟨hP.shutdown s h.1, hQ.shutdown s h.2⟩
  openStream := fun s r hs hd h => ⟨hP.openStream s r hs hd h.1, hQ.openStream s r hs hd h.2⟩
  openStreamDown := fun s r hs hd h =>
    ⟨hP.openStreamDown s r hs hd h.1, hQ.openStreamDown s r hs hd h.2⟩

end Kept
end Session
end XdsClient.Ads
