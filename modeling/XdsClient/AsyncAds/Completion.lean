import XdsClient.AsyncAds.Reactions

/-! # The end of the reactor

`Await` waits for a callback that gRPC delivers only when nothing is in flight. The write that
closes the stream and the read that fails bring this about, so the reactor cannot get stuck;
and how it ends does not depend on how the completions of the two halves were interleaved.
-/
namespace XdsClient.AsyncAds
open Library Ads

inductive Reacted (requests : List DiscoveryRequest) : List Callback → Chatter → Prop
  | start : Reacted requests [] (.start requests)
  | react {callbacks : List Callback} {c : Chatter} (callback : Callback) :
      Reacted requests callbacks c → Deliverable c.events callback →
      Reacted requests (callbacks ++ [callback]) (c.react callback)

theorem Reacted.run {requests : List DiscoveryRequest} {callbacks : List Callback} {c : Chatter}
    (h : Reacted requests callbacks c) : ChatterRun requests c := by
  induction h with
  | start => exact ChatterRun.start
  | react callback _ hdeliverable ih => exact ih.react callback hdeliverable

def Callback.response? : Callback → Option DiscoveryResponse
  | .onReadDone result => result
  | _ => none

def delivered (callbacks : List Callback) : List DiscoveryResponse :=
  callbacks.filterMap Callback.response?

/-! ## One callback more -/

structure Progress (callbacks : List Callback) (c : Chatter) : Prop where
  bounded : c.position ≤ c.requests.length
  counted : callbacks.length = writesCompleted c.events + (delivered callbacks).length +
    c.events.count (.readDone false) + c.events.count .done
  /-- Either a read is in flight or one has failed. -/
  listening : outstandingReads c.events + c.events.count (.readDone false) = 1
  response : c.response = (delivered callbacks).getLast?.getD {}
  done : c.events.count .done = if c.done then 1 else 0
  ended : c.done = true → outstandingWrites c.events = 0 ∧ outstandingReads c.events = 0
  status : c.done = true → .onDone c.status ∈ callbacks

namespace Chatter
variable (c : Chatter)

theorem nextWrite_events : ∃ e, c.nextWrite.events = e :: c.events ∧ e.isStartRead = false ∧
    e.isReadDone = false ∧ e.isWriteDone = false ∧ e ≠ .done := by
  unfold nextWrite
  split
  · exact ⟨_, rfl, rfl, rfl, rfl, by simp⟩
  · exact ⟨_, rfl, rfl, rfl, rfl, by simp⟩

theorem nextWrite_members : c.nextWrite.requests = c.requests ∧ c.nextWrite.response = c.response ∧
    c.nextWrite.done = c.done ∧ c.nextWrite.status = c.status := by
  unfold nextWrite
  split <;> exact ⟨rfl, rfl, rfl, rfl⟩

theorem nextWrite_position (h : c.position ≤ c.requests.length) :
    c.nextWrite.position ≤ c.nextWrite.requests.length := by
  unfold nextWrite
  split
  · rename_i request hnext
    obtain ⟨hlt, -⟩ := List.getElem?_eq_some_iff.mp hnext
    exact hlt
  · exact h

end Chatter

namespace Progress
variable {callbacks : List Callback} {c : Chatter}

theorem fresh (h : Progress callbacks c) (hopen : c.done = false) : c.events.count .done = 0 :=
  h.done.trans (by simp [hopen])

theorem nextWrite (h : Progress callbacks c) (hopen : c.done = false) :
    Progress callbacks c.nextWrite := by
  obtain ⟨e, hevents, hstart, hread, hwrite, hne⟩ := c.nextWrite_events
  obtain ⟨-, hresponse, hdone, hstatus⟩ := c.nextWrite_members
  have hfailed : e ≠ .readDone false := by
    rintro rfl
    cases hread
  constructor
  · exact c.nextWrite_position h.bounded
  · rw [hevents, writesCompleted_other _ hwrite, List.count_cons_of_ne hfailed,
      List.count_cons_of_ne hne]
    exact h.counted
  · rw [hevents, outstandingReads_other _ hstart hread, List.count_cons_of_ne hfailed]
    exact h.listening
  · rw [hresponse]
    exact h.response
  · rw [hevents, List.count_cons_of_ne hne, hdone]
    exact h.done
  · simp [hdone, hopen]
  · simp [hdone, hopen]

theorem start (requests : List DiscoveryRequest) : Progress [] (.start requests) := by
  cases requests with
  | nil => exact ⟨Nat.zero_le _, rfl, rfl, rfl, rfl, (fun h => nomatch h), fun h => nomatch h⟩
  | cons request requests =>
    exact ⟨Nat.le_add_left 1 _, rfl, rfl, rfl, rfl, (fun h => nomatch h), fun h => nomatch h⟩

theorem onWriteDone (h : Progress callbacks c) (hsome : 0 < outstandingWrites c.events) (ok : Bool) :
    Progress (callbacks ++ [.onWriteDone ok]) (c.onWriteDone ok) := by
  have hopen : c.done = false := by
    by_contra hdone
    have hended := (h.ended (by simpa using hdone)).1
    omega
  have hdelivered : delivered (callbacks ++ [.onWriteDone ok]) = delivered callbacks := by
    simp [delivered, Callback.response?]
  have hreads : outstandingReads (.writeDone ok :: c.events) = outstandingReads c.events :=
    outstandingReads_other c.events rfl rfl
  have hcounted := h.counted
  have hlogged : Progress (callbacks ++ [.onWriteDone ok]) (c.log (.writeDone ok)) := by
    constructor
    · exact h.bounded
    · simp only [Chatter.log, writesCompleted_writeDone, hdelivered, List.length_append,
        List.length_singleton, List.count_cons_of_ne (by simp : Event.writeDone ok ≠ .readDone false),
        List.count_cons_of_ne (by simp : Event.writeDone ok ≠ .done)]
      omega
    · simpa [Chatter.log, hreads] using h.listening
    · rw [hdelivered]
      exact h.response
    · simp [Chatter.log, hopen, h.fresh hopen]
    · simp [Chatter.log, hopen]
    · simp [Chatter.log, hopen]
  exact hlogged.nextWrite hopen

/-- The completion of a read. -/
theorem onReadDone (h : Progress callbacks c) (hsome : 0 < outstandingReads c.events)
    (result : Option DiscoveryResponse) :
    Progress (callbacks ++ [.onReadDone result]) (c.onReadDone result) := by
  have hopen : c.done = false := by
    by_contra hdone
    have hended := (h.ended (by simpa using hdone)).2
    omega
  have hcounted := h.counted
  have hlistening := h.listening
  have hended (ok : Bool) : outstandingReads (.readDone ok :: c.events) = 0 := by
    rw [outstandingReads, outstanding_done rfl rfl, ← outstandingReads]
    omega
  cases result with
  | none =>
    have hdelivered : delivered (callbacks ++ [.onReadDone none]) = delivered callbacks := by
      simp [delivered, Callback.response?]
    have hcompleted : writesCompleted (.readDone false :: c.events) = writesCompleted c.events := rfl
    constructor
    · exact h.bounded
    · simp only [Chatter.onReadDone, Chatter.log, hcompleted, hdelivered,
        List.length_append, List.length_singleton, List.count_cons_self,
        List.count_cons_of_ne (by simp : Event.readDone false ≠ .done)]
      omega
    · simp only [Chatter.onReadDone, Chatter.log, hended, List.count_cons_self]
      omega
    · rw [hdelivered]
      exact h.response
    · simp [Chatter.onReadDone, Chatter.log, hopen, h.fresh hopen]
    · simp [Chatter.onReadDone, Chatter.log, hopen]
    · simp [Chatter.onReadDone, Chatter.log, hopen]
  | some response =>
    have hdelivered : delivered (callbacks ++ [.onReadDone (some response)]) =
        delivered callbacks ++ [response] := by
      simp [delivered, Callback.response?]
    have hread : outstandingReads (.startRead :: .readDone true :: c.events) = 1 :=
      congrArg (· + 1) (hended true)
    have hcompleted : writesCompleted (.startRead :: .readDone true :: c.events) =
        writesCompleted c.events := rfl
    constructor
    · exact h.bounded
    · simp only [Chatter.onReadDone, Chatter.log, hcompleted, hdelivered, List.length_append,
        List.length_singleton, List.count_cons_of_ne (by simp : Event.readDone true ≠ .readDone false),
        List.count_cons_of_ne (by simp : Event.readDone true ≠ .done),
        List.count_cons_of_ne (by simp : Event.startRead ≠ .readDone false),
        List.count_cons_of_ne (by simp : Event.startRead ≠ .done)]
      omega
    · simp only [Chatter.onReadDone, Chatter.log, hread,
        List.count_cons_of_ne (by simp : Event.readDone true ≠ .readDone false),
        List.count_cons_of_ne (by simp : Event.startRead ≠ .readDone false)]
      omega
    · rw [hdelivered, List.getLast?_concat]
      rfl
    · simp [Chatter.onReadDone, Chatter.log, hopen, h.fresh hopen]
    · simp [Chatter.onReadDone, Chatter.log, hopen]
    · simp [Chatter.onReadDone, Chatter.log, hopen]

theorem onDone (h : Progress callbacks c) {status : Status}
    (hdeliverable : Deliverable c.events (.onDone status)) :
    Progress (callbacks ++ [.onDone status]) (c.onDone status) := by
  obtain ⟨hwrites, hreads, hfirst⟩ := hdeliverable
  have hdelivered : delivered (callbacks ++ [.onDone status]) = delivered callbacks := by
    simp [delivered, Callback.response?]
  have hreads' : outstandingReads (.done :: c.events) = outstandingReads c.events :=
    outstandingReads_other c.events rfl rfl
  have hwrites' : outstandingWrites (.done :: c.events) = outstandingWrites c.events :=
    outstandingWrites_other c.events rfl rfl
  have hcompleted : writesCompleted (.done :: c.events) = writesCompleted c.events := rfl
  have hcounted := h.counted
  constructor
  · exact h.bounded
  · simp only [Chatter.onDone, Chatter.log, hcompleted, hdelivered,
      List.length_append, List.length_singleton, List.count_cons_self,
      List.count_cons_of_ne (by simp : Event.done ≠ .readDone false)]
    omega
  · simpa [Chatter.onDone, Chatter.log, hreads'] using h.listening
  · rw [hdelivered]
    exact h.response
  · simp [Chatter.onDone, Chatter.log, List.count_eq_zero_of_not_mem hfirst]
  · exact fun _ => ⟨hwrites'.trans hwrites, hreads'.trans hreads⟩
  · exact fun _ => List.mem_append_right _ List.mem_cons_self

end Progress

theorem Reacted.progress {requests : List DiscoveryRequest} {callbacks : List Callback}
    {c : Chatter} (h : Reacted requests callbacks c) : Progress callbacks c := by
  induction h with
  | start => exact Progress.start requests
  | react callback _ hdeliverable ih =>
    cases callback with
    | onWriteDone ok => exact ih.onWriteDone hdeliverable ok
    | onReadDone result => exact ih.onReadDone hdeliverable result
    | onDone status => exact ih.onDone hdeliverable

/-! ## Every order of callbacks -/

/-- Nothing can be delivered exactly when `OnDone` was. -/
theorem Progress.done_iff {callbacks : List Callback} {c : Chatter} (h : Progress callbacks c) :
    c.done = true ↔ ∀ callback, ¬ Deliverable c.events callback := by
  constructor
  · intro hdone callback hdeliverable
    obtain ⟨hwrites, hreads⟩ := h.ended hdone
    have hcount := h.done
    rw [if_pos hdone] at hcount
    have hmem : .done ∈ c.events := List.count_pos_iff.mp (by omega)
    cases callback with
    | onWriteDone ok => exact absurd hdeliverable (by simp [Deliverable, hwrites])
    | onReadDone result => exact absurd hdeliverable (by simp [Deliverable, hreads])
    | onDone status => exact hdeliverable.2.2 hmem
  · intro hstuck
    have hwrites := hstuck (.onWriteDone true)
    have hreads := hstuck (.onReadDone none)
    have hlast := hstuck (.onDone {})
    simp only [Deliverable, not_lt, Nat.le_zero] at hwrites hreads
    have hmem : .done ∈ c.events := by
      by_contra hmem
      exact hlast ⟨hwrites, hreads, hmem⟩
    have hpos := List.count_pos_iff.mpr hmem
    by_contra hopen
    rw [h.done, if_neg hopen] at hpos
    omega

/-- In every order of callbacks: `Await` can return exactly when gRPC has nothing left to
deliver. Then every request was handed over in its order and completed, the stream was
half-closed once, one read failed, and what is left in `response_` is the last response. The
number of callbacks, and all that is returned, depend on the responses and the status alone,
not on how the callbacks were interleaved. -/
theorem chatter_completes (requests : List DiscoveryRequest) (callbacks : List Callback)
    (c : Chatter) (hreacted : Reacted requests callbacks c) :
    (c.await.isSome = true ↔ ∀ callback, ¬ Deliverable c.events callback) ∧
      ∀ status, c.await = some status →
        writesStarted c.events = requests ∧ writesCompleted c.events = requests.length ∧
        c.events.count .startWritesDone = 1 ∧ c.events.count (.readDone false) = 1 ∧
        callbacks.length = requests.length + (delivered callbacks).length + 2 ∧
        c.response = (delivered callbacks).getLast?.getD {} ∧ .onDone status ∈ callbacks := by
  have h := hreacted.progress
  have hdisciplined := hreacted.run.disciplined
  have hsome : c.await.isSome = true ↔ c.done = true := by
    unfold Chatter.await
    split_ifs with hdone <;> simp [hdone]
  refine ⟨hsome.trans h.done_iff, fun status hstatus => ?_⟩
  have hdone : c.done = true := hsome.mp (by simp [hstatus])
  have hreturned : c.status = status := by simpa [Chatter.await, hdone] using hstatus
  obtain ⟨hwrites, hreads⟩ := h.ended hdone
  obtain ⟨-, hlength, hclosed⟩ := hdisciplined.writing.resolve_left fun hw => by omega
  have hbounded := h.bounded
  have hposition := hdisciplined.consistent.counted
  have hfailed := h.listening
  have hcounted := h.counted
  have hlast := h.done
  rw [hdisciplined.consistent.requests_eq] at hbounded
  rw [if_pos hdone] at hlast
  have hclosings := count_startWritesDone_le_one hdisciplined.consistent.ruled
  have hclosing := List.count_pos_iff.mpr hclosed
  refine ⟨?_, by omega, by omega, by omega, by omega, h.response, hreturned ▸ h.status hdone⟩
  rw [hdisciplined.consistent.started, List.take_of_length_le hlength]

/-- The request of `do_something`, with two responses of which one arrives before the write is
completed. -/
theorem chatter_completes_do_something :
    ∃ c callbacks, Reacted [discoveryRequest] callbacks c ∧ c.await = some {} ∧
      c.response = clusterPush ∧ writesCompleted c.events = 1 := by
  have hstart : Reacted [discoveryRequest] [] doSomething := Reacted.start
  have hread := hstart.react (.onReadDone (some {})) (by decide)
  have hwrite := hread.react (.onWriteDone true) (by decide)
  have hlast := hwrite.react (.onReadDone (some clusterPush)) (by decide)
  have hended := hlast.react (.onReadDone none) (by decide)
  have hdone := hended.react (.onDone {}) (by decide)
  obtain ⟨-, hwritten, -, -, -, hresponse, -⟩ := (chatter_completes _ _ _ hdone).2 {} rfl
  exact ⟨_, _, hdone, rfl, hresponse, hwritten⟩

end XdsClient.AsyncAds
