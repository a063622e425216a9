import XdsClient.AsyncAds.Chatter

/-! # The discipline of the reactor

A write is started in the constructor and then only in the reaction to the completion of the
one before, a read likewise. The two halves do not touch each other's members, so each is
described by itself and the order in which completions of the two kinds arrive does not
matter. The write that finds the list used up half-closes the stream; since gRPC has no
completion for that, no further write is tried.
-/
namespace XdsClient.AsyncAds
open Library Ads

/-! ## One event more -/

section Events
variable (events : List Event) {e : Event}

theorem outstandingWrites_startWrite (request : DiscoveryRequest) :
    outstandingWrites (.startWrite request :: events) = outstandingWrites events + 1 :=
  outstanding_start rfl rfl events

theorem outstandingWrites_writeDone (ok : Bool) :
    outstandingWrites (.writeDone ok :: events) = outstandingWrites events - 1 :=
  outstanding_done rfl rfl events

theorem outstandingWrites_other (hstart : e.isStartWrite = false) (hdone : e.isWriteDone = false) :
    outstandingWrites (e :: events) = outstandingWrites events :=
  outstanding_other hstart hdone events

theorem outstandingReads_other (hstart : e.isStartRead = false) (hdone : e.isReadDone = false) :
    outstandingReads (e :: events) = outstandingReads events :=
  outstanding_other hstart hdone events

theorem writesStarted_startWrite (request : DiscoveryRequest) :
    writesStarted (.startWrite request :: events) = writesStarted events ++ [request] := by
  simp [writesStarted, Event.request?]

theorem writesStarted_other (hstart : e.isStartWrite = false) :
    writesStarted (e :: events) = writesStarted events := by
  cases e with
  | startWrite request => cases hstart
  | _ => rfl

theorem writesCompleted_writeDone (ok : Bool) :
    writesCompleted (.writeDone ok :: events) = writesCompleted events + 1 :=
  List.countP_cons_of_pos rfl

theorem writesCompleted_other (hdone : e.isWriteDone = false) :
    writesCompleted (e :: events) = writesCompleted events := by
  simp [writesCompleted, hdone]

end Events

/-- What must have been the case when an operation was started. -/
def Ruled (requests : List DiscoveryRequest) (e : Event) (earlier : List Event) : Prop :=
  match e with
  | .startWrite request =>
    outstandingWrites earlier = 0 ∧ writesStarted earlier ++ [request] <+: requests
  | .startWritesDone =>
    outstandingWrites earlier = 0 ∧ writesStarted earlier = requests ∧ .startWritesDone ∉ earlier
  | .startRead => outstandingReads earlier = 0 ∧ .readDone false ∉ earlier
  | _ => True

section Ruled
variable {requests : List DiscoveryRequest} {events : List Event}

theorem outstandingWrites_le_one (h : Always (Ruled requests) events) :
    outstandingWrites events ≤ 1 := by
  apply outstanding_le_one
  refine h.imp fun e earlier hruled hstart => ?_
  cases e with
  | startWrite request => exact hruled.1
  | _ => cases hstart

theorem outstandingReads_le_one (h : Always (Ruled requests) events) :
    outstandingReads events ≤ 1 := by
  apply outstanding_le_one
  refine h.imp fun e earlier hruled hstart => ?_
  cases e with
  | startRead => exact hruled.1
  | _ => cases hstart

theorem writesStarted_prefix_of_ruled (h : Always (Ruled requests) events) :
    writesStarted events <+: requests := by
  induction events with
  | nil => exact List.nil_prefix
  | cons e earlier ih =>
    cases e with
    | startWrite request =>
      rw [writesStarted_startWrite]
      exact h.1.2
    | _ => exact ih h.2

theorem count_startWritesDone_le_one (h : Always (Ruled requests) events) :
    events.count .startWritesDone ≤ 1 := by
  induction events with
  | nil => simp
  | cons e earlier ih =>
    by_cases hclose : e = .startWritesDone
    · subst hclose
      rw [List.count_cons_self, List.count_eq_zero_of_not_mem h.1.2.2]
    · rw [List.count_cons_of_ne hclose]
      exact ih h.2

end Ruled

/-! ## The half that writes -/

structure Consistent (requests : List DiscoveryRequest) (c : Chatter) : Prop where
  requests_eq : c.requests = requests
  ruled : Always (Ruled requests) c.events
  started : writesStarted c.events = requests.take c.position
  counted : writesCompleted c.events + outstandingWrites c.events = c.position

/-- A write is in flight, or the list is used up and the stream half-closed. -/
def Writing (requests : List DiscoveryRequest) (c : Chatter) : Prop :=
  (outstandingWrites c.events = 1 ∧ .startWritesDone ∉ c.events) ∨
    (outstandingWrites c.events = 0 ∧ requests.length ≤ c.position ∧ .startWritesDone ∈ c.events)

namespace Chatter
variable {requests : List DiscoveryRequest} {c : Chatter}

theorem log_consistent (h : Consistent requests c) {e : Event} (hruled : Ruled requests e c.events)
    (hstart : e.isStartWrite = false) (hdone : e.isWriteDone = false) :
    Consistent requests (c.log e) where
  requests_eq := h.requests_eq
  ruled := ⟨hruled, h.ruled⟩
  started := (writesStarted_other c.events hstart).trans h.started
  counted := by
    simp only [log, writesCompleted_other c.events hdone, outstandingWrites_other c.events hstart hdone]
    exact h.counted

theorem log_writing (h : Writing requests c) {e : Event} (hstart : e.isStartWrite = false)
    (hdone : e.isWriteDone = false) (hclose : e ≠ .startWritesDone) : Writing requests (c.log e) := by
  have hmem : Event.startWritesDone ∈ (c.log e).events ↔ .startWritesDone ∈ c.events := by
    simp [log, Ne.symm hclose]
  have hcount : outstandingWrites (c.log e).events = outstandingWrites c.events :=
    outstandingWrites_other c.events hstart hdone
  rw [Writing, hmem, hcount]
  exact h

/-- `NextWrite` when no write is in flight and the stream is still open. -/
theorem nextWrite_writing (h : Consistent requests c) (hnone : outstandingWrites c.events = 0)
    (hopen : .startWritesDone ∉ c.events) :
    Consistent requests c.nextWrite ∧ Writing requests c.nextWrite := by
  cases hnext : requests[c.position]? with
  | some request =>
    have heq : c.nextWrite = { c.log (.startWrite request) with position := c.position + 1 } := by
      simp [nextWrite, h.requests_eq, hnext]
    have htake : requests.take (c.position + 1) = writesStarted c.events ++ [request] := by
      rw [h.started, List.take_add_one, hnext]
      rfl
    rw [heq]
    constructor
    · refine ⟨h.requests_eq, ⟨⟨hnone, ?_⟩, h.ruled⟩, ?_, ?_⟩
      · rw [← htake]
        exact List.take_prefix _ requests
      · exact (writesStarted_startWrite c.events request).trans htake.symm
      · have hcounted := h.counted
        have hcompleted : writesCompleted (.startWrite request :: c.events) =
            writesCompleted c.events := writesCompleted_other c.events rfl
        simp only [log, outstandingWrites_startWrite, hcompleted]
        omega
    · left
      refine ⟨?_, by simpa [log] using hopen⟩
      exact (outstandingWrites_startWrite c.events request).trans (by rw [hnone])
  | none =>
    have heq : c.nextWrite = c.log .startWritesDone := by
      simp [nextWrite, h.requests_eq, hnext]
    have hlength : requests.length ≤ c.position := List.getElem?_eq_none_iff.mp hnext
    have hall : writesStarted c.events = requests := by
      rw [h.started, List.take_of_length_le hlength]
    rw [heq]
    refine ⟨log_consistent h ⟨hnone, hall, hopen⟩ rfl rfl, Or.inr ⟨?_, hlength, List.mem_cons_self⟩⟩
    exact (outstandingWrites_other c.events rfl rfl).trans hnone

theorem onWriteDone_writing (h : Consistent requests c) (hwriting : Writing requests c)
    (hsome : 0 < outstandingWrites c.events) (ok : Bool) :
    Consistent requests (c.onWriteDone ok) ∧ Writing requests (c.onWriteDone ok) := by
  obtain ⟨hone, hopen⟩ := hwriting.resolve_right (fun h => by omega)
  have hdone : Consistent requests (c.log (.writeDone ok)) := by
    refine ⟨h.requests_eq, ⟨trivial, h.ruled⟩, h.started, ?_⟩
    have hcounted := h.counted
    simp only [log, writesCompleted_writeDone, outstandingWrites_writeDone]
    omega
  apply nextWrite_writing hdone
  · simp only [log, outstandingWrites_writeDone, hone]
  · simpa [log] using hopen

end Chatter

/-! ## The half that reads -/

/-- A read is in flight and none has failed, or none is in flight. -/
def Reading (c : Chatter) : Prop :=
  outstandingReads c.events = 0 ∨ (outstandingReads c.events = 1 ∧ .readDone false ∉ c.events)

namespace Chatter
variable {requests : List DiscoveryRequest} {c : Chatter}

theorem log_reading (h : Reading c) {e : Event} (hstart : e.isStartRead = false)
    (hdone : e.isReadDone = false) : Reading (c.log e) := by
  have hne : Event.readDone false ≠ e := by
    rintro rfl
    cases hdone
  simpa [Reading, log, outstandingReads_other c.events hstart hdone, hne] using h

theorem nextWrite_reading (h : Reading c) : Reading c.nextWrite := by
  unfold nextWrite
  split
  · exact log_reading h rfl rfl
  · exact log_reading h rfl rfl

end Chatter

/-! ## Both halves over every run -/

structure Disciplined (requests : List DiscoveryRequest) (c : Chatter) : Prop where
  consistent : Consistent requests c
  writing : Writing requests c
  reading : Reading c

namespace Disciplined
variable {requests : List DiscoveryRequest} {c : Chatter}

theorem start (requests : List DiscoveryRequest) : Disciplined requests (.start requests) := by
  have hempty : Consistent requests { requests := requests } :=
    ⟨rfl, trivial, by simp [writesStarted], rfl⟩
  obtain ⟨hconsistent, hwriting⟩ := Chatter.nextWrite_writing hempty rfl (by simp)
  have hnoRead : outstandingReads (Chatter.nextWrite { requests := requests }).events = 0 ∧
      .readDone false ∉ (Chatter.nextWrite { requests := requests }).events := by
    unfold Chatter.nextWrite
    split <;> exact ⟨rfl, by simp [Chatter.log]⟩
  constructor
  · have hread := Chatter.log_consistent (e := .startRead) hconsistent hnoRead rfl rfl
    exact Chatter.log_consistent (e := .startCall) hread trivial rfl rfl
  · have hread := Chatter.log_writing (e := .startRead) hwriting rfl rfl (by simp)
    exact Chatter.log_writing (e := .startCall) hread rfl rfl (by simp)
  · right
    refine ⟨?_, by simpa [Chatter.start, Chatter.log] using hnoRead.2⟩
    exact congrArg (· + 1) hnoRead.1

theorem onReadDone (h : Disciplined requests c) (hsome : 0 < outstandingReads c.events)
    (result : Option DiscoveryResponse) : Disciplined requests (c.onReadDone result) := by
  obtain ⟨hone, hnone⟩ := h.reading.resolve_left (by omega)
  have hended (ok : Bool) : outstandingReads (.readDone ok :: c.events) = 0 := by
    rw [outstandingReads, outstanding_done rfl rfl, ← outstandingReads, hone]
  have hdone (c : Chatter) (ok : Bool) (hc : Consistent requests c) :=
    Chatter.log_consistent (e := .readDone ok) hc trivial rfl rfl
  cases result with
  | none =>
    exact ⟨hdone c false h.consistent, Chatter.log_writing h.writing rfl rfl (by simp),
      Or.inl (hended false)⟩
  | some response =>
    have hfilled : Consistent requests { c with response := response } :=
      ⟨h.consistent.requests_eq, h.consistent.ruled, h.consistent.started, h.consistent.counted⟩
    have hnone' : Event.readDone false ∉ Event.readDone true :: c.events := by simpa using hnone
    refine ⟨Chatter.log_consistent (hdone _ true hfilled) ⟨hended true, hnone'⟩ rfl rfl, ?_, ?_⟩
    · have hlogged := Chatter.log_writing (e := .readDone true) h.writing rfl rfl (by simp)
      exact Chatter.log_writing (e := .startRead) hlogged rfl rfl (by simp)
    · right
      refine ⟨congrArg (· + 1) (hended true), ?_⟩
      simpa [Chatter.onReadDone, Chatter.log] using hnone

theorem react (h : Disciplined requests c) {callback : Callback}
    (hdeliverable : Deliverable c.events callback) : Disciplined requests (c.react callback) := by
  cases callback with
  | onWriteDone ok =>
    obtain ⟨hconsistent, hwriting⟩ :=
      Chatter.onWriteDone_writing h.consistent h.writing hdeliverable ok
    exact ⟨hconsistent, hwriting, Chatter.nextWrite_reading (Chatter.log_reading h.reading rfl rfl)⟩
  | onReadDone result => exact h.onReadDone hdeliverable result
  | onDone status =>
    have hlogged := Chatter.log_consistent (e := .done) h.consistent trivial rfl rfl
    exact ⟨⟨hlogged.requests_eq, hlogged.ruled, hlogged.started, hlogged.counted⟩,
      Chatter.log_writing (e := .done) h.writing rfl rfl (by simp),
      Chatter.log_reading (e := .done) h.reading rfl rfl⟩

end Disciplined

theorem ChatterRun.disciplined {requests : List DiscoveryRequest} {c : Chatter}
    (h : ChatterRun requests c) : Disciplined requests c := by
  induction h with
  | start => exact Disciplined.start requests
  | react callback _ hdeliverable ih => exact ih.react hdeliverable

/-- When `k` writes are completed, the first `k + 1` requests have been handed over. -/
theorem Disciplined.started_eq {requests : List DiscoveryRequest} {c : Chatter}
    (h : Disciplined requests c) :
    writesStarted c.events = requests.take (writesCompleted c.events + 1) := by
  have hcounted := h.consistent.counted
  rw [h.consistent.started]
  rcases h.writing with ⟨hone, -⟩ | ⟨hnone, hlength, -⟩
  · rw [← hcounted, hone]
  · rw [List.take_of_length_le hlength, List.take_of_length_le (by omega)]

/-- Over every order of callbacks: at most one write and one read are ever in flight, the
requests are handed to `StartWrite` in the order of the list and each once, the stream is
half-closed at most once and after the last write is completed, and no read is started after
one has failed. -/
theorem chatter_discipline (requests : List DiscoveryRequest) (c : Chatter)
    (hrun : ChatterRun requests c) :
    (∀ past, past <:+ c.events → outstandingWrites past ≤ 1 ∧ outstandingReads past ≤ 1 ∧
      writesStarted past <+: requests ∧ past.count .startWritesDone ≤ 1) ∧
    writesStarted c.events = requests.take (writesCompleted c.events + 1) ∧
    (outstandingWrites c.events = 0 →
      writesStarted c.events = requests ∧ .startWritesDone ∈ c.events) ∧
    (∀ later earlier, c.events = later ++ .startWritesDone :: earlier →
      outstandingWrites earlier = 0 ∧ writesStarted earlier = requests) ∧
    ∀ later earlier, c.events = later ++ .startRead :: earlier → .readDone false ∉ earlier := by
  have h := hrun.disciplined
  have hsplit := (always_iff_forall_split _ _).mp h.consistent.ruled
  refine ⟨fun past hsuffix => ?_, h.started_eq, fun hnone => ?_, ?_, ?_⟩
  · have hruled := h.consistent.ruled.suffix hsuffix
    exact ⟨outstandingWrites_le_one hruled, outstandingReads_le_one hruled,
      writesStarted_prefix_of_ruled hruled, count_startWritesDone_le_one hruled⟩
  · obtain ⟨-, hlength, hclosed⟩ := h.writing.resolve_left (fun h => by omega)
    refine ⟨?_, hclosed⟩
    rw [h.consistent.started, List.take_of_length_le hlength]
  · intro later earlier heq
    obtain ⟨hnone, hall, -⟩ := hsplit later _ earlier heq
    exact ⟨hnone, hall⟩
  · intro later earlier heq
    exact (hsplit later _ earlier heq).2

/-- Two requests, the first of which fails to be written, and one response before the stream
ends. -/
theorem chatter_discipline_two_requests :
    ∃ c, ChatterRun [discoveryRequest, {}] c ∧ c.await = some {} ∧
      writesStarted c.events = [discoveryRequest, {}] ∧ .startWritesDone ∈ c.events := by
  have hstart := @ChatterRun.start [discoveryRequest, {}]
  have hread := hstart.react (.onReadDone (some clusterPush)) (by decide)
  have hwrite := hread.react (.onWriteDone false) (by decide)
  have hended := hwrite.react (.onReadDone none) (by decide)
  have hlast := hended.react (.onWriteDone true) (by decide)
  have hdone := hlast.react (.onDone {}) (by decide)
  obtain ⟨hstarted, hclosed⟩ := (chatter_discipline _ _ hdone).2.2.1 (by decide)
  exact ⟨_, hdone, rfl, hstarted, hclosed⟩

end XdsClient.AsyncAds
