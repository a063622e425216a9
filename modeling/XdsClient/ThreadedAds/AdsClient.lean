import XdsClient.Ads.Messages
import XdsClient.Library.Schedule

/-! # The client with a thread for writing

`AggregatedDiscoveryService` of the first client hands the stream to a second thread, which
writes one request and half-closes, while the calling thread reads until the stream ends, waits
for the other thread and finishes the call. The two threads share nothing but the stream, so
a state of the client is where each of them is, and what each has done so far.
-/
namespace XdsClient.ThreadedAds
open Library Ads

def discoveryRequest : DiscoveryRequest where
  versionInfo := "" ++ ""
  node := some { cluster := "" ++ "test-cluster", id := "" ++ "test-id" }
  typeUrl := "" ++ "type.googleapis.com/envoy.config.cluster.v3.Cluster"

/-- A line on the console. The bytes of a resource need not be text. -/
inductive Line where
  | text (label value : String)
  | bytes (label : String) (value : List UInt8)
  deriving DecidableEq

/-- What `value().c_str()` prints of the bytes. -/
def cStr (value : List UInt8) : List UInt8 := value.takeWhile (· ≠ 0)

/-- The body of the read loop. -/
def printResponse (response : DiscoveryResponse) : List Line :=
  [.text "version-info : " response.versionInfo, .text "nonce : " response.nonce,
    .text "type-url : " response.typeUrl, .text "Resources : " ""] ++
  response.resources.flatMap fun resource =>
    [.text "  Resource Type URL: " resource.typeUrl,
      .bytes "  Resource Type value: " (cStr resource.value)]

/-- `if(!status.ok())` after the call is finished. -/
def printStatus (ok : Bool) : List Line := if ok then [] else [.text "rpc failed" ""]

inductive Call where
  | write (request : DiscoveryRequest)
  | writesDone
  | read (result : Option DiscoveryResponse)
  | finish (ok : Bool)
  deriving DecidableEq

inductive WriterAt where
  | write
  | writesDone
  | exited
  deriving DecidableEq

inductive ReaderAt where
  | read
  | join
  | finish
  | returned
  deriving DecidableEq

/-- `stream` is what `Read` has still to deliver, `status` what `Finish` will return. -/
@[ext] structure AdsClient where
  stream : List DiscoveryResponse
  status : Bool
  writer : WriterAt := .write
  reader : ReaderAt := .read
  written : List Call := []
  received : List Call := []
  console : List Line := []

/-- One step of one of the threads. `join` waits for the writing thread. -/
inductive Step : AdsClient → AdsClient → Prop
  | write {c : AdsClient} : c.writer = .write →
      Step c { c with writer := .writesDone, written := c.written ++ [.write discoveryRequest] }
  | writesDone {c : AdsClient} : c.writer = .writesDone →
      Step c { c with writer := .exited, written := c.written ++ [.writesDone] }
  | read {c : AdsClient} {response : DiscoveryResponse} {rest : List DiscoveryResponse} :
      c.reader = .read → c.stream = response :: rest →
      Step c { c with
        stream := rest
        received := c.received ++ [.read (some response)]
        console := c.console ++ printResponse response }
  | readFalse {c : AdsClient} : c.reader = .read → c.stream = [] →
      Step c { c with reader := .join, received := c.received ++ [.read none] }
  | join {c : AdsClient} : c.reader = .join → c.writer = .exited → Step c { c with reader := .finish }
  | finish {c : AdsClient} : c.reader = .finish →
      Step c { c with
        reader := .returned
        received := c.received ++ [.finish c.status]
        console := c.console ++ printStatus c.status }

def AdsClient.start (responses : List DiscoveryResponse) (ok : Bool) : AdsClient where
  stream := responses
  status := ok

/-- The end of every schedule: one request, every response in order, then the status. -/
def AdsClient.returned (responses : List DiscoveryResponse) (ok : Bool) : AdsClient where
  stream := []
  status := ok
  writer := .exited
  reader := .returned
  written := [.write discoveryRequest, .writesDone]
  received := responses.map (fun response => .read (some response)) ++ [.read none, .finish ok]
  console := responses.flatMap printResponse ++ printStatus ok

/-! ## Each thread keeps to its own text -/

section Threads
variable (responses : List DiscoveryResponse) (ok : Bool)

def WriterAt.done : WriterAt → List Call
  | .write => []
  | .writesDone => [.write discoveryRequest]
  | .exited => [.write discoveryRequest, .writesDone]

def ReaderAt.done : ReaderAt → List Call
  | .read => []
  | .join => [.read none]
  | .finish => [.read none]
  | .returned => [.read none, .finish ok]

structure InStep (c : AdsClient) : Prop where
  status : c.status = ok
  written : c.written = c.writer.done
  /-- The responses read so far and those to come. -/
  delivered : ∃ taken, taken ++ c.stream = responses ∧
    c.received = taken.map (fun response => .read (some response)) ++ c.reader.done ok ∧
    c.console = taken.flatMap printResponse ++ if c.reader = .returned then printStatus ok else []
  drained : c.reader ≠ .read → c.stream = []
  joined : c.reader = .finish ∨ c.reader = .returned → c.writer = .exited

def AdsClient.left (c : AdsClient) : ℕ :=
  (match c.writer with
    | .write => 2
    | .writesDone => 1
    | .exited => 0) +
  match c.reader with
    | .read => c.stream.length + 3
    | .join => 2
    | .finish => 1
    | .returned => 0

variable {responses ok}

theorem inStep_start : InStep responses ok (.start responses ok) where
  status := rfl
  written := rfl
  delivered := ⟨[], rfl, rfl, rfl⟩
  drained := by simp [AdsClient.start]
  joined := by simp [AdsClient.start]

theorem Step.inStep {c c' : AdsClient} (hstep : Step c c') (h : InStep responses ok c) :
    InStep responses ok c' := by
  obtain ⟨taken, hstream, hreceived, hconsole⟩ := h.delivered
  cases hstep with
  | write hwriter =>
    refine ⟨h.status, ?_, h.delivered, h.drained, fun hreader => ?_⟩
    · rw [h.written, hwriter]
      rfl
    · simp [h.joined hreader] at hwriter
  | writesDone hwriter =>
    refine ⟨h.status, ?_, h.delivered, h.drained, fun _ => rfl⟩
    rw [h.written, hwriter]
    rfl
  | @read response rest hreader hnext =>
    refine ⟨h.status, h.written, ⟨taken ++ [response], ?_, ?_, ?_⟩, ?_, h.joined⟩
    · rw [List.append_assoc, List.singleton_append, ← hnext, hstream]
    · simp [hreceived, hreader, ReaderAt.done]
    · simp [hconsole, hreader]
    · exact fun hne => absurd hreader hne
  | readFalse hreader hnext =>
    refine ⟨h.status, h.written, ⟨taken, hstream, ?_, ?_⟩, fun _ => hnext, by simp⟩
    · simp [hreceived, hreader, ReaderAt.done]
    · simp [hconsole, hreader]
  | join hreader hwriter =>
    refine ⟨h.status, h.written, ⟨taken, hstream, ?_, ?_⟩, fun _ => h.drained (by simp [hreader]),
      fun _ => hwriter⟩
    · simp [hreceived, hreader, ReaderAt.done]
    · simp [hconsole, hreader]
  | finish hreader =>
    refine ⟨h.status, h.written, ⟨taken, hstream, ?_, ?_⟩, fun _ => h.drained (by simp [hreader]),
      fun _ => h.joined (Or.inl hreader)⟩
    · simp [hreceived, hreader, ReaderAt.done, h.status]
    · simp [hconsole, hreader, h.status]

theorem Step.left_eq {c c' : AdsClient} (hstep : Step c c') : c.left = c'.left + 1 := by
  cases hstep with
  | write hwriter =>
    simp only [AdsClient.left, hwriter]
    omega
  | writesDone hwriter =>
    simp only [AdsClient.left, hwriter]
    omega
  | read hreader hnext =>
    simp only [AdsClient.left, hreader, hnext, List.length_cons]
    omega
  | readFalse hreader hnext =>
    simp only [AdsClient.left, hreader, hnext, List.length_nil]
  | join hreader hwriter => simp only [AdsClient.left, hreader]
  | finish hreader => simp only [AdsClient.left, hreader]

/-- Some thread can go on as long as a step is left: the calling thread never waits for one
that waits for it. -/
theorem exists_step {c : AdsClient} (hleft : 0 < c.left) : ∃ c', Step c c' := by
  cases hwriter : c.writer with
  | write => exact ⟨_, .write hwriter⟩
  | writesDone => exact ⟨_, .writesDone hwriter⟩
  | exited =>
    cases hreader : c.reader with
    | read =>
      cases hstream : c.stream with
      | nil => exact ⟨_, .readFalse hreader hstream⟩
      | cons response rest => exact ⟨_, .read hreader hstream⟩
    | join => exact ⟨_, .join hreader hwriter⟩
    | finish => exact ⟨_, .finish hreader⟩
    | returned => simp [AdsClient.left, hwriter, hreader] at hleft

theorem InStep.eq_returned {c : AdsClient} (h : InStep responses ok c) (hleft : c.left = 0) :
    c = .returned responses ok := by
  have hreader : c.reader = .returned := by
    cases hreader : c.reader <;> simp [AdsClient.left, hreader] at hleft ⊢
  have hwriter := h.joined (Or.inr hreader)
  have hstream := h.drained (by simp [hreader])
  obtain ⟨taken, htaken, hreceived, hconsole⟩ := h.delivered
  rw [hstream, List.append_nil] at htaken
  subst htaken
  ext1
  · exact hstream
  · exact h.status
  · exact hwriter
  · exact hreader
  · rw [h.written, hwriter]
    rfl
  · rw [hreceived, hreader]
    rfl
  · rw [hconsole, hreader]
    rfl

end Threads

/-! ## Every schedule -/

/-- Whatever the order of the threads' steps: the writing thread writes its one request and then
half-closes, the calling thread reads in order and finishes the call only when both halves of
the stream are done. -/
theorem threads_share_stream (responses : List DiscoveryResponse) (ok : Bool) (n : ℕ) (c : AdsClient)
    (hrun : Steps Step (.start responses ok) n c) :
    c.written <+: [.write discoveryRequest, .writesDone] ∧
      c.received <+: (AdsClient.returned responses ok).received ∧
      (.finish ok ∈ c.received → c.written = [.write discoveryRequest, .writesDone] ∧
        .read none ∈ c.received) := by
  have h : InStep responses ok c := hrun.invariant (fun _ _ => Step.inStep) inStep_start
  obtain ⟨taken, hstream, hreceived, -⟩ := h.delivered
  refine ⟨?_, ?_, fun hfinish => ?_⟩
  · rw [h.written]
    cases c.writer with
    | write => exact List.nil_prefix
    | writesDone => exact ⟨[.writesDone], rfl⟩
    | exited => exact List.prefix_rfl
  · rw [hreceived]
    cases hreader : c.reader with
    | read =>
      rw [← hstream, ReaderAt.done, List.append_nil, AdsClient.returned, List.map_append,
        List.append_assoc]
      exact List.prefix_append _ _
    | _ =>
      have hempty := h.drained (by simp [hreader])
      rw [hempty, List.append_nil] at hstream
      rw [hstream, AdsClient.returned, List.prefix_append_right_inj]
      simp [ReaderAt.done]
  · have hreader : c.reader = .returned := by
      cases hreader : c.reader <;> simp_all [ReaderAt.done]
    rw [h.written, h.joined (Or.inr hreader), hreceived, hreader]
    exact ⟨rfl, by simp [ReaderAt.done]⟩

/-- A response is read before the request is written. -/
theorem threads_share_stream_read_first :
    ∃ c, Steps Step (.start [clusterPush] true) 2 c ∧ c.received = [.read (some clusterPush)] ∧
      c.written <+: [.write discoveryRequest, .writesDone] := by
  have hstart : Steps Step (.start [clusterPush] true) 0 (.start [clusterPush] true) := .refl
  have hrun := (hstart.tail (Step.read rfl rfl)).tail (Step.write rfl)
  exact ⟨_, hrun, rfl, (threads_share_stream [clusterPush] true 2 _ hrun).1⟩

/-- Whatever the order of the threads' steps: as long as the call has not returned some thread
can go on, after as many steps as there are responses and five more it has returned, and it has
then written, read and printed the same in every order. -/
theorem threads_always_return (responses : List DiscoveryResponse) (ok : Bool) (n : ℕ)
    (c : AdsClient) (hrun : Steps Step (.start responses ok) n c) :
    n ≤ responses.length + 5 ∧
      ((∀ c', ¬ Step c c') ↔ n = responses.length + 5) ∧
      (n = responses.length + 5 → c = .returned responses ok) := by
  have hkept : InStep responses ok c := hrun.invariant (fun _ _ => Step.inStep) inStep_start
  have hcount := hrun.add_left fun _ _ hstep => Step.left_eq hstep
  have hstart : (AdsClient.start responses ok).left = responses.length + 5 := by
    simp only [AdsClient.left, AdsClient.start]
    omega
  have hstuck := stuck_iff_left_eq_zero (fun _ => Step.left_eq) (exists_step (c := c))
  refine ⟨by omega, ?_, fun hn => hkept.eq_returned (by omega)⟩
  rw [hstuck]
  omega

/-- The stream ends before the request is written, and the call fails. -/
theorem threads_always_return_failed :
    ∃ c, Steps Step (.start [] false) 5 c ∧ c.console = [.text "rpc failed" ""] := by
  have hstart : Steps Step (.start [] false) 0 (.start [] false) := .refl
  have hread := hstart.tail (Step.readFalse rfl rfl)
  have hwrite := (hread.tail (Step.write rfl)).tail (Step.writesDone rfl)
  have hrun := (hwrite.tail (Step.join rfl rfl)).tail (Step.finish rfl)
  have hreturned := (threads_always_return [] false 5 _ hrun).2.2 rfl
  exact ⟨_, hrun, by rw [hreturned]; rfl⟩

end XdsClient.ThreadedAds
