import XdsClient.Ads.Acknowledgement

/-! # The identity of a watch does not matter

A watch is known to its owner by its address, here by its number; nothing that the client says
depends on it. Two multiplexers that differ in the numbers of their watches only stay so under
every call on corresponding watches, and the same passes over their streams.
-/
namespace XdsClient.Ads
open Library

def Op.rename (ρ : ℕ → ℕ) : Op → Op
  | .update watch resources => .update (ρ watch) resources
  | .destroy watch => .destroy (ρ watch)
  | op => op

def Topic.rename (ρ : ℕ → ℕ) (topic : Topic) : Topic :=
  { topic with watches := topic.watches.map ρ }

theorem Topic.rename_ingest (ρ : ℕ → ℕ) (topic : Topic) (message : DiscoveryResponse) :
    (topic.rename ρ).ingest message = (topic.ingest message).rename ρ := by
  simp [Topic.ingest, Topic.rename]

namespace Mux

/-- The same multiplexer with other numbers for its watches, also for those to come. Watches of
`m'` without a number in `m` do not matter: they are in no list. -/
structure Renamed (ρ : ℕ → ℕ) (m m' : Mux) : Prop where
  stub : m'.stub = m.stub
  streaming : m'.streaming = m.streaming
  shutdown : m'.shutdown = m.shutdown
  subscriptions : m'.subscriptions = m.subscriptions
  topics : ∀ typeUrl, m'.topics typeUrl = (m.topics typeUrl).map (Topic.rename ρ)
  watches : ∀ watch, m'.watches (ρ watch) = m.watches watch
  fresh : ∀ k, ρ (m.nextWatch + k) = m'.nextWatch + k

namespace Renamed
variable {ρ : ℕ → ℕ} {m m' : Mux} (h : Renamed ρ m m')
include h

theorem topic (typeUrl : String) : m'.topic typeUrl = (m.topic typeUrl).rename ρ := by
  rw [Mux.topic, h.topics]
  cases ht : m.topics typeUrl <;> simp [Mux.topic, ht, Topic.rename]

theorem names (typeUrl : String) : m'.names typeUrl = m.names typeUrl := by
  simp [Mux.names, h.topic, Topic.rename, List.flatMap_map, h.watches]

theorem request (typeUrl : String) : m'.request typeUrl = m.request typeUrl := by
  simp [Mux.request, h.topic, h.names, Topic.rename]

theorem ask (typeUrl : String) : m'.ask typeUrl = m.ask typeUrl := by
  simp [Mux.ask, h.streaming, h.shutdown, h.request]

theorem answers : m'.answers = m.answers := by
  funext message
  cases ht : m.topics message.typeUrl <;>
    simp [Mux.answers, h.topics, ht, Topic.rename]

/-! ## Assignments -/

theorem alter (typeUrl : String) {f g : Topic → Topic}
    (hfg : ∀ topic, g (topic.rename ρ) = (f topic).rename ρ) :
    Renamed ρ (m.alter typeUrl f) (m'.alter typeUrl g) := by
  refine ⟨h.stub, h.streaming, h.shutdown, h.subscriptions, fun t => ?_, h.watches, h.fresh⟩
  by_cases ht : t = typeUrl
  · simp [Mux.alter, ht, h.topic, hfg]
  · simp [Mux.alter, ht, h.topics]

theorem mark (typeUrl : String) : Renamed ρ (m.mark typeUrl) (m'.mark typeUrl) := by
  have hflag : (m'.topic typeUrl).subscribed = (m.topic typeUrl).subscribed := by
    rw [h.topic]
    rfl
  have halter := h.alter typeUrl (f := fun topic => { topic with subscribed := true })
    (g := fun topic => { topic with subscribed := true }) fun _ => rfl
  unfold Mux.mark
  rw [hflag, h.subscriptions]
  split_ifs
  · exact h
  · exact ⟨h.stub, h.streaming, h.shutdown, rfl, halter.topics, h.watches, h.fresh⟩

theorem ingest (message : DiscoveryResponse) : Renamed ρ (m.ingest message) (m'.ingest message) := by
  refine ⟨h.stub, h.streaming, h.shutdown, h.subscriptions, fun t => ?_, h.watches, h.fresh⟩
  by_cases ht : t = message.typeUrl
  · cases htopic : m.topics message.typeUrl <;>
      simp [Mux.ingest, ht, h.topics, htopic, Topic.rename_ingest]
  · simp [Mux.ingest, ht, h.topics]

theorem foldl_ingest (responses : List DiscoveryResponse) :
    Renamed ρ (responses.foldl Mux.ingest m) (responses.foldl Mux.ingest m') := by
  induction responses generalizing m m' with
  | nil => exact h
  | cons message responses ih => exact ih (h.ingest message)

theorem enter (hρ : Function.Injective ρ) (watch : ℕ) (typeUrl : String)
    (resources : OrderedSet String) :
    Renamed ρ (m.enter watch typeUrl resources) (m'.enter (ρ watch) typeUrl resources) := by
  have halter := h.alter typeUrl (f := fun topic => { topic with watches := watch :: topic.watches })
    (g := fun topic => { topic with watches := ρ watch :: topic.watches })
    fun _ => by simp [Topic.rename]
  refine ⟨h.stub, h.streaming, h.shutdown, h.subscriptions, halter.topics, fun a => ?_, h.fresh⟩
  by_cases ha : a = watch
  · simp [Mux.enter, ha]
  · simp [Mux.enter, ha, hρ.ne ha, Mux.alter, h.watches]

theorem leave (hρ : Function.Injective ρ) (watch : ℕ) (typeUrl : String) :
    Renamed ρ (m.leave watch typeUrl) (m'.leave (ρ watch) typeUrl) := by
  apply h.alter typeUrl
  intro topic
  have hfilter : (topic.watches.map ρ).filter (· ≠ ρ watch) =
      (topic.watches.filter (· ≠ watch)).map ρ := by
    rw [List.filter_map]
    congr 1
    apply List.filter_congr
    intro a _
    simp [hρ.eq_iff]
  simp only [Topic.rename, Topic.mk.injEq, and_true]
  exact hfilter

theorem drop (hρ : Function.Injective ρ) (watch : ℕ) (typeUrl : String) :
    Renamed ρ (m.drop watch typeUrl) (m'.drop (ρ watch) typeUrl) := by
  have hleft := h.leave hρ watch typeUrl
  refine ⟨h.stub, h.streaming, h.shutdown, h.subscriptions, hleft.topics, fun a => ?_, h.fresh⟩
  by_cases ha : a = watch
  · simp [Mux.drop, ha]
  · simp [Mux.drop, ha, hρ.ne ha, h.watches]

/-! ## A stream -/

theorem start : Renamed ρ m.start m'.start := by
  have hcleared : Renamed ρ
      { m with streaming := true, topics := fun t => (m.topics t).map fun topic =>
        { topic with responseNonce := "" } }
      { m' with streaming := true, topics := fun t => (m'.topics t).map fun topic =>
        { topic with responseNonce := "" } } := by
    refine ⟨h.stub, rfl, h.shutdown, h.subscriptions, fun t => ?_, h.watches, h.fresh⟩
    simp [h.topics, Function.comp_def, Topic.rename]
  exact hcleared.alter clusterTypeUrl fun _ => rfl

theorem greeted : Renamed ρ m.greeted m'.greeted := by
  unfold Mux.greeted
  rw [h.shutdown]
  split_ifs
  · exact h.start
  · exact h.start.mark clusterTypeUrl

theorem establish (responses : List DiscoveryResponse) :
    Renamed ρ (m.establish responses) (m'.establish responses) := by
  unfold Mux.establish
  rw [h.shutdown]
  split_ifs
  · exact h.greeted
  · exact h.greeted.foldl_ingest responses

theorem hearing (responses : List DiscoveryResponse) :
    Mux.hearing.output m' responses = Mux.hearing.output m responses := by
  have houtput := Mux.hearing.output_map Mux.hearing id (R := Renamed ρ)
    (fun m m' message h => h.ingest message)
    (fun m m' message h => by simp [Mux.hearing, h.answers, (h.ingest message).request])
    responses m m' h
  rwa [List.map_id] at houtput

theorem conversation (responses : List DiscoveryResponse) :
    m'.conversation responses = m.conversation responses := by
  have hfirst : m'.firstRequest = m.firstRequest := by
    simp [Mux.firstRequest, h.start.request, h.topic, Topic.rename]
  have hpending : m'.pending responses = m.pending responses := by
    simp [Mux.pending, h.greeted.answers, h.greeted.subscriptions]
  simp [Mux.conversation, h.shutdown, hfirst, hpending, h.greeted.hearing,
    (h.establish responses).request]

/-! ## Calls -/

theorem next : Renamed ρ { m with nextWatch := m.nextWatch + 1 }
    { m' with nextWatch := m'.nextWatch + 1 } := by
  refine ⟨h.stub, h.streaming, h.shutdown, h.subscriptions, h.topics, h.watches, fun k => ?_⟩
  have hk := h.fresh (1 + k)
  rwa [← Nat.add_assoc, ← Nat.add_assoc] at hk

theorem perform (hρ : Function.Injective ρ) (op : Op) :
    Renamed ρ (m.perform op) (m'.perform (op.rename ρ)) := by
  cases op with
  | setChannel =>
    exact ⟨rfl, h.streaming, h.shutdown, h.subscriptions, h.topics, h.watches, h.fresh⟩
  | onStreamEstablished outcome =>
    cases outcome with
    | none =>
      simp only [Mux.perform, Op.rename, h.stub]
      split_ifs
      · exact ⟨rfl, rfl, h.shutdown, h.subscriptions, h.topics, h.watches, h.fresh⟩
      · exact h
    | some responses =>
      simp only [Mux.perform, Op.rename, h.stub]
      split_ifs
      · exact h.establish responses
      · exact h
  | addWatch typeUrl resources =>
    have hnumber : ρ m.nextWatch = m'.nextWatch := h.fresh 0
    have hentered := h.next.enter hρ m.nextWatch typeUrl resources
    rw [hnumber] at hentered
    exact hentered.mark typeUrl
  | update watch resources =>
    simp only [Mux.perform, Op.rename, h.watches]
    cases m.watches watch with
    | none => exact h
    | some w => exact (h.leave hρ watch w.1).enter hρ watch w.1 resources
  | destroy watch =>
    simp only [Mux.perform, Op.rename, h.watches]
    cases m.watches watch with
    | none => exact h
    | some w => exact h.drop hρ watch w.1
  | onDiscoveryResponse message => exact h.ingest message
  | shutdown => exact ⟨h.stub, h.streaming, rfl, h.subscriptions, h.topics, h.watches, h.fresh⟩

theorem emit (hρ : Function.Injective ρ) (op : Op) :
    m'.emit (op.rename ρ) = m.emit op := by
  cases op with
  | setChannel => rfl
  | onStreamEstablished outcome =>
    cases outcome with
    | none => simp [Mux.emit, Op.rename, h.stub]
    | some responses => simp [Mux.emit, Op.rename, h.stub, h.conversation]
  | addWatch typeUrl resources => exact (h.perform hρ (.addWatch typeUrl resources)).ask typeUrl
  | update watch resources =>
    simp only [Mux.emit, Op.rename, h.watches]
    cases m.watches watch with
    | none => rfl
    | some w =>
      have hleft := h.leave hρ watch w.1
      simp only [hleft.ask, (hleft.enter hρ watch w.1 resources).ask]
  | destroy watch =>
    simp only [Mux.emit, Op.rename, h.watches]
    cases m.watches watch with
    | none => rfl
    | some w => simp only [(h.drop hρ watch w.1).ask]
  | onDiscoveryResponse message =>
    simp [Mux.emit, Op.rename, h.answers, (h.ingest message).ask]
  | shutdown => simp [Mux.emit, Op.rename, h.streaming]

/-- Nothing that passes over the streams depends on the numbers. -/
theorem output (hρ : Function.Injective ρ) (calls : List Op) :
    Mux.machine.output m' (calls.map (Op.rename ρ)) = Mux.machine.output m calls :=
  Mux.machine.output_map Mux.machine (Op.rename ρ) (fun _ _ op h => perform h hρ op)
    (fun _ _ op h => emit h hρ op) calls m m' h

end Renamed
end Mux
end XdsClient.Ads
