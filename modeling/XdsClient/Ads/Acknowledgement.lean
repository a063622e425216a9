import XdsClient.Ads.Nonce
import XdsClient.Ads.Traffic

/-! # Responses are acknowledged in the end

While a stream delivers its responses the client answers with requests for the wrong type. What
it owes the server is settled when the call returns: the last request for every subscribed
type carries the nonce of the last response for that type. The argument is one about the
multiplexer, whose calls change a nonce only by writing it out afterwards.
-/
namespace XdsClient.Ads
open Library Session

/-- The last request for the type, after one more thing has passed. -/
def Wire.tell (typeUrl : String) (last : Option DiscoveryRequest) : Wire → Option DiscoveryRequest
  | .opened _ => none
  | .request r => if r.typeUrl = typeUrl then some r else last
  | _ => last

/-- The last request for the type since a stream was last asked for. -/
def lastRequest (typeUrl : String) (spoken : List Wire) : Option DiscoveryRequest :=
  spoken.foldl (Wire.tell typeUrl) none

def Topic.Told (topic : Topic) (request : DiscoveryRequest) : Prop :=
  request.versionInfo = topic.versionInfo ∧ request.responseNonce = topic.responseNonce

namespace Mux

theorem request_told {m : Mux} {typeUrl : String} {topic : Topic}
    (h : m.topics typeUrl = some topic) : topic.Told (m.request typeUrl) := by
  rw [← topic_of_some h]
  exact ⟨rfl, rfl⟩

theorem lastRequest_ask (m : Mux) (typeUrl asked : String) (spoken : List Wire)
    (hstreaming : m.streaming = true) (hdown : m.shutdown = false) :
    lastRequest typeUrl (spoken ++ m.ask asked) =
      if asked = typeUrl then some (m.request asked) else lastRequest typeUrl spoken := by
  rw [lastRequest, List.foldl_append, ask, if_pos (by simp [hstreaming, hdown])]
  rfl

theorem lastRequest_round (m : Mux) (typeUrl : String) (l : List String) (spoken : List Wire)
    (ht : typeUrl ∈ l) : lastRequest typeUrl (spoken ++ l.map fun t => .request (m.request t)) =
      some (m.request typeUrl) := by
  have hrest (l : List String) (last : Option DiscoveryRequest)
      (hlast : typeUrl ∈ l ∨ last = some (m.request typeUrl)) :
      (l.map fun t => Wire.request (m.request t)).foldl (Wire.tell typeUrl) last =
        some (m.request typeUrl) := by
    induction l generalizing last with
    | nil => simpa using hlast
    | cons t l ih =>
      apply ih
      by_cases htt : t = typeUrl
      · right
        simp [Wire.tell, htt]
      · simpa [Wire.tell, htt, Ne.symm htt] using hlast
  rw [lastRequest, List.foldl_append]
  exact hrest l _ (Or.inl ht)

/-! ## The invariant -/

/-- While the client sends, the last request for each subscribed type is up to date. -/
def Acknowledged (m : Mux) (spoken : List Wire) : Prop :=
  m.streaming = true → m.shutdown = false → ∀ typeUrl topic, m.topics typeUrl = some topic →
    topic.subscribed = true → ∃ r, lastRequest typeUrl spoken = some r ∧ topic.Told r

/-- The list starts with the type of every stream, and what is subscribed comes after it. -/
def Listed (m : Mux) : Prop :=
  ∃ rest, m.subscriptions = clusterTypeUrl :: rest ∧
    ∀ typeUrl, (m.topic typeUrl).subscribed = true → typeUrl ∈ rest

/-- The assignment leaves the nonce, the version and the subscription of its type alone. -/
def Keeps (f : Topic → Topic) : Prop :=
  ∀ topic, (f topic).versionInfo = topic.versionInfo ∧
    (f topic).responseNonce = topic.responseNonce ∧ (f topic).subscribed = topic.subscribed

theorem topics_of_subscribed {m : Mux} {typeUrl : String}
    (h : (m.topic typeUrl).subscribed = true) : m.topics typeUrl = some (m.topic typeUrl) := by
  cases htopics : m.topics typeUrl with
  | none => simp [topic, htopics] at h
  | some topic => simp [Mux.topic, htopics]

namespace Acknowledged
variable {m : Mux} {spoken : List Wire}

theorem alter (h : m.Acknowledged spoken) (typeUrl : String) {f : Topic → Topic} (hf : Keeps f) :
    (m.alter typeUrl f).Acknowledged spoken := by
  intro hstreaming hdown t topic htopic hsub
  have hself := topic_of_some htopic
  rw [alter_topic] at hself
  by_cases ht : t = typeUrl
  · rw [if_pos ht] at hself
    rw [← hself, (hf _).2.2] at hsub
    obtain ⟨r, hlast, hversion, hnonce⟩ := h hstreaming hdown t _ (topics_of_subscribed hsub) hsub
    refine ⟨r, hlast, ?_, ?_⟩
    · rw [hversion, ← hself, (hf _).1]
    · rw [hnonce, ← hself, (hf _).2.1]
  · have hsame : m.topics t = some topic := by simpa [Mux.alter, ht] using htopic
    exact h hstreaming hdown t topic hsame hsub

theorem of_others (typeUrl : String)
    (h : m.streaming = true → m.shutdown = false → ∀ t topic, t ≠ typeUrl →
      m.topics t = some topic → topic.subscribed = true →
      ∃ r, lastRequest t spoken = some r ∧ topic.Told r) :
    m.Acknowledged (spoken ++ m.ask typeUrl) := by
  intro hstreaming hdown t topic htopic hsub
  rw [lastRequest_ask m t typeUrl spoken hstreaming hdown]
  by_cases ht : typeUrl = t
  · subst ht
    exact ⟨_, if_pos rfl, request_told htopic⟩
  · rw [if_neg ht]
    exact h hstreaming hdown t topic (Ne.symm ht) htopic hsub

theorem ask (h : m.Acknowledged spoken) (typeUrl : String) :
    m.Acknowledged (spoken ++ m.ask typeUrl) :=
  of_others typeUrl fun hstreaming hdown t topic _ htopic hsub =>
    h hstreaming hdown t topic htopic hsub

theorem mark_ask (h : m.Acknowledged spoken) (typeUrl : String) :
    (m.mark typeUrl).Acknowledged (spoken ++ (m.mark typeUrl).ask typeUrl) := by
  cases hsub : (m.topic typeUrl).subscribed with
  | true =>
    have hsame : m.mark typeUrl = m := by simp [Mux.mark, hsub]
    rw [hsame]
    exact h.ask typeUrl
  | false =>
    apply of_others
    intro hstreaming hdown t topic ht htopic htsub
    have hstreaming' : m.streaming = true := by simpa [Mux.mark, hsub, Mux.alter] using hstreaming
    have hdown' : m.shutdown = false := by simpa [Mux.mark, hsub, Mux.alter] using hdown
    have htopic' : m.topics t = some topic := by
      simpa [Mux.mark, hsub, Mux.alter, ht] using htopic
    exact h hstreaming' hdown' t topic htopic' htsub

end Acknowledged

namespace Listed
variable {m : Mux}

theorem alter (h : m.Listed) (typeUrl : String) {f : Topic → Topic} (hf : Keeps f) :
    (m.alter typeUrl f).Listed := by
  obtain ⟨rest, hrest, hlisted⟩ := h
  refine ⟨rest, hrest, fun t ht => ?_⟩
  rw [alter_topic] at ht
  split_ifs at ht
  · rw [(hf _).2.2] at ht
    exact hlisted t ht
  · exact hlisted t ht

theorem mark (h : m.Listed) (typeUrl : String) : (m.mark typeUrl).Listed := by
  obtain ⟨rest, hrest, hlisted⟩ := h
  cases hsub : (m.topic typeUrl).subscribed with
  | true =>
    have hsame : m.mark typeUrl = m := by simp [Mux.mark, hsub]
    rw [hsame]
    exact ⟨rest, hrest, hlisted⟩
  | false =>
    have hmark : m.mark typeUrl = { m.alter typeUrl fun topic => { topic with subscribed := true } with
        subscriptions := m.subscriptions ++ [typeUrl] } := by simp [Mux.mark, hsub]
    refine ⟨rest ++ [typeUrl], by simp [hmark, hrest], fun t ht => ?_⟩
    rw [List.mem_append, List.mem_singleton]
    by_cases htt : t = typeUrl
    · exact Or.inr htt
    · rw [mark_topic, if_neg htt] at ht
      exact Or.inl (hlisted t ht)

theorem ingest (h : m.Listed) (message : DiscoveryResponse) : (m.ingest message).Listed := by
  obtain ⟨rest, hrest, hlisted⟩ := h
  refine ⟨rest, hrest, fun t ht => ?_⟩
  rw [ingest_subscribed] at ht
  exact hlisted t ht

theorem foldl_ingest (h : m.Listed) (responses : List DiscoveryResponse) :
    (responses.foldl Mux.ingest m).Listed := by
  induction responses generalizing m with
  | nil => exact h
  | cons message responses ih => exact ih (h.ingest message)

theorem start (h : m.Listed) : m.start.Listed := by
  obtain ⟨rest, hrest, hlisted⟩ := h
  refine ⟨rest, hrest, fun t ht => ?_⟩
  rw [start_topic] at ht
  exact hlisted t ht

theorem establish (h : m.Listed) (responses : List DiscoveryResponse) :
    (m.establish responses).Listed := by
  have hgreeted : m.greeted.Listed := by
    unfold greeted
    split_ifs
    · exact h.start
    · exact h.start.mark clusterTypeUrl
  unfold Mux.establish
  split_ifs
  · exact hgreeted
  · exact hgreeted.foldl_ingest responses

end Listed

/-- When a stream has delivered everything, the list is written out once more. -/
theorem Acknowledged.establish {m : Mux} (hlisted : m.Listed) (responses : List DiscoveryResponse)
    (spoken : List Wire) :
    (m.establish responses).Acknowledged (spoken ++ .opened true :: m.conversation responses) := by
  intro hstreaming hdown t topic htopic hsub
  have hlive : m.shutdown = false := by
    have hsame := (m.establish_flags responses).2
    rwa [hsame] at hdown
  obtain ⟨rest, hrest, hmem⟩ := hlisted.establish responses
  have hpending : t ∈ m.pending responses := by
    rw [establish_subscriptions] at hrest
    rw [pending, hrest, List.mem_append]
    exact Or.inr (hmem t (by rw [topic_of_some htopic]; exact hsub))
  refine ⟨_, ?_, request_told htopic⟩
  unfold conversation
  rw [if_neg (by simp [hlive]), ← List.cons_append, ← List.append_assoc]
  exact lastRequest_round _ t _ _ hpending

/-! ## Calls -/

structure Current (m : Mux) (spoken : List Wire) : Prop where
  listed : m.Listed
  acknowledged : m.Acknowledged spoken

/-- Without a stream, or after the shutdown, nothing is owed. -/
theorem current_of_muted {m : Mux} (hlisted : m.Listed)
    (hmuted : m.streaming = false ∨ m.shutdown = true) (spoken : List Wire) : m.Current spoken := by
  refine ⟨hlisted, fun hstreaming hdown => ?_⟩
  rcases hmuted with hmuted | hmuted
  · simp [hmuted] at hstreaming
  · simp [hmuted] at hdown

namespace Current
variable {m : Mux} {spoken : List Wire} (h : m.Current spoken)
include h

theorem nullCall : m.Current (spoken ++ [.nullCall]) := by
  have hsame (t : String) : lastRequest t (spoken ++ [.nullCall]) = lastRequest t spoken := by
    rw [lastRequest, List.foldl_append]
    rfl
  refine ⟨h.listed, fun hstreaming hdown t topic htopic hsub => ?_⟩
  rw [hsame]
  exact h.acknowledged hstreaming hdown t topic htopic hsub

theorem ask (typeUrl : String) : m.Current (spoken ++ m.ask typeUrl) :=
  ⟨h.listed, h.acknowledged.ask typeUrl⟩

theorem enter (watch : ℕ) (typeUrl : String) (resources : OrderedSet String) :
    (m.enter watch typeUrl resources).Current spoken := by
  have hkeeps : Keeps fun topic => { topic with watches := watch :: topic.watches } :=
    fun _ => ⟨rfl, rfl, rfl⟩
  exact ⟨h.listed.alter typeUrl hkeeps, h.acknowledged.alter typeUrl hkeeps⟩

theorem leave (watch : ℕ) (typeUrl : String) : (m.leave watch typeUrl).Current spoken := by
  have hkeeps : Keeps fun topic => { topic with watches := topic.watches.filter (· ≠ watch) } :=
    fun _ => ⟨rfl, rfl, rfl⟩
  exact ⟨h.listed.alter typeUrl hkeeps, h.acknowledged.alter typeUrl hkeeps⟩

theorem drop (watch : ℕ) (typeUrl : String) : (m.drop watch typeUrl).Current spoken :=
  ⟨(h.leave watch typeUrl).listed, (h.leave watch typeUrl).acknowledged⟩

/-- Every call but a response handed in from outside. -/
theorem perform (op : Op) (hop : ∀ message, op ≠ .onDiscoveryResponse message) :
    (m.perform op).Current (spoken ++ m.emit op) := by
  cases op with
  | setChannel =>
    rw [emit, List.append_nil]
    exact ⟨h.listed, h.acknowledged⟩
  | onStreamEstablished outcome =>
    cases outcome with
    | none =>
      simp only [Mux.perform, emit]
      split_ifs
      · exact current_of_muted (m := { m with streaming := false }) h.listed (Or.inl rfl) _
      · exact h.nullCall
    | some responses =>
      simp only [Mux.perform, emit]
      split_ifs
      · exact ⟨h.listed.establish responses, Acknowledged.establish h.listed responses spoken⟩
      · exact h.nullCall
  | addWatch typeUrl resources =>
    have hnext : Current { m with nextWatch := m.nextWatch + 1 } spoken :=
      ⟨h.listed, h.acknowledged⟩
    have hentered := hnext.enter m.nextWatch typeUrl resources
    exact ⟨hentered.listed.mark typeUrl, hentered.acknowledged.mark_ask typeUrl⟩
  | update watch resources =>
    simp only [Mux.perform, emit]
    cases hw : m.watches watch with
    | none => simpa using h
    | some w =>
      have hleft : (m.leave watch w.1).Current (spoken ++
          if w.2.isEmpty then [] else (m.leave watch w.1).ask w.1) := by
        split_ifs
        · simpa using h.leave watch w.1
        · exact (h.leave watch w.1).ask w.1
      rw [← List.append_assoc]
      exact (hleft.enter watch w.1 resources).ask w.1
  | destroy watch =>
    simp only [Mux.perform, emit]
    cases hw : m.watches watch with
    | none => simpa using h
    | some w =>
      simp only
      split_ifs
      · simpa using h.drop watch w.1
      · exact (h.drop watch w.1).ask w.1
  | onDiscoveryResponse message => exact absurd rfl (hop message)
  | shutdown => exact current_of_muted (m := { m with shutdown := true }) h.listed (Or.inr rfl) _

end Current
end Mux

end XdsClient.Ads
