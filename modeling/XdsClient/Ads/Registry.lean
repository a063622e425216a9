import XdsClient.Ads.Invariants

/-! # The registry of watches

Every watch keeps itself in the list of its type: it enters at the front, and leaves
through the iterator it stored when it entered. While `update` is between its two
halves the watch is in no list. The resource names of a request are read off the list
of its type, so an exact registry makes exact requests.
-/
namespace XdsClient.Ads
open Library Session

/-! ## Names -/

def State.watchedNames (s : State) (typeUrl : String) : List String :=
  (s.api typeUrl).watches.flatMap fun n => (s.resourcesOf n.watch).toList

/-- The loops of `sendDiscoveryRequest` keep the first occurrence of every name. -/
theorem State.resourceNames_eq (s : State) (typeUrl : String) :
    s.resourceNames typeUrl = (s.watchedNames typeUrl).eraseDups := by
  rw [← foldl_emitFresh_empty, State.watchedNames, List.foldl_flatMap]
  rfl

/-! ## What the registry consists of -/

def State.registry (s : State) : (String → List WatchNode) × (ℕ → Option Watcher) × ℕ × ℕ :=
  (fun typeUrl => (s.api typeUrl).watches, s.watchers, s.nextWatcher, s.nextNode)

/-- When the watch last entered its list, counted in entries of the history. -/
def registeredAt (watch : ℕ) : List Entry → ℕ
  | [] => 0
  | e :: earlier =>
    match e.event with
    | .register w => if w = watch then earlier.length + 1 else registeredAt watch earlier
    | _ => registeredAt watch earlier

theorem registeredAt_le (watch : ℕ) (past : List Entry) : registeredAt watch past ≤ past.length := by
  induction past with
  | nil => simp [registeredAt]
  | cons e earlier ih =>
    unfold registeredAt
    split
    · split_ifs <;> simp only [List.length_cons] <;> omega
    · simp only [List.length_cons]
      omega

def State.occurrences (s : State) (typeUrl : String) (watch : ℕ) : ℕ :=
  ((s.api typeUrl).watches.map WatchNode.watch).count watch

/-- A live watch stands in the list of its type, once, unless it is inside `update`; it
stands in no other list; later registrations come first. -/
structure State.Registered (s : State) (past : List Entry) : Prop where
  own : ∀ watch w, s.watchers watch = some w →
    s.occurrences w.typeUrl watch = if erased watch past then 0 else 1
  other : ∀ watch w typeUrl, s.watchers watch = some w → typeUrl ≠ w.typeUrl →
    s.occurrences typeUrl watch = 0
  recent : ∀ typeUrl, ((s.api typeUrl).watches.map WatchNode.watch).Pairwise
    fun watch behind => registeredAt behind past < registeredAt watch past

/-- The invariant behind `State.Registered`: nodes and live watches point to each other. -/
structure Registers (s : State) (past : List Entry) : Prop where
  live : ∀ typeUrl, ∀ n ∈ (s.api typeUrl).watches, ∃ w, s.watchers n.watch = some w ∧
    w.typeUrl = typeUrl ∧ w.iter = n.node ∧ erased n.watch past = false
  listed : ∀ watch w, s.watchers watch = some w → erased watch past = false →
    ⟨w.iter, watch⟩ ∈ (s.api w.typeUrl).watches
  recent : ∀ typeUrl, (s.api typeUrl).watches.Pairwise
    fun n behind => registeredAt behind.watch past < registeredAt n.watch past
  distinct : ∀ a b v w, s.watchers a = some v → s.watchers b = some w → v.iter = w.iter → a = b
  nodes : ∀ watch w, s.watchers watch = some w → w.iter < s.nextNode
  fresh : ∀ watch, s.nextWatcher ≤ watch → s.watchers watch = none

namespace Registers
variable {s : State} {past : List Entry} (h : Registers s past)
include h

theorem mem_iff (typeUrl : String) (watch : ℕ) :
    watch ∈ (s.api typeUrl).watches.map WatchNode.watch ↔
      ∃ w, s.watchers watch = some w ∧ w.typeUrl = typeUrl ∧ erased watch past = false := by
  rw [List.mem_map]
  constructor
  · rintro ⟨n, hn, rfl⟩
    rcases h.live typeUrl n hn with ⟨w, hw, htype, _, herased⟩
    exact ⟨w, hw, htype, herased⟩
  · rintro ⟨w, hw, rfl, herased⟩
    exact ⟨_, h.listed watch w hw herased, rfl⟩

theorem recent_watches (typeUrl : String) : ((s.api typeUrl).watches.map WatchNode.watch).Pairwise
    fun watch behind => registeredAt behind past < registeredAt watch past :=
  List.pairwise_map.mpr (h.recent typeUrl)

/-- The times of registration strictly decrease, so no watch is listed twice. -/
theorem nodup (typeUrl : String) : ((s.api typeUrl).watches.map WatchNode.watch).Nodup :=
  (h.recent_watches typeUrl).imp fun hlt heq => by simp [heq] at hlt

theorem registered : s.Registered past where
  own := by
    intro watch w hw
    have hiff := h.mem_iff w.typeUrl watch
    rw [State.occurrences]
    cases herased : erased watch past with
    | true =>
      rw [if_pos rfl, List.count_eq_zero]
      intro hmem
      rcases hiff.mp hmem with ⟨_, _, _, hno⟩
      simp [herased] at hno
    | false =>
      rw [if_neg (by simp)]
      exact List.count_eq_one_of_mem (h.nodup w.typeUrl) (hiff.mpr ⟨w, hw, rfl, herased⟩)
  other := by
    intro watch w typeUrl hw hne
    rw [State.occurrences, List.count_eq_zero]
    intro hmem
    rcases (h.mem_iff typeUrl watch).mp hmem with ⟨v, hv, htype, _⟩
    rw [hw, Option.some.injEq] at hv
    exact hne (by rw [hv, htype])
  recent := h.recent_watches

/-- The names of a request are those of the live watches that are registered. -/
theorem mem_resourceNames (typeUrl name : String) : name ∈ s.resourceNames typeUrl ↔
    ∃ watch w, s.watchers watch = some w ∧ w.typeUrl = typeUrl ∧ erased watch past = false ∧
      name ∈ w.resources := by
  rw [State.resourceNames_eq, List.mem_eraseDups, State.watchedNames, List.mem_flatMap]
  constructor
  · rintro ⟨n, hn, hname⟩
    rcases h.live typeUrl n hn with ⟨w, hw, htype, _, herased⟩
    refine ⟨n.watch, w, hw, htype, herased, ?_⟩
    rw [OrderedSet.mem_def]
    simpa [State.resourcesOf, hw] using hname
  · rintro ⟨watch, w, hw, rfl, herased, hname⟩
    refine ⟨_, h.listed watch w hw herased, ?_⟩
    rw [OrderedSet.mem_def] at hname
    simpa [State.resourcesOf, hw] using hname

/-- An entry that is no registration leaves the times of registration alone, and the
registry depends on nothing else of the past. -/
theorem congr {s' : State} {past' : List Entry} (hregistry : s'.registry = s.registry)
    (herased : ∀ watch, erased watch past' = erased watch past)
    (hat : ∀ watch, registeredAt watch past' = registeredAt watch past) : Registers s' past' := by
  simp only [State.registry, Prod.mk.injEq] at hregistry
  rcases hregistry with ⟨hwatches, hwatchers, hwatcher, hnode⟩
  have hlist (t : String) : (s'.api t).watches = (s.api t).watches := congrFun hwatches t
  constructor
  · intro t n hn
    rw [hlist] at hn
    rw [hwatchers, herased]
    exact h.live t n hn
  · intro watch w hw he
    rw [hlist]
    rw [hwatchers] at hw
    rw [herased] at he
    exact h.listed watch w hw he
  · intro t
    simp only [hlist, hat]
    exact h.recent t
  · rw [hwatchers]
    exact h.distinct
  · rw [hwatchers, hnode]
    exact h.nodes
  · rw [hwatchers, hwatcher]
    exact h.fresh

end Registers

/-! ## Entering and leaving the list -/

section Entering
variable (s : Session) (watch : ℕ) (w : Watcher) (resources : OrderedSet String) {a : ℕ}

theorem erased_register_of_ne (ha : a ≠ watch) (state : State) (past : List Entry) :
    erased a (⟨.register watch, state⟩ :: past) = erased a past := by
  simp [erased, ha.symm]

theorem registeredAt_register_of_ne (ha : a ≠ watch) (state : State) (past : List Entry) :
    registeredAt a (⟨.register watch, state⟩ :: past) = registeredAt a past := by
  simp [registeredAt, ha.symm]

theorem updateResources_watchers_self : (s.updateResources watch w resources).watchers watch =
    some ⟨resources, w.typeUrl, s.nextNode⟩ := by
  rw [updateResources_watchers, Function.update_self]

theorem updateResources_watchers_of_ne (ha : a ≠ watch) :
    (s.updateResources watch w resources).watchers a = s.watchers a := by
  rw [updateResources_watchers, Function.update_of_ne ha]

theorem mem_updateResources (t : String) (n : WatchNode) :
    n ∈ ((s.updateResources watch w resources).api t).watches ↔
      (n = ⟨s.nextNode, watch⟩ ∧ t = w.typeUrl) ∨ n ∈ (s.api t).watches := by
  rw [updateResources_api]
  split_ifs with ht <;> simp [ht]

variable {s} (h : Registers s.toState s.history)
include h

/-- The watch that enters was registered after all the others. -/
theorem Registers.recent_updateResources
    (habsent : ∀ t, ∀ n ∈ (s.api t).watches, n.watch ≠ watch) (t : String) :
    ((s.updateResources watch w resources).api t).watches.Pairwise fun n behind =>
      registeredAt behind.watch (⟨.register watch, s.toState⟩ :: s.history) <
        registeredAt n.watch (⟨.register watch, s.toState⟩ :: s.history) := by
  have hrecent : (s.api t).watches.Pairwise fun n behind =>
      registeredAt behind.watch (⟨.register watch, s.toState⟩ :: s.history) <
        registeredAt n.watch (⟨.register watch, s.toState⟩ :: s.history) := by
    apply (h.recent t).imp_of_mem
    intro n behind hn hbehind hlt
    rw [registeredAt_register_of_ne watch (habsent t n hn),
      registeredAt_register_of_ne watch (habsent t behind hbehind)]
    exact hlt
  rw [updateResources_api]
  split_ifs with ht
  · apply List.Pairwise.cons _ hrecent
    intro behind hbehind
    have hle := registeredAt_le behind.watch s.history
    rw [registeredAt_register_of_ne watch (habsent t behind hbehind)]
    simp only [registeredAt, if_true]
    omega
  · exact hrecent

/-- The node that is allocated for the watch belongs to no other. -/
theorem Registers.distinct_updateResources (a b : ℕ) (v x : Watcher)
    (hv : (s.updateResources watch w resources).watchers a = some v)
    (hx : (s.updateResources watch w resources).watchers b = some x) (hiter : v.iter = x.iter) :
    a = b := by
  have hnew {c : ℕ} {u : Watcher} (hc : c ≠ watch)
      (hu : (s.updateResources watch w resources).watchers c = some u) : u.iter < s.nextNode := by
    rw [updateResources_watchers_of_ne _ _ _ _ hc] at hu
    exact h.nodes c u hu
  have hself {u : Watcher}
      (hu : (s.updateResources watch w resources).watchers watch = some u) :
      u.iter = s.nextNode := by
    rw [updateResources_watchers_self, Option.some.injEq] at hu
    rw [← hu]
  by_cases ha : a = watch <;> by_cases hb : b = watch
  · rw [ha, hb]
  · subst ha
    have hlt := hnew hb hx
    rw [← hiter, hself hv] at hlt
    omega
  · subst hb
    have hlt := hnew ha hv
    rw [hiter, hself hx] at hlt
    omega
  · rw [updateResources_watchers_of_ne _ _ _ _ ha] at hv
    rw [updateResources_watchers_of_ne _ _ _ _ hb] at hx
    exact h.distinct a b v x hv hx hiter

/-- A watch that stands in no list enters the one of its type. -/
theorem Registers.updateResources
    (habsent : ∀ t, ∀ n ∈ (s.api t).watches, n.watch ≠ watch) (hlt : watch < s.nextWatcher) :
    Registers (s.updateResources watch w resources).toState
      (s.updateResources watch w resources).history := by
  have hhistory : (s.updateResources watch w resources).history =
      ⟨.register watch, s.toState⟩ :: s.history := rfl
  have hself := updateResources_watchers_self s watch w resources
  have hne {a : ℕ} (ha : a ≠ watch) := updateResources_watchers_of_ne s watch w resources ha
  rw [hhistory]
  constructor
  · intro t n hn
    rcases (mem_updateResources s watch w resources t n).mp hn with ⟨rfl, rfl⟩ | hn
    · exact ⟨_, hself, rfl, rfl, by simp [erased]⟩
    · have hnw := habsent t n hn
      rw [hne hnw, erased_register_of_ne watch hnw]
      exact h.live t n hn
  · intro a v hv he
    rw [mem_updateResources]
    by_cases ha : a = watch
    · subst ha
      rw [hself, Option.some.injEq] at hv
      subst hv
      exact Or.inl ⟨rfl, rfl⟩
    · rw [hne ha] at hv
      rw [erased_register_of_ne watch ha] at he
      exact Or.inr (h.listed a v hv he)
  · exact h.recent_updateResources watch w resources habsent
  · exact h.distinct_updateResources watch w resources
  · intro a v hv
    have hnext : (s.updateResources watch w resources).nextNode = s.nextNode + 1 := rfl
    rw [hnext]
    by_cases ha : a = watch
    · rw [ha, hself, Option.some.injEq] at hv
      rw [← hv]
      simp
    · rw [hne ha] at hv
      have hnode := h.nodes a v hv
      omega
  · intro a ha
    have hnext : (s.updateResources watch w resources).nextWatcher = s.nextWatcher := rfl
    rw [hnext] at ha
    rw [hne (by omega)]
    exact h.fresh a ha

end Entering

section Leaving
variable {s : Session} (h : Registers s.toState s.history)
include h

/-- The stored iterator names the node of the watch and no other. -/
theorem Registers.mem_erase (watch : ℕ) (w : Watcher) (hw : s.watchers watch = some w)
    (typeUrl : String) (n : WatchNode) :
    n ∈ ((s.eraseWatch watch w).api typeUrl).watches ↔
      n ∈ (s.api typeUrl).watches ∧ n.watch ≠ watch := by
  have hnode (hn : n ∈ (s.api typeUrl).watches) : n.watch = watch ↔
      typeUrl = w.typeUrl ∧ n.node = w.iter := by
    rcases h.live typeUrl n hn with ⟨v, hv, htype, hiter, _⟩
    constructor
    · intro heq
      rw [heq, hw, Option.some.injEq] at hv
      rw [hv]
      exact ⟨htype.symm, hiter.symm⟩
    · rintro ⟨_, heq⟩
      exact h.distinct _ _ v w hv hw (hiter.trans heq)
  rw [eraseWatch_api]
  split_ifs with ht
  · simp only [List.mem_filter, ne_eq, decide_not, Bool.not_eq_eq_eq_not, Bool.not_true,
      decide_eq_false_iff_not]
    constructor
    · rintro ⟨hn, hne⟩
      exact ⟨hn, fun heq => hne ((hnode hn).mp heq).2⟩
    · rintro ⟨hn, hne⟩
      exact ⟨hn, fun heq => hne ((hnode hn).mpr ⟨ht, heq⟩)⟩
  · constructor
    · exact fun hn => ⟨hn, fun heq => ht ((hnode hn).mp heq).1⟩
    · exact fun hn => hn.1

theorem Registers.eraseWatch (watch : ℕ) (w : Watcher) (hw : s.watchers watch = some w) :
    Registers (s.eraseWatch watch w).toState (s.eraseWatch watch w).history := by
  have hhistory : (s.eraseWatch watch w).history = ⟨.erase watch, s.toState⟩ :: s.history := rfl
  have hwatchers : (s.eraseWatch watch w).watchers = s.watchers := rfl
  have herased (a : ℕ) (ha : a ≠ watch) :
      erased a (⟨.erase watch, s.toState⟩ :: s.history) = erased a s.history := by
    simp [erased, ha.symm]
  have hat (a : ℕ) :
      registeredAt a (⟨.erase watch, s.toState⟩ :: s.history) = registeredAt a s.history := rfl
  rw [hhistory]
  constructor
  · intro t n hn
    rcases (h.mem_erase watch w hw t n).mp hn with ⟨hn, hnw⟩
    rw [hwatchers, herased _ hnw]
    exact h.live t n hn
  · intro a v hv he
    have ha : a ≠ watch := by
      rintro rfl
      simp [erased] at he
    rw [herased a ha] at he
    exact (h.mem_erase watch w hw v.typeUrl _).mpr ⟨h.listed a v hv he, ha⟩
  · intro t
    rw [eraseWatch_api]
    simp only [hat]
    split_ifs
    · exact (h.recent t).filter _
    · exact h.recent t
  · exact h.distinct
  · exact h.nodes
  · exact h.fresh

theorem Registers.dropWatch (watch : ℕ) (w : Watcher) (hw : s.watchers watch = some w) :
    Registers (s.dropWatch watch w).toState (s.dropWatch watch w).history := by
  have herase := h.eraseWatch watch w hw
  have hne (a : ℕ) (ha : a ≠ watch) : (s.dropWatch watch w).watchers a = s.watchers a := by
    rw [dropWatch_watchers, Function.update_of_ne ha]
  have halive (a : ℕ) (v : Watcher) (hv : (s.dropWatch watch w).watchers a = some v) :
      a ≠ watch := by
    rintro rfl
    simp [dropWatch_watchers] at hv
  constructor
  · intro t n hn
    have hnw := ((h.mem_erase watch w hw t n).mp hn).2
    rw [hne _ hnw]
    exact herase.live t n hn
  · intro a v hv he
    rw [hne a (halive a v hv)] at hv
    exact herase.listed a v hv he
  · exact herase.recent
  · intro a b v x hv hx
    rw [hne a (halive a v hv)] at hv
    rw [hne b (halive b x hx)] at hx
    exact h.distinct a b v x hv hx
  · intro a v hv
    rw [hne a (halive a v hv)] at hv
    exact h.nodes a v hv
  · intro a ha
    by_cases heq : a = watch
    · rw [heq, dropWatch_watchers, Function.update_self]
    · rw [hne a heq]
      exact h.fresh a ha

end Leaving

end XdsClient.Ads
