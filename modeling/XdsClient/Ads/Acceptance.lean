import XdsClient.Ads.Invariants

/-! # No response is rejected

A rejected response would leave an error detail in the cached request of its type. The code
that set it is commented out, so no cached request ever has one.
-/
namespace XdsClient.Ads
open Library Session

def State.Accepting (s : State) : Prop := ∀ typeUrl, (s.api typeUrl).request.errorDetail = none

namespace Session
variable {s : Session} (h : s.Accepting)
include h

theorem accepting_of_api {s' : Session}
    (hsame : ∀ t, (s'.api t).request.errorDetail = (s.api t).request.errorDetail) : s'.Accepting :=
  fun t => (hsame t).trans (h t)

theorem accepting_of_apiStateFor (typeUrl : String) : (s.apiStateFor typeUrl).Accepting :=
  accepting_of_api h fun t => by rw [apiStateFor_api]

theorem accepting_of_openStream (responses : List DiscoveryResponse) :
    (s.openStream responses).Accepting :=
  accepting_of_api h fun t => by rw [openStream_api]

theorem accepting_of_ingest (message : DiscoveryResponse) : (s.ingest message).Accepting := by
  refine accepting_of_api h fun t => ?_
  rw [ingest_api]
  unfold ApiState.ingest
  split_ifs <;> rfl

theorem accepting_of_beginSend (typeUrl : String) : (s.beginSend typeUrl).Accepting := by
  intro t
  by_cases ht : t = typeUrl
  · rw [ht, beginSend_api_self]
    rfl
  · rw [beginSend_api_of_ne s typeUrl ht]
    exact h t

theorem accepting_of_eraseWatch (watch : ℕ) (w : Watcher) :
    (s.eraseWatch watch w).Accepting := by
  refine accepting_of_api h fun t => ?_
  rw [eraseWatch_api]
  split_ifs <;> rfl

theorem accepting_of_updateResources (watch : ℕ) (w : Watcher) (resources : OrderedSet String) :
    (s.updateResources watch w resources).Accepting := by
  refine accepting_of_api h fun t => ?_
  rw [updateResources_api]
  split_ifs <;> rfl

theorem accepting_of_addWatch (typeUrl : String) (resources : OrderedSet String) :
    ((s.newWatcher typeUrl resources).subscribe typeUrl).Accepting := by
  refine accepting_of_api h fun t => ?_
  rw [subscribe_api, newWatcher_api]
  split_ifs <;> rfl

end Session

theorem accepting_stable : Stable fun s => s.Accepting where
  readFalse := fun _ h => h
  receive := fun _ message _ _ _ h => accepting_of_ingest h message
  emplace := fun _ _ _ _ h => h
  beginSend := fun _ t _ _ _ _ h => accepting_of_beginSend h t
  send := fun _ _ _ h => h
  sent := fun _ _ h => h
  pop := fun _ h => h

theorem accepting_kept : Kept fun s => s.Accepting where
  toStable := accepting_stable
  stub := fun _ h => h
  nullCall := fun _ h => h
  openFailed := fun _ h => h
  openStream := fun s responses _ hdown h => by
    have hqueued : (s.firstQueued responses).Accepting :=
      accepting_of_apiStateFor (accepting_of_openStream h responses) clusterTypeUrl
    apply accepting_stable.openStream_request s responses hdown
    exact accepting_of_beginSend hqueued clusterTypeUrl
  openStreamDown := fun _ responses _ _ h =>
    accepting_of_apiStateFor (accepting_of_openStream h responses) clusterTypeUrl
  addWatch := fun _ typeUrl resources _ h => accepting_of_addWatch h typeUrl resources
  eraseWatch := fun _ watch w _ _ h => accepting_of_eraseWatch h watch w
  updateResources := fun _ watch w resources _ _ _ h =>
    accepting_of_updateResources h watch w resources
  dropWatch := fun _ watch w _ _ h => accepting_of_eraseWatch h watch w
  ingest := fun _ message h => accepting_of_ingest h message
  shutdown := fun s h => by
    unfold Ads.shutdown Session.endStream
    split <;> exact h

end XdsClient.Ads
