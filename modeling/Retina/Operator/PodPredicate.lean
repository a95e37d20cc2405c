import Retina.Library.Execution
import Retina.Operator.RetinaEndpoint

/-! # The predicate on pod events

`onlyRunningOrDeletedPredicate` of `pkg/controllers/operator/pod`: which events of a pod go on to the
channel. A pod is created in a first version and then updated from version to version; an event
that passes is reconciled with the version it carries. `reflect.DeepEqual` is equality here, so
that a missing list and an empty one are the same.
-/
namespace Retina.Operator
open Execution

def filterPodCreateEvents (pod : Pod) : Bool :=
  if pod.hostNetwork then false
  else if pod.phase = .running ∨ pod.deletionTimestamp = true then true
  else if pod.podIP ≠ "" then false
  else false

def filterPodUpdateEvents (old new : Pod) : Bool :=
  if new.hostNetwork then false
  else if new.podIP ≠ old.podIP then true
  else if new.podIPs ≠ old.podIPs then true
  else if new.ownerReferences ≠ old.ownerReferences then true
  else if new.labels ≠ old.labels then true
  else if new.annotations ≠ old.annotations then true
  else if new.podIP ≠ "" ∧ 0 < new.podIPs.length ∧ getContainers old ≠ getContainers new then true
  else false

structure Watched where
  store : EndpointStore
  version : Pod

def deliver (store : EndpointStore) (passes : Bool) (pod : Pod) : EndpointStore :=
  if passes then (reconcileRetinaEndpointFromPod store ⟨pod.key,some pod⟩ {}).1 else store

namespace Watched

def create (store : EndpointStore) (pod : Pod) : Watched := ⟨deliver store (filterPodCreateEvents pod) pod,pod⟩

def update (w : Watched) (pod : Pod) : Watched := ⟨deliver w.store (filterPodUpdateEvents w.version pod) pod,pod⟩

def UpToDate (w : Watched) : Prop := w.version.Ready → Reflects w.store ⟨w.version.key,some w.version⟩

instance (w : Watched) : Decidable w.UpToDate := inferInstanceAs (Decidable (_ → _))

def SamePod (w : Watched) (pod : Pod) : Prop := pod.key = w.version.key ∧ pod.hostNetwork = false

/-- An update that is kept back leads to a ready pod only from a running one, with the same host and the same
containers. -/
def Noticed (w : Watched) (pod : Pod) : Prop :=
  pod.Ready → filterPodUpdateEvents w.version pod = false →
    w.version.phase = .running ∧ w.version.hostIP = pod.hostIP ∧ getContainers w.version = getContainers pod

end Watched

theorem filterPodCreateEvents_of_running {pod : Pod} (hhost : pod.hostNetwork = false) (h : pod.phase = .running) :
    filterPodCreateEvents pod = true := by
  simp [filterPodCreateEvents, hhost, h]

/-- What an update that is kept back leaves as it was. -/
theorem unchanged_of_filtered {old new : Pod} (hhost : new.hostNetwork = false)
    (h : filterPodUpdateEvents old new = false) :
    new.podIP = old.podIP ∧ new.podIPs = old.podIPs ∧ new.ownerReferences = old.ownerReferences ∧
      new.labels = old.labels ∧ new.annotations = old.annotations := by
  rw [filterPodUpdateEvents, hhost, if_neg Bool.false_ne_true] at h
  split_ifs at h with hpodIP hpodIPs howners hlabels hannotations
  exact ⟨not_not.mp hpodIP,not_not.mp hpodIPs,not_not.mp howners,not_not.mp hlabels,not_not.mp hannotations⟩

theorem reflects_deliver {pod : Pod} (hready : pod.Ready) (store : EndpointStore) :
    Reflects (deliver store true pod) ⟨pod.key,some pod⟩ := by
  rw [deliver, if_pos rfl]
  apply reflects_of_ok
  · rintro p hp
    cases hp
    exact hready
  · exact ok_of_requests store _

namespace Watched

theorem upToDate_create (store : EndpointStore) {pod : Pod} (hhost : pod.hostNetwork = false) :
    (create store pod).UpToDate := by
  intro hready
  rw [create, filterPodCreateEvents_of_running hhost hready.running]
  exact reflects_deliver hready store

theorem UpToDate.update {w : Watched} (h : w.UpToDate) {pod : Pod} (hsame : w.SamePod pod) (hnoticed : w.Noticed pod) :
    (w.update pod).UpToDate := by
  intro hready
  change pod.Ready at hready
  cases hpasses : filterPodUpdateEvents w.version pod with
  | true =>
    rw [Watched.update, hpasses]
    exact reflects_deliver hready w.store
  | false =>
    obtain ⟨hkey,hhost⟩ := hsame
    obtain ⟨hpodIP,hpodIPs,howners,hlabels,hannotations⟩ := unchanged_of_filtered hhost hpasses
    obtain ⟨hrunning,hhostIP,hcontainers⟩ := hnoticed hready hpasses
    have hspec : specFromPod pod = specFromPod w.version := by
      simp only [specFromPod, getOwnerReferences, hpodIP, hpodIPs, howners, hlabels, hannotations, hhostIP, hcontainers]
    have hold : w.version.Ready := ⟨hrunning,hpodIP ▸ hready.podIP,hhostIP ▸ hready.hostIP⟩
    have hreflects := h hold
    rw [Watched.update, hpasses, deliver, if_neg Bool.false_ne_true]
    change Reflects w.store ⟨pod.key,some pod⟩
    rw [Reflects, Option.map_some, hspec, hkey]
    exact hreflects

/-- The endpoint of a ready pod follows its versions, if no update that makes the pod ready or changes its host or its
containers is kept back. -/
theorem upToDate_of_noticed (store : EndpointStore) (first : Pod) (versions : List Pod)
    (hhost : first.hostNetwork = false) (hsame : Along update SamePod (create store first) versions)
    (hnoticed : Along update Noticed (create store first) versions) :
    (run update (create store first) versions).UpToDate :=
  invariant (I := UpToDate) (fun _ _ hw h => hw.update h.1 h.2) (upToDate_create store hhost) (hsame.and hnoticed)

def pendingPod : Pod := { samplePod "10.0.0.1" with phase := .pending, containerStatuses := [] }

theorem started_upToDate :
    (samplePod "10.0.0.1").Ready ∧ (run update (create ∅ pendingPod) [samplePod "10.0.0.1"]).UpToDate := by
  refine ⟨by decide,upToDate_of_noticed ∅ pendingPod [samplePod "10.0.0.1"] rfl ⟨⟨rfl,rfl⟩,trivial⟩ ⟨?_,trivial⟩⟩
  intro _ hfiltered
  exact absurd hfiltered (by decide)

def waitingPod : Pod := { samplePod "10.0.0.1" with phase := .pending }

/-- The change of the phase is kept back, and there is no endpoint for the running pod. -/
theorem started_not_noticed :
    (samplePod "10.0.0.1").Ready ∧
      (run update (create ∅ waitingPod) [samplePod "10.0.0.1"]).store.lookup waitingPod.key = none ∧
      ¬(run update (create ∅ waitingPod) [samplePod "10.0.0.1"]).UpToDate := by
  decide

end Watched
end Retina.Operator
