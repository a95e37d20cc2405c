import Retina.Library.FiniteMap

/-! # RetinaEndpoints from pods

`reconcileRetinaEndpointFromPod` of `pkg/controllers/operator/retinaendpoint`. The requests to the
API server may fail; a request that fails has changed nothing. A merge patch from the object that
was read replaces the spec and leaves the rest of the object.
-/
namespace Retina.Operator

/-- The field `Namespace` is called `ns`. -/
structure NamespacedName where
  ns : String
  name : String
deriving DecidableEq

inductive PodPhase
  | pending
  | running
  | succeeded
  | failed
  | unknown
deriving DecidableEq

abbrev StringMap := Finmap (fun _ : String => String)

structure PodOwnerReference where
  apiVersion : String
  kind : String
  name : String
  uid : String
  controller : Option Bool
  blockOwnerDeletion : Option Bool
deriving DecidableEq

structure ContainerStatus where
  name : String
  containerID : String
deriving DecidableEq

structure Pod where
  ns : String
  name : String
  labels : StringMap
  annotations : StringMap
  ownerReferences : List PodOwnerReference
  deletionTimestamp : Bool
  hostNetwork : Bool
  phase : PodPhase
  hostIP : String
  podIP : String
  podIPs : List String
  containerStatuses : List ContainerStatus
deriving DecidableEq

structure OwnerReference where
  apiVersion : String
  kind : String
  name : String
deriving DecidableEq

structure Container where
  name : String
  id : String
deriving DecidableEq

structure RetinaEndpointSpec where
  containers : List Container
  ownerReferences : List OwnerReference
  nodeIP : String
  podIP : String
  podIPs : List String
  labels : StringMap
  annotations : StringMap
deriving DecidableEq

structure RetinaEndpoint where
  ns : String
  name : String
  labels : StringMap
  spec : RetinaEndpointSpec
deriving DecidableEq

def getContainers (pod : Pod) : List Container :=
  pod.containerStatuses.map fun container => ⟨container.name,container.containerID⟩

def getOwnerReferences (pod : Pod) : List OwnerReference :=
  pod.ownerReferences.map fun ref => ⟨ref.apiVersion,ref.kind,ref.name⟩

def specFromPod (pod : Pod) : RetinaEndpointSpec where
  containers := getContainers pod
  ownerReferences := getOwnerReferences pod
  nodeIP := pod.hostIP
  podIP := pod.podIP
  podIPs := pod.podIPs
  labels := pod.labels
  annotations := pod.annotations

/-- Without a pod, the pod is gone. -/
structure PodCacheObject where
  key : NamespacedName
  pod : Option Pod
deriving DecidableEq

abbrev EndpointStore := Finmap (fun _ : NamespacedName => RetinaEndpoint)

/-- Which requests of one call fail, and whether the context of the call ends before the event can be put back. -/
structure Attempt where
  getFails : Bool := false
  writeFails : Bool := false
  expired : Bool := false
deriving DecidableEq

inductive RequestError
  | get
  | delete
  | create
  | patch
deriving DecidableEq

def reconcileRetinaEndpointFromPod (store : EndpointStore) (pod : PodCacheObject) (api : Attempt) :
    EndpointStore × Option RequestError :=
  match pod.pod with
  | none =>
    if api.getFails then (store,some .get)
    else
      match store.lookup pod.key with
      | none => (store,none)
      | some _ => if api.writeFails then (store,some .delete) else (store.erase pod.key,none)
  | some p =>
    if p.phase ≠ .running then (store,none)
    else if api.getFails then (store,some .get)
    else
      match store.lookup pod.key with
      | none =>
        if p.podIP = "" ∨ p.hostIP = "" then (store,none)
        else if api.writeFails then (store,some .create)
        else (store.insert pod.key ⟨pod.key.ns,pod.key.name,∅,specFromPod p⟩,none)
      | some got =>
        if api.writeFails then (store,some .patch) else (store.insert pod.key { got with spec := specFromPod p },none)

structure Pod.Ready (pod : Pod) : Prop where
  running : pod.phase = .running
  podIP : pod.podIP ≠ ""
  hostIP : pod.hostIP ≠ ""

instance (pod : Pod) : Decidable pod.Ready :=
  decidable_of_iff (pod.phase = .running ∧ pod.podIP ≠ "" ∧ pod.hostIP ≠ "")
    ⟨fun h => ⟨h.1,h.2.1,h.2.2⟩,fun h => ⟨h.running,h.podIP,h.hostIP⟩⟩

def Pod.key (pod : Pod) : NamespacedName := ⟨pod.ns,pod.name⟩

def samplePod (podIP : String) : Pod where
  ns := "default"
  name := "web"
  labels := Finmap.singleton "app" "web"
  annotations := ∅
  ownerReferences := []
  deletionTimestamp := false
  hostNetwork := false
  phase := .running
  hostIP := "10.240.0.4"
  podIP := podIP
  podIPs := [podIP]
  containerStatuses := [⟨"web","containerd://1"⟩]

theorem samplePod_ready {podIP : String} (h : podIP ≠ "") : (samplePod podIP).Ready where
  running := rfl
  podIP := h
  hostIP := show "10.240.0.4" ≠ "" by decide

def Reflects (store : EndpointStore) (obj : PodCacheObject) : Prop :=
  (store.lookup obj.key).map RetinaEndpoint.spec = obj.pod.map specFromPod

instance (store : EndpointStore) (obj : PodCacheObject) : Decidable (Reflects store obj) :=
  inferInstanceAs (Decidable (_ = _))

/-- Everything that a call can do to the store. -/
theorem reconcile_cases (store : EndpointStore) (pod : PodCacheObject) (api : Attempt) :
    (reconcileRetinaEndpointFromPod store pod api).1 = store ∨
      pod.pod = none ∧ reconcileRetinaEndpointFromPod store pod api = (store.erase pod.key,none) ∨
      ∃ p ep, pod.pod = some p ∧ ep.spec = specFromPod p ∧
        reconcileRetinaEndpointFromPod store pod api = (store.insert pod.key ep,none) := by
  unfold reconcileRetinaEndpointFromPod
  cases hpod : pod.pod with
  | none =>
    dsimp only
    split
    · exact .inl rfl
    · split
      · exact .inl rfl
      · split
        · exact .inl rfl
        · exact .inr (.inl ⟨rfl,rfl⟩)
  | some p =>
    dsimp only
    split
    · exact .inl rfl
    · split
      · exact .inl rfl
      · split
        · split
          · exact .inl rfl
          · split
            · exact .inl rfl
            · exact .inr (.inr ⟨p,_,rfl,rfl,rfl⟩)
        · split
          · exact .inl rfl
          · exact .inr (.inr ⟨p,_,rfl,rfl,rfl⟩)

theorem store_of_error {store : EndpointStore} {pod : PodCacheObject} {api : Attempt}
    (h : (reconcileRetinaEndpointFromPod store pod api).2 ≠ none) :
    (reconcileRetinaEndpointFromPod store pod api).1 = store := by
  rcases reconcile_cases store pod api with hstore | ⟨-,heq⟩ | ⟨p,ep,-,-,heq⟩
  · exact hstore
  · rw [heq] at h
    exact absurd rfl h
  · rw [heq] at h
    exact absurd rfl h

theorem lookup_of_ne {k : NamespacedName} {pod : PodCacheObject} (h : k ≠ pod.key) (store : EndpointStore)
    (api : Attempt) : (reconcileRetinaEndpointFromPod store pod api).1.lookup k = store.lookup k := by
  rcases reconcile_cases store pod api with hstore | ⟨-,heq⟩ | ⟨p,ep,-,-,heq⟩
  · rw [hstore]
  · rw [heq, Finmap.lookup_erase_ne h]
  · rw [heq, Finmap.lookup_insert_of_ne _ h]

/-- Without failing requests there is no error. -/
theorem ok_of_requests (store : EndpointStore) (pod : PodCacheObject) :
    (reconcileRetinaEndpointFromPod store pod {}).2 = none := by
  simp only [reconcileRetinaEndpointFromPod, Bool.false_eq_true, if_false]
  split
  · split <;> rfl
  · split
    · rfl
    · split
      · split <;> rfl
      · rfl

/-- A call without an error for a pod that is gone or ready leaves the endpoint of that pod. -/
theorem reflects_of_ok {store : EndpointStore} {pod : PodCacheObject} {api : Attempt}
    (hready : ∀ p, pod.pod = some p → p.Ready) (h : (reconcileRetinaEndpointFromPod store pod api).2 = none) :
    Reflects (reconcileRetinaEndpointFromPod store pod api).1 pod := by
  rw [Reflects]
  cases hpod : pod.pod with
  | none =>
    simp only [reconcileRetinaEndpointFromPod, hpod] at h ⊢
    split at h
    · cases h
    · rename_i hget
      cases hlookup : store.lookup pod.key with
      | none => simp [hget, hlookup]
      | some got =>
        simp only [hlookup] at h
        split at h
        · cases h
        · rename_i hwrite
          simp [hget, hwrite]
  | some p =>
    obtain ⟨hrunning,hpodIP,hhostIP⟩ := hready p hpod
    simp only [reconcileRetinaEndpointFromPod, hpod, hrunning, ne_eq, not_true_eq_false, if_false] at h ⊢
    split at h
    · cases h
    · rename_i hget
      cases hlookup : store.lookup pod.key with
      | none =>
        simp only [hlookup, hpodIP, hhostIP, or_self, if_false] at h
        split at h
        · cases h
        · rename_i hwrite
          simp [hget, hpodIP, hhostIP, hwrite]
      | some got =>
        simp only [hlookup] at h
        split at h
        · cases h
        · rename_i hwrite
          simp [hget, hwrite]

end Retina.Operator
