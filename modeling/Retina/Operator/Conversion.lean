import Retina.Cache.Types
import Retina.Operator.RetinaEndpoint

/-! # Two ways to an endpoint

`RetinaEndpointCommonFromAPI` and `RetinaEndpointCommonFromPod` of `pkg/common`. With the operator a
daemon sees a pod through the resource that `reconcileRetinaEndpointFromPod` writes, without it the
daemon converts the pod itself. `net.ParseIP` is a parameter.
-/
namespace Retina.Operator
open Cache (NetIP IPAddresses isIPV4 retinaPodAnnotation)

/-- `common.RetinaEndpoint` with the fields that the cache does not read. -/
structure CommonEndpoint extends Cache.RetinaEndpoint where
  ownerRefs : List OwnerReference
  containers : List Container
  labels : StringMap
  nodeIP : String
deriving DecidableEq

section Conversions
variable (parseIP : String → NetIP)

/-- The first address by its family, and the others by theirs. -/
def ipAddresses (podIP : String) (podIPs : List String) : IPAddresses :=
  let others := podIPs.filter (· ≠ podIP)
  { ipv4 := if isIPV4 (parseIP podIP) then parseIP podIP else .nil
    ipv6 := if isIPV4 (parseIP podIP) then .nil else parseIP podIP
    otherIPv4s := (others.filter fun ip => isIPV4 (parseIP ip)).map parseIP
    otherIPv6s := (others.filter fun ip => !isIPV4 (parseIP ip)).map parseIP }

def retinaAnnotations (annotations : StringMap) : StringMap :=
  match annotations.lookup retinaPodAnnotation with
  | none => ∅
  | some v => Finmap.singleton retinaPodAnnotation v

/-- The labels are those of the metadata of the resource. -/
def retinaEndpointCommonFromAPI (retinaEndpoint : RetinaEndpoint) : CommonEndpoint where
  name := retinaEndpoint.name
  ns := retinaEndpoint.ns
  ips := some (ipAddresses parseIP retinaEndpoint.spec.podIP retinaEndpoint.spec.podIPs)
  ownerRefs := retinaEndpoint.spec.ownerReferences
  containers := retinaEndpoint.spec.containers
  labels := retinaEndpoint.labels
  annotations := retinaAnnotations retinaEndpoint.spec.annotations
  nodeIP := retinaEndpoint.spec.nodeIP

/-- The address of the node is not set. -/
def retinaEndpointCommonFromPod (pod : Pod) : CommonEndpoint where
  name := pod.name
  ns := pod.ns
  ips := some (ipAddresses parseIP pod.podIP pod.podIPs)
  ownerRefs := getOwnerReferences pod
  containers := getContainers pod
  labels := pod.labels
  annotations := retinaAnnotations pod.annotations
  nodeIP := ""

def Keyed (store : EndpointStore) : Prop :=
  ∀ key re, store.lookup key = some re → re.ns = key.ns ∧ re.name = key.name

def metadataLabels (store : EndpointStore) (pod : Pod) : StringMap :=
  (store.lookup pod.key).elim ∅ RetinaEndpoint.labels

/-- The resource of a running pod after it was created or patched. -/
theorem lookup_reconcile {store : EndpointStore} {pod : Pod} {re : RetinaEndpoint} (hkeyed : Keyed store)
    (hrunning : pod.phase = .running)
    (hre : (reconcileRetinaEndpointFromPod store ⟨pod.key,some pod⟩ {}).1.lookup pod.key = some re) :
    re = ⟨pod.ns,pod.name,metadataLabels store pod,specFromPod pod⟩ := by
  simp only [reconcileRetinaEndpointFromPod, hrunning, ne_eq, not_true_eq_false, if_false, Bool.false_eq_true] at hre
  cases hlookup : store.lookup pod.key with
  | none =>
    simp only [hlookup] at hre
    split at hre
    · rw [hlookup] at hre
      cases hre
    · rw [Finmap.lookup_insert] at hre
      cases hre
      simp only [metadataLabels, hlookup, Option.elim_none]
      rfl
  | some got =>
    obtain ⟨hns,hname⟩ := hkeyed _ _ hlookup
    simp only [hlookup, Finmap.lookup_insert] at hre
    cases hre
    simp only [metadataLabels, hlookup, Option.elim_some, RetinaEndpoint.mk.injEq, and_self, and_true]
    exact ⟨hns,hname⟩

/-- The two ways agree in all fields but two: the labels come from the metadata of the resource, and only the
resource knows the node. So they agree exactly if the metadata has the labels of the pod and the pod has no host. -/
theorem fromAPI_eq_fromPod_iff (store : EndpointStore) (pod : Pod) (re : RetinaEndpoint) (hkeyed : Keyed store)
    (hrunning : pod.phase = .running)
    (hre : (reconcileRetinaEndpointFromPod store ⟨pod.key,some pod⟩ {}).1.lookup pod.key = some re) :
    retinaEndpointCommonFromAPI parseIP re =
        { retinaEndpointCommonFromPod parseIP pod with labels := metadataLabels store pod, nodeIP := pod.hostIP } ∧
      (retinaEndpointCommonFromAPI parseIP re = retinaEndpointCommonFromPod parseIP pod ↔
        metadataLabels store pod = pod.labels ∧ pod.hostIP = "") := by
  have hresource := lookup_reconcile hkeyed hrunning hre
  subst hresource
  refine ⟨rfl,?_⟩
  constructor
  · intro heq
    exact ⟨congrArg CommonEndpoint.labels heq,congrArg CommonEndpoint.nodeIP heq⟩
  · rintro ⟨hlabels,hhost⟩
    simp only [retinaEndpointCommonFromAPI, retinaEndpointCommonFromPod, specFromPod, hlabels, hhost]

end Conversions

def sampleParseIP (s : String) : NetIP := if s = "10.0.0.1" then .v4 10 0 0 1 else .nil

def hostlessPod : Pod := { samplePod "10.0.0.1" with hostIP := "" }

def labelledResource : RetinaEndpoint := ⟨"default","web",hostlessPod.labels,specFromPod hostlessPod⟩

def labelledStore : EndpointStore := Finmap.singleton hostlessPod.key labelledResource

theorem labelledStore_keyed : Keyed labelledStore := by
  intro key re h
  by_cases hk : key = hostlessPod.key
  · subst hk
    cases h
    exact ⟨rfl,rfl⟩
  · rw [labelledStore, Finmap.lookup_eq_none.mpr (by simpa using hk)] at h
    cases h

theorem hostlessPod_agrees :
    retinaEndpointCommonFromAPI sampleParseIP labelledResource = retinaEndpointCommonFromPod sampleParseIP hostlessPod :=
  (fromAPI_eq_fromPod_iff sampleParseIP labelledStore hostlessPod labelledResource labelledStore_keyed rfl
    (by decide)).2.mpr (by decide)

def createdResource : RetinaEndpoint := ⟨"default","web",∅,specFromPod (samplePod "10.0.0.1")⟩

/-- A ready pod with a label: the daemon does not see the label with the operator, and not the node without it. -/
theorem createdResource_differs :
    (samplePod "10.0.0.1").Ready ∧
      (reconcileRetinaEndpointFromPod ∅ ⟨(samplePod "10.0.0.1").key,some (samplePod "10.0.0.1")⟩ {}).1.lookup
        (samplePod "10.0.0.1").key = some createdResource ∧
      (retinaEndpointCommonFromAPI sampleParseIP createdResource).labels = ∅ ∧
      (retinaEndpointCommonFromPod sampleParseIP (samplePod "10.0.0.1")).labels = Finmap.singleton "app" "web" ∧
      (retinaEndpointCommonFromAPI sampleParseIP createdResource).nodeIP = "10.240.0.4" ∧
      (retinaEndpointCommonFromPod sampleParseIP (samplePod "10.0.0.1")).nodeIP = "" ∧
      retinaEndpointCommonFromAPI sampleParseIP createdResource ≠
        retinaEndpointCommonFromPod sampleParseIP (samplePod "10.0.0.1") := by
  decide

end Retina.Operator
