import Retina.Library.References

/-! # The state of the endpoint reconciler

`pkg/controllers/operator/cilium-crds/endpoint`: the pods and namespaces that were processed, and
the references that are held to identities. `L` are the labels of an endpoint, `N` the labels of
a namespace, and `M` is the part of a pod that its labels come from.
-/
namespace Retina.Endpoints

structure Key where
  namespaceName : String
  name : String
deriving DecidableEq

structure Pod (M : Type) where
  namespaceName : String
  name : String
  deletionTimestamp : Bool
  podIP : String
  hostIP : String
  metadata : M

def Pod.key {M : Type} (pod : Pod M) : Key := ⟨pod.namespaceName,pod.name⟩

structure PodEndpoint (L M : Type) where
  key : Key
  endpointID : ℤ := 0
  identityID : ℤ := 0
  lbls : L
  ipv4 : String
  nodeIP : String
  toDelete : Bool := false
  podObj : Pod M

/-- The copy is not marked for deletion. -/
def PodEndpoint.deepCopy {L M : Type} (pep : PodEndpoint L M) : PodEndpoint L M := { pep with toDelete := false }

structure Version (N : Type) where
  resourceVersion : String
  labels : N

variable {L N M : Type}

/-- Every pod is under its own key. -/
structure Store (L N M : Type) where
  pods : Finmap (fun _ : Key => PodEndpoint L M)
  namespaces : Finmap (fun _ : String => Version N)
  keyed : ∀ {key pod}, pods.lookup key = some pod → pod.key = key

def Store.new : Store L N M where
  pods := ∅
  namespaces := ∅
  keyed h := by simp at h

def Store.addPod (s : Store L N M) (pod : PodEndpoint L M) : Store L N M where
  pods := s.pods.insert pod.key pod
  namespaces := s.namespaces
  keyed h := by
    rcases FiniteMap.lookup_of_insert h with ⟨hkey,hpod⟩ | ⟨_,h⟩
    · rw [← hpod, hkey]
    · exact s.keyed h

def Store.deletePod (s : Store L N M) (key : Key) : Store L N M where
  pods := s.pods.erase key
  namespaces := s.namespaces
  keyed h := s.keyed (FiniteMap.lookup_of_erase h).2

def Store.addNamespace (s : Store L N M) (name : String) (version : Version N) : Store L N M :=
  { s with namespaces := s.namespaces.insert name version }

def Store.deleteNamespace (s : Store L N M) (name : String) : Store L N M :=
  { s with namespaces := s.namespaces.erase name }

/-- The pod, if there is one, is also marked for deletion. -/
def Store.getToDeletePod (s : Store L N M) (key : Key) : Store L N M × Option (PodEndpoint L M) :=
  match s.pods.lookup key with
  | none => (s,none)
  | some pod => (s.addPod { pod with toDelete := true },some { pod with toDelete := true })

def Store.listPodKeysByNamespace (s : Store L N M) (order : FiniteMap.Order Key) (namespaceName : String) : List Key :=
  order.list (s.pods.keys.filter fun key => (s.pods.lookup key).any fun pod => pod.key.namespaceName = namespaceName)

theorem Store.ext {s t : Store L N M} (hpods : s.pods = t.pods) (hnamespaces : s.namespaces = t.namespaces) : s = t := by
  cases s
  cases t
  cases hpods
  cases hnamespaces
  rfl

theorem Store.addPod_deletePod (s : Store L N M) (pod : PodEndpoint L M) : (s.deletePod pod.key).addPod pod = s.addPod pod :=
  Store.ext (FiniteMap.insert_erase s.pods pod.key pod) rfl

theorem Store.addPod_self {s : Store L N M} {pod : PodEndpoint L M} (h : s.pods.lookup pod.key = some pod) :
    s.addPod pod = s := Store.ext (FiniteMap.insert_lookup h) rfl

theorem Store.lookup_addPod (s : Store L N M) (pod : PodEndpoint L M) (key : Key) :
    (s.addPod pod).pods.lookup key = if key = pod.key then some pod else s.pods.lookup key :=
  FiniteMap.lookup_insert_eq_ite _ _ _ _

theorem Store.lookup_deletePod (s : Store L N M) (key k : Key) :
    (s.deletePod key).pods.lookup k = if k = key then none else s.pods.lookup k :=
  FiniteMap.lookup_erase_eq_ite _ _ _

theorem Store.mem_listPodKeysByNamespace (s : Store L N M) (order : FiniteMap.Order Key) (namespaceName : String)
    (key : Key) :
    key ∈ s.listPodKeysByNamespace order namespaceName ↔
      (s.pods.lookup key).isSome ∧ key.namespaceName = namespaceName := by
  rw [Store.listPodKeysByNamespace, order.mem_list, Finset.mem_filter, Finmap.mem_keys, ← Finmap.lookup_isSome]
  cases hpod : s.pods.lookup key with
  | none => simp
  | some pod =>
    have hkey := s.keyed hpod
    simp [hkey]

/-! ## Identities -/

abbrev NumericIdentity := {id : ℤ // id ≠ 0}

/-- The references that the allocator has counted for each set of labels. The identity of a set of labels
is known as long as there are references. -/
structure IdentityManager (L : Type) where
  references : L → ℕ
  labelIdentities : L → Option NumericIdentity
  known : ∀ lbls, (labelIdentities lbls).isSome = true ↔ 0 < references lbls

def IdentityManager.new : IdentityManager L where
  references _ := 0
  labelIdentities _ := none
  known lbls := by simp

variable [DecidableEq L]

def IdentityManager.incrementReference (im : IdentityManager L) (lbls : L) (id : NumericIdentity) : IdentityManager L where
  references := Function.update im.references lbls (im.references lbls + 1)
  labelIdentities := Function.update im.labelIdentities lbls (some id)
  known l := by
    by_cases hl : l = lbls
    · subst hl
      simp
    · simpa [hl] using im.known l

/-- `DecrementReference`. The identity is forgotten with its last reference. -/
def IdentityManager.decrementReference (im : IdentityManager L) (lbls : L) : IdentityManager L :=
  if hlbls : im.labelIdentities lbls = none then im
  else
    { references := Function.update im.references lbls (im.references lbls - 1)
      labelIdentities :=
        if im.references lbls = 1 then Function.update im.labelIdentities lbls none else im.labelIdentities
      known := fun l => by
        have hpos := (im.known lbls).mp (Option.isSome_iff_ne_none.mpr hlbls)
        by_cases hone : im.references lbls = 1
        · by_cases hl : l = lbls
          · subst hl
            simp [hone]
          · simpa [hone, hl] using im.known l
        · by_cases hl : l = lbls
          · subst hl
            have hsome := Option.isSome_iff_ne_none.mpr hlbls
            rw [if_neg hone, hsome, Function.update_self]
            simp only [true_iff]
            omega
          · simpa [hone, hl] using im.known l }

theorem IdentityManager.references_decrementReference (im : IdentityManager L) {lbls : L} (h : 0 < im.references lbls) :
    (im.decrementReference lbls).references = Function.update im.references lbls (im.references lbls - 1) := by
  have hsome := Option.isSome_iff_ne_none.mp ((im.known lbls).mpr h)
  rw [decrementReference, dif_neg hsome]

end Retina.Endpoints
