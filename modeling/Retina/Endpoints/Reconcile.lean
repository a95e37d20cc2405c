import Retina.Endpoints.Store
import Retina.Library.Execution

/-! # The endpoint reconciler

`endpoint_controller_linux.go`: pods are turned into CiliumEndpoints whose identity comes from the
labels of the pod and of its namespace. Each request to the API server and to the allocator can
fail. Calls about pods hold the lock of the reconciler, so that they come one after the other.
-/
namespace Retina.Endpoints
open Execution

structure Networking where
  nodeIP : String
  /-- The IPv4 address of each pair. -/
  addressing : List String

structure CiliumEndpoint (L : Type) where
  id : ℤ
  identity : Option (ℤ × L)
  networking : Option Networking

/-- What is known of an endpoint ahead of an upsert. -/
structure Previous (L : Type) where
  endpointID : ℤ
  identityID : ℤ
  lbls : L
  ipv4 : String
  nodeIP : String

inductive ApiOutcome
  | success
  | notFound
  | failed
deriving DecidableEq

structure Outcomes (L N : Type) where
  getNamespace : Option (Version N)
  store : Bool
  getByKey : Option (Option (CiliumEndpoint L))
  /-- The allocation for an updated or uncached pod. -/
  allocateUpdated : Option NumericIdentity
  marshal : Bool
  patch : ApiOutcome
  /-- The allocation for a new endpoint. -/
  allocateNew : Option NumericIdentity
  create : Bool
  delete : ApiOutcome

inductive Failure
  | getNamespace
  | getStore
  | getByKey
  | allocateUpdated
  | marshal
  | patch
  | allocateNew
  | create
  | delete
  | podLabels (cause : Failure)
  | deletedPod (cause : Failure)
  | upsertEndpoint (cause : Failure)
  | upsertPod (cause : Failure)
  | podsInNamespace (name : String) (cause : Failure)
deriving DecidableEq

def Failure.text : Failure → String
  | .getNamespace => "failed to get namespace: "
  | .getStore => "failed to get store: "
  | .getByKey => "failed to get from CiliumEndpoint store: "
  | .allocateUpdated => "failed to get identity ID for updated/uncached pod: failed to allocate identity: "
  | .marshal => "failed to marshal status patch: "
  | .patch => "failed to patch endpoint: "
  | .allocateNew => "failed to get identity ID for new pod: failed to allocate identity: "
  | .create => "failed to create endpoint: "
  | .delete => "failed to delete endpoint: "
  | .podLabels cause => "failed to get pod labels: " ++ cause.text
  | .deletedPod cause => "failed to delete endpoint for deleted pod: " ++ cause.text
  | .upsertEndpoint cause => "failed to upsert endpoint: " ++ cause.text
  | .upsertPod cause => "failed to upsert pod: " ++ cause.text
  | .podsInNamespace name cause => "failed to reconcile pods in namespace" ++ name ++ ": " ++ cause.text

abbrev Result := Except Failure Unit

def Result.wrap (f : Failure → Failure) : Result → Result
  | .error failure => .error (f failure)
  | .ok () => .ok ()

variable {L N M : Type}

structure Reconciler (L N M : Type) where
  store : Store L N M
  identityManager : IdentityManager L

def Reconciler.new : Reconciler L N M := ⟨.new,.new⟩

def PodEndpoint.previous (pep : PodEndpoint L M) : Previous L where
  endpointID := pep.endpointID
  identityID := pep.identityID
  lbls := pep.lbls
  ipv4 := pep.ipv4
  nodeIP := pep.nodeIP

/-- An endpoint without an IPv4 address counts as not found. -/
def CiliumEndpoint.previous [EmptyCollection L] (cep : CiliumEndpoint L) : Option (Previous L) :=
  match cep.networking with
  | none => none
  | some networking =>
    match networking.addressing with
    | [] => none
    | ipv4 :: _ =>
      if ipv4 = "" then none
      else some
        { endpointID := cep.id
          identityID := (cep.identity.map Prod.fst).getD 0
          lbls := (cep.identity.map Prod.snd).getD ∅
          ipv4 := ipv4
          nodeIP := networking.nodeIP }

def PodEndpoint.sameNetworking (pep : PodEndpoint L M) (old : Previous L) : Bool :=
  pep.ipv4 = old.ipv4 && pep.nodeIP = old.nodeIP

def PodEndpoint.renumber (pep : PodEndpoint L M) (sameNetworking : Bool) : PodEndpoint L M :=
  if sameNetworking then pep else { pep with endpointID := pep.endpointID + 1 }

section
variable [DecidableEq L]

def Reconciler.incrementReference (s : Reconciler L N M) (lbls : L) (id : NumericIdentity) : Reconciler L N M :=
  { s with identityManager := s.identityManager.incrementReference lbls id }

def Reconciler.decrementReference (s : Reconciler L N M) (lbls : L) : Reconciler L N M :=
  { s with identityManager := s.identityManager.decrementReference lbls }

def Reconciler.releaseIf (s : Reconciler L N M) (condition : Bool) (lbls : L) : Reconciler L N M :=
  if condition then s.decrementReference lbls else s

def Reconciler.addPod (s : Reconciler L N M) (pep : PodEndpoint L M) : Reconciler L N M :=
  { s with store := s.store.addPod pep }

def Reconciler.deletePod (s : Reconciler L N M) (key : Key) : Reconciler L N M :=
  { s with store := s.store.deletePod key }

def Reconciler.addNamespace (s : Reconciler L N M) (name : String) (version : Version N) : Reconciler L N M :=
  { s with store := s.store.addNamespace name version }

def createEndpoint (o : Outcomes L N) (newPEP : PodEndpoint L M) (s : Reconciler L N M) : Reconciler L N M × Result :=
  match o.allocateNew with
  | none => (s,.error .allocateNew)
  | some id =>
    let s := s.incrementReference newPEP.lbls id
    let newPEP := { newPEP with identityID := id, endpointID := 1 }
    if !o.create then (s.decrementReference newPEP.lbls,.error .create)
    else (s.addPod newPEP,.ok ())

def applyPatch (o : Outcomes L N) (newPEP : PodEndpoint L M) (old : Previous L) (inCache allocated : Bool)
    (s : Reconciler L N M) : Reconciler L N M × Result :=
  let sameNetworking := newPEP.sameNetworking old
  let equalLabels : Bool := newPEP.lbls = old.lbls
  if sameNetworking && equalLabels then (s.addPod newPEP,.ok ())
  else
    let newPEP := newPEP.renumber sameNetworking
    if !o.marshal then (s.releaseIf allocated newPEP.lbls,.error .marshal)
    else
      match o.patch with
      | .success => ((s.releaseIf (inCache && !equalLabels) old.lbls).addPod newPEP,.ok ())
      | .failed => (s.releaseIf allocated newPEP.lbls,.error .patch)
      | .notFound =>
        let s := (s.releaseIf (inCache && !equalLabels) old.lbls).releaseIf allocated newPEP.lbls
        createEndpoint o newPEP (s.deletePod newPEP.key)

def patchEndpoint (o : Outcomes L N) (newPEP : PodEndpoint L M) (old : Previous L) (inCache : Bool)
    (s : Reconciler L N M) : Reconciler L N M × Result :=
  let newPEP : PodEndpoint L M := { newPEP with endpointID := old.endpointID, identityID := old.identityID }
  let shouldAllocateNewIdentity := !inCache || !decide (newPEP.lbls = old.lbls) || decide (newPEP.identityID = 0)
  if shouldAllocateNewIdentity then
    match o.allocateUpdated with
    | none => (s,.error .allocateUpdated)
    | some id =>
      applyPatch o { newPEP with identityID := id } old inCache true (s.incrementReference newPEP.lbls id)
  else applyPatch o newPEP old inCache false s

def handlePodUpsert [EmptyCollection L] (o : Outcomes L N) (newPEP : PodEndpoint L M) (s : Reconciler L N M) :
    Reconciler L N M × Result :=
  match s.store.pods.lookup newPEP.key with
  | some oldPEP => patchEndpoint o newPEP oldPEP.previous true s
  | none =>
    if !o.store then (s,.error .getStore)
    else
      match o.getByKey with
      | none => (s,.error .getByKey)
      | some oldCEP =>
        match oldCEP.bind CiliumEndpoint.previous with
        | none => createEndpoint o newPEP s
        | some old => patchEndpoint o newPEP old false s

def handlePodDelete (o : Outcomes L N) (key : Key) (s : Reconciler L N M) : Reconciler L N M × Result :=
  match s.store.getToDeletePod key with
  | (_,none) => (s,.ok ())
  | (store,some pep) =>
    let s := { s with store := store }
    if o.delete = .failed then (s,.error .delete)
    else ((s.decrementReference pep.lbls).deletePod key,.ok ())

/-- The namespace is read from the API server if it is not in the store. -/
def ciliumEndpointsLabels (podMetadata : N → Pod M → L) (o : Outcomes L N) (pod : Pod M) (s : Reconciler L N M) :
    Reconciler L N M × Except Failure L :=
  match s.store.namespaces.lookup pod.namespaceName with
  | some version => (s,.ok (podMetadata version.labels pod))
  | none =>
    match o.getNamespace with
    | none => (s,.error .getNamespace)
    | some version => (s.addNamespace pod.namespaceName version,.ok (podMetadata version.labels pod))

def Pod.endpoint (pod : Pod M) (key : Key) (lbls : L) : PodEndpoint L M where
  key := key
  lbls := lbls
  ipv4 := pod.podIP
  nodeIP := pod.hostIP
  podObj := pod

variable [EmptyCollection L] (podMetadata : N → Pod M → L)

def reconcilePod (o : Outcomes L N) (key : Key) (pod : Option (Pod M)) (s : Reconciler L N M) :
    Reconciler L N M × Result :=
  match pod with
  | none => (handlePodDelete o key s).map id (Result.wrap .deletedPod)
  | some pod =>
    if pod.deletionTimestamp then (handlePodDelete o key s).map id (Result.wrap .deletedPod)
    -- the pod has no addresses yet
    else if pod.podIP = "" ∨ pod.hostIP = "" then (s,.ok ())
    else
      match ciliumEndpointsLabels podMetadata o pod s with
      | (s,.error failure) => (s,.error (.podLabels failure))
      | (s,.ok podLabels) => (handlePodUpsert o (pod.endpoint key podLabels) s).map id (Result.wrap .upsertEndpoint)

/-- The loop of `ReconcilePodsInNamespace`. It ends at the first error. -/
def reconcilePods (o : Key → Outcomes L N) : List Key → Reconciler L N M → Reconciler L N M × Result
  | [],s => (s,.ok ())
  | key :: podList,s =>
    match s.store.pods.lookup key with
    | none => reconcilePods o podList s
    | some pod =>
      if pod.toDelete then reconcilePods o podList s
      else
        match ciliumEndpointsLabels podMetadata (o key) pod.podObj s with
        | (s,.error failure) => (s,.error (.podLabels failure))
        | (s,.ok endpointsLabels) =>
          match handlePodUpsert (o key) { pod.deepCopy with lbls := endpointsLabels } s with
          | (s,.error failure) => (s,.error (.upsertPod failure))
          | (s,.ok ()) => reconcilePods o podList s

def reconcilePodsInNamespace (o : Key → Outcomes L N) (order : FiniteMap.Order Key) (name : String)
    (s : Reconciler L N M) : Reconciler L N M × Result :=
  reconcilePods podMetadata o (s.store.listPodKeysByNamespace order name) s

end

structure Namespace (N : Type) extends Version N where
  name : String
  deletionTimestamp : Bool

def handleNamespaceDelete (name : String) (s : Reconciler L N M) : Reconciler L N M :=
  { s with store := s.store.deleteNamespace name }

variable [DecidableEq L] [EmptyCollection L] [DecidableEq N] (podMetadata : N → Pod M → L)

def reconcileNamespace (o : Key → Outcomes L N) (order : FiniteMap.Order Key) (ns : Option (Namespace N))
    (s : Reconciler L N M) : Reconciler L N M × Result :=
  match ns with
  | none => (s,.ok ())
  | some ns =>
    if ns.deletionTimestamp then (handleNamespaceDelete ns.name s,.ok ())
    else
      match s.store.namespaces.lookup ns.name with
      | none => (s.addNamespace ns.name ns.toVersion,.ok ())
      | some oldNs =>
        if oldNs.resourceVersion = ns.resourceVersion then (s,.ok ())
        else if oldNs.labels = ns.labels then (s,.ok ())
        else (reconcilePodsInNamespace podMetadata o order ns.name (s.addNamespace ns.name ns.toVersion)).map id
          (Result.wrap (.podsInNamespace ns.name))

/-! ## Runs -/

inductive Event (L N M : Type)
  | reconcilePod (o : Outcomes L N) (key : Key) (pod : Option (Pod M))
  | handlePodDelete (o : Outcomes L N) (key : Key)
  | reconcilePodsInNamespace (o : Key → Outcomes L N) (order : FiniteMap.Order Key) (name : String)
  | reconcileNamespace (o : Key → Outcomes L N) (order : FiniteMap.Order Key) (ns : Option (Namespace N))
  | handleNamespaceDelete (name : String)

def step (s : Reconciler L N M) : Event L N M → Reconciler L N M
  | .reconcilePod o key pod => (reconcilePod podMetadata o key pod s).1
  | .handlePodDelete o key => (handlePodDelete o key s).1
  | .reconcilePodsInNamespace o order name => (reconcilePodsInNamespace podMetadata o order name s).1
  | .reconcileNamespace o order ns => (reconcileNamespace podMetadata o order ns s).1
  | .handleNamespaceDelete name => handleNamespaceDelete name s

end Retina.Endpoints
