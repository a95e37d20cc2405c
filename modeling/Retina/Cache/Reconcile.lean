import Retina.Cache.Owners

/-! # The daemon reconcilers

The pod, service and node controllers of `pkg/controllers/daemon` copy the objects
of the API server into the cache. A call of `Reconcile` names an object and reads
its current state; `none` is the answer `NotFound`. The addresses of API objects are
parsed: an absent text is `none`, and one that `net.ParseIP` refuses is `nil`.
-/
namespace Retina.Cache
open Ownership

/-- The name of an object or a namespace. The API server admits no slash in it. -/
structure Name where
  text : String
  noSlash : '/' ∉ text.toList
deriving DecidableEq

structure NamespacedName where
  ns : Name
  name : Name
deriving DecidableEq

def NamespacedName.toString (n : NamespacedName) : String := n.ns.text ++ "/" ++ n.name.text

structure Pod where
  nn : NamespacedName
  hostNetwork : Bool := false
  deletionTimestamp : Bool := false
  podIP : Option NetIP
  podIPs : List NetIP := []
  annotations : Finmap (fun _ : String => String) := ∅
deriving DecidableEq

structure Service where
  nn : NamespacedName
  deletionTimestamp : Bool := false
  clusterIP : NetIP
deriving DecidableEq

structure Node where
  name : Name
  deletionTimestamp : Bool := false
  addresses : List NetIP
deriving DecidableEq

def retinaEndpointCommonFromPod (pod : Pod) : RetinaEndpoint :=
  let podIP := pod.podIP.getD .nil
  let others := pod.podIPs.filter fun ip => some ip ≠ pod.podIP
  { name := pod.nn.name.text
    ns := pod.nn.ns.text
    ips := some {
      ipv4 := if isIPV4 podIP then podIP else .nil
      ipv6 := if isIPV4 podIP then .nil else podIP
      otherIPv4s := others.filter isIPV4
      otherIPv6s := others.filter fun ip => !isIPV4 ip }
    annotations := match pod.annotations.lookup retinaPodAnnotation with
      | some v => Finmap.singleton retinaPodAnnotation v
      | none => ∅ }

/-- The errors of the deletions are logged and dropped. -/
def reconcilePod (c : Cache) (req : NamespacedName) : Option Pod → Cache × Option String
  | none => ((c.deleteEndpoint req.toString).1,none)
  | some pod =>
    if pod.hostNetwork then (c,none)
    else if pod.deletionTimestamp then ((c.deleteEndpoint req.toString).1,none)
    else if pod.podIP = none then (c,none)
    else c.updateEndpoint (retinaEndpointCommonFromPod pod)

def reconcileService (c : Cache) (req : NamespacedName) : Option Service → Cache × Option String
  | none => ((c.deleteSvc req.toString).1,none)
  | some service =>
    if service.deletionTimestamp then ((c.deleteSvc req.toString).1,none)
    else c.updateSvc (newRetinaSvc service.nn.name.text service.nn.ns.text (some { ipv4 := service.clusterIP }))

def reconcileNode (c : Cache) (req : NamespacedName) : Option Node → Cache × Option String
  | none => ((c.deleteNode req.toString).1,none)
  | some node =>
    if node.deletionTimestamp then ((c.deleteNode req.toString).1,none)
    else match node.addresses with
      | [] => (c,none)
      | address :: _ => c.updateNode (newRetinaNode node.name.text address)

/-! ## The cluster around the reconcilers -/

inductive APIObject where
  | pod (p : Pod)
  | service (s : Service)
  | node (n : Node)
deriving DecidableEq

inductive Request where
  | pod (nn : NamespacedName)
  | service (nn : NamespacedName)
  | node (name : Name)
deriving DecidableEq

def noNamespace : Name := ⟨"",by decide⟩

def Request.id : Request → ObjectId
  | .pod nn => ⟨.endpoint,nn.toString⟩
  | .service nn => ⟨.svc,nn.toString⟩
  | .node name => ⟨.node,name.text⟩

namespace APIObject

def request : APIObject → Request
  | .pod p => .pod p.nn
  | .service s => .service s.nn
  | .node n => .node n.name

def terminating : APIObject → Bool
  | .pod p => p.deletionTimestamp
  | .service s => s.deletionTimestamp
  | .node n => n.deletionTimestamp

def terminate : APIObject → APIObject
  | .pod p => .pod { p with deletionTimestamp := true }
  | .service s => .service { s with deletionTimestamp := true }
  | .node n => .node { n with deletionTimestamp := true }

def toCache : APIObject → CacheObject
  | .pod p => .endpoint (retinaEndpointCommonFromPod p)
  | .service s => .svc (newRetinaSvc s.nn.name.text s.nn.ns.text (some { ipv4 := s.clusterIP }))
  | .node n => .node (newRetinaNode n.name.text (n.addresses.headD .nil))

abbrev ips (o : APIObject) : List NetIP := o.toCache.ips

def HasAddress : APIObject → Prop
  | .pod p => p.hostNetwork = false ∧ ∃ ip ∈ p.podIP, ip ≠ .nil
  | .service s => s.clusterIP ≠ .nil
  | .node n => n.addresses ≠ []

end APIObject

/-- The API server, the cache, every object created so far, and the requests whose object was created,
marked for deletion or deleted since their last reconcile. -/
structure Cluster where
  api : Finmap (fun _ : Request => APIObject) := ∅
  cache : Cache := {}
  created : List APIObject := []
  pending : Finset Request := ∅

inductive ClusterEvent where
  | create (o : APIObject)
  | terminate (req : Request)
  | delete (req : Request)
  | reconcile (req : Request)

namespace Cluster

def getPod (w : Cluster) (nn : NamespacedName) : Option Pod :=
  match w.api.lookup (.pod nn) with
  | some (.pod p) => some p
  | _ => none

def getService (w : Cluster) (nn : NamespacedName) : Option Service :=
  match w.api.lookup (.service nn) with
  | some (.service s) => some s
  | _ => none

def getNode (w : Cluster) (name : Name) : Option Node :=
  match w.api.lookup (.node name) with
  | some (.node n) => some n
  | _ => none

def reconcile (w : Cluster) : Request → Cache × Option String
  | .pod nn => reconcilePod w.cache nn (w.getPod nn)
  | .service nn => reconcileService w.cache nn (w.getService nn)
  | .node name => reconcileNode w.cache ⟨noNamespace,name⟩ (w.getNode name)

def step (w : Cluster) : ClusterEvent → Cluster
  | .create o => { w with
      api := w.api.insert o.request o
      created := o :: w.created
      pending := insert o.request w.pending }
  | .terminate req =>
    match w.api.lookup req with
    | some o => { w with
        api := w.api.insert req o.terminate
        pending := insert req w.pending }
    | none => w
  | .delete req => { w with
      api := w.api.erase req
      pending := insert req w.pending }
  | .reconcile req => { w with
      cache := (w.reconcile req).1
      pending := w.pending.erase req }

def live (w : Cluster) (req : Request) : Option APIObject := (w.api.lookup req).filter fun o => !o.terminating

end Cluster

end Retina.Cache
