import Retina.Cache.Types
import Retina.Library.FiniteMap
import Retina.Library.Heap

/-! # Published objects in memory

The records of `pkg/common/types.go` as they are laid out: a `net.IP` is a slice of bytes, the addresses of an object, its
owner references and its containers are behind pointers, labels and annotations are maps. The content of an object is
what is seen by following all of these. It tells nil from empty, except for the further addresses of an object, which
are only ever appended to other slices or ranged over.
-/
namespace Retina.Objects
open Memory

abbrev NetIP := Option Slice

abbrev StringMap := Finmap fun _ : String => String

structure IPAddresses where
  ipv4 : NetIP := none
  ipv6 : NetIP := none
  otherIPv4s : Option Slice := none
  otherIPv6s : Option Slice := none

structure OwnerReference where
  apiVersion : String := ""
  kind : String := ""
  name : String := ""
  uid : String := ""
  controller : Bool := false
deriving DecidableEq

structure RetinaContainer where
  name : String := ""
  id : String := ""
deriving DecidableEq

/-- What an array holds. A variable of its own is an array of one cell. -/
inductive Kind
  | byte
  | netIP
  | addresses
  | pointer
  | ownerReference
  | container
  | stringMap
  | rwMutex
deriving DecidableEq

/-- The state of a lock is not modelled. -/
abbrev Cell : Kind → Type
  | .byte => UInt8
  | .netIP => NetIP
  | .addresses => IPAddresses
  | .pointer => Option Pointer
  | .ownerReference => OwnerReference
  | .container => RetinaContainer
  | .stringMap => StringMap
  | .rwMutex => Unit

/-- The field `namespace` is called `ns`. -/
structure BaseObject where
  rwMutex : Option Pointer := none
  name : String := ""
  ns : String := ""
  ips : Option Pointer := none

structure RetinaEndpoint extends BaseObject where
  ownerRefs : Option Slice := none
  containers : Option Slice := none
  labels : Option Pointer := none
  annotations : Option Pointer := none
  nodeIP : String := ""

structure RetinaSvc extends BaseObject where
  lbIP : NetIP := none
  selector : Option Pointer := none

structure RetinaNode where
  name : String := ""
  ip : NetIP := none
  zone : String := ""

inductive PublishObj
  | endpoint (ep : RetinaEndpoint)
  | svc (svc : RetinaSvc)
  | node (node : RetinaNode)

structure CacheEvent where
  type : Cache.EventType
  obj : PublishObj

/-! ## Content -/

structure AddressesContent where
  ipv4 : Option (List UInt8)
  ipv6 : Option (List UInt8)
  otherIPv4s : List (Option (List UInt8))
  otherIPv6s : List (Option (List UInt8))
deriving DecidableEq

structure EndpointContent where
  name : String
  ns : String
  ips : Option AddressesContent
  ownerRefs : Option (List (Option OwnerReference))
  containers : Option (List (Option RetinaContainer))
  labels : Option StringMap
  annotations : Option StringMap
  nodeIP : String

structure SvcContent where
  name : String
  ns : String
  ips : Option AddressesContent
  lbIP : Option (List UInt8)
  selector : Option StringMap

structure NodeContent where
  name : String
  ip : Option (List UInt8)
  zone : String

inductive Content
  | endpoint (content : EndpointContent)
  | svc (content : SvcContent)
  | node (content : NodeContent)

def NetIP.view : NetIP → View Cell (Option (List UInt8)) := View.optional (View.array Kind.byte)

def netIPsView : Option Slice → View Cell (List (Option (List UInt8)))
  | none => View.const []
  | some s => (View.array .netIP s).bind (View.traverse NetIP.view)

def IPAddresses.view (i : IPAddresses) : View Cell AddressesContent :=
  ((((NetIP.view i.ipv4).and (NetIP.view i.ipv6)).and (netIPsView i.otherIPv4s)).and (netIPsView i.otherIPv6s)).map
    fun x => ⟨x.1.1.1,x.1.1.2,x.1.2,x.2⟩

def ipsView : Option Pointer → View Cell (Option AddressesContent) :=
  View.optional fun p => (View.cell .addresses p).bind IPAddresses.view

def recordsView (k : Kind) : Option Slice → View Cell (Option (List (Option (Cell k)))) :=
  View.optional fun s => (View.array .pointer s).bind (View.traverse (View.optional (View.cell k)))

theorem recordsView_value (k : Kind) (s : Slice) (h : Heap Cell) :
    (recordsView k (some s)).value h =
      some ((h.read Kind.pointer s).map fun p => (View.optional (View.cell k) p).value h) :=
  congrArg some (View.traverse_value _ _ h)

def mapView : Option Pointer → View Cell (Option StringMap) := View.optional (View.cell Kind.stringMap)

def RetinaEndpoint.view (ep : RetinaEndpoint) : View Cell EndpointContent :=
  (((((ipsView ep.ips).and (recordsView .ownerReference ep.ownerRefs)).and (recordsView .container ep.containers)).and
    (mapView ep.labels)).and (mapView ep.annotations)).map
      fun x => ⟨ep.name,ep.ns,x.1.1.1.1,x.1.1.1.2,x.1.1.2,x.1.2,x.2,ep.nodeIP⟩

def RetinaSvc.view (svc : RetinaSvc) : View Cell SvcContent :=
  (((ipsView svc.ips).and (NetIP.view svc.lbIP)).and (mapView svc.selector)).map
    fun x => ⟨svc.name,svc.ns,x.1.1,x.1.2,x.2⟩

def RetinaNode.view (node : RetinaNode) : View Cell NodeContent :=
  (NetIP.view node.ip).map fun ip => ⟨node.name,ip,node.zone⟩

def PublishObj.view : PublishObj → View Cell Content
  | .endpoint ep => ep.view.map .endpoint
  | .svc s => s.view.map .svc
  | .node n => n.view.map .node

end Retina.Objects
