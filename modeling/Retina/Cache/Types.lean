import Mathlib

/-! # Objects of the identity cache

The records of `pkg/common` as far as the cache and its clients read them. A
`net.IP` is compared and printed through its text, which identifies the address:
the four byte and the sixteen byte form of one IPv4 address print alike. An
address is therefore one value here, and it serves as the map key that the source
writes as `ip.String()`.
-/
namespace Retina.Cache

inductive NetIP where
  | nil
  | v4 (a b c d : BitVec 8)
  | v6 (addr : BitVec 128)
deriving DecidableEq

def isIPV4 : NetIP → Bool
  | .v4 _ _ _ _ => true
  | _ => false

structure IPAddresses where
  ipv4 : NetIP := .nil
  ipv6 : NetIP := .nil
  otherIPv4s : List NetIP := []
  otherIPv6s : List NetIP := []
deriving DecidableEq

namespace IPAddresses
variable (i : IPAddresses)

def getIPs : List NetIP :=
  (if i.ipv4 ≠ .nil then [i.ipv4] else []) ++ (if i.ipv6 ≠ .nil then [i.ipv6] else []) ++
    i.otherIPv4s ++ i.otherIPv6s

def primaryNetIP : NetIP :=
  if i.ipv4 ≠ .nil then i.ipv4 else if i.ipv6 ≠ .nil then i.ipv6 else .nil

/-- The empty text that the source returns for a missing primary address is `none`. -/
def primaryIP : Option NetIP :=
  if i.ipv4 ≠ .nil then some i.ipv4 else if i.ipv6 ≠ .nil then some i.ipv6 else none

end IPAddresses

/-- The field `namespace` is called `ns`. A nil pointer to the addresses is `none`. -/
structure BaseObject where
  name : String
  ns : String
  ips : Option IPAddresses
deriving DecidableEq

def BaseObject.key (b : BaseObject) : String := b.ns ++ "/" ++ b.name

def retinaPodAnnotation : String := "retina.sh"
def retinaPodAnnotationValue : String := "observe"

structure RetinaEndpoint extends BaseObject where
  annotations : Finmap (fun _ : String => String) := ∅
deriving DecidableEq

def newRetinaEndpoint (name ns : String) (ips : Option IPAddresses) : RetinaEndpoint := { name, ns, ips }

namespace RetinaEndpoint
variable (ep : RetinaEndpoint)

/-- `RetinaEndpoint.IPs`: never an empty list. -/
def getIPs : Except String (List NetIP) :=
  match ep.ips with
  | some ips =>
    if ips.getIPs.length > 0 then .ok ips.getIPs else .error (ep.key ++ ": no IP found for endpoint")
  | none => .error (ep.key ++ ": no IP found for endpoint")

def primaryNetIP : Except String NetIP :=
  match ep.ips with
  | some ips =>
    if ips.primaryNetIP ≠ .nil then .ok ips.primaryNetIP
    else .error ("endpoint: " ++ ep.key ++ ": no primary IP found for endpoint")
  | none => .error ("endpoint: " ++ ep.key ++ ": no primary IP found for endpoint")

end RetinaEndpoint

structure RetinaSvc extends BaseObject
deriving DecidableEq

def newRetinaSvc (name ns : String) (ips : Option IPAddresses) : RetinaSvc := { name, ns, ips }

def RetinaSvc.getPrimaryIP (svc : RetinaSvc) : Except String NetIP :=
  match svc.ips.bind IPAddresses.primaryIP with
  | some pip => .ok pip
  | none => .error ("no primary IP found for service " ++ svc.key)

structure RetinaNode where
  name : String
  ip : NetIP
deriving DecidableEq

def newRetinaNode (name : String) (ip : NetIP) : RetinaNode := { name, ip }

inductive ObjectType where
  | endpoint | svc | node
deriving DecidableEq

instance ObjectType.fintype : Fintype ObjectType := ⟨{.endpoint,.svc,.node},by rintro (_ | _ | _) <;> decide⟩

/-- What `GetObjByIP` returns and what events carry: one of the three kinds of objects. -/
inductive CacheObject where
  | endpoint (ep : RetinaEndpoint)
  | svc (svc : RetinaSvc)
  | node (node : RetinaNode)
deriving DecidableEq

inductive EventType where
  | podAdded | podDeleted | svcAdded | svcDeleted | nodeAdded | nodeDeleted
deriving DecidableEq

structure CacheEvent where
  type : EventType
  obj : CacheObject
deriving DecidableEq

inductive PubSubTopic where
  | pods | svc | node
deriving DecidableEq

def EventType.topic (t : EventType) : PubSubTopic :=
  if t = .svcAdded ∨ t = .svcDeleted then .svc
  else if t = .nodeAdded ∨ t = .nodeDeleted then .node
  else .pods

end Retina.Cache
