import Retina.Library.Execution
import Retina.Library.FiniteMap

/-! # The node reconciler

`pkg/controllers/daemon/nodereconciler/node_controller_linux.go`. An event of a node that passes the
predicate puts the name of the node into a queue; a reconciliation reads the node that is there at
its time. The ipcache is a map. `net.ParseIP` and `IP.String` are parameters, as is the address of
the local node. Handlers of the datapath and failing requests are left out.
-/
namespace Retina.Nodes
open Execution FiniteMap

inductive NodeAddressType
  | hostName
  | internalIP
  | externalIP
  | internalDNS
  | externalDNS
deriving DecidableEq

structure NodeAddress where
  type : NodeAddressType
  address : String
deriving DecidableEq

structure Node where
  name : String
  labels : Finmap (fun _ : String => String)
  annotations : Finmap (fun _ : String => String)
  deletionTimestamp : Bool
  addresses : List NodeAddress
deriving DecidableEq

def NodeAddress.isIP (addr : NodeAddress) : Bool := addr.type = .internalIP ∨ addr.type = .externalIP

/-- The map from the type of an address to the last address of that type. -/
def extractNodeIPs (node : Node) : Finmap (fun _ : NodeAddressType => String) :=
  node.addresses.foldl (fun ips addr => if addr.isIP then ips.insert addr.type addr.address else ips) ∅

/-- `UpdateFunc` of the predicate. The other events of nodes pass. -/
def updatePasses (old new : Node) : Bool :=
  extractNodeIPs old ≠ extractNodeIPs new ∨ old.labels ≠ new.labels ∨ old.annotations ≠ new.annotations

inductive Identity
  | host
  | remoteNode
deriving DecidableEq

/-- `net.ParseIP`, the texts of addresses, and `localNodeIP`. -/
structure Setting (IP : Type) where
  parseIP : String → Option IP
  text : IP → String
  localNodeIP : String

structure Address (IP : Type) where
  ip : IP
  type : NodeAddressType

structure NodeRecord (IP : Type) where
  name : String
  ipAddresses : List (Address IP)

section
variable {IP : Type} (env : Setting IP)

def nodeRecord (node : Node) : NodeRecord IP where
  name := node.name
  ipAddresses := node.addresses.filterMap fun addr =>
    if addr.isIP then (env.parseIP addr.address).map fun ip => ⟨ip,addr.type⟩ else none

def NodeRecord.ips (nd : NodeRecord IP) : List String := nd.ipAddresses.map fun address => env.text address.ip

/-- The host identity is that of the node with the local address. -/
def NodeRecord.identity (nd : NodeRecord IP) : Identity :=
  if nd.ips env |>.contains env.localNodeIP then .host else .remoteNode

/-- The nodes of the cluster, the queue, and the reconciler with its ipcache. -/
structure World (IP : Type) where
  cluster : Finmap (fun _ : String => Node)
  queue : Finset String
  nodes : Finmap (fun _ : String => NodeRecord IP)
  ipcache : Finmap (fun _ : String => Identity)

namespace World

def start : World IP := ⟨∅,∅,∅,∅⟩

def addNode (w : World IP) (node : Node) : World IP :=
  let nd := nodeRecord env node
  { w with
    nodes := w.nodes.insert node.name nd
    ipcache := (nd.ips env).foldl (fun cache ip => cache.insert ip (nd.identity env)) w.ipcache }

def deleteNode (w : World IP) (name : String) : World IP :=
  match w.nodes.lookup name with
  | none => w
  | some nd =>
    { w with
      nodes := w.nodes.erase name
      ipcache := (nd.ips env).foldl (fun cache ip => cache.erase ip) w.ipcache }

def reconcile (w : World IP) (name : String) : World IP :=
  match w.cluster.lookup name with
  | none => w.deleteNode env name
  | some node => if node.deletionTimestamp then w.deleteNode env node.name else w.addNode env node

inductive Op
  | put (node : Node)
  | delete (name : String)
  | reconcile (name : String)

/-- A node that is put into the cluster is created or updated, and only an update can be kept back. -/
def passes (w : World IP) (node : Node) : Bool :=
  match w.cluster.lookup node.name with
  | none => true
  | some old => updatePasses old node

def step (w : World IP) : Op → World IP
  | .put node =>
    { w with
      cluster := w.cluster.insert node.name node
      queue := if w.passes node then insert node.name w.queue else w.queue }
  | .delete name => { w with cluster := w.cluster.erase name, queue := insert name w.queue }
  | .reconcile name =>
    if name ∈ w.queue then { w with queue := w.queue.erase name }.reconcile env name else w

def Exact (w : World IP) : Prop :=
  ∀ ip id, w.ipcache.lookup ip = some id ↔
    ∃ name node, w.cluster.lookup name = some node ∧ ip ∈ (nodeRecord env node).ips env ∧
      id = (nodeRecord env node).identity env

def Distinct (w : World IP) : Op → Prop
  | .put node =>
    ∀ name other, name ≠ node.name → w.cluster.lookup name = some other →
      ∀ ip ∈ (nodeRecord env other).ips env, ip ∉ (nodeRecord env node).ips env
  | _ => True

/-- A node leaves the cluster at once: no version of it has a deletion timestamp. -/
def Unmarked (_ : World IP) : Op → Prop
  | .put node => node.deletionTimestamp = false
  | _ => True

/-- A version of a node keeps all addresses that were recorded for the node, has none that is still recorded for another
node, and has the addresses of the last version if it is kept back by the predicate. -/
def Additive (w : World IP) : Op → Prop
  | .put node =>
    (∀ nd, w.nodes.lookup node.name = some nd → ∀ ip ∈ nd.ips env, ip ∈ (nodeRecord env node).ips env) ∧
      (∀ name nd, name ≠ node.name → w.nodes.lookup name = some nd →
        ∀ ip ∈ nd.ips env, ip ∉ (nodeRecord env node).ips env) ∧
      ∀ old, w.cluster.lookup node.name = some old → updatePasses old node = false → node.name ∉ w.queue →
        ∀ ip, ip ∈ (nodeRecord env node).ips env ↔ ip ∈ (nodeRecord env old).ips env
  | _ => True

end World
end
end Retina.Nodes
