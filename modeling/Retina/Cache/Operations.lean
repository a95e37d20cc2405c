import Retina.Cache.Types
import Retina.Library.Execution

/-! # The operations of the identity cache

`pkg/controllers/cache/cache.go` with explicit state. An operation returns the new
cache and its error; an error does not undo what the operation did before it. The
events that `publish` hands to a goroutine of their own are appended to `published`.
-/
namespace Retina

structure Cache where
  epMap : Finmap (fun _ : String => Cache.RetinaEndpoint) := ∅
  svcMap : Finmap (fun _ : String => Cache.RetinaSvc) := ∅
  ipToEpKey : Finmap (fun _ : Cache.NetIP => String) := ∅
  ipToSvcKey : Finmap (fun _ : Cache.NetIP => String) := ∅
  nodeMap : Finmap (fun _ : String => Cache.RetinaNode) := ∅
  ipToNodeName : Finmap (fun _ : Cache.NetIP => String) := ∅
  published : List Cache.CacheEvent := []
deriving DecidableEq

namespace Cache

def getPodByIP (c : Cache) (ip : NetIP) : Option RetinaEndpoint :=
  match c.ipToEpKey.lookup ip with
  | none => none
  | some podKey => c.epMap.lookup podKey

def getSvcByIP (c : Cache) (ip : NetIP) : Option RetinaSvc :=
  match c.ipToSvcKey.lookup ip with
  | none => none
  | some svcKey => c.svcMap.lookup svcKey

def getNodeByIP (c : Cache) (ip : NetIP) : Option RetinaNode :=
  match c.ipToNodeName.lookup ip with
  | none => none
  | some nodeName => c.nodeMap.lookup nodeName

def getObjByIP (c : Cache) (ip : NetIP) : Option CacheObject :=
  match c.getPodByIP ip with
  | some ep => some (.endpoint ep)
  | none =>
    match c.getSvcByIP ip with
    | some svc => some (.svc svc)
    | none =>
      match c.getNodeByIP ip with
      | some node => some (.node node)
      | none => none

def publish (c : Cache) (type : EventType) (obj : CacheObject) : Cache :=
  { c with published := c.published ++ [⟨type,obj⟩] }

def deleteEndpoint (c : Cache) (epKey : String) : Cache × Option String :=
  match c.epMap.lookup epKey with
  | none => (c,none)
  | some ep =>
    match ep.getIPs with
    | .error err => (c,some err)
    | .ok ips => (publish { c with
        epMap := c.epMap.erase epKey
        ipToEpKey := ips.foldl (fun m ip => m.erase ip) c.ipToEpKey } .podDeleted (.endpoint ep),none)

def deleteSvc (c : Cache) (svcKey : String) : Cache × Option String :=
  match c.svcMap.lookup svcKey with
  | none => (c,some ("service not found in cache: " ++ svcKey))
  | some svc =>
    match svc.getPrimaryIP with
    | .error err => (c,some err)
    | .ok ip => (publish { c with
        svcMap := c.svcMap.erase svcKey
        ipToSvcKey := c.ipToSvcKey.erase ip } .svcDeleted (.svc svc),none)

def deleteNode (c : Cache) (nodeName : String) : Cache × Option String :=
  match c.nodeMap.lookup nodeName with
  | none => (c,some ("node not found in cache: " ++ nodeName))
  | some node => (publish { c with
      nodeMap := c.nodeMap.erase nodeName
      ipToNodeName := c.ipToNodeName.erase node.ip } .nodeDeleted (.node node),none)

/-- The three indexes are asked in turn, and the first one that knows the address decides. -/
def deleteByIP (c : Cache) (ip : NetIP) (key : String) : Cache × Option String :=
  match c.ipToSvcKey.lookup ip with
  | some svcKey => if svcKey = key then (c,none) else c.deleteSvc svcKey
  | none =>
    match c.ipToEpKey.lookup ip with
    | some epKey => if epKey = key then (c,none) else c.deleteEndpoint epKey
    | none =>
      match c.ipToNodeName.lookup ip with
      | some nodeName => if nodeName = key then (c,none) else c.deleteNode nodeName
      | none => (c,none)

/-- The loop of `updateEndpoint` over the addresses of the endpoint. -/
def deleteByIPs (c : Cache) (key : String) : List NetIP → Cache × Option String
  | [] => (c,none)
  | ip :: ips =>
    match c.deleteByIP ip key with
    | (c',some err) => (c',some err)
    | (c',none) => deleteByIPs c' key ips

def updateEndpoint (c : Cache) (ep : RetinaEndpoint) : Cache × Option String :=
  match ep.getIPs with
  | .error err => (c,some err)
  | .ok ips =>
    match c.deleteByIPs ep.key ips with
    | (c',some err) => (c',some err)
    | (c',none) => (publish { c' with
        epMap := c'.epMap.insert ep.key ep
        ipToEpKey := ips.foldl (fun m ip => m.insert ip ep.key) c'.ipToEpKey } .podAdded (.endpoint ep),none)

def updateSvc (c : Cache) (svc : RetinaSvc) : Cache × Option String :=
  match svc.getPrimaryIP with
  | .error err => (c,some err)
  | .ok ip =>
    match c.deleteByIP ip svc.key with
    | (c',some err) => (c',some err)
    | (c',none) => (publish { c' with
        ipToSvcKey := c'.ipToSvcKey.insert ip svc.key
        svcMap := c'.svcMap.insert svc.key svc } .svcAdded (.svc svc),none)

def updateNode (c : Cache) (node : RetinaNode) : Cache × Option String :=
  match c.deleteByIP node.ip node.name with
  | (c',some err) => (c',some err)
  | (c',none) => (publish { c' with
      nodeMap := c'.nodeMap.insert node.name node
      ipToNodeName := c'.ipToNodeName.insert node.ip node.name } .nodeAdded (.node node),none)

structure ObjectId where
  type : ObjectType
  key : String
deriving DecidableEq

inductive CacheOp where
  | update (o : CacheObject)
  | delete (i : ObjectId)
deriving DecidableEq

def update (c : Cache) : CacheObject → Cache × Option String
  | .endpoint ep => c.updateEndpoint ep
  | .svc svc => c.updateSvc svc
  | .node node => c.updateNode node

def delete (c : Cache) : ObjectId → Cache × Option String
  | ⟨.endpoint,key⟩ => c.deleteEndpoint key
  | ⟨.svc,key⟩ => c.deleteSvc key
  | ⟨.node,key⟩ => c.deleteNode key

def step (c : Cache) : CacheOp → Cache
  | .update o => (c.update o).1
  | .delete i => (c.delete i).1

def after (ops : List CacheOp) : Cache := Execution.run step {} ops

end Cache

end Retina
