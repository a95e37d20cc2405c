import Retina.Cache.Operations
import Retina.Library.FiniteMap
import Retina.Library.Ownership

/-! # What the operations do to objects and indexes

The cache keeps three pairs of maps, one for each kind of object, and the source
has its code three times. Here the three copies are read as one: `object` is what is
stored under a key, `Indexed` what the index of that kind says of an address.
-/
namespace Retina.Cache

def CacheObject.id : CacheObject → ObjectId
  | .endpoint ep => ⟨.endpoint,ep.key⟩
  | .svc s => ⟨.svc,s.key⟩
  | .node n => ⟨.node,n.name⟩

/-- The addresses under which the cache files an object: all of an endpoint, the primary one
of a service. The list is empty if the source finds no address and refuses the object. -/
def CacheObject.ips : CacheObject → List NetIP
  | .endpoint ep => ep.getIPs.toOption.getD []
  | .svc s => s.getPrimaryIP.toOption.toList
  | .node n => [n.ip]

def object (c : Cache) : ObjectId → Option CacheObject
  | ⟨.endpoint,key⟩ => (c.epMap.lookup key).map .endpoint
  | ⟨.svc,key⟩ => (c.svcMap.lookup key).map .svc
  | ⟨.node,key⟩ => (c.nodeMap.lookup key).map .node

def index (c : Cache) : ObjectType → Finmap (fun _ : NetIP => String)
  | .endpoint => c.ipToEpKey
  | .svc => c.ipToSvcKey
  | .node => c.ipToNodeName

def Indexed (c : Cache) (i : ObjectId) (ip : NetIP) : Prop := (c.index i.type).lookup ip = some i.key

instance decidableIndexed (c : Cache) (i : ObjectId) (ip : NetIP) : Decidable (c.Indexed i ip) :=
  inferInstanceAs (Decidable (_ = _))

abbrev Owns (c : Cache) (i : ObjectId) (ip : NetIP) : Prop := Ownership.Owns CacheObject.ips c.object i ip

/-- The last lines of the three update functions. -/
def store (c : Cache) : CacheObject → Cache
  | .endpoint ep => publish { c with
      epMap := c.epMap.insert ep.key ep
      ipToEpKey := (CacheObject.endpoint ep).ips.foldl (fun m ip => m.insert ip ep.key) c.ipToEpKey }
      .podAdded (.endpoint ep)
  | .svc svc => publish { c with
      ipToSvcKey := (CacheObject.svc svc).ips.foldl (fun m ip => m.insert ip svc.key) c.ipToSvcKey
      svcMap := c.svcMap.insert svc.key svc } .svcAdded (.svc svc)
  | .node node => publish { c with
      nodeMap := c.nodeMap.insert node.name node
      ipToNodeName := (CacheObject.node node).ips.foldl (fun m ip => m.insert ip node.name) c.ipToNodeName }
      .nodeAdded (.node node)

/-- The last lines of the three delete functions, for the object that they find. -/
def remove (c : Cache) (key : String) : CacheObject → Cache
  | .endpoint ep => publish { c with
      epMap := c.epMap.erase key
      ipToEpKey := (CacheObject.endpoint ep).ips.foldl (fun m ip => m.erase ip) c.ipToEpKey }
      .podDeleted (.endpoint ep)
  | .svc svc => publish { c with
      svcMap := c.svcMap.erase key
      ipToSvcKey := (CacheObject.svc svc).ips.foldl (fun m ip => m.erase ip) c.ipToSvcKey }
      .svcDeleted (.svc svc)
  | .node node => publish { c with
      nodeMap := c.nodeMap.erase key
      ipToNodeName := (CacheObject.node node).ips.foldl (fun m ip => m.erase ip) c.ipToNodeName }
      .nodeDeleted (.node node)

theorem update_eq (c : Cache) {o : CacheObject} (ho : o.ips ≠ []) :
    c.update o = match c.deleteByIPs o.id.key o.ips with
      | (c',some err) => (c',some err)
      | (c',none) => (c'.store o,none) := by
  cases o with
  | endpoint ep =>
    simp only [CacheObject.ips, update, updateEndpoint, store, CacheObject.id] at ho ⊢
    cases h : ep.getIPs with
    | error err => simp [h, Except.toOption] at ho
    | ok ips =>
      rcases hd : c.deleteByIPs ep.key ips with ⟨c',_ | err⟩ <;> simp only [Except.toOption, Option.getD_some, hd]
  | svc svc =>
    simp only [CacheObject.ips, update, updateSvc, store, CacheObject.id] at ho ⊢
    cases h : svc.getPrimaryIP with
    | error err => simp [h, Except.toOption] at ho
    | ok ip =>
      simp only [Except.toOption, Option.toList_some, deleteByIPs]
      rcases c.deleteByIP ip svc.key with ⟨c',_ | err⟩ <;> rfl
  | node node =>
    simp only [CacheObject.ips, update, updateNode, store, CacheObject.id, deleteByIPs]
    rcases c.deleteByIP node.ip node.name with ⟨c',_ | err⟩ <;> rfl

theorem update_of_ips_eq_nil (c : Cache) {o : CacheObject} (ho : o.ips = []) : (c.update o).1 = c := by
  cases o with
  | endpoint ep =>
    simp only [CacheObject.ips, update, updateEndpoint] at ho ⊢
    cases h : ep.getIPs with
    | error err => rfl
    | ok ips =>
      simp only [h, Except.toOption, Option.getD_some] at ho
      simp only [RetinaEndpoint.getIPs] at h
      split at h
      · split at h
        · simp_all
        · simp at h
      · simp at h
  | svc svc =>
    simp only [CacheObject.ips, update, updateSvc] at ho ⊢
    cases h : svc.getPrimaryIP with
    | error err => rfl
    | ok ip => simp [h, Except.toOption] at ho
  | node node => simp [CacheObject.ips] at ho

theorem object_store (c : Cache) (o : CacheObject) (j : ObjectId) :
    (c.store o).object j = if j = o.id then some o else c.object j := by
  obtain ⟨type,key⟩ := j
  cases o <;> cases type <;> simp [store, object, publish, CacheObject.id, FiniteMap.lookup_insert_eq_ite]
  all_goals split <;> simp

theorem indexed_store (c : Cache) (o : CacheObject) (j : ObjectId) (ip : NetIP) :
    (c.store o).Indexed j ip ↔ if j.type = o.id.type ∧ ip ∈ o.ips then j = o.id else c.Indexed j ip := by
  obtain ⟨type,key⟩ := j
  cases o <;> cases type <;>
    simp only [store, Indexed, index, publish, CacheObject.id, FiniteMap.lookup_foldl_insert, reduceCtorEq,
      false_and, true_and, if_false, ObjectId.mk.injEq]
  all_goals split <;> simp [eq_comm]

theorem delete_of_none {c : Cache} {i : ObjectId} (h : c.object i = none) : (c.delete i).1 = c := by
  obtain ⟨type,key⟩ := i
  cases type <;> simp only [object, Option.map_eq_none_iff] at h <;>
    simp [delete, deleteEndpoint, deleteSvc, deleteNode, h]

theorem delete_of_some {c : Cache} {i : ObjectId} {o : CacheObject} (h : c.object i = some o) (ho : o.ips ≠ []) :
    c.delete i = (c.remove i.key o,none) := by
  obtain ⟨type,key⟩ := i
  cases type with
  | endpoint =>
    obtain ⟨ep,hep,rfl⟩ := Option.map_eq_some_iff.mp h
    simp only [CacheObject.ips, delete, deleteEndpoint, hep, remove] at ho ⊢
    cases hips : ep.getIPs with
    | error err => simp [hips, Except.toOption] at ho
    | ok ips => simp [Except.toOption]
  | svc =>
    obtain ⟨svc,hsvc,rfl⟩ := Option.map_eq_some_iff.mp h
    simp only [CacheObject.ips, delete, deleteSvc, hsvc, remove] at ho ⊢
    cases hips : svc.getPrimaryIP with
    | error err => simp [hips, Except.toOption] at ho
    | ok ip => simp [Except.toOption]
  | node =>
    obtain ⟨node,hnode,rfl⟩ := Option.map_eq_some_iff.mp h
    simp [CacheObject.ips, delete, deleteNode, hnode, remove]

theorem object_remove {c : Cache} {i : ObjectId} {o : CacheObject} (h : c.object i = some o) (j : ObjectId) :
    (c.remove i.key o).object j = if j = i then none else c.object j := by
  obtain ⟨type,key⟩ := i
  obtain ⟨type',key'⟩ := j
  cases type <;> obtain ⟨x,-,rfl⟩ := Option.map_eq_some_iff.mp h <;> cases type' <;>
    simp [remove, object, publish, FiniteMap.lookup_erase_eq_ite]
  all_goals split <;> simp

theorem indexed_remove {c : Cache} {i : ObjectId} {o : CacheObject} (h : c.object i = some o) (j : ObjectId)
    (ip : NetIP) : (c.remove i.key o).Indexed j ip ↔ c.Indexed j ip ∧ ¬(j.type = i.type ∧ ip ∈ o.ips) := by
  obtain ⟨type,key⟩ := i
  obtain ⟨type',key'⟩ := j
  cases type <;> obtain ⟨x,-,rfl⟩ := Option.map_eq_some_iff.mp h <;> cases type' <;>
    simp only [remove, Indexed, index, publish, FiniteMap.lookup_foldl_erase, reduceCtorEq, false_and,
      not_false_eq_true, and_true, true_and]
  all_goals split <;> simp_all

/-- `GetPodByIP`, `GetSvcByIP` and `GetNodeByIP` under one name. -/
def getByIP (c : Cache) : ObjectType → NetIP → Option CacheObject
  | .endpoint,ip => (c.getPodByIP ip).map .endpoint
  | .svc,ip => (c.getSvcByIP ip).map .svc
  | .node,ip => (c.getNodeByIP ip).map .node

theorem getByIP_of_indexed {c : Cache} {i : ObjectId} {ip : NetIP} (h : c.Indexed i ip) :
    c.getByIP i.type ip = c.object i := by
  obtain ⟨type,key⟩ := i
  cases type <;> simp only [Indexed, index] at h <;>
    simp only [getByIP, getPodByIP, getSvcByIP, getNodeByIP, h, object]

theorem getByIP_eq_some {c : Cache} {t : ObjectType} {ip : NetIP} {o : CacheObject}
    (h : c.getByIP t ip = some o) : ∃ key, c.Indexed ⟨t,key⟩ ip ∧ c.object ⟨t,key⟩ = some o := by
  cases hidx : (c.index t).lookup ip with
  | none =>
    cases t <;> simp only [index] at hidx <;>
      simp [getByIP, getPodByIP, getSvcByIP, getNodeByIP, hidx] at h
  | some key =>
    have hi : c.Indexed ⟨t,key⟩ ip := hidx
    exact ⟨key,hi,by rw [← getByIP_of_indexed hi, h]⟩

theorem getByIP_store (c : Cache) (o : CacheObject) {ip : NetIP} (hip : ip ∈ o.ips) :
    (c.store o).getByIP o.id.type ip = some o := by
  have hidx : (c.store o).Indexed o.id ip := by simp [indexed_store, hip]
  rw [getByIP_of_indexed hidx, object_store, if_pos rfl]

theorem getObjByIP_eq (c : Cache) (ip : NetIP) :
    c.getObjByIP ip = ((c.getByIP .endpoint ip).or (c.getByIP .svc ip)).or (c.getByIP .node ip) := by
  simp only [getObjByIP, getByIP]
  cases c.getPodByIP ip <;> cases c.getSvcByIP ip <;> cases c.getNodeByIP ip <;> rfl

/-- `deleteByIP` does nothing, or it deletes an object that some index names for the address. -/
theorem deleteByIP_cases (c : Cache) (ip : NetIP) (key : String) :
    ((∀ j, ¬c.Indexed j ip) ∧ c.deleteByIP ip key = (c,none)) ∨
    ∃ j, c.Indexed j ip ∧ c.deleteByIP ip key = if j.key = key then (c,none) else c.delete j := by
  simp only [deleteByIP]
  cases hs : c.ipToSvcKey.lookup ip with
  | some svcKey => exact .inr ⟨⟨.svc,svcKey⟩,hs,rfl⟩
  | none =>
    cases he : c.ipToEpKey.lookup ip with
    | some epKey => exact .inr ⟨⟨.endpoint,epKey⟩,he,rfl⟩
    | none =>
      cases hn : c.ipToNodeName.lookup ip with
      | some nodeName => exact .inr ⟨⟨.node,nodeName⟩,hn,rfl⟩
      | none =>
        refine .inl ⟨?_,rfl⟩
        rintro ⟨_ | _ | _,key⟩ <;> simp [Indexed, index, *]

end Retina.Cache
