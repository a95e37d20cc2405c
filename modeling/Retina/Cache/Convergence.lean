import Retina.Cache.Reconcile

/-! # Deleted objects stop resolving

In a cluster whose objects have addresses of their own the cache follows the API
server, except that the node controller deletes under a key that no node has.
-/
namespace Retina.Cache
open Ownership

namespace Cluster

/-- An object is created with addresses that no other object has ever had, and after the last deletion
under its name was reconciled. -/
def Admissible (w : Cluster) : ClusterEvent → Prop
  | .create o => o.HasAddress ∧ o.terminating = false ∧ o.request ∉ w.pending ∧ w.api.lookup o.request = none ∧
      ∀ x ∈ w.created, ∀ ip ∈ o.ips, ip ∈ x.ips → x.request = o.request
  | _ => True

def NodeStays (w : Cluster) : ClusterEvent → Prop
  | .reconcile (.node name) => w.live (.node name) = none → w.cache.object ⟨.node,name.text⟩ = none
  | _ => True

instance decidableHasAddress : (o : APIObject) → Decidable o.HasAddress
  | .pod p => inferInstanceAs (Decidable (p.hostNetwork = false ∧ ∃ ip ∈ p.podIP, ip ≠ .nil))
  | .service s => inferInstanceAs (Decidable (s.clusterIP ≠ .nil))
  | .node n => inferInstanceAs (Decidable (n.addresses ≠ []))

instance decidableAdmissible (w : Cluster) : (e : ClusterEvent) → Decidable (w.Admissible e)
  | .create o => inferInstanceAs (Decidable (o.HasAddress ∧ o.terminating = false ∧ o.request ∉ w.pending ∧
      w.api.lookup o.request = none ∧ ∀ x ∈ w.created, ∀ ip ∈ o.ips, ip ∈ x.ips → x.request = o.request))
  | .terminate _ | .delete _ | .reconcile _ => inferInstanceAs (Decidable True)

instance decidableNodeStays (w : Cluster) : (e : ClusterEvent) → Decidable (w.NodeStays e)
  | .reconcile (.node name) => inferInstanceAs
      (Decidable (w.live (.node name) = none → w.cache.object ⟨.node,name.text⟩ = none))
  | .create _ | .terminate _ | .delete _ | .reconcile (.pod _) | .reconcile (.service _) =>
    inferInstanceAs (Decidable True)

structure Resolves (w : Cluster) : Prop where
  gone : ∀ o ∈ w.created, o.request ∉ w.pending → ∀ ip ∈ o.ips,
    (∀ req x, w.live req = some x → ip ∉ x.ips) → w.cache.getObjByIP ip = none
  present : ∀ req o, w.live req = some o → req ∉ w.pending → ∀ ip ∈ o.ips,
    w.cache.getObjByIP ip = some o.toCache

end Cluster

theorem NamespacedName.toList_toString (n : NamespacedName) :
    n.toString.toList = n.ns.text.toList ++ '/' :: n.name.text.toList := by
  simp [NamespacedName.toString]

theorem NamespacedName.toString_injective : Function.Injective NamespacedName.toString := by
  rintro ⟨⟨a,ha⟩,⟨b,hb⟩⟩ ⟨⟨c,hc⟩,⟨d,hd⟩⟩ h
  have hl := congrArg String.toList h
  rw [NamespacedName.toList_toString, NamespacedName.toList_toString] at hl
  obtain ⟨hac,-,hbd⟩ := (List.append_cons_inj_of_notMem ha hb).mp hl
  rw [String.toList_inj] at hac hbd
  simp only at hac hbd
  subst hac hbd
  rfl

theorem Request.id_injective : Function.Injective Request.id := by
  intro a b h
  cases a <;> cases b <;> simp only [Request.id, ObjectId.mk.injEq, reduceCtorEq, false_and, true_and] at h
  · rw [NamespacedName.toString_injective h]
  · rw [NamespacedName.toString_injective h]
  · next x y =>
    cases x
    cases y
    simp_all

namespace APIObject

theorem toCache_id (o : APIObject) : o.toCache.id = o.request.id := by cases o <;> rfl

theorem toCache_terminate (o : APIObject) : o.terminate.toCache = o.toCache := by cases o <;> rfl

theorem request_terminate (o : APIObject) : o.terminate.request = o.request := by cases o <;> rfl

theorem HasAddress.terminate {o : APIObject} (h : o.HasAddress) : o.terminate.HasAddress := by cases o <;> exact h

theorem HasAddress.ips_ne_nil {o : APIObject} (h : o.HasAddress) : o.ips ≠ [] := by
  cases o with
  | pod p =>
    obtain ⟨-,ip,hip,hne⟩ := h
    cases ip <;>
      simp_all [ips, toCache, CacheObject.ips, RetinaEndpoint.getIPs, retinaEndpointCommonFromPod, IPAddresses.getIPs,
        isIPV4, Except.toOption]
  | service s =>
    have hne : s.clusterIP ≠ .nil := h
    simp [ips, toCache, CacheObject.ips, RetinaSvc.getPrimaryIP, newRetinaSvc, IPAddresses.primaryIP, hne,
      Except.toOption]
  | node n => simp [ips, toCache, CacheObject.ips]

end APIObject

namespace Cluster

theorem live_eq_some {w : Cluster} {req : Request} {o : APIObject} (h : w.live req = some o) :
    w.api.lookup req = some o ∧ o.terminating = false := by
  simpa [live, Option.filter_eq_some_iff] using h

theorem terminating_of_live {w : Cluster} {req : Request} {o : APIObject} (h : w.live req = none)
    (ho : w.api.lookup req = some o) : o.terminating = true := by
  simpa [live, ho, Option.filter_eq_none_iff] using h

/-- What the cache and the API server have in common along a run. -/
structure Tracks (w : Cluster) : Prop where
  stored : ∀ req o, w.api.lookup req = some o → o.request = req ∧ o.HasAddress ∧ ∃ x ∈ w.created, x.toCache = o.toCache
  apart : ∀ x ∈ w.created, ∀ y ∈ w.created, ∀ ip ∈ x.ips, ip ∈ y.ips → x.request = y.request
  settled : Settled w.cache
  cached : ∀ i y, w.cache.object i = some y → ∃ x ∈ w.created, x.toCache = y
  agree : ∀ req o y, w.api.lookup req = some o → w.cache.object req.id = some y → y = o.toCache
  current : ∀ req, req ∉ w.pending → w.cache.object req.id = (w.live req).map APIObject.toCache

theorem tracks_start : Tracks {} where
  stored := by simp
  apart := by simp
  settled := settled_empty
  cached := by rintro ⟨_ | _ | _,key⟩ y h <;> simp [object] at h
  agree := by simp
  current := by rintro (_ | _ | _) - <;> simp [object, live, Request.id]

/-- The key under which a controller deletes: the name of a node gets a slash in front. -/
def deletionId : Request → ObjectId
  | .node name => ⟨.node,NamespacedName.toString ⟨noNamespace,name⟩⟩
  | req => req.id

theorem reconcile_of_live {w : Cluster} (hw : Tracks w) {req : Request} {o : APIObject} (h : w.live req = some o) :
    w.reconcile req = w.cache.update o.toCache := by
  obtain ⟨hlook,hterm⟩ := live_eq_some h
  obtain ⟨rfl,haddr,-⟩ := hw.stored req o hlook
  cases o with
  | pod p =>
    obtain ⟨hhost,ip,hip,-⟩ := haddr
    simp only [APIObject.request] at hlook
    simp only [APIObject.terminating] at hterm
    simp [reconcile, APIObject.request, getPod, hlook, reconcilePod, hhost, hterm, Option.mem_def.mp hip, update,
      APIObject.toCache]
  | service s =>
    simp only [APIObject.request] at hlook
    simp only [APIObject.terminating] at hterm
    simp [reconcile, APIObject.request, getService, hlook, reconcileService, hterm, update, APIObject.toCache]
  | node n =>
    simp only [APIObject.request] at hlook
    simp only [APIObject.terminating] at hterm
    obtain ⟨address,rest,haddrs⟩ := List.exists_cons_of_ne_nil haddr
    simp [reconcile, APIObject.request, getNode, hlook, reconcileNode, hterm, haddrs, update, APIObject.toCache]

theorem reconcile_of_not_live {w : Cluster} (hw : Tracks w) {req : Request} (h : w.live req = none) :
    (w.reconcile req).1 = (w.cache.delete (deletionId req)).1 := by
  cases hlook : w.api.lookup req with
  | none => cases req <;> simp [reconcile, getPod, getService, getNode, hlook, reconcilePod, reconcileService,
      reconcileNode, deletionId, Request.id, delete]
  | some o =>
    have hterm := terminating_of_live h hlook
    obtain ⟨rfl,haddr,-⟩ := hw.stored req o hlook
    cases o with
    | pod p =>
      obtain ⟨hhost,-⟩ := haddr
      simp only [APIObject.request] at hlook
      simp only [APIObject.terminating] at hterm
      simp [reconcile, APIObject.request, getPod, hlook, reconcilePod, hhost, hterm, deletionId, Request.id, delete]
    | service s =>
      simp only [APIObject.request] at hlook
      simp only [APIObject.terminating] at hterm
      simp [reconcile, APIObject.request, getService, hlook, reconcileService, hterm, deletionId, Request.id, delete]
    | node n =>
      simp only [APIObject.request] at hlook
      simp only [APIObject.terminating] at hterm
      simp [reconcile, APIObject.request, getNode, hlook, reconcileNode, hterm, deletionId, delete]

theorem Tracks.id_of_cached {w : Cluster} (hw : Tracks w) {i : ObjectId} {y : CacheObject}
    (h : w.cache.object i = some y) : ∃ x ∈ w.created, x.toCache = y ∧ x.request.id = i := by
  obtain ⟨x,hx,rfl⟩ := hw.cached i y h
  exact ⟨x,hx,rfl,by rw [← x.toCache_id, hw.settled.named i _ h]⟩

/-- Distinct objects share no address, so whoever holds an address of the object is the object. -/
theorem Tracks.holder_eq {w : Cluster} (hw : Tracks w) {req : Request} {o : APIObject}
    (ho : w.api.lookup req = some o) {ip : NetIP} (hip : ip ∈ o.ips) {j : ObjectId} (hj : w.cache.Owns j ip) :
    j = req.id := by
  obtain ⟨rfl,-,x,hx,hxo⟩ := hw.stored req o ho
  obtain ⟨y,hy,hyip⟩ := hj
  obtain ⟨z,hz,rfl,rfl⟩ := hw.id_of_cached hy
  have hxip : ip ∈ x.ips := by simpa only [APIObject.ips, hxo] using hip
  rw [hw.apart z hz x hx ip hyip hxip, ← x.toCache_id, hxo, o.toCache_id]

theorem reconcile_live_effect {w : Cluster} (hw : Tracks w) {req : Request} {o : APIObject}
    (h : w.live req = some o) :
    Settled (w.reconcile req).1 ∧
      ∀ j, (w.reconcile req).1.object j = if j = req.id then some o.toCache else w.cache.object j := by
  obtain ⟨hlook,-⟩ := live_eq_some h
  obtain ⟨hreq,haddr,-⟩ := hw.stored req o hlook
  have hid : o.toCache.id = req.id := by rw [o.toCache_id, hreq]
  have hkeep : w.cache.KeepsAddresses (.update o.toCache) := by
    intro old hold ip hip
    rw [hid] at hold
    rwa [hw.agree req o old hlook hold] at hip
  have hk : w.cache.KeysApart (.update o.toCache) := by
    intro ip hip t hidx
    have hj := hw.holder_eq hlook hip ((hw.settled.index _ ip).mp hidx)
    exact congrArg ObjectId.type (hj.trans hid.symm)
  rw [reconcile_of_live hw h]
  refine ⟨hw.settled.update haddr.ips_ne_nil hkeep hk,?_⟩
  intro j
  rw [object_update hw.settled haddr.ips_ne_nil hk, hid]
  by_cases hj : j = req.id
  · rw [hj, publish_self, if_pos rfl]
  · rw [if_neg hj, publish_keeps hj]
    intro ip hip hown
    exact hj (hw.holder_eq hlook hip hown)

/-- No node has the key that the node controller deletes. -/
theorem Tracks.object_deletionId {w : Cluster} (hw : Tracks w) (name : Name) :
    w.cache.object (deletionId (.node name)) = none := by
  by_contra hne
  obtain ⟨y,hy⟩ := Option.ne_none_iff_exists'.mp hne
  obtain ⟨x,-,-,hx⟩ := hw.id_of_cached hy
  cases x with
  | pod p => simp [APIObject.request, Request.id, deletionId] at hx
  | service s => simp [APIObject.request, Request.id, deletionId] at hx
  | node n =>
    have htext : n.name.text = NamespacedName.toString ⟨noNamespace,name⟩ := congrArg ObjectId.key hx
    apply n.name.noSlash
    rw [htext, NamespacedName.toList_toString]
    simp

theorem reconcile_not_live_effect {w : Cluster} (hw : Tracks w) {req : Request} (h : w.live req = none)
    (hn : w.NodeStays (.reconcile req)) :
    Settled (w.reconcile req).1 ∧
      ∀ j, (w.reconcile req).1.object j = if j = req.id then none else w.cache.object j := by
  have hdel : deletionId req = req.id ∨ w.cache.object req.id = none ∧ w.cache.object (deletionId req) = none := by
    cases req with
    | pod nn => exact .inl rfl
    | service nn => exact .inl rfl
    | node name => exact .inr ⟨hn h,hw.object_deletionId name⟩
  rw [reconcile_of_not_live hw h]
  rcases hdel with hid | ⟨hnone,hnone'⟩
  · rw [hid]
    cases hobj : w.cache.object req.id with
    | none =>
      rw [delete_of_none hobj]
      refine ⟨hw.settled,fun j => ?_⟩
      by_cases hj : j = req.id <;> simp [hj, hobj]
    | some y =>
      rw [delete_of_some hobj (hw.settled.filed _ y hobj)]
      exact ⟨hw.settled.remove hobj,object_remove hobj⟩
  · rw [delete_of_none hnone']
    refine ⟨hw.settled,fun j => ?_⟩
    by_cases hj : j = req.id <;> simp [hj, hnone]

theorem reconcile_effect {w : Cluster} (hw : Tracks w) {req : Request} (hn : w.NodeStays (.reconcile req)) :
    Settled (w.reconcile req).1 ∧ ∀ j, (w.reconcile req).1.object j =
      if j = req.id then (w.live req).map APIObject.toCache else w.cache.object j := by
  cases h : w.live req with
  | none => exact reconcile_not_live_effect hw h hn
  | some o => exact reconcile_live_effect hw h

theorem Tracks.reconcile {w : Cluster} (hw : Tracks w) {req : Request} (hn : w.NodeStays (.reconcile req)) :
    Tracks (w.step (.reconcile req)) := by
  obtain ⟨hsettled,hobj⟩ := reconcile_effect hw hn
  refine ⟨hw.stored,hw.apart,hsettled,?_,?_,?_⟩
  · intro i y hy
    simp only [step, hobj] at hy
    split at hy
    · obtain ⟨o,ho,rfl⟩ := Option.map_eq_some_iff.mp hy
      obtain ⟨-,-,x,hx,hxo⟩ := hw.stored req o (live_eq_some ho).1
      exact ⟨x,hx,hxo⟩
    · exact hw.cached i y hy
  · intro r o y ho hy
    simp only [step, hobj] at ho hy
    split at hy
    · next hr =>
      obtain rfl := Request.id_injective hr
      obtain ⟨x,hx,rfl⟩ := Option.map_eq_some_iff.mp hy
      rw [(live_eq_some hx).1] at ho
      cases ho
      rfl
    · exact hw.agree r o y ho hy
  · intro r hr
    simp only [step, hobj]
    split
    · next hid =>
      obtain rfl := Request.id_injective hid
      rfl
    · next hid =>
      apply hw.current
      intro hpend
      exact hr (Finset.mem_erase.mpr ⟨fun h => hid (by rw [h]),hpend⟩)

theorem Tracks.create {w : Cluster} (hw : Tracks w) {o : APIObject} (ha : w.Admissible (.create o)) :
    Tracks (w.step (.create o)) := by
  obtain ⟨haddr,hterm,hpend,hnone,hapart⟩ := ha
  have hcache : w.cache.object o.request.id = none := by
    rw [hw.current o.request hpend, live, hnone]
    rfl
  refine ⟨?_,?_,hw.settled,?_,?_,?_⟩
  · intro req x hx
    simp only [step, FiniteMap.lookup_insert_eq_ite] at hx
    split at hx
    · next h =>
      cases hx
      exact ⟨h.symm,haddr,o,List.mem_cons_self,rfl⟩
    · obtain ⟨hreq,hx,y,hy,hyx⟩ := hw.stored req x hx
      exact ⟨hreq,hx,y,List.mem_cons_of_mem o hy,hyx⟩
  · intro x hx y hy ip hxip hyip
    rcases List.mem_cons.mp hx with rfl | hx' <;> rcases List.mem_cons.mp hy with rfl | hy'
    · rfl
    · exact (hapart y hy' ip hxip hyip).symm
    · exact hapart x hx' ip hyip hxip
    · exact hw.apart x hx' y hy' ip hxip hyip
  · intro i y hy
    obtain ⟨x,hx,hxy⟩ := hw.cached i y hy
    exact ⟨x,List.mem_cons_of_mem o hx,hxy⟩
  · intro req x y hx hy
    simp only [step, FiniteMap.lookup_insert_eq_ite] at hx hy
    split at hx
    · next h =>
      subst h
      simp [hcache] at hy
    · exact hw.agree req x y hx hy
  · intro req hreq
    simp only [step, Finset.mem_insert, not_or] at hreq
    simp only [step, live, FiniteMap.lookup_insert_eq_ite, if_neg hreq.1]
    exact hw.current req hreq.2

theorem Tracks.terminate {w : Cluster} (hw : Tracks w) (req : Request) : Tracks (w.step (.terminate req)) := by
  cases hlook : w.api.lookup req with
  | none => simpa only [step, hlook] using hw
  | some o =>
    simp only [step, hlook]
    obtain ⟨hreq,haddr,x,hx,hxo⟩ := hw.stored req o hlook
    refine ⟨?_,hw.apart,hw.settled,hw.cached,?_,?_⟩
    · intro r y hy
      simp only [FiniteMap.lookup_insert_eq_ite] at hy
      split at hy
      · next h =>
        cases hy
        exact ⟨by rw [o.request_terminate, hreq, h],haddr.terminate,x,hx,by rw [hxo, o.toCache_terminate]⟩
      · exact hw.stored r y hy
    · intro r y z hy hz
      simp only [FiniteMap.lookup_insert_eq_ite] at hy
      split at hy
      · next h =>
        cases hy
        subst h
        rw [o.toCache_terminate]
        exact hw.agree r o z hlook hz
      · exact hw.agree r y z hy hz
    · intro r hr
      simp only [Finset.mem_insert, not_or] at hr
      simp only [live, FiniteMap.lookup_insert_eq_ite, if_neg hr.1]
      exact hw.current r hr.2

theorem Tracks.delete {w : Cluster} (hw : Tracks w) (req : Request) : Tracks (w.step (.delete req)) := by
  refine ⟨?_,hw.apart,hw.settled,hw.cached,?_,?_⟩
  · intro r y hy
    exact hw.stored r y (FiniteMap.lookup_of_erase hy).2
  · intro r y z hy hz
    exact hw.agree r y z (FiniteMap.lookup_of_erase hy).2 hz
  · intro r hr
    simp only [step, Finset.mem_insert, not_or] at hr
    simp only [step, live, FiniteMap.lookup_erase_eq_ite, if_neg hr.1]
    exact hw.current r hr.2

theorem Tracks.step {w : Cluster} (hw : Tracks w) {e : ClusterEvent} (ha : w.Admissible e) (hn : w.NodeStays e) :
    Tracks (w.step e) := by
  cases e with
  | create o => exact hw.create ha
  | terminate req => exact hw.terminate req
  | delete req => exact hw.delete req
  | reconcile req => exact hw.reconcile hn

theorem Tracks.resolves {w : Cluster} (hw : Tracks w) : Resolves w where
  gone := by
    intro o ho hpend ip hip hlive
    by_contra hne
    obtain ⟨y,hy⟩ := Option.ne_none_iff_exists'.mp hne
    obtain ⟨i,hobj,hyip⟩ := (hw.settled.getObjByIP_eq_some_iff ip y).mp hy
    obtain ⟨x,hx,rfl,rfl⟩ := hw.id_of_cached hobj
    rw [hw.apart x hx o ho ip hyip hip, hw.current _ hpend] at hobj
    obtain ⟨z,hz,hzx⟩ := Option.map_eq_some_iff.mp hobj
    refine hlive _ z hz ?_
    simpa only [APIObject.ips, hzx] using hyip
  present := by
    intro req o hlive hpend ip hip
    rw [hw.settled.getObjByIP_eq_some_iff]
    exact ⟨req.id,by rw [hw.current req hpend, hlive, Option.map_some],hip⟩

/-- A deleted node that the cache holds goes on resolving after its reconcile. -/
theorem not_resolves_of_not_nodeStays {w : Cluster} (hw : Tracks w) {e : ClusterEvent} (hn : ¬w.NodeStays e) :
    ¬Resolves (w.step e) := by
  rcases e with o | req | req | ⟨nn | nn | name⟩
  case reconcile.node =>
    simp only [NodeStays, Classical.not_imp] at hn
    obtain ⟨hlive,hobj⟩ := hn
    obtain ⟨y,hy⟩ := Option.ne_none_iff_exists'.mp hobj
    obtain ⟨x,hx,rfl,hid⟩ := hw.id_of_cached hy
    have hreq : x.request = .node name := Request.id_injective hid
    obtain ⟨ip,hip⟩ := List.exists_mem_of_ne_nil _ (hw.settled.filed _ _ hy)
    have hcache : (w.reconcile (.node name)).1 = w.cache := by
      rw [reconcile_of_not_live hw hlive, delete_of_none (hw.object_deletionId name)]
    intro hres
    have hnone := hres.gone x hx (by simp [step, hreq]) ip hip ?_
    · simp only [step, hcache] at hnone
      have hsome := (hw.settled.getObjByIP_eq_some_iff ip x.toCache).mpr ⟨_,hy,hip⟩
      simp [hnone] at hsome
    · intro req z hz hzip
      have hz : w.live req = some z := hz
      have hown := hw.holder_eq (live_eq_some hz).1 hzip ⟨x.toCache,hy,hip⟩
      obtain rfl : Request.node name = req := Request.id_injective hown
      simp [hlive] at hz
  all_goals exact absurd trivial hn

theorem tracks_run {events : List ClusterEvent} (ha : Execution.Along Cluster.step Admissible {} events)
    (hn : Execution.Along Cluster.step NodeStays {} events) : Tracks (Execution.run Cluster.step {} events) :=
  Execution.invariant (I := Tracks) (fun _ _ hw he => hw.step he.1 he.2) tracks_start (ha.and hn)

theorem deleted_stop_resolving_iff (events : List ClusterEvent)
    (ha : Execution.Along Cluster.step Admissible {} events) :
    (∀ earlier, earlier <+: events → Resolves (Execution.run Cluster.step {} earlier)) ↔
      Execution.Along Cluster.step NodeStays {} events := by
  refine Execution.forall_prefix_iff_along (fun es ha hn => (tracks_run ha hn).resolves) ?_ ha
  intro es e ha hn _ he hres
  rw [Execution.run_append] at hres
  exact not_resolves_of_not_nodeStays (tracks_run ha hn) he hres

section Sample

def podName : NamespacedName := ⟨⟨"ns1",by decide⟩,⟨"a",by decide⟩⟩
def nodeName : Name := ⟨"n",by decide⟩

def samplePod : APIObject := .pod { nn := podName, podIP := some (sampleIP 1), podIPs := [sampleIP 1,sampleIP 2] }
def sampleNode : APIObject := .node { name := nodeName, addresses := [sampleIP 3] }

def podLeaves : List ClusterEvent := [.create samplePod,.create sampleNode,.reconcile (.node nodeName),
  .reconcile (.pod podName),.terminate (.pod podName),.reconcile (.pod podName),.delete (.pod podName),
  .reconcile (.pod podName)]

def nodeLeaves : List ClusterEvent :=
  [.create sampleNode,.reconcile (.node nodeName),.delete (.node nodeName),.reconcile (.node nodeName)]

end Sample

theorem deleted_stop_resolving_iff_podLeaves :
    Execution.Along Cluster.step Admissible {} podLeaves ∧ Resolves (Execution.run Cluster.step {} podLeaves) :=
  ⟨by decide,(deleted_stop_resolving_iff podLeaves (by decide)).mpr (by decide) podLeaves (List.prefix_refl _)⟩

theorem deleted_node_resolves :
    Execution.Along Cluster.step Admissible {} nodeLeaves ∧
      (Execution.run Cluster.step {} nodeLeaves).api.lookup (.node nodeName) = none ∧
      (Execution.run Cluster.step {} nodeLeaves).cache.getObjByIP (sampleIP 3) =
        some (.node (newRetinaNode "n" (sampleIP 3))) := by decide

end Cluster

end Retina.Cache
