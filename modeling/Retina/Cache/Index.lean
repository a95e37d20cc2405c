import Retina.Cache.Effects

/-! # The index and the objects

As long as no object is published again without one of its addresses, and no two
kinds of objects meet on one address under one key, the index names for each address
exactly the object that has it.
-/
namespace Retina.Cache
open Ownership

structure Settled (c : Cache) : Prop where
  named : ∀ i o, c.object i = some o → o.id = i
  filed : ∀ i o, c.object i = some o → o.ips ≠ []
  index : ∀ i ip, c.Indexed i ip ↔ c.Owns i ip
  exclusive : Exclusive CacheObject.ips c.object

theorem settled_empty : Settled {} where
  named := by rintro ⟨_ | _ | _,key⟩ o h <;> simp [object] at h
  filed := by rintro ⟨_ | _ | _,key⟩ o h <;> simp [object] at h
  index := by rintro ⟨_ | _ | _,key⟩ ip <;> simp [Indexed, Cache.index, Owns, Ownership.Owns, object]
  exclusive := by
    rintro ⟨_ | _ | _,key⟩ j ip ⟨o,h,-⟩ <;> simp [object] at h

theorem object_remove_shrinks {c : Cache} {i : ObjectId} {o : CacheObject} (h : c.object i = some o)
    (j : ObjectId) : (c.remove i.key o).object j = c.object j ∨ (c.remove i.key o).object j = none := by
  rw [object_remove h]
  split <;> simp

theorem object_of_remove {c : Cache} {i j : ObjectId} {o x : CacheObject} (h : c.object i = some o)
    (hx : (c.remove i.key o).object j = some x) : c.object j = some x := by
  rw [object_remove h] at hx
  split at hx
  · simp at hx
  · exact hx

theorem owns_remove {c : Cache} {i : ObjectId} {o : CacheObject} (h : c.object i = some o) (j : ObjectId)
    (ip : NetIP) : (c.remove i.key o).Owns j ip ↔ j ≠ i ∧ c.Owns j ip := by
  simp only [Owns, Ownership.Owns, object_remove h]
  by_cases hj : j = i <;> simp [hj]

theorem Settled.remove {c : Cache} (hc : Settled c) {i : ObjectId} {o : CacheObject} (h : c.object i = some o) :
    Settled (c.remove i.key o) where
  named := fun j x hx => hc.named j x (object_of_remove h hx)
  filed := fun j x hx => hc.filed j x (object_of_remove h hx)
  index := by
    intro j ip
    rw [indexed_remove h, owns_remove h, hc.index]
    constructor
    · rintro ⟨hown,hip⟩
      refine ⟨?_,hown⟩
      rintro rfl
      obtain ⟨x,hx,hxip⟩ := hown
      rw [h] at hx
      cases hx
      exact hip ⟨rfl,hxip⟩
    · rintro ⟨hne,hown⟩
      exact ⟨hown,fun hip => hne (hc.exclusive hown ⟨o,h,hip.2⟩)⟩
  exclusive := hc.exclusive.of_shrinks (object_remove_shrinks h)

structure Evicted (c c' : Cache) (key : String) (ips : List NetIP) : Prop where
  settled : Settled c'
  object : ∀ j, c'.object j = c.object j ∨ c'.object j = none ∧ j.key ≠ key ∧ ∃ ip ∈ ips, c.Owns j ip
  owner : ∀ ip ∈ ips, ∀ j, c'.Owns j ip → j.key = key

theorem Evicted.owns {c c' : Cache} {key : String} {ips : List NetIP} (h : Evicted c c' key ips) {j : ObjectId}
    {ip : NetIP} (ho : c'.Owns j ip) : c.Owns j ip :=
  owns_of_shrinks (fun j => (h.object j).imp id fun hj => hj.1) ho

theorem deleteByIP_evicted {c : Cache} (hc : Settled c) (ip : NetIP) (key : String) :
    ∃ c', c.deleteByIP ip key = (c',none) ∧ Evicted c c' key [ip] := by
  rcases c.deleteByIP_cases ip key with ⟨hnone,heq⟩ | ⟨j,hj,heq⟩
  · refine ⟨c,heq,hc,fun _ => .inl rfl,?_⟩
    intro a ha k hk
    cases List.mem_singleton.mp ha
    exact absurd ((hc.index k ip).mpr hk) (hnone k)
  · have hown := (hc.index j ip).mp hj
    by_cases hkey : j.key = key
    · refine ⟨c,by simp [heq, hkey],hc,fun _ => .inl rfl,?_⟩
      intro a ha k hk
      cases List.mem_singleton.mp ha
      rw [hc.exclusive hk hown, hkey]
    · obtain ⟨o,ho,hip⟩ := hown
      refine ⟨c.remove j.key o,?_,hc.remove ho,?_,?_⟩
      · rw [heq, if_neg hkey, delete_of_some ho (hc.filed j o ho)]
      · intro k
        rw [object_remove ho]
        split
        · next hk => exact .inr ⟨rfl,hk ▸ hkey,ip,List.mem_singleton_self ip,hk ▸ ⟨o,ho,hip⟩⟩
        · exact .inl rfl
      · intro a ha k hk
        cases List.mem_singleton.mp ha
        obtain ⟨hne,hk⟩ := (owns_remove ho k ip).mp hk
        exact absurd (hc.exclusive hk ⟨o,ho,hip⟩) hne

theorem deleteByIPs_evicted {c : Cache} (hc : Settled c) (key : String) (ips : List NetIP) :
    ∃ c', c.deleteByIPs key ips = (c',none) ∧ Evicted c c' key ips := by
  induction ips generalizing c with
  | nil => exact ⟨c,rfl,hc,fun _ => .inl rfl,by simp⟩
  | cons ip ips ih =>
    obtain ⟨c₁,h₁,he₁⟩ := deleteByIP_evicted hc ip key
    obtain ⟨c₂,h₂,he₂⟩ := ih he₁.settled
    refine ⟨c₂,by simp only [deleteByIPs, h₁, h₂],he₂.settled,?_,?_⟩
    · intro j
      rcases he₂.object j with h | ⟨hnone,hkey,a,ha,hown⟩
      · rw [h]
        rcases he₁.object j with h | ⟨hnone,hkey,a,ha,hown⟩
        · exact .inl h
        · exact .inr ⟨hnone,hkey,a,by simp_all,hown⟩
      · exact .inr ⟨hnone,hkey,a,List.mem_cons_of_mem ip ha,he₁.owns hown⟩
    · intro a ha j hj
      rcases List.mem_cons.mp ha with rfl | ha
      · exact he₁.owner a (List.mem_singleton_self a) j (he₂.owns hj)
      · exact he₂.owner a ha j hj

theorem update_evicted {c : Cache} (hc : Settled c) {o : CacheObject} (ho : o.ips ≠ []) :
    ∃ c', c.update o = (c'.store o,none) ∧ Evicted c c' o.id.key o.ips := by
  obtain ⟨c',h,he⟩ := deleteByIPs_evicted hc o.id.key o.ips
  exact ⟨c',by simp only [update_eq c ho, h],he⟩

/-- An object that is published again keeps every address that it has in the cache. -/
def KeepsAddresses (c : Cache) : CacheOp → Prop
  | .update o => ∀ old ∈ c.object o.id, ∀ ip ∈ old.ips, ip ∈ o.ips
  | .delete _ => True

def KeysApart (c : Cache) : CacheOp → Prop
  | .update o => ∀ ip ∈ o.ips, ∀ t, c.Indexed ⟨t,o.id.key⟩ ip → t = o.id.type
  | .delete _ => True

instance decidableKeepsAddresses (c : Cache) : (op : CacheOp) → Decidable (c.KeepsAddresses op)
  | .update o => inferInstanceAs (Decidable (∀ old ∈ c.object o.id, ∀ ip ∈ old.ips, ip ∈ o.ips))
  | .delete _ => inferInstanceAs (Decidable True)

instance decidableKeysApart (c : Cache) : (op : CacheOp) → Decidable (c.KeysApart op)
  | .update o => inferInstanceAs
      (Decidable (∀ ip ∈ o.ips, ∀ t, c.Indexed ⟨t,o.id.key⟩ ip → t = o.id.type))
  | .delete _ => inferInstanceAs (Decidable True)

theorem Evicted.object_id {c c' : Cache} {o : CacheObject} (h : Evicted c c' o.id.key o.ips) :
    c'.object o.id = c.object o.id := (h.object o.id).resolve_right fun hj => hj.2.1 rfl

theorem Evicted.owner_eq {c c' : Cache} (hc : Settled c) {o : CacheObject} (h : Evicted c c' o.id.key o.ips)
    (hk : c.KeysApart (.update o)) {ip : NetIP} (hip : ip ∈ o.ips) {j : ObjectId} (hj : c'.Owns j ip) :
    j = o.id := by
  obtain ⟨t,key⟩ := j
  have hkey : key = o.id.key := h.owner ip hip ⟨t,key⟩ hj
  subst hkey
  have ht : t = o.id.type := hk ip hip t ((hc.index _ ip).mpr (h.owns hj))
  rw [ht]

/-- With keys apart an update is the publication of the object in the registry of all objects. -/
theorem object_update {c : Cache} (hc : Settled c) {o : CacheObject} (ho : o.ips ≠ [])
    (hk : c.KeysApart (.update o)) : (c.update o).1.object = Ownership.publish CacheObject.ips c.object o.id o := by
  obtain ⟨c',heq,he⟩ := update_evicted hc ho
  funext j
  rw [heq, object_store]
  by_cases hj : j = o.id
  · rw [if_pos hj, hj, publish_self]
  · rw [if_neg hj]
    rcases he.object j with h | ⟨h,-,ip,hip,hown⟩
    · rw [h, publish_keeps hj]
      intro ip hip hown
      have hown' : c'.Owns j ip := by simpa only [Owns, Ownership.Owns, h] using hown
      exact hj (he.owner_eq hc hk hip hown')
    · rw [h, publish_evicts hj hip hown]

theorem Settled.update {c : Cache} (hc : Settled c) {o : CacheObject} (ho : o.ips ≠ [])
    (hkeep : c.KeepsAddresses (.update o)) (hk : c.KeysApart (.update o)) : Settled (c.update o).1 := by
  obtain ⟨c',heq,he⟩ := update_evicted hc ho
  have hexcl := hc.exclusive.publish o.id o
  rw [← object_update hc ho hk] at hexcl
  refine ⟨?_,?_,?_,hexcl⟩ <;> rw [heq]
  · intro j x hx
    rw [object_store] at hx
    split at hx
    · next hj =>
      cases hx
      exact hj.symm
    · exact he.settled.named j x hx
  · intro j x hx
    rw [object_store] at hx
    split at hx
    · cases hx
      exact ho
    · exact he.settled.filed j x hx
  · intro j ip
    simp only [indexed_store, Owns, Ownership.Owns, object_store]
    by_cases hj : j = o.id
    · subst hj
      by_cases hip : ip ∈ o.ips
      · simp [hip]
      · simp only [hip, and_false, if_false, if_true, Option.some.injEq, exists_eq_left', iff_false]
        intro hidx
        obtain ⟨old,hold,hin⟩ := (he.settled.index _ ip).mp hidx
        rw [he.object_id] at hold
        exact hip (hkeep old hold ip hin)
    · rw [if_neg hj]
      by_cases hip : ip ∈ o.ips
      · have hnone : ¬c'.Owns j ip := fun hown => hj (he.owner_eq hc hk hip hown)
        split
        · exact iff_of_false hj hnone
        · exact he.settled.index j ip
      · rw [if_neg fun h => hip h.2]
        exact he.settled.index j ip

theorem Settled.step {c : Cache} (hc : Settled c) {op : CacheOp} (hkeep : c.KeepsAddresses op)
    (hk : c.KeysApart op) : Settled (c.step op) := by
  cases op with
  | update o =>
    by_cases ho : o.ips = []
    · simpa only [Cache.step, update_of_ips_eq_nil c ho] using hc
    · exact hc.update ho hkeep hk
  | delete i =>
    cases h : c.object i with
    | none => simpa only [Cache.step, delete_of_none h] using hc
    | some o =>
      simp only [Cache.step, delete_of_some h (hc.filed i o h)]
      exact hc.remove h

/-- The run lemma: what one step keeps, every state of the run has. -/
theorem settled_after {ops : List CacheOp}
    (h : Execution.Along step (fun c op => c.KeepsAddresses op ∧ c.KeysApart op) {} ops) :
    Settled (after ops) :=
  Execution.invariant (I := Settled) (fun _ _ hc hop => hc.step hop.1 hop.2) settled_empty h

structure IndexMatches (c : Cache) : Prop where
  endpoint : ∀ ip k, c.ipToEpKey.lookup ip = some k ↔
    ∃ ep ips, c.epMap.lookup k = some ep ∧ ep.getIPs = .ok ips ∧ ip ∈ ips
  svc : ∀ ip k, c.ipToSvcKey.lookup ip = some k ↔
    ∃ svc, c.svcMap.lookup k = some svc ∧ svc.getPrimaryIP = .ok ip
  node : ∀ ip n, c.ipToNodeName.lookup ip = some n ↔ ∃ node, c.nodeMap.lookup n = some node ∧ node.ip = ip

theorem Settled.indexMatches {c : Cache} (hc : Settled c) : IndexMatches c where
  endpoint ip k := by
    refine (hc.index ⟨.endpoint,k⟩ ip).trans ?_
    simp only [Owns, Ownership.Owns, object, Option.map_eq_some_iff]
    constructor
    · rintro ⟨-,⟨ep,hep,rfl⟩,hip⟩
      simp only [CacheObject.ips] at hip
      cases h : ep.getIPs with
      | error err => simp [h, Except.toOption] at hip
      | ok ips => exact ⟨ep,ips,hep,h,by simpa [h, Except.toOption] using hip⟩
    · rintro ⟨ep,ips,hep,h,hip⟩
      exact ⟨.endpoint ep,⟨ep,hep,rfl⟩,by simpa [CacheObject.ips, h, Except.toOption] using hip⟩
  svc ip k := by
    refine (hc.index ⟨.svc,k⟩ ip).trans ?_
    simp only [Owns, Ownership.Owns, object, Option.map_eq_some_iff]
    constructor
    · rintro ⟨-,⟨svc,hsvc,rfl⟩,hip⟩
      simp only [CacheObject.ips] at hip
      cases h : svc.getPrimaryIP with
      | error err => simp [h, Except.toOption] at hip
      | ok pip => exact ⟨svc,hsvc,by simp_all [Except.toOption]⟩
    · rintro ⟨svc,hsvc,h⟩
      exact ⟨.svc svc,⟨svc,hsvc,rfl⟩,by simp [CacheObject.ips, h, Except.toOption]⟩
  node ip n := by
    refine (hc.index ⟨.node,n⟩ ip).trans ?_
    simp only [Owns, Ownership.Owns, object, Option.map_eq_some_iff]
    constructor
    · rintro ⟨-,⟨node,hnode,rfl⟩,hip⟩
      exact ⟨node,hnode,(List.mem_singleton.mp hip).symm⟩
    · rintro ⟨node,hnode,rfl⟩
      exact ⟨.node node,⟨node,hnode,rfl⟩,List.mem_singleton_self _⟩

theorem index_matches_objects {ops : List CacheOp}
    (h : Execution.Along step (fun c op => c.KeepsAddresses op ∧ c.KeysApart op) {} ops) :
    IndexMatches (after ops) := (settled_after h).indexMatches

section Sample

def sampleIP (d : BitVec 8) : NetIP := .v4 10 0 0 d

def podAt (name : String) (ip : NetIP) : CacheObject :=
  .endpoint (newRetinaEndpoint name "ns1" (some { ipv4 := ip }))

def svcAt (name : String) (ip : NetIP) : CacheObject := .svc (newRetinaSvc name "ns1" (some { ipv4 := ip }))

def takeover : List CacheOp := [
  .update (.endpoint (newRetinaEndpoint "a" "ns1" (some { ipv4 := sampleIP 1, otherIPv4s := [sampleIP 2] }))),
  .update (.node (newRetinaNode "n" (sampleIP 3))),
  .update (svcAt "s" (sampleIP 2)),
  .update (podAt "b" (sampleIP 1)),
  .delete ⟨.node,"n"⟩]

def movedPod : List CacheOp := [.update (podAt "a" (sampleIP 1)),.update (podAt "a" (sampleIP 2))]

end Sample

theorem index_matches_objects_takeover :
    Execution.Along step (fun c op => c.KeepsAddresses op ∧ c.KeysApart op) {} takeover ∧
      IndexMatches (after takeover) :=
  ⟨by decide,index_matches_objects (by decide)⟩

theorem moved_pod_leaves_index_entry : ¬IndexMatches (after movedPod) := by
  intro h
  obtain ⟨ep,ips,hep,hips,hip⟩ := (h.endpoint (sampleIP 1) "ns1/a").mp (by decide)
  have hcur : (after movedPod).epMap.lookup "ns1/a" =
      some (newRetinaEndpoint "a" "ns1" (some { ipv4 := sampleIP 2 })) := by decide
  rw [hcur] at hep
  cases hep
  have hcurIPs : (newRetinaEndpoint "a" "ns1" (some { ipv4 := sampleIP 2 })).getIPs = .ok [sampleIP 2] := rfl
  rw [hcurIPs] at hips
  cases hips
  revert hip
  decide

/-- In a settled cache an update only evicts objects that have one of the new addresses. -/
theorem Settled.frame {c : Cache} (hc : Settled c) (o : CacheObject) {i : ObjectId} {x : CacheObject}
    (hx : c.object i = some x) (hi : i ≠ o.id) (hdisj : ∀ ip ∈ x.ips, ip ∉ o.ips) :
    (c.update o).1.object i = some x ∧ ∀ ip ∈ x.ips, (c.update o).1.Indexed i ip := by
  by_cases ho : o.ips = []
  · rw [update_of_ips_eq_nil c ho]
    exact ⟨hx,fun ip hip => (hc.index i ip).mpr ⟨x,hx,hip⟩⟩
  · obtain ⟨c',heq,he⟩ := update_evicted hc ho
    have hx' : c'.object i = some x := by
      rcases he.object i with h | ⟨-,-,ip,hip,y,hy,hiy⟩
      · rw [h, hx]
      · rw [hx] at hy
        cases hy
        exact absurd hip (hdisj ip hiy)
    rw [heq]
    refine ⟨by rw [object_store, if_neg hi, hx'],?_⟩
    intro ip hip
    rw [indexed_store, if_neg fun h => hdisj ip hip h.2]
    exact (he.settled.index i ip).mpr ⟨x,hx',hip⟩

theorem update_evicts_only_claimants (ops : List CacheOp)
    (h : Execution.Along step (fun c op => c.KeepsAddresses op ∧ c.KeysApart op) {} ops) (o : CacheObject)
    {i : ObjectId} {x : CacheObject} (hx : (after ops).object i = some x) (hi : i ≠ o.id)
    (hdisj : ∀ ip ∈ x.ips, ip ∉ o.ips) :
    ((after ops).update o).1.object i = some x ∧
      ∀ ip ∈ x.ips, ((after ops).update o).1.getByIP i.type ip = some x := by
  obtain ⟨hobj,hidx⟩ := (settled_after h).frame o hx hi hdisj
  exact ⟨hobj,fun ip hip => by rw [getByIP_of_indexed (hidx ip hip), hobj]⟩

theorem update_evicts_only_claimants_takeover :
    ((after takeover).update (podAt "a" (sampleIP 1))).1.object ⟨.svc,"ns1/s"⟩ = some (svcAt "s" (sampleIP 2)) ∧
      ((after takeover).update (podAt "a" (sampleIP 1))).1.getByIP .svc (sampleIP 2) =
        some (svcAt "s" (sampleIP 2)) := by
  obtain ⟨hobj,hget⟩ := update_evicts_only_claimants takeover (by decide) (podAt "a" (sampleIP 1))
    (i := ⟨.svc,"ns1/s"⟩) (x := svcAt "s" (sampleIP 2)) (by decide) (by decide) (by decide)
  exact ⟨hobj,hget (sampleIP 2) (by decide)⟩

/-- The pod has moved away from the address, and still loses its place to the next pod there. -/
theorem moved_pod_evicted :
    (after movedPod).object ⟨.endpoint,"ns1/a"⟩ = some (podAt "a" (sampleIP 2)) ∧
      (podAt "a" (sampleIP 2)).ips = [sampleIP 2] ∧ (podAt "b" (sampleIP 1)).ips = [sampleIP 1] ∧
      ((after movedPod).update (podAt "b" (sampleIP 1))).1.object ⟨.endpoint,"ns1/a"⟩ = none ∧
      ((after movedPod).update (podAt "b" (sampleIP 1))).1.getPodByIP (sampleIP 2) = none := by decide

end Retina.Cache
