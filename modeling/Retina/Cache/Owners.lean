import Retina.Cache.Index

/-! # One owner for each address

With stable addresses and keys that differ between the kinds, the cache refines the
registry of `Ownership`: whoever is published last on an address is alone there.
-/
namespace Retina.Cache
open Ownership

/-- An update without an address is refused, so it publishes nothing. -/
def CacheOp.event : CacheOp → Option (Event ObjectId CacheObject)
  | .update o => if o.ips = [] then none else some (.publish o.id o)
  | .delete i => some (.withdraw i)

def events (ops : List CacheOp) : List (Event ObjectId CacheObject) := ops.filterMap CacheOp.event

def latestUpdate (ip : NetIP) (ops : List CacheOp) : Option CacheObject :=
  (latest CacheObject.ips ip (events ops)).map Prod.snd

def StableAddresses (c : Cache) : CacheOp → Prop
  | .update o => ∀ old ∈ c.object o.id, old.ips ⊆ o.ips ∧ o.ips ⊆ old.ips
  | .delete _ => True

instance decidableStableAddresses (c : Cache) : (op : CacheOp) → Decidable (c.StableAddresses op)
  | .update o => inferInstanceAs (Decidable (∀ old ∈ c.object o.id, old.ips ⊆ o.ips ∧ o.ips ⊆ old.ips))
  | .delete _ => inferInstanceAs (Decidable True)

theorem StableAddresses.keeps {c : Cache} {op : CacheOp} (h : c.StableAddresses op) : c.KeepsAddresses op := by
  cases op with
  | update o => exact fun old hold ip hip => (h old hold).1 hip
  | delete i => trivial

theorem object_step {c : Cache} (hc : Settled c) {op : CacheOp} (hk : c.KeysApart op) :
    (c.step op).object = (op.event.map (Ownership.step CacheObject.ips c.object)).getD c.object := by
  cases op with
  | update o =>
    by_cases ho : o.ips = []
    · simp only [Cache.step, update_of_ips_eq_nil c ho, CacheOp.event, ho, if_true, Option.map_none, Option.getD_none]
    · simp only [Cache.step, object_update hc ho hk, CacheOp.event, ho, if_false, Option.map_some, Option.getD_some,
        Ownership.step]
  | delete i =>
    funext j
    simp only [Cache.step, CacheOp.event, Option.map_some, Option.getD_some, Ownership.step, withdraw]
    cases h : c.object i with
    | none =>
      rw [delete_of_none h]
      split
      · next hj => rw [hj, h]
      · rfl
    | some o =>
      rw [delete_of_some h (hc.filed i o h), object_remove h]
      by_cases hj : j = i <;> simp [hj]

/-- The simulation: objects follow the registry step by step. -/
theorem object_run {c : Cache} (hc : Settled c) (ops : List CacheOp)
    (h : Execution.Along step (fun c op => c.KeepsAddresses op ∧ c.KeysApart op) c ops) :
    (Execution.run step c ops).object =
      Execution.run (Ownership.step CacheObject.ips) c.object (events ops) := by
  induction ops generalizing c with
  | nil => rfl
  | cons op ops ih =>
    obtain ⟨⟨hkeep,hk⟩,h⟩ := h
    have hstep := object_step hc hk
    rw [Execution.run_cons, ih (hc.step hkeep hk) h, hstep]
    cases he : op.event with
    | none => simp [events, he]
    | some e => simp [events, he]

theorem object_after {ops : List CacheOp}
    (h : Execution.Along step (fun c op => c.KeepsAddresses op ∧ c.KeysApart op) {} ops) :
    (after ops).object = Execution.run (Ownership.step CacheObject.ips) (fun _ => none) (events ops) := by
  have hempty : ({} : Cache).object = fun _ => none := by
    funext i
    obtain ⟨_ | _ | _,key⟩ := i <;> simp [object]
  rw [after, object_run settled_empty ops h, hempty]

theorem Settled.getObjByIP_eq_some_iff {c : Cache} (hc : Settled c) (ip : NetIP) (o : CacheObject) :
    c.getObjByIP ip = some o ↔ ∃ i, c.object i = some o ∧ ip ∈ o.ips := by
  constructor
  · intro h
    rw [getObjByIP_eq, Option.or_eq_some_iff, Option.or_eq_some_iff] at h
    have hget : ∃ t, c.getByIP t ip = some o := by
      rcases h with (h | ⟨-,h⟩) | ⟨-,h⟩ <;> exact ⟨_,h⟩
    obtain ⟨t,ht⟩ := hget
    obtain ⟨key,hidx,hobj⟩ := getByIP_eq_some ht
    obtain ⟨x,hx,hip⟩ := (hc.index _ ip).mp hidx
    rw [hobj] at hx
    cases hx
    exact ⟨_,hobj,hip⟩
  · rintro ⟨i,hobj,hip⟩
    have hown : c.Owns i ip := ⟨o,hobj,hip⟩
    have hself : c.getByIP i.type ip = some o := by rw [getByIP_of_indexed ((hc.index i ip).mpr hown), hobj]
    have hother : ∀ t, t ≠ i.type → c.getByIP t ip = none := by
      intro t ht
      by_contra hne
      obtain ⟨x,hx⟩ := Option.ne_none_iff_exists'.mp hne
      obtain ⟨key,hidx,-⟩ := getByIP_eq_some hx
      exact ht (congrArg ObjectId.type (hc.exclusive ((hc.index _ ip).mp hidx) hown))
    rw [getObjByIP_eq]
    obtain ⟨type,key⟩ := i
    cases type
    · simp only [hself, Option.some_or]
    · simp only [hself, hother .endpoint (by simp), Option.none_or, Option.some_or]
    · simp only [hself, hother .endpoint (by simp), hother .svc (by simp), Option.none_or]

/-- What a sequence of calls leaves: no address in two of the three indexes; `GetObjByIP` returns the object
updated last on the address, if that object is still there; and the last update evicted every other
holder of its addresses. -/
structure OneOwner (ops : List CacheOp) : Prop where
  exclusive : ∀ ip t t', ip ∈ (after ops).index t → ip ∈ (after ops).index t' → t = t'
  latest : ∀ ip, (after ops).getObjByIP ip =
    (latestUpdate ip ops).filter fun o => (after ops).object o.id = some o
  evicts : ∀ earlier o, ops = earlier ++ [.update o] → ∀ ip ∈ o.ips, (after ops).getObjByIP ip = some o ∧
    ∀ i, i ≠ o.id → (after earlier).Indexed i ip → (after ops).object i = none

theorem mem_index_iff (c : Cache) (t : ObjectType) (ip : NetIP) : ip ∈ c.index t ↔ ∃ key, c.Indexed ⟨t,key⟩ ip := by
  rw [← Finmap.lookup_isSome, Option.isSome_iff_exists]
  rfl

theorem Settled.index_exclusive {c : Cache} (hc : Settled c) {ip : NetIP} {t t' : ObjectType} (h : ip ∈ c.index t)
    (h' : ip ∈ c.index t') : t = t' := by
  obtain ⟨key,hkey⟩ := (c.mem_index_iff t ip).mp h
  obtain ⟨key',hkey'⟩ := (c.mem_index_iff t' ip).mp h'
  exact congrArg ObjectId.type (hc.exclusive ((hc.index _ ip).mp hkey) ((hc.index _ ip).mp hkey'))

theorem getObjByIP_latest {ops : List CacheOp}
    (h : Execution.Along step (fun c op => c.KeepsAddresses op ∧ c.KeysApart op) {} ops) (ip : NetIP) :
    (after ops).getObjByIP ip = (latestUpdate ip ops).filter fun o => (after ops).object o.id = some o := by
  have hc := settled_after h
  cases hget : (after ops).getObjByIP ip with
  | some o =>
    obtain ⟨i,hobj,hip⟩ := (hc.getObjByIP_eq_some_iff ip o).mp hget
    have hid := hc.named i o hobj
    have hrun := hobj
    rw [object_after h] at hrun
    rw [latestUpdate, latest_of_owner (events ops) hrun hip, Option.map_some, Option.filter_some, if_pos]
    simpa [hid] using hobj
  | none =>
    symm
    rw [Option.filter_eq_none_iff]
    intro o ho
    obtain ⟨⟨i,x⟩,hlatest,rfl⟩ := Option.map_eq_some_iff.mp ho
    simp only [decide_eq_true_eq]
    intro hobj
    have hsome := (hc.getObjByIP_eq_some_iff ip x).mpr ⟨x.id,hobj,mem_of_latest hlatest⟩
    simp [hget] at hsome

theorem after_concat (ops : List CacheOp) (op : CacheOp) : after (ops ++ [op]) = (after ops).step op := by
  simp [after, Execution.run]

theorem update_evicts_holders {c : Cache} (hc : Settled c) {o : CacheObject} (hkeep : c.KeepsAddresses (.update o))
    (hk : c.KeysApart (.update o)) {ip : NetIP} (hip : ip ∈ o.ips) :
    (c.update o).1.getObjByIP ip = some o ∧ ∀ i, i ≠ o.id → c.Indexed i ip → (c.update o).1.object i = none := by
  have ho : o.ips ≠ [] := List.ne_nil_of_mem hip
  have hobj := object_update hc ho hk
  constructor
  · rw [(hc.update ho hkeep hk).getObjByIP_eq_some_iff]
    exact ⟨o.id,by rw [hobj, publish_self],hip⟩
  · intro i hi hidx
    rw [hobj, publish_evicts hi hip ((hc.index i ip).mp hidx)]

theorem oneOwner {ops : List CacheOp}
    (h : Execution.Along step (fun c op => c.KeepsAddresses op ∧ c.KeysApart op) {} ops) : OneOwner ops where
  exclusive _ _ _ := (settled_after h).index_exclusive
  latest := getObjByIP_latest h
  evicts := by
    rintro earlier o rfl ip hip
    obtain ⟨hearlier,⟨hkeep,hk⟩,-⟩ := (Execution.along_append _ _ _ _).mp h
    rw [after_concat]
    exact update_evicts_holders (settled_after hearlier) hkeep hk hip

/-- The update returns early for an address that another kind holds under its own key, and enters itself there. -/
theorem not_exclusive_of_not_keysApart {c : Cache} (hc : Settled c) {op : CacheOp} (hk : ¬c.KeysApart op) :
    ∃ ip t t', t ≠ t' ∧ ip ∈ (c.step op).index t ∧ ip ∈ (c.step op).index t' := by
  cases op with
  | delete i => exact absurd trivial hk
  | update o =>
    simp only [KeysApart, not_forall] at hk
    obtain ⟨ip,hip,t,hidx,ht⟩ := hk
    obtain ⟨c',heq,he⟩ := update_evicted hc (List.ne_nil_of_mem hip)
    obtain ⟨x,hx,hxip⟩ := (hc.index _ ip).mp hidx
    have hx' : c'.object ⟨t,o.id.key⟩ = some x := by
      rcases he.object ⟨t,o.id.key⟩ with h | ⟨-,hne,-⟩
      · rw [h, hx]
      · exact absurd rfl hne
    have hidx' := (he.settled.index ⟨t,o.id.key⟩ ip).mpr ⟨x,hx',hxip⟩
    refine ⟨ip,t,o.id.type,ht,?_,?_⟩ <;> simp only [Cache.step, heq, mem_index_iff, indexed_store]
    · exact ⟨o.id.key,by simpa [ht] using hidx'⟩
    · exact ⟨o.id.key,by simp [hip]⟩

theorem one_owner_iff (ops : List CacheOp) (hstable : Execution.Along step StableAddresses {} ops) :
    (∀ earlier, earlier <+: ops → OneOwner earlier) ↔ Execution.Along step KeysApart {} ops := by
  have hkeep := hstable.imp fun _ _ => StableAddresses.keeps
  refine Execution.forall_prefix_iff_along (fun es hkeep hk => oneOwner (hkeep.and hk)) ?_ hkeep
  intro es op hkeep hk _ hop hone
  obtain ⟨ip,t,t',hne,h,h'⟩ := not_exclusive_of_not_keysApart (settled_after (hkeep.and hk)) hop
  have hstep := after_concat es op
  exact hne (hone.exclusive ip t t' (hstep ▸ h) (hstep ▸ h'))

theorem one_owner_iff_takeover : Execution.Along step StableAddresses {} takeover ∧ OneOwner takeover :=
  ⟨by decide,(one_owner_iff takeover (by decide)).mpr (by decide) takeover (List.prefix_refl takeover)⟩

def sameKey : List CacheOp := [.update (podAt "a" (sampleIP 1)),.update (svcAt "a" (sampleIP 1))]

theorem same_key_shares_address :
    Execution.Along step StableAddresses {} sameKey ∧
      (after sameKey).ipToEpKey.lookup (sampleIP 1) = some "ns1/a" ∧
      (after sameKey).ipToSvcKey.lookup (sampleIP 1) = some "ns1/a" ∧
      latestUpdate (sampleIP 1) sameKey = some (svcAt "a" (sampleIP 1)) ∧
      (after sameKey).getObjByIP (sampleIP 1) = some (podAt "a" (sampleIP 1)) := by decide

end Retina.Cache
