import Retina.Cache.Progress

/-! # Updates that fail

An update first evicts the holders of its addresses, one address after the other. If an address is found with a service
or a node that is gone, the update returns an error, and what it has evicted before stays evicted.
-/
namespace Retina.Cache

/-- The object that `deleteByIP` finds: the first index that knows the address decides. -/
def claimant (c : Cache) (ip : NetIP) : Option ObjectId :=
  match c.ipToSvcKey.lookup ip with
  | some svcKey => some ⟨.svc,svcKey⟩
  | none =>
    match c.ipToEpKey.lookup ip with
    | some epKey => some ⟨.endpoint,epKey⟩
    | none => (c.ipToNodeName.lookup ip).map (⟨.node,·⟩)

theorem deleteByIP_eq (c : Cache) (ip : NetIP) (key : String) :
    c.deleteByIP ip key = match c.claimant ip with
      | none => (c,none)
      | some j => if j.key = key then (c,none) else c.delete j := by
  simp only [deleteByIP, claimant]
  cases c.ipToSvcKey.lookup ip with
  | some svcKey => rfl
  | none =>
    cases c.ipToEpKey.lookup ip with
    | some epKey => rfl
    | none => cases c.ipToNodeName.lookup ip <;> rfl

def Filed (c : Cache) : Prop := ∀ i o, c.object i = some o → o.ips ≠ []

def Evicts (c : Cache) (key : String) (ip : NetIP) : Prop :=
  ∃ j, c.claimant ip = some j ∧ j.key ≠ key ∧ c.object j ≠ none

def Fails (c : Cache) (key : String) (ip : NetIP) : Prop :=
  ∃ j, c.claimant ip = some j ∧ j.key ≠ key ∧ j.type ≠ .endpoint ∧ c.object j = none

theorem Evicts.not_fails {c : Cache} {key : String} {ip : NetIP} (h : c.Evicts key ip) : ¬c.Fails key ip := by
  obtain ⟨j,hj,-,hpresent⟩ := h
  rintro ⟨j',hj',-,-,hnone⟩
  rw [hj] at hj'
  cases hj'
  exact hpresent hnone

/-! ## One address -/

/-- A deletion takes out the object, or it does nothing. -/
theorem delete_cases {c : Cache} (hc : Filed c) (j : ObjectId) :
    (∃ o, c.object j = some o ∧ c.delete j = (c.remove j.key o,none)) ∨ c.object j = none ∧ (c.delete j).1 = c := by
  cases h : c.object j with
  | some o => exact .inl ⟨o,rfl,delete_of_some h (hc j o h)⟩
  | none => exact .inr ⟨rfl,delete_of_none h⟩

/-- A service or a node that is not there cannot be deleted. -/
theorem delete_ne_none {c : Cache} {j : ObjectId} (htype : j.type ≠ .endpoint) (h : c.object j = none) :
    (c.delete j).2 ≠ none := by
  obtain ⟨type,key⟩ := j
  cases type with
  | endpoint => exact absurd rfl htype
  | svc => simp [delete, deleteSvc, Option.map_eq_none_iff.mp h]
  | node => simp [delete, deleteNode, Option.map_eq_none_iff.mp h]

theorem Filed.remove {c : Cache} (hc : Filed c) {j : ObjectId} {o : CacheObject} (h : c.object j = some o) :
    Filed (c.remove j.key o) := fun i x hx => hc i x (object_of_remove h hx)

theorem Filed.delete {c : Cache} (hc : Filed c) (j : ObjectId) : Filed (c.delete j).1 := by
  rcases delete_cases hc j with ⟨o,ho,heq⟩ | ⟨-,heq⟩
  · rw [heq]
    exact hc.remove ho
  · rwa [heq]

/-- What `deleteByIP` does: nothing, an eviction, or a failure that changes nothing. -/
theorem deleteByIP_outcome {c : Cache} (hc : Filed c) (ip : NetIP) (key : String) :
    ¬c.Evicts key ip ∧ ¬c.Fails key ip ∧ c.deleteByIP ip key = (c,none) ∨
      c.Evicts key ip ∧ (∃ j o, c.object j = some o ∧ c.deleteByIP ip key = (c.remove j.key o,none)) ∨
      c.Fails key ip ∧ ∃ err, c.deleteByIP ip key = (c,some err) := by
  rw [deleteByIP_eq]
  cases hj : c.claimant ip with
  | none => exact .inl ⟨by simp [Evicts, hj],by simp [Fails, hj],rfl⟩
  | some j =>
    by_cases hkey : j.key = key
    · exact .inl ⟨by simp [Evicts, hj, hkey],by simp [Fails, hj, hkey],if_pos hkey⟩
    simp only [if_neg hkey]
    rcases delete_cases hc j with ⟨o,ho,heq⟩ | ⟨hnone,heq⟩
    · exact .inr (.inl ⟨⟨j,hj,hkey,by simp [ho]⟩,j,o,ho,heq⟩)
    have hkept : ¬c.Evicts key ip := by simp [Evicts, hj, hnone]
    rcases hd : c.delete j with ⟨c',_ | err⟩
    · obtain rfl : c' = c := by rw [← heq, hd]
      refine .inl ⟨hkept,?_,rfl⟩
      rintro ⟨j',hj',-,htype,-⟩
      rw [hj] at hj'
      cases hj'
      exact delete_ne_none htype hnone (by rw [hd])
    · obtain rfl : c' = c := by rw [← heq, hd]
      refine .inr (.inr ⟨⟨j,hj,hkey,?_,hnone⟩,err,rfl⟩)
      -- The deletion of an endpoint that is not there is no error.
      obtain ⟨type,k⟩ := j
      rintro rfl
      simp [delete, deleteEndpoint, Option.map_eq_none_iff.mp hnone] at hd

theorem Filed.deleteByIP {c : Cache} (hc : Filed c) (ip : NetIP) (key : String) : Filed (c.deleteByIP ip key).1 := by
  rcases deleteByIP_outcome hc ip key with ⟨-,-,heq⟩ | ⟨-,j,o,ho,heq⟩ | ⟨-,err,heq⟩
  · rwa [heq]
  · rw [heq]
    exact hc.remove ho
  · rwa [heq]

theorem length_published_remove (c : Cache) (key : String) (o : CacheObject) :
    (c.remove key o).published.length = c.published.length + 1 := by
  cases o <;> simp [remove, publish]

theorem length_published_deleteByIP {c : Cache} (hc : Filed c) (ip : NetIP) (key : String) :
    c.published.length ≤ (c.deleteByIP ip key).1.published.length := by
  rcases deleteByIP_outcome hc ip key with ⟨-,-,heq⟩ | ⟨-,j,o,-,heq⟩ | ⟨-,err,heq⟩
  · rw [heq]
  · rw [heq, length_published_remove]
    exact Nat.le_succ _
  · rw [heq]

/-! ## All addresses -/

theorem deleteByIPs_cons (c : Cache) (key : String) (ip : NetIP) (ips : List NetIP) :
    c.deleteByIPs key (ip :: ips) = match (c.deleteByIP ip key).2 with
      | some err => ((c.deleteByIP ip key).1,some err)
      | none => (c.deleteByIP ip key).1.deleteByIPs key ips := by
  rw [deleteByIPs]
  rcases c.deleteByIP ip key with ⟨c',_ | err⟩ <;> rfl

/-- Nothing is evicted before the first address that fails. -/
def FailsBeforeEvictions (c : Cache) (key : String) (ips : List NetIP) : Prop :=
  ∀ pre ip post, ips = pre ++ ip :: post → c.Evicts key ip → ∃ ip' ∈ pre, c.Fails key ip'

theorem failsBeforeEvictions_cons_iff (c : Cache) (key : String) (ip : NetIP) (ips : List NetIP) :
    c.FailsBeforeEvictions key (ip :: ips) ↔
      ¬c.Evicts key ip ∧ (c.Fails key ip ∨ c.FailsBeforeEvictions key ips) := by
  constructor
  · intro h
    refine ⟨fun hevicts => ?_,or_iff_not_imp_left.mpr fun hok pre ip' post hips hevicts => ?_⟩
    · obtain ⟨ip',hmem,-⟩ := h [] ip ips rfl hevicts
      cases hmem
    · obtain ⟨ip'',hmem,hfails⟩ := h (ip :: pre) ip' post (by rw [hips, List.cons_append]) hevicts
      rcases List.mem_cons.mp hmem with rfl | hmem
      · exact absurd hfails hok
      · exact ⟨ip'',hmem,hfails⟩
  · rintro ⟨hkept,hrest⟩ (_ | ⟨first,pre⟩) ip' post hips hevicts
    · rw [List.nil_append, List.cons.injEq] at hips
      rw [hips.1] at hkept
      exact absurd hevicts hkept
    · rw [List.cons_append, List.cons.injEq] at hips
      obtain ⟨rfl,hips⟩ := hips
      rcases hrest with hfails | hrest
      · exact ⟨ip,List.mem_cons_self,hfails⟩
      · obtain ⟨ip'',hmem,hfails⟩ := hrest pre ip' post hips hevicts
        exact ⟨ip'',List.mem_cons_of_mem _ hmem,hfails⟩

/-! ## Reachable caches -/

theorem Filed.deleteByIPs {c : Cache} (hc : Filed c) (key : String) (ips : List NetIP) :
    Filed (c.deleteByIPs key ips).1 := by
  induction ips generalizing c with
  | nil => exact hc
  | cons ip ips ih =>
    rw [deleteByIPs_cons]
    cases (c.deleteByIP ip key).2 with
    | some err => exact hc.deleteByIP ip key
    | none => exact ih (hc.deleteByIP ip key)

theorem length_published_deleteByIPs {c : Cache} (hc : Filed c) (key : String) (ips : List NetIP) :
    c.published.length ≤ (c.deleteByIPs key ips).1.published.length := by
  induction ips generalizing c with
  | nil => exact le_rfl
  | cons ip ips ih =>
    have hip := length_published_deleteByIP hc ip key
    rw [deleteByIPs_cons]
    cases (c.deleteByIP ip key).2 with
    | some err => exact hip
    | none => exact hip.trans (ih (hc.deleteByIP ip key))

/-- If an address fails, everything is as before exactly if nothing was evicted until then. -/
theorem deleteByIPs_unchanged_iff {c : Cache} (hc : Filed c) {key : String} {ips : List NetIP} {err : String}
    (herr : (c.deleteByIPs key ips).2 = some err) :
    (c.deleteByIPs key ips).1 = c ↔ c.FailsBeforeEvictions key ips := by
  induction ips with
  | nil => cases herr
  | cons ip ips ih =>
    rw [failsBeforeEvictions_cons_iff]
    rcases deleteByIP_outcome hc ip key with ⟨hkept,hok,heq⟩ | ⟨hevicts,j,o,ho,heq⟩ | ⟨hfails,err',heq⟩
    · simp only [deleteByIPs_cons, heq] at herr ⊢
      rw [ih herr]
      simp [hkept, hok]
    · -- An event is published for the object that is gone.
      have hlength := length_published_deleteByIPs (hc.remove ho) key ips
      rw [length_published_remove] at hlength
      simp only [deleteByIPs_cons, heq]
      refine iff_of_false (fun hsame => ?_) (fun h => h.1 hevicts)
      rw [hsame] at hlength
      omega
    · simp only [deleteByIPs_cons, heq]
      exact iff_of_true trivial ⟨fun hevicts => hevicts.not_fails hfails,.inl hfails⟩

theorem Filed.store {c : Cache} (hc : Filed c) {o : CacheObject} (ho : o.ips ≠ []) : Filed (c.store o) := by
  intro i x hx
  rw [object_store] at hx
  split at hx
  · cases hx
    exact ho
  · exact hc i x hx

theorem Filed.step {c : Cache} (hc : Filed c) (op : CacheOp) : Filed (c.step op) := by
  cases op with
  | delete i => exact hc.delete i
  | update o =>
    by_cases ho : o.ips = []
    · simpa only [Cache.step, update_of_ips_eq_nil c ho] using hc
    · have hdel := hc.deleteByIPs o.id.key o.ips
      simp only [Cache.step, update_eq c ho]
      rcases hd : c.deleteByIPs o.id.key o.ips with ⟨c',_ | err⟩ <;> rw [hd] at hdel
      · exact hdel.store ho
      · exact hdel

theorem filed_after (ops : List CacheOp) : Filed (after ops) :=
  Execution.invariant_of_step (I := Filed) (fun _ op hc => hc.step op) (fun i o h => by
    obtain ⟨_ | _ | _,key⟩ := i <;> simp [object] at h) ops

theorem update_unchanged_iff {c : Cache} (hc : Filed c) {o : CacheObject} {err : String}
    (herr : (c.update o).2 = some err) : (c.update o).1 = c ↔ c.FailsBeforeEvictions o.id.key o.ips := by
  by_cases ho : o.ips = []
  · refine iff_of_true (update_of_ips_eq_nil _ ho) ?_
    intro pre ip post hips
    rw [ho] at hips
    simp at hips
  · rw [update_eq _ ho] at herr ⊢
    have hiff : (c.deleteByIPs o.id.key o.ips).2 = some err →
        ((c.deleteByIPs o.id.key o.ips).1 = c ↔ c.FailsBeforeEvictions o.id.key o.ips) :=
      deleteByIPs_unchanged_iff hc
    rcases hd : c.deleteByIPs o.id.key o.ips with ⟨c',_ | err'⟩
    · simp [hd] at herr
    · rw [hd] at hiff herr
      exact hiff herr

/-- An update that fails changes nothing and publishes nothing, exactly if it evicts nothing before it fails. -/
theorem failed_update_has_no_effect_iff (ops : List CacheOp) (o : CacheObject) (err : String)
    (herr : ((after ops).update o).2 = some err) :
    ((after ops).update o).1 = after ops ↔ (after ops).FailsBeforeEvictions o.id.key o.ips :=
  update_unchanged_iff (filed_after ops) herr

theorem failsBeforeEvictions_of_error {c : Cache} (hc : Filed c) {key : String} {ip : NetIP} {err : String}
    (herr : (c.deleteByIP ip key).2 = some err) : c.FailsBeforeEvictions key [ip] := by
  rcases deleteByIP_outcome hc ip key with ⟨-,-,heq⟩ | ⟨-,j,o,-,heq⟩ | ⟨hfails,-,-⟩
  · simp [heq] at herr
  · simp [heq] at herr
  · rw [failsBeforeEvictions_cons_iff]
    exact ⟨fun hevicts => hevicts.not_fails hfails,.inl hfails⟩

/-- A service or a node has one address, so its updates are atomic in every cache. -/
theorem single_address_update_atomic (ops : List CacheOp) {o : CacheObject} (htype : o.id.type ≠ .endpoint)
    {err : String} (herr : ((after ops).update o).2 = some err) : ((after ops).update o).1 = after ops := by
  have hsingle : o.ips = [] ∨ ∃ ip, o.ips = [ip] := by
    cases o with
    | endpoint ep => exact absurd rfl htype
    | svc svc =>
      simp only [CacheObject.ips]
      cases svc.getPrimaryIP.toOption <;> simp
    | node node => exact .inr ⟨_,rfl⟩
  rcases hsingle with hnil | ⟨ip,hip⟩
  · exact update_of_ips_eq_nil _ hnil
  · rw [update_unchanged_iff (filed_after ops) herr, hip]
    rw [update_eq _ (by simp [hip]), hip, deleteByIPs_cons] at herr
    cases herror : ((after ops).deleteByIP ip o.id.key).2 with
    | none => simp [herror, deleteByIPs] at herr
    | some err' => exact failsBeforeEvictions_of_error (filed_after ops) herror

def podAtBoth (ip ip' : NetIP) : CacheObject :=
  .endpoint (newRetinaEndpoint "a" "ns1" (some { ipv4 := ip, otherIPv4s := [ip'] }))

def movedServiceAndPod : List CacheOp := movedService ++ [.update (podAt "b" (sampleIP 3))]

theorem failed_update_has_no_effect_first_address :
    (podAtBoth (sampleIP 1) (sampleIP 3)).ips = [sampleIP 1,sampleIP 3] ∧
      ((after movedServiceAndPod).update (podAtBoth (sampleIP 1) (sampleIP 3))).1 = after movedServiceAndPod := by
  refine ⟨by decide,(failed_update_has_no_effect_iff movedServiceAndPod _ "service not found in cache: ns1/s"
    (by decide)).mpr ?_⟩
  have hfails : (after movedServiceAndPod).Fails "ns1/a" (sampleIP 1) :=
    ⟨⟨.svc,"ns1/s"⟩,by decide,by decide,by decide,by decide⟩
  exact (failsBeforeEvictions_cons_iff _ _ _ _).mpr ⟨fun hevicts => hevicts.not_fails hfails,.inl hfails⟩

/-- With the addresses the other way round the update fails as well, and `ns1/b` is deleted. -/
theorem failed_update_evicts :
    (podAtBoth (sampleIP 3) (sampleIP 1)).ips = [sampleIP 3,sampleIP 1] ∧
      ((after movedServiceAndPod).update (podAtBoth (sampleIP 3) (sampleIP 1))).2 =
        some "service not found in cache: ns1/s" ∧
      ((after movedServiceAndPod).getPodByIP (sampleIP 3)).isSome ∧
      ((after movedServiceAndPod).update (podAtBoth (sampleIP 3) (sampleIP 1))).1.getPodByIP (sampleIP 3) = none ∧
      ((after movedServiceAndPod).update (podAtBoth (sampleIP 3) (sampleIP 1))).1.published.length =
        (after movedServiceAndPod).published.length + 1 := by decide

end Retina.Cache
