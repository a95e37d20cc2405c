import Retina.Cache.Index

/-! # Updates that do not fail

An update fails if an index still names a service or a node that is gone. Endpoints
may come and go and change their addresses at will: the deletion of an unknown
endpoint is no error.
-/
namespace Retina.Cache
open Ownership

structure Backed (c : Cache) : Prop where
  filed : ∀ i o, c.object i = some o → o.ips ≠ []
  backed : ∀ i ip, i.type ≠ .endpoint → c.Indexed i ip → c.Owns i ip

theorem Settled.toBacked {c : Cache} (hc : Settled c) : Backed c := ⟨hc.filed,fun i ip _ => (hc.index i ip).mp⟩

theorem Backed.remove {c : Cache} (hc : Backed c) {i : ObjectId} {o : CacheObject} (h : c.object i = some o) :
    Backed (c.remove i.key o) where
  filed := fun j x hx => hc.filed j x (object_of_remove h hx)
  backed := by
    intro j ip hj hidx
    rw [indexed_remove h] at hidx
    have hown := hc.backed j ip hj hidx.1
    refine (owns_remove h j ip).mpr ⟨?_,hown⟩
    rintro rfl
    obtain ⟨x,hx,hip⟩ := hown
    rw [h] at hx
    cases hx
    exact hidx.2 ⟨rfl,hip⟩

theorem Backed.store {c : Cache} (hc : Backed c) {o : CacheObject} (ho : o.ips ≠ [])
    (hkeep : o.id.type ≠ .endpoint → ∀ old, c.object o.id = some old → ∀ ip ∈ old.ips, ip ∈ o.ips) :
    Backed (c.store o) where
  filed := by
    intro j x hx
    rw [object_store] at hx
    split at hx
    · cases hx
      exact ho
    · exact hc.filed j x hx
  backed := by
    intro j ip hj hidx
    rw [indexed_store] at hidx
    simp only [Owns, Ownership.Owns, object_store]
    split at hidx
    · next h => exact ⟨o,if_pos hidx,h.2⟩
    · next h =>
      obtain ⟨x,hx,hip⟩ := hc.backed j ip hj hidx
      refine ⟨x,?_,hip⟩
      rw [if_neg, hx]
      rintro rfl
      exact h ⟨rfl,hkeep hj x hx ip hip⟩

/-- An index entry never makes a deletion fail. -/
theorem Backed.delete {c : Cache} (hc : Backed c) {j : ObjectId} {ip : NetIP} (hj : c.Indexed j ip) :
    ∃ c', c.delete j = (c',none) ∧ Backed c' ∧ ∀ k, c'.object k = c.object k ∨ c'.object k = none := by
  cases h : c.object j with
  | some o =>
    exact ⟨c.remove j.key o,delete_of_some h (hc.filed j o h),hc.remove h,object_remove_shrinks h⟩
  | none =>
    obtain ⟨type,key⟩ := j
    by_cases ht : type = .endpoint
    · subst ht
      have hlook : c.epMap.lookup key = none := Option.map_eq_none_iff.mp h
      exact ⟨c,by simp only [Cache.delete, deleteEndpoint, hlook],hc,fun _ => .inl rfl⟩
    · obtain ⟨o,ho,-⟩ := hc.backed ⟨type,key⟩ ip ht hj
      simp [h] at ho

theorem Backed.deleteByIP {c : Cache} (hc : Backed c) (ip : NetIP) (key : String) :
    ∃ c', c.deleteByIP ip key = (c',none) ∧ Backed c' ∧ ∀ k, c'.object k = c.object k ∨ c'.object k = none := by
  rcases c.deleteByIP_cases ip key with ⟨-,heq⟩ | ⟨j,hj,heq⟩
  · exact ⟨c,heq,hc,fun _ => .inl rfl⟩
  · by_cases hkey : j.key = key
    · exact ⟨c,by simp [heq, hkey],hc,fun _ => .inl rfl⟩
    · obtain ⟨c',h,hbacked,hobj⟩ := hc.delete hj
      exact ⟨c',by rw [heq, if_neg hkey, h],hbacked,hobj⟩

theorem Backed.deleteByIPs {c : Cache} (hc : Backed c) (key : String) (ips : List NetIP) :
    ∃ c', c.deleteByIPs key ips = (c',none) ∧ Backed c' ∧ ∀ k, c'.object k = c.object k ∨ c'.object k = none := by
  induction ips generalizing c with
  | nil => exact ⟨c,rfl,hc,fun _ => .inl rfl⟩
  | cons ip ips ih =>
    obtain ⟨c₁,h₁,hc₁,hobj₁⟩ := hc.deleteByIP ip key
    obtain ⟨c₂,h₂,hc₂,hobj₂⟩ := ih hc₁
    refine ⟨c₂,by simp only [Cache.deleteByIPs, h₁, h₂],hc₂,?_⟩
    intro k
    rcases hobj₂ k with h | h
    · rw [h]
      exact hobj₁ k
    · exact .inr h

theorem Backed.update {c : Cache} (hc : Backed c) {o : CacheObject} (ho : o.ips ≠ []) :
    ∃ c', c.update o = (c'.store o,none) ∧ Backed c' ∧ ∀ k, c'.object k = c.object k ∨ c'.object k = none := by
  obtain ⟨c',h,hbacked,hobj⟩ := hc.deleteByIPs o.id.key o.ips
  exact ⟨c',by simp only [update_eq c ho, h],hbacked,hobj⟩

def KeepsServiceAddress (c : Cache) : CacheOp → Prop
  | .update o => o.id.type ≠ .endpoint → ∀ old ∈ c.object o.id, ∀ ip ∈ old.ips, ip ∈ o.ips
  | .delete _ => True

instance decidableKeepsServiceAddress (c : Cache) : (op : CacheOp) → Decidable (c.KeepsServiceAddress op)
  | .update o => inferInstanceAs
      (Decidable (o.id.type ≠ .endpoint → ∀ old ∈ c.object o.id, ∀ ip ∈ old.ips, ip ∈ o.ips))
  | .delete _ => inferInstanceAs (Decidable True)

theorem Backed.step {c : Cache} (hc : Backed c) {op : CacheOp} (hkeep : c.KeepsServiceAddress op) :
    Backed (c.step op) := by
  cases op with
  | update o =>
    by_cases ho : o.ips = []
    · simpa only [Cache.step, update_of_ips_eq_nil c ho] using hc
    · obtain ⟨c',heq,hbacked,hobj⟩ := hc.update ho
      simp only [Cache.step, heq]
      apply hbacked.store ho
      intro ht old hold
      rcases hobj o.id with h | h
      · exact hkeep ht old (h ▸ hold)
      · simp [h] at hold
  | delete i =>
    cases h : c.object i with
    | none => simpa only [Cache.step, delete_of_none h] using hc
    | some o =>
      simp only [Cache.step, delete_of_some h (hc.filed i o h)]
      exact hc.remove h

theorem update_succeeds (ops : List CacheOp) (h : Execution.Along step KeepsServiceAddress {} ops)
    {o : CacheObject} (ho : o.ips ≠ []) :
    ((after ops).update o).2 = none ∧ ∀ ip ∈ o.ips, ((after ops).update o).1.getByIP o.id.type ip = some o := by
  have hc : Backed (after ops) :=
    Execution.invariant (I := Backed) (fun _ _ hc hop => hc.step hop) settled_empty.toBacked h
  obtain ⟨c',heq,-,-⟩ := hc.update ho
  rw [heq]
  exact ⟨rfl,fun ip hip => getByIP_store c' o hip⟩

/-- The pod of `movedPod` has left an entry behind, and the next pod there goes in all the same. -/
theorem update_succeeds_movedPod :
    ((after movedPod).update (podAt "b" (sampleIP 1))).2 = none ∧
      ((after movedPod).update (podAt "b" (sampleIP 1))).1.getByIP .endpoint (sampleIP 1) =
        some (podAt "b" (sampleIP 1)) := by
  obtain ⟨hok,hget⟩ := update_succeeds movedPod (by decide) (o := podAt "b" (sampleIP 1)) (by decide)
  exact ⟨hok,hget (sampleIP 1) (by decide)⟩

def movedService : List CacheOp :=
  [.update (svcAt "s" (sampleIP 1)),.update (svcAt "s" (sampleIP 2)),.delete ⟨.svc,"ns1/s"⟩]

theorem moved_service_blocks_address :
    (podAt "a" (sampleIP 1)).ips = [sampleIP 1] ∧
      ((after movedService).update (podAt "a" (sampleIP 1))).2 = some "service not found in cache: ns1/s" ∧
      ((after movedService).update (podAt "a" (sampleIP 1))).1.getPodByIP (sampleIP 1) = none := by decide

end Retina.Cache
