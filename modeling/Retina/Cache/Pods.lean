import Retina.Cache.Effects

/-! # A cache of pods

With endpoints only, the index knows every address of every stored endpoint, however
often an endpoint is published again and with whatever addresses. It may know more:
an address that an endpoint has given up stays indexed until another one takes it.
-/
namespace Retina.Cache

def RetinaEndpoint.ipList (ep : RetinaEndpoint) : List NetIP := (CacheObject.endpoint ep).ips

structure PodsIndexed (c : Cache) : Prop where
  svc : ∀ ip, c.ipToSvcKey.lookup ip = none
  node : ∀ ip, c.ipToNodeName.lookup ip = none
  named : ∀ key ep, c.epMap.lookup key = some ep → ep.key = key
  filed : ∀ key ep, c.epMap.lookup key = some ep → ep.ipList ≠ []
  indexed : ∀ key ep, c.epMap.lookup key = some ep → ∀ ip ∈ ep.ipList, c.ipToEpKey.lookup ip = some key

def Exact (c : Cache) : Prop :=
  ∀ ip key, c.ipToEpKey.lookup ip = some key → ∃ ep, c.epMap.lookup key = some ep ∧ ip ∈ ep.ipList

theorem podsIndexed_empty : PodsIndexed {} where
  svc := by simp
  node := by simp
  named := by simp
  filed := by simp
  indexed := by simp

theorem exact_empty : Exact {} := by simp [Exact]

theorem PodsIndexed.withPublished {c : Cache} (hc : PodsIndexed c) (published : List CacheEvent) :
    PodsIndexed { c with published := published } := ⟨hc.svc,hc.node,hc.named,hc.filed,hc.indexed⟩

variable {c c' : Cache} {key : String} {ep : RetinaEndpoint}

/-! ## Removing an endpoint -/

theorem epMap_remove (c : Cache) (key : String) (ep : RetinaEndpoint) (k : String) :
    (c.remove key (.endpoint ep)).epMap.lookup k = if k = key then none else c.epMap.lookup k := by
  simp only [remove, publish, FiniteMap.lookup_erase_eq_ite]

theorem ipToEpKey_remove (c : Cache) (key : String) (ep : RetinaEndpoint) (ip : NetIP) :
    (c.remove key (.endpoint ep)).ipToEpKey.lookup ip = if ip ∈ ep.ipList then none else c.ipToEpKey.lookup ip :=
  FiniteMap.lookup_foldl_erase c.ipToEpKey ep.ipList ip

theorem PodsIndexed.eq_of_mem (hc : PodsIndexed c) {key' : String} {ep' : RetinaEndpoint} {ip : NetIP}
    (h : c.epMap.lookup key = some ep) (hip : ip ∈ ep.ipList) (h' : c.epMap.lookup key' = some ep')
    (hip' : ip ∈ ep'.ipList) : key = key' :=
  Option.some.inj ((hc.indexed key ep h ip hip).symm.trans (hc.indexed key' ep' h' ip hip'))

theorem PodsIndexed.remove (hc : PodsIndexed c) (h : c.epMap.lookup key = some ep) :
    PodsIndexed (c.remove key (.endpoint ep)) := by
  have hold : ∀ k q, (c.remove key (.endpoint ep)).epMap.lookup k = some q → k ≠ key ∧ c.epMap.lookup k = some q := by
    intro k q hq
    rw [epMap_remove] at hq
    split at hq
    · cases hq
    · next hk => exact ⟨hk,hq⟩
  constructor
  · exact hc.svc
  · exact hc.node
  · exact fun k q hq => hc.named k q (hold k q hq).2
  · exact fun k q hq => hc.filed k q (hold k q hq).2
  · intro k q hq ip hip
    obtain ⟨hk,hq⟩ := hold k q hq
    rw [ipToEpKey_remove, if_neg fun hin => hk (hc.eq_of_mem hq hip h hin)]
    exact hc.indexed k q hq ip hip

theorem Exact.remove (hx : Exact c) (h : c.epMap.lookup key = some ep) : Exact (c.remove key (.endpoint ep)) := by
  intro ip k hk
  rw [ipToEpKey_remove] at hk
  split at hk
  · cases hk
  · next hip =>
    obtain ⟨q,hq,hin⟩ := hx ip k hk
    refine ⟨q,?_,hin⟩
    rw [epMap_remove, if_neg ?_]
    · exact hq
    · rintro rfl
      rw [h] at hq
      cases hq
      exact hip hin

theorem PodsIndexed.deleteEndpoint (hc : PodsIndexed c) (key : String) :
    (c.epMap.lookup key = none ∧ c.deleteEndpoint key = (c,none)) ∨
      ∃ ep, c.epMap.lookup key = some ep ∧ c.deleteEndpoint key = (c.remove key (.endpoint ep),none) := by
  cases h : c.epMap.lookup key with
  | none => exact .inl ⟨rfl,by simp only [Cache.deleteEndpoint, h]⟩
  | some ep =>
    refine .inr ⟨ep,rfl,?_⟩
    have hobject : c.object ⟨.endpoint,key⟩ = some (.endpoint ep) := by simp [object, h]
    exact delete_of_some hobject (hc.filed key ep h)

/-! ## Making room for an endpoint -/

def TellsRemoval (c : Cache) (e : CacheEvent) : Prop :=
  e.type = .podDeleted ∧ ∃ key ep, c.epMap.lookup key = some ep ∧ e.obj = .endpoint ep

structure Cleared (c : Cache) (key : String) (ips : List NetIP) (c' : Cache) : Prop where
  indexed : PodsIndexed c'
  exact : Exact c → Exact c'
  kept : ∀ k, c'.epMap.lookup k = c.epMap.lookup k ∨
    c'.epMap.lookup k = none ∧ k ≠ key ∧ ∃ ip ∈ ips, c.ipToEpKey.lookup ip = some k
  index : ∀ ip k, c'.ipToEpKey.lookup ip = some k → c.ipToEpKey.lookup ip = some k
  free : ∀ k ep, c'.epMap.lookup k = some ep → k ≠ key → ∀ ip ∈ ips, ip ∉ ep.ipList
  told : ∃ gone, c'.published = c.published ++ gone ∧ ∀ e ∈ gone, c.TellsRemoval e

theorem Cleared.epMap {ips : List NetIP} (h : Cleared c key ips c') {k : String} {q : RetinaEndpoint}
    (hq : c'.epMap.lookup k = some q) : c.epMap.lookup k = some q := by
  rcases h.kept k with hk | ⟨hk,-⟩
  · rwa [← hk]
  · rw [hk] at hq
    cases hq

theorem PodsIndexed.cleared_self (hc : PodsIndexed c) {ip : NetIP}
    (hfree : ∀ k ep, c.epMap.lookup k = some ep → k ≠ key → ip ∉ ep.ipList) : Cleared c key [ip] c where
  indexed := hc
  exact := id
  kept _ := .inl rfl
  index _ _ := id
  free k ep h hk a ha := by
    rw [List.mem_singleton.mp ha]
    exact hfree k ep h hk
  told := ⟨[],by simp,by simp⟩

theorem PodsIndexed.deleteByIP (hc : PodsIndexed c) (ip : NetIP) (key : String) :
    ∃ c', c.deleteByIP ip key = (c',none) ∧ Cleared c key [ip] c' := by
  -- An endpoint with the address is the one that the index names.
  have howner : ∀ k ep, c.epMap.lookup k = some ep → ip ∈ ep.ipList → c.ipToEpKey.lookup ip = some k :=
    fun k ep h hip => hc.indexed k ep h ip hip
  simp only [Cache.deleteByIP, hc.svc ip, hc.node ip]
  cases hidx : c.ipToEpKey.lookup ip with
  | none =>
    refine ⟨c,rfl,hc.cleared_self ?_⟩
    intro k ep h _ hip
    rw [howner k ep h hip] at hidx
    cases hidx
  | some k₀ =>
    by_cases hkey : k₀ = key
    · refine ⟨c,by simp [hkey],hc.cleared_self ?_⟩
      intro k ep h hk hip
      rw [howner k ep h hip] at hidx
      exact hk ((Option.some.inj hidx).trans hkey)
    · rcases hc.deleteEndpoint k₀ with ⟨hnone,hdel⟩ | ⟨q,hq,hdel⟩
      · refine ⟨c,by simp [hkey, hdel],hc.cleared_self ?_⟩
        intro k ep h _ hip
        rw [howner k ep h hip] at hidx
        rw [Option.some.inj hidx, hnone] at h
        cases h
      · refine ⟨c.remove k₀ (.endpoint q),by simp [hkey, hdel],hc.remove hq,fun hx => hx.remove hq,?_,?_,?_,?_⟩
        · intro k
          rw [epMap_remove]
          split
          · next hk => exact .inr ⟨rfl,hk ▸ hkey,ip,List.mem_singleton_self ip,hk ▸ hidx⟩
          · exact .inl rfl
        · intro a k hk
          rw [ipToEpKey_remove] at hk
          split at hk
          · cases hk
          · exact hk
        · intro k ep h _ a ha hip
          rw [List.mem_singleton.mp ha] at hip
          rw [epMap_remove] at h
          split at h
          · cases h
          · next hk =>
            rw [howner k ep h hip] at hidx
            exact hk (Option.some.inj hidx)
        · refine ⟨[⟨.podDeleted,.endpoint q⟩],rfl,?_⟩
          intro e he
          rw [List.mem_singleton.mp he]
          exact ⟨rfl,k₀,q,hq,rfl⟩

theorem Cleared.trans {c₁ c₂ : Cache} {ips ips' : List NetIP} (h₁ : Cleared c key ips c₁)
    (h₂ : Cleared c₁ key ips' c₂) : Cleared c key (ips ++ ips') c₂ where
  indexed := h₂.indexed
  exact hx := h₂.exact (h₁.exact hx)
  kept k := by
    rcases h₂.kept k with h | ⟨hnone,hk,ip,hip,hidx⟩
    · rw [h]
      rcases h₁.kept k with h | ⟨hnone,hk,ip,hip,hidx⟩
      · exact .inl h
      · exact .inr ⟨hnone,hk,ip,List.mem_append_left ips' hip,hidx⟩
    · exact .inr ⟨hnone,hk,ip,List.mem_append_right ips hip,h₁.index ip k hidx⟩
  index ip k hk := h₁.index ip k (h₂.index ip k hk)
  free k ep h hk ip hip := by
    rcases List.mem_append.mp hip with hip | hip
    · exact h₁.free k ep (h₂.epMap h) hk ip hip
    · exact h₂.free k ep h hk ip hip
  told := by
    obtain ⟨gone₁,hpub₁,hgone₁⟩ := h₁.told
    obtain ⟨gone₂,hpub₂,hgone₂⟩ := h₂.told
    refine ⟨gone₁ ++ gone₂,by rw [hpub₂, hpub₁, List.append_assoc],?_⟩
    intro e he
    rcases List.mem_append.mp he with he | he
    · exact hgone₁ e he
    · obtain ⟨htype,k,ep,h,hobj⟩ := hgone₂ e he
      exact ⟨htype,k,ep,h₁.epMap h,hobj⟩

theorem PodsIndexed.deleteByIPs (hc : PodsIndexed c) (key : String) (ips : List NetIP) :
    ∃ c', c.deleteByIPs key ips = (c',none) ∧ Cleared c key ips c' := by
  induction ips generalizing c with
  | nil => exact ⟨c,rfl,hc,id,fun _ => .inl rfl,fun _ _ => id,by simp,[],by simp,by simp⟩
  | cons ip ips ih =>
    obtain ⟨c₁,heq₁,h₁⟩ := hc.deleteByIP ip key
    obtain ⟨c₂,heq₂,h₂⟩ := ih h₁.indexed
    exact ⟨c₂,by simp only [Cache.deleteByIPs, heq₁, heq₂],h₁.trans h₂⟩

/-! ## Updating an endpoint -/

theorem epMap_store (c : Cache) (ep : RetinaEndpoint) (k : String) :
    (c.store (.endpoint ep)).epMap.lookup k = if k = ep.key then some ep else c.epMap.lookup k := by
  simp only [store, publish, FiniteMap.lookup_insert_eq_ite]

theorem ipToEpKey_store (c : Cache) (ep : RetinaEndpoint) (ip : NetIP) : (c.store (.endpoint ep)).ipToEpKey.lookup ip =
    if ip ∈ ep.ipList then some ep.key else c.ipToEpKey.lookup ip :=
  FiniteMap.lookup_foldl_insert c.ipToEpKey ep.key ep.ipList ip

theorem PodsIndexed.updateEndpoint (hc : PodsIndexed c) (hep : ep.ipList ≠ []) :
    ∃ c', c.updateEndpoint ep = (c'.store (.endpoint ep),none) ∧ Cleared c ep.key ep.ipList c' := by
  obtain ⟨c',heq,hclear⟩ := hc.deleteByIPs ep.key ep.ipList
  refine ⟨c',?_,hclear⟩
  have hupdate := c.update_eq (o := .endpoint ep) hep
  rw [show (CacheObject.endpoint ep).id.key = ep.key from rfl,
    show (CacheObject.endpoint ep).ips = ep.ipList from rfl, heq] at hupdate
  exact hupdate

theorem Cleared.podsIndexed_store (h : Cleared c ep.key ep.ipList c') (hep : ep.ipList ≠ []) :
    PodsIndexed (c'.store (.endpoint ep)) := by
  constructor
  · exact h.indexed.svc
  · exact h.indexed.node
  · intro k q hq
    rw [epMap_store] at hq
    split at hq
    · next hk =>
      cases hq
      exact hk.symm
    · exact h.indexed.named k q hq
  · intro k q hq
    rw [epMap_store] at hq
    split at hq
    · cases hq
      exact hep
    · exact h.indexed.filed k q hq
  · intro k q hq ip hip
    rw [epMap_store] at hq
    rw [ipToEpKey_store]
    split at hq
    · next hk =>
      cases hq
      rw [if_pos hip, hk]
    · next hk =>
      rw [if_neg fun hin => h.free k q hq hk ip hin hip]
      exact h.indexed.indexed k q hq ip hip

def KeepsIPs (c : Cache) (ep : RetinaEndpoint) : Prop :=
  ∀ old, c.epMap.lookup ep.key = some old → ∀ ip ∈ old.ipList, ip ∈ ep.ipList

theorem Cleared.exact_store (h : Cleared c ep.key ep.ipList c') (hx : Exact c) (hkeep : c.KeepsIPs ep) :
    Exact (c'.store (.endpoint ep)) := by
  intro ip k hk
  rw [ipToEpKey_store] at hk
  rw [epMap_store]
  split at hk
  · next hip =>
    cases hk
    exact ⟨ep,if_pos rfl,hip⟩
  · next hip =>
    obtain ⟨q,hq,hin⟩ := h.exact hx ip k hk
    refine ⟨q,?_,hin⟩
    rw [if_neg ?_]
    · exact hq
    · rintro rfl
      exact hip (hkeep q (h.epMap hq) ip hin)

theorem Cleared.published_store (h : Cleared c ep.key ep.ipList c') : ∃ gone,
    (c'.store (.endpoint ep)).published = c.published ++ gone ++ [⟨.podAdded,.endpoint ep⟩] ∧
      ∀ e ∈ gone, c.TellsRemoval e := by
  obtain ⟨gone,hpub,hgone⟩ := h.told
  exact ⟨gone,by simp [store, publish, hpub],hgone⟩

/-- The endpoints afterwards are the new one, and old ones without its addresses. -/
theorem Cleared.epMap_store (h : Cleared c ep.key ep.ipList c') {k : String} {q : RetinaEndpoint}
    (hq : (c'.store (.endpoint ep)).epMap.lookup k = some q) :
    q = ep ∨ c.epMap.lookup k = some q ∧ ∀ ip ∈ ep.ipList, ip ∉ q.ipList := by
  rw [Cache.epMap_store] at hq
  split at hq
  · exact .inl (Option.some.inj hq).symm
  · next hk => exact .inr ⟨h.epMap hq,h.free k q hq hk⟩

theorem Cleared.lookup_of_free {ips : List NetIP} (h : Cleared c key ips c') (hx : Exact c) {k : String}
    {q : RetinaEndpoint} (hq : c.epMap.lookup k = some q) (hfree : ∀ ip ∈ ips, ip ∉ q.ipList) :
    c'.epMap.lookup k = some q := by
  rcases h.kept k with heq | ⟨-,-,ip,hip,hidx⟩
  · rw [heq]
    exact hq
  · obtain ⟨q',hq',hin⟩ := hx ip k hidx
    rw [hq, Option.some.injEq] at hq'
    exact absurd (hq' ▸ hin) (hfree ip hip)

/-! ## Look-ups -/

theorem RetinaEndpoint.mem_ipList_of_primaryNetIP {ip : NetIP} (h : ep.primaryNetIP = .ok ip) : ip ∈ ep.ipList := by
  rw [RetinaEndpoint.primaryNetIP] at h
  cases hips : ep.ips with
  | none => simp [hips] at h
  | some ips =>
    simp only [hips] at h
    have hip : ip ∈ ips.getIPs := by
      split at h
      · next hprimary =>
        cases h
        simp only [IPAddresses.primaryNetIP] at hprimary ⊢
        by_cases h4 : ips.ipv4 = .nil
        · by_cases h6 : ips.ipv6 = .nil
          · simp [h4, h6] at hprimary
          · simp [IPAddresses.getIPs, h4, h6]
        · simp [IPAddresses.getIPs, h4]
      · cases h
    have hlen : 0 < ips.getIPs.length := List.length_pos_of_mem hip
    simpa [RetinaEndpoint.ipList, CacheObject.ips, RetinaEndpoint.getIPs, hips, hlen, Except.toOption] using hip

theorem PodsIndexed.getPodByIP (hc : PodsIndexed c) (h : c.epMap.lookup key = some ep) {ip : NetIP}
    (hip : ip ∈ ep.ipList) : c.getPodByIP ip = some ep := by
  simp only [Cache.getPodByIP, hc.indexed key ep h ip hip, h]

theorem Exact.getPodByIP_eq_some (hx : Exact c) {ip : NetIP} (h : c.getPodByIP ip = some ep) :
    ∃ key, c.epMap.lookup key = some ep ∧ ip ∈ ep.ipList := by
  simp only [Cache.getPodByIP] at h
  cases hidx : c.ipToEpKey.lookup ip with
  | none => simp [hidx] at h
  | some key =>
    simp only [hidx] at h
    obtain ⟨q,hq,hin⟩ := hx ip key hidx
    rw [h] at hq
    cases hq
    exact ⟨key,h,hin⟩

end Retina.Cache
