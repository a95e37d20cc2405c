import Retina.Watchers.Requests
import Retina.Cache.Pods

/-! # The API server in the identity cache

The watcher publishes the addresses that are new and those that are gone. The cache keeps
one endpoint for the API server: an addition replaces it by an endpoint with the new
addresses only, and a deletion removes it with all of its addresses.
-/
namespace Retina
open Cache (NetIP RetinaEndpoint isIPV4)

namespace Cache

/-- An event without an endpoint is dropped. The errors of the cache are logged. -/
def subscribeAPIServerFn (c : Cache) (event : Watchers.APIServerEvent) : Cache :=
  match event.obj.ep with
  | none => c
  | some ep =>
    match event.type with
    | .addAPIServerIPs => (c.updateEndpoint ep).1
    | .deleteAPIServerIPs => (c.deleteEndpoint ep.key).1

structure Unused (c : Cache) (ip : NetIP) : Prop where
  svc : c.ipToSvcKey.lookup ip = none
  ep : c.ipToEpKey.lookup ip = none
  node : c.ipToNodeName.lookup ip = none

end Cache

namespace Watchers
open Cache (CacheObject IPAddresses epMap_store ipToEpKey_store epMap_remove ipToEpKey_remove)

def IsAPIServer (ep : RetinaEndpoint) : Prop :=
  ep.name = Metrics.apiServerEndpointName ∧ ep.ns = Metrics.apiServerEndpointName

def apiServerKey : String := Metrics.apiServerEndpointName ++ "/" ++ Metrics.apiServerEndpointName

theorem IsAPIServer.key {ep : RetinaEndpoint} (h : IsAPIServer ep) : ep.key = apiServerKey := by
  rw [Cache.BaseObject.key, h.1, h.2, apiServerKey]

structure Watching where
  w : ApiServerWatcher
  c : Cache

/-- A refresh and the delivery of its events in their order. -/
def Watching.step (parseIP : String → NetIP) (s : Watching) (op : RefreshOp) : Watching :=
  match s.w.refreshTo parseIP op.new op.env with
  | none => s
  | some r => ⟨r.watcher,r.events.foldl Cache.subscribeAPIServerFn s.c⟩

def Found (c : Cache) (ip : NetIP) : Prop := ∃ ep, c.getPodByIP ip = some ep ∧ IsAPIServer ep

/-! ## What the events do to the cache -/

/-- The endpoint of the API server among the objects of `c₀`, which the refreshes leave alone. -/
structure Hosts (c₀ c : Cache) : Prop where
  svc : c.ipToSvcKey = c₀.ipToSvcKey
  node : c.ipToNodeName = c₀.ipToNodeName
  named : ∀ key ep, c.epMap.lookup key = some ep → ep.key = key
  stored : ∀ ep, c.epMap.lookup apiServerKey = some ep → IsAPIServer ep ∧ ep.ipList ≠ []
  index : ∀ ip, c₀.Unused ip → c.ipToEpKey.lookup ip = none ∨ c.ipToEpKey.lookup ip = some apiServerKey

def Indexed (c : Cache) (ip : NetIP) : Prop := c.ipToEpKey.lookup ip = some apiServerKey

variable {c₀ c : Cache}

theorem Hosts.found_iff (hc : Hosts c₀ c) (ip : NetIP) : Found c ip ↔ Indexed c ip ∧ apiServerKey ∈ c.epMap := by
  unfold Found Indexed Cache.getPodByIP
  constructor
  · intro ⟨ep,hep,hapi⟩
    cases hkey : c.ipToEpKey.lookup ip with
    | none => simp [hkey] at hep
    | some key =>
      simp only [hkey] at hep
      have hname : key = apiServerKey := (hc.named key ep hep).symm.trans hapi.key
      subst hname
      exact ⟨rfl,Finmap.mem_of_lookup_eq_some hep⟩
  · intro ⟨hkey,hin⟩
    obtain ⟨ep,hep⟩ := Finmap.mem_iff.mp hin
    exact ⟨ep,by simp only [hkey, hep],(hc.stored ep hep).1⟩

/-- Nobody has to make room for addresses that only the API server has. -/
theorem Hosts.deleteByIPs (hc : Hosts c₀ c) {ips : List NetIP} (hips : ∀ ip ∈ ips, c₀.Unused ip) :
    c.deleteByIPs apiServerKey ips = (c,none) := by
  induction ips with
  | nil => rfl
  | cons ip ips ih =>
    have hunused := hips ip List.mem_cons_self
    have hdelete : c.deleteByIP ip apiServerKey = (c,none) := by
      have hsvc : c.ipToSvcKey.lookup ip = none := hc.svc ▸ hunused.svc
      have hnode : c.ipToNodeName.lookup ip = none := hc.node ▸ hunused.node
      obtain hep | hep := hc.index ip hunused
      · simp only [Cache.deleteByIP, hsvc, hep, hnode]
      · simp only [Cache.deleteByIP, hsvc, hep, if_true]
    simp only [Cache.deleteByIPs, hdelete]
    exact ih fun ip' hip' => hips ip' (List.mem_cons_of_mem ip hip')

theorem ipList_apiServerEndpoint {ip : NetIP} (hv4 : isIPV4 ip = true) (ips : List NetIP) :
    (apiServerEndpoint ip ips).ipList = ip :: ips := by
  have hne : ip ≠ .nil := by
    intro hnil
    subst hnil
    cases hv4
  simp [RetinaEndpoint.ipList, CacheObject.ips, RetinaEndpoint.getIPs, apiServerEndpoint, IPAddresses.getIPs, hne,
    Except.toOption]

/-- The addresses are new to the cache or already the API server's, so nothing is evicted. -/
theorem Hosts.subscribeAPIServerFn_add (hc : Hosts c₀ c) {ip : NetIP} {ips : List NetIP} (hv4 : isIPV4 ip = true)
    (hips : ∀ ip' ∈ ip :: ips, c₀.Unused ip') :
    c.subscribeAPIServerFn ⟨.addAPIServerIPs,⟨some (apiServerEndpoint ip ips)⟩⟩ =
      c.store (.endpoint (apiServerEndpoint ip ips)) := by
  have hlist := ipList_apiServerEndpoint hv4 ips
  have hupdate := c.update_eq (o := .endpoint (apiServerEndpoint ip ips)) (by
    change (apiServerEndpoint ip ips).ipList ≠ []
    simp [hlist])
  have hdelete : c.deleteByIPs (CacheObject.endpoint (apiServerEndpoint ip ips)).id.key
      (CacheObject.endpoint (apiServerEndpoint ip ips)).ips = (c,none) := by
    change c.deleteByIPs apiServerKey (apiServerEndpoint ip ips).ipList = (c,none)
    rw [hlist]
    exact hc.deleteByIPs hips
  rw [hdelete] at hupdate
  exact congrArg Prod.fst hupdate

theorem Hosts.store (hc : Hosts c₀ c) {ip : NetIP} (hv4 : isIPV4 ip = true) (ips : List NetIP) :
    Hosts c₀ (c.store (.endpoint (apiServerEndpoint ip ips))) := by
  have hkey : (apiServerEndpoint ip ips).key = apiServerKey := rfl
  refine ⟨hc.svc,hc.node,?_,?_,?_⟩
  · intro key ep hep
    rw [epMap_store] at hep
    split at hep
    · next heq =>
      cases hep
      exact heq.symm
    · exact hc.named key ep hep
  · intro ep hep
    rw [epMap_store, hkey, if_pos rfl] at hep
    cases hep
    exact ⟨⟨rfl,rfl⟩,by simp [ipList_apiServerEndpoint hv4 ips]⟩
  · intro ip' hunused
    rw [ipToEpKey_store, hkey]
    split
    · exact .inr rfl
    · exact hc.index ip' hunused

/-- An addition makes the endpoint one with the given addresses. The index keeps the others. -/
theorem Hosts.add (hc : Hosts c₀ c) {ip : NetIP} {ips : List NetIP} (hv4 : isIPV4 ip = true)
    (hips : ∀ ip' ∈ ip :: ips, c₀.Unused ip') :
    Hosts c₀ (c.subscribeAPIServerFn ⟨.addAPIServerIPs,⟨some (apiServerEndpoint ip ips)⟩⟩) ∧
      ∀ ip', Found (c.subscribeAPIServerFn ⟨.addAPIServerIPs,⟨some (apiServerEndpoint ip ips)⟩⟩) ip' ↔
        ip' ∈ ip :: ips ∨ Indexed c ip' := by
  have hkey : (apiServerEndpoint ip ips).key = apiServerKey := rfl
  have hhosts := hc.store hv4 ips
  rw [hc.subscribeAPIServerFn_add hv4 hips]
  refine ⟨hhosts,fun ip' => ?_⟩
  have hin : apiServerKey ∈ (c.store (.endpoint (apiServerEndpoint ip ips))).epMap := by
    rw [Finmap.mem_iff]
    exact ⟨_,by rw [epMap_store, hkey, if_pos rfl]⟩
  rw [hhosts.found_iff]
  simp only [hin, and_true, Indexed, ipToEpKey_store, hkey, ipList_apiServerEndpoint hv4 ips]
  split
  · next hmem => simp [hmem]
  · next hmem => simp [hmem]

theorem Hosts.not_found (hc : Hosts c₀ c) (hnone : c.epMap.lookup apiServerKey = none) (ip : NetIP) : ¬Found c ip := by
  intro hfound
  obtain ⟨_,hin⟩ := (hc.found_iff ip).mp hfound
  obtain ⟨q,hq⟩ := Finmap.mem_iff.mp hin
  simp [hnone] at hq

theorem Hosts.remove (hc : Hosts c₀ c) (q : RetinaEndpoint) : Hosts c₀ (c.remove apiServerKey (.endpoint q)) := by
  refine ⟨hc.svc,hc.node,?_,?_,?_⟩
  · intro key ep hep
    rw [epMap_remove] at hep
    split at hep
    · cases hep
    · exact hc.named key ep hep
  · intro ep hep
    simp [epMap_remove] at hep
  · intro ip hunused
    rw [ipToEpKey_remove]
    split
    · exact .inl rfl
    · exact hc.index ip hunused

/-- A deletion leaves nothing to be found. -/
theorem Hosts.delete (hc : Hosts c₀ c) (ep : RetinaEndpoint) (hep : IsAPIServer ep) :
    Hosts c₀ (c.subscribeAPIServerFn ⟨.deleteAPIServerIPs,⟨some ep⟩⟩) ∧
      ∀ ip, ¬Found (c.subscribeAPIServerFn ⟨.deleteAPIServerIPs,⟨some ep⟩⟩) ip := by
  change Hosts c₀ (c.deleteEndpoint ep.key).1 ∧ ∀ ip, ¬Found (c.deleteEndpoint ep.key).1 ip
  rw [hep.key]
  cases hstored : c.epMap.lookup apiServerKey with
  | none =>
    have heq : c.deleteEndpoint apiServerKey = (c,none) := by simp only [Cache.deleteEndpoint, hstored]
    rw [heq]
    exact ⟨hc,hc.not_found hstored⟩
  | some q =>
    have hobject : c.object ⟨.endpoint,apiServerKey⟩ = some (.endpoint q) := by simp [Cache.object, hstored]
    have heq : (c.deleteEndpoint apiServerKey).1 = c.remove apiServerKey (.endpoint q) :=
      congrArg Prod.fst (Cache.delete_of_some hobject (hc.stored q hstored).2)
    rw [heq]
    exact ⟨hc.remove q,(hc.remove q).not_found (by rw [epMap_remove, if_pos rfl])⟩

/-! ## What a refresh does to the cache -/

def Resolved (parseIP : String → NetIP) (c₀ : Cache) (texts : Finset String) : Prop :=
  ∀ text ∈ texts, isIPV4 (parseIP text) = true ∧ c₀.Unused (parseIP text)

namespace Watching

structure Serves (parseIP : String → NetIP) (c₀ : Cache) (s : Watching) : Prop where
  hosts : Hosts c₀ s.c
  texts : Resolved parseIP c₀ s.w.current

/-- Nothing is resolved, or nothing is gone and the index has no address of the API server left that is not resolved. -/
def Grows (parseIP : String → NetIP) (s : Watching) (op : RefreshOp) : Prop :=
  op.new = ∅ ∨ s.w.current ⊆ op.new ∧
    (s.w.current = ∅ → ∀ ip, s.c.ipToEpKey.lookup ip = some apiServerKey → ∃ text ∈ op.new, parseIP text = ip)

variable {parseIP : String → NetIP} {s : Watching} {op : RefreshOp}

theorem mem_created_iff (hop : Resolved parseIP c₀ op.new) {ip : NetIP} :
    ip ∈ s.w.createdIPs parseIP op.new op.env.order ↔ ∃ text ∈ op.new \ s.w.current, parseIP text = ip := by
  rw [ApiServerWatcher.mem_createdIPs]
  refine exists_congr fun text => and_congr_right fun htext => ?_
  rw [to4_of_isIPV4 (hop text (Finset.mem_sdiff.mp htext).1).1]

theorem step_eq (hs : s.Serves parseIP c₀) (hop : Resolved parseIP c₀ op.new) :
    (s.step parseIP op).w.current = op.new ∧ (s.step parseIP op).c =
      (eventFor .deleteAPIServerIPs (s.w.deletedIPs parseIP op.new op.env.order)).foldl Cache.subscribeAPIServerFn
        ((eventFor .addAPIServerIPs (s.w.createdIPs parseIP op.new op.env.order)).foldl Cache.subscribeAPIServerFn
          s.c) := by
  have hrefresh := ApiServerWatcher.refreshTo_of_isIPV4 (fun text htext => (hop text htext).1)
    (fun text htext => (hs.texts text htext).1) op.env
  simp only [step, hrefresh, List.foldl_append, and_self]

/-- After the addition everything that was indexed is found again. -/
theorem created_spec (hs : s.Serves parseIP c₀) (hop : Resolved parseIP c₀ op.new) :
    Hosts c₀ ((eventFor .addAPIServerIPs (s.w.createdIPs parseIP op.new op.env.order)).foldl Cache.subscribeAPIServerFn
      s.c) ∧
    ∀ ip, Found ((eventFor .addAPIServerIPs (s.w.createdIPs parseIP op.new op.env.order)).foldl
        Cache.subscribeAPIServerFn s.c) ip ↔
      if op.new ⊆ s.w.current then Found s.c ip
      else (∃ text ∈ op.new \ s.w.current, parseIP text = ip) ∨ Indexed s.c ip := by
  have hmem : ∀ ip, ip ∈ s.w.createdIPs parseIP op.new op.env.order ↔
      ∃ text ∈ op.new \ s.w.current, parseIP text = ip :=
    fun _ => mem_created_iff hop
  cases hcreated : s.w.createdIPs parseIP op.new op.env.order with
  | nil =>
    have hsub : op.new ⊆ s.w.current := by
      intro text htext
      by_contra hnot
      have hin := (hmem _).mpr ⟨text,Finset.mem_sdiff.mpr ⟨htext,hnot⟩,rfl⟩
      simp [hcreated] at hin
    exact ⟨hs.hosts,fun ip => by rw [if_pos hsub]; rfl⟩
  | cons ip ips =>
    rw [hcreated] at hmem
    have hfirst : ∃ text ∈ op.new \ s.w.current, parseIP text = ip := (hmem ip).mp List.mem_cons_self
    have hsub : ¬op.new ⊆ s.w.current := by
      obtain ⟨text,htext,-⟩ := hfirst
      intro hsub
      exact (Finset.mem_sdiff.mp htext).2 (hsub (Finset.mem_sdiff.mp htext).1)
    have hunused : ∀ ip' ∈ ip :: ips, isIPV4 ip' = true ∧ c₀.Unused ip' := by
      intro ip' hip'
      obtain ⟨text,htext,rfl⟩ := (hmem ip').mp hip'
      exact hop text (Finset.mem_sdiff.mp htext).1
    obtain ⟨hhosts,hfound⟩ := hs.hosts.add (hunused ip List.mem_cons_self).1 fun ip' hip' => (hunused ip' hip').2
    refine ⟨hhosts,fun ip' => (hfound ip').trans ?_⟩
    rw [if_neg hsub, hmem]

theorem step_spec (hs : s.Serves parseIP c₀) (hop : Resolved parseIP c₀ op.new) :
    (s.step parseIP op).Serves parseIP c₀ ∧ (s.step parseIP op).w.current = op.new ∧
      ∀ ip, Found (s.step parseIP op).c ip ↔ s.w.current ⊆ op.new ∧
        if op.new ⊆ s.w.current then Found s.c ip
        else (∃ text ∈ op.new \ s.w.current, parseIP text = ip) ∨ Indexed s.c ip := by
  obtain ⟨hcurrent,hcache⟩ := step_eq hs hop
  obtain ⟨hhosts,hfound⟩ := created_spec hs hop
  cases hdeleted : s.w.deletedIPs parseIP op.new op.env.order with
  | nil =>
    have hsub : s.w.current ⊆ op.new := by
      intro text htext
      by_contra hnot
      have hin : to4 (parseIP text) ∈ s.w.deletedIPs parseIP op.new op.env.order :=
        ApiServerWatcher.mem_deletedIPs.mpr ⟨text,Finset.mem_sdiff.mpr ⟨htext,hnot⟩,rfl⟩
      simp [hdeleted] at hin
    rw [hdeleted] at hcache
    refine ⟨⟨hcache ▸ hhosts,hcurrent ▸ hop⟩,hcurrent,fun ip => ?_⟩
    rw [hcache, eventFor, List.foldl_nil, hfound ip]
    simp only [hsub, true_and]
  | cons ip ips =>
    have hsub : ¬s.w.current ⊆ op.new := by
      have hin : ip ∈ s.w.deletedIPs parseIP op.new op.env.order := hdeleted ▸ List.mem_cons_self
      obtain ⟨text,htext,-⟩ := ApiServerWatcher.mem_deletedIPs.mp hin
      intro hsub
      exact (Finset.mem_sdiff.mp htext).2 (hsub (Finset.mem_sdiff.mp htext).1)
    rw [hdeleted] at hcache
    obtain ⟨hhosts',hnone⟩ := hhosts.delete (apiServerEndpoint ip ips) ⟨rfl,rfl⟩
    refine ⟨⟨hcache ▸ hhosts',hcurrent ▸ hop⟩,hcurrent,fun ip' => ?_⟩
    rw [hcache]
    exact iff_of_false (hnone ip') fun h => hsub h.1

/-- The cache finds the API server at the addresses of the current texts. -/
def Finds (parseIP : String → NetIP) (s : Watching) : Prop :=
  ∀ ip, Found s.c ip ↔ ∃ text ∈ s.w.current, parseIP text = ip

/-- If there are current texts, then the index has their addresses and no others. -/
theorem Serves.indexed_iff (hs : s.Serves parseIP c₀) (hfinds : s.Finds parseIP) (hne : s.w.current ≠ ∅) (ip : NetIP) :
    Indexed s.c ip ↔ ∃ text ∈ s.w.current, parseIP text = ip := by
  obtain ⟨text,htext⟩ := Finset.nonempty_iff_ne_empty.mpr hne
  have hin := ((hs.hosts.found_iff _).mp ((hfinds (parseIP text)).mpr ⟨text,htext,rfl⟩)).2
  rw [← hfinds ip, hs.hosts.found_iff ip]
  simp [hin]

/-- A refresh keeps the cache right exactly if the set of texts grows or becomes empty. -/
theorem Serves.finds_iff (hs : s.Serves parseIP c₀) (hfinds : s.Finds parseIP) (hop : Resolved parseIP c₀ op.new) :
    (s.step parseIP op).Finds parseIP ↔ s.Grows parseIP op := by
  obtain ⟨-,hcurrent,hfound⟩ := step_spec hs hop
  unfold Finds
  rw [hcurrent]
  simp only [hfound]
  by_cases hsub : s.w.current ⊆ op.new
  · by_cases hsup : op.new ⊆ s.w.current
    · have heq : op.new = s.w.current := hsup.antisymm hsub
      simp only [hsub, hsup, true_and, if_true]
      refine iff_of_true (heq ▸ hfinds) ?_
      by_cases hempty : op.new = ∅
      · exact .inl hempty
      · exact .inr ⟨hsub,fun h => absurd (heq.trans h) hempty⟩
    · have hne : op.new ≠ ∅ := fun h => hsup (h ▸ Finset.empty_subset _)
      simp only [hsub, hsup, true_and, if_false, Grows, hne, false_or]
      constructor
      · intro h _ ip hindexed
        exact (h ip).mp (.inr hindexed)
      · intro h ip
        constructor
        · rintro (⟨text,htext,heq⟩ | hindexed)
          · exact ⟨text,(Finset.mem_sdiff.mp htext).1,heq⟩
          · by_cases hempty : s.w.current = ∅
            · exact h hempty ip hindexed
            · obtain ⟨text,htext,heq⟩ := (hs.indexed_iff hfinds hempty ip).mp hindexed
              exact ⟨text,hsub htext,heq⟩
        · intro ⟨text,htext,heq⟩
          by_cases hold : text ∈ s.w.current
          · exact .inr ((hs.indexed_iff hfinds (Finset.ne_empty_of_mem hold) ip).mpr ⟨text,hold,heq⟩)
          · exact .inl ⟨text,Finset.mem_sdiff.mpr ⟨htext,hold⟩,heq⟩
  · simp only [hsub, false_and, false_iff, Grows, or_false]
    constructor
    · intro h
      refine Finset.eq_empty_of_forall_notMem fun text htext => ?_
      exact h (parseIP text) ⟨text,htext,rfl⟩
    · intro hempty ip ⟨text,htext,_⟩
      simp [hempty] at htext

section
variable (hs : s.Serves parseIP c₀) {ops : List RefreshOp}
  (hops : Execution.Along (step parseIP) (fun _ op => Resolved parseIP c₀ op.new) s ops)
include hs hops

theorem serves_run : (Execution.run (step parseIP) s ops).Serves parseIP c₀ :=
  Execution.invariant (I := fun s : Watching => s.Serves parseIP c₀) (fun _ _ hs hop => (step_spec hs hop).1) hs hops

theorem current_run (hstart : s.w.current = ∅) : (Execution.run (step parseIP) s ops).w.current = lastResolved ops := by
  cases ops using List.reverseRecOn with
  | nil => exact hstart
  | append_singleton ops op =>
    obtain ⟨hbefore,hop,-⟩ := (Execution.along_append _ _ _ _).mp hops
    rw [Execution.run_append, lastResolved, List.getLast?_concat]
    exact (step_spec (serves_run hs hbefore) hop).2.1

theorem finds_run (hfinds : s.Finds parseIP) (hgrows : Execution.Along (step parseIP) (Grows parseIP) s ops) :
    (Execution.run (step parseIP) s ops).Finds parseIP := by
  have hboth := Execution.invariant (I := fun s : Watching => s.Serves parseIP c₀ ∧ s.Finds parseIP)
    (fun _ _ hI hop => ⟨(step_spec hI.1 hop.1).1,(hI.1.finds_iff hI.2 hop.1).mpr hop.2⟩) ⟨hs,hfinds⟩ (hops.and hgrows)
  exact hboth.2

end

end Watching

/-- After each refresh the cache finds the API server at the resolved addresses exactly if
every refresh grows the set. -/
theorem api_server_found_iff (parseIP : String → NetIP) (c₀ : Cache)
    (hnamed : ∀ key ep, c₀.epMap.lookup key = some ep → ep.key = key) (habsent : c₀.epMap.lookup apiServerKey = none)
    (f : Filter.FilterManager) (ops : List RefreshOp)
    (hops : ∀ op ∈ ops, ∀ text ∈ op.new, isIPV4 (parseIP text) = true ∧ c₀.Unused (parseIP text)) :
    (∀ earlier, earlier <+: ops → ∀ ip,
      (∃ ep, (Execution.run (Watching.step parseIP) ⟨{ filterManager := f },c₀⟩ earlier).c.getPodByIP ip = some ep ∧
        IsAPIServer ep) ↔ ∃ text ∈ lastResolved earlier, parseIP text = ip) ↔
    Execution.Along (Watching.step parseIP) (Watching.Grows parseIP) ⟨{ filterManager := f },c₀⟩ ops := by
  have hserves : Watching.Serves parseIP c₀ ⟨{ filterManager := f },c₀⟩ := by
    refine ⟨⟨rfl,rfl,hnamed,?_,fun ip h => .inl h.ep⟩,fun text htext => absurd htext (Finset.notMem_empty text)⟩
    intro ep hep
    simp [habsent] at hep
  have hfinds : Watching.Finds parseIP ⟨{ filterManager := f },c₀⟩ := by
    refine fun ip => iff_of_false ?_ fun ⟨text,htext,_⟩ => absurd htext (Finset.notMem_empty text)
    intro hfound
    obtain ⟨q,hq⟩ := Finmap.mem_iff.mp ((hserves.hosts.found_iff ip).mp hfound).2
    simp [habsent] at hq
  have hdomain : Execution.Along (Watching.step parseIP) (fun _ op => Resolved parseIP c₀ op.new)
    ⟨{ filterManager := f },c₀⟩ ops := Execution.along_of_forall (fun op hop _ => hops op hop) _
  refine Execution.forall_prefix_iff_along ?_ ?_ hdomain
  · intro es hes hgrows ip
    rw [← Watching.current_run hserves hes rfl]
    exact Watching.finds_run hserves hes hfinds hgrows ip
  · intro es op hes hgrows hop hnot hall
    have hconcat := (Execution.along_append _ _ _ [op]).mpr ⟨hes,hop,trivial⟩
    rw [← Watching.current_run hserves hconcat rfl, Execution.run_append] at hall
    have hbefore := Watching.finds_run hserves hes hfinds hgrows
    exact hnot (((Watching.serves_run hserves hes).finds_iff hbefore hop).mp hall)

section Sample

theorem resolved_sample {texts : Finset String} (h : ∀ text ∈ texts, isIPV4 (sampleParseIP text) = true) :
    Resolved sampleParseIP {} texts := fun text htext => ⟨h text htext,rfl,rfl,rfl⟩

noncomputable def moved : List RefreshOp := [resolved {"10.0.0.1"},resolved {"10.0.0.2"}]

noncomputable def extended : List RefreshOp := [resolved {"10.0.0.1"},resolved {"10.0.0.1","10.0.0.2"}]

theorem serves_start : Watching.Serves sampleParseIP {} ⟨{},{}⟩ :=
  ⟨⟨rfl,rfl,by simp,by simp,fun ip h => .inl h.ep⟩,fun text htext => absurd htext (Finset.notMem_empty text)⟩

end Sample

/-- The cache does not find the API server at its new address. -/
theorem moved_api_server_lost :
    lastResolved moved = {"10.0.0.2"} ∧
    ¬∃ ep, (Execution.run (Watching.step sampleParseIP) ⟨{},{}⟩ moved).c.getPodByIP (.v4 10 0 0 2) = some ep ∧
      IsAPIServer ep := by
  refine ⟨rfl,fun hfound => ?_⟩
  have hfirst : Resolved sampleParseIP {} (resolved {"10.0.0.1"}).new := resolved_sample (by decide)
  have hsecond : Resolved sampleParseIP {} (resolved {"10.0.0.2"}).new := resolved_sample (by decide)
  obtain ⟨hserves,hcurrent,-⟩ := Watching.step_spec serves_start hfirst
  obtain ⟨-,-,hfinds⟩ := Watching.step_spec hserves hsecond
  have hsub := ((hfinds _).mp hfound).1
  rw [hcurrent] at hsub
  exact absurd hsub (by decide)

theorem extended_api_server_found :
    ∃ ep, (Execution.run (Watching.step sampleParseIP) ⟨{},{}⟩ extended).c.getPodByIP (.v4 10 0 0 2) = some ep ∧
      IsAPIServer ep := by
  have hresolved : Resolved sampleParseIP {} (resolved {"10.0.0.1"}).new := resolved_sample (by decide)
  have hfirst := (Watching.step_spec serves_start hresolved).2.1
  refine ((api_server_found_iff sampleParseIP {} (by simp) rfl _ extended ?_).mpr ?_ _ (List.prefix_refl _) _).mpr
    ⟨"10.0.0.2",by decide,by decide⟩
  · intro op hop text htext
    simp only [extended, List.mem_cons, List.not_mem_nil, or_false] at hop
    obtain rfl | rfl := hop
    · exact resolved_sample (by decide) text htext
    · exact resolved_sample (by decide) text htext
  · refine ⟨.inr ⟨Finset.empty_subset _,fun _ ip hip => ?_⟩,.inr ⟨?_,?_⟩,trivial⟩
    · simp at hip
    · rw [hfirst]
      decide
    · rw [hfirst]
      intro h
      exact absurd h (by decide)

end Watchers

end Retina
