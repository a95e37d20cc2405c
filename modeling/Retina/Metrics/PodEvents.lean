import Retina.Metrics.Module
import Retina.Cache.Pods

/-! # Pod events and dirty pods

A pod event only marks the address of the pod, to be added to the filter manager or
to be deleted from it. The marks are applied at the next tick. A later mark for an
address replaces an earlier one.
-/
namespace Retina.Metrics
open Cache (NetIP RetinaEndpoint CacheEvent isIPV4)
open Retina.Filter

def apiServerEndpointName : String := "kubernetes-apiserver"

namespace DirtyCache

def markToAdd (d : DirtyCache) (key : NetIP) (obj : DirtyCachePod) : DirtyCache :=
  { toAdd := d.toAdd.insert key obj, toDelete := d.toDelete.erase key }

def markToDelete (d : DirtyCache) (key : NetIP) (obj : DirtyCachePod) : DirtyCache :=
  { toAdd := d.toAdd.erase key, toDelete := d.toDelete.insert key obj }

def getAddList (d : DirtyCache) (order : FiniteMap.Order NetIP) : List DirtyCachePod :=
  (order.list d.toAdd.keys).filterMap fun key => d.toAdd.lookup key

def getDeleteList (d : DirtyCache) (order : FiniteMap.Order NetIP) : List DirtyCachePod :=
  (order.list d.toDelete.keys).filterMap fun key => d.toDelete.lookup key

end DirtyCache

namespace Module

def podAnnotated (m : Module) (annotations : Finmap (fun _ : String => String)) : Bool :=
  if m.enableAnnotations = false then false
  else if annotations = ∅ then false
  else annotations.lookup Cache.retinaPodAnnotation = some Cache.retinaPodAnnotationValue

def podCacheEntry (m : Module) (pod : RetinaEndpoint) (ip : NetIP) : DirtyCachePod :=
  ⟨ip,m.podAnnotated pod.annotations,m.nsOfInterest pod.ns⟩

def handlePodEvent (m : Module) (c : Cache) (event : CacheEvent) (pod : RetinaEndpoint) (ip : NetIP) : Module :=
  if pod.name = apiServerEndpointName ∧ pod.ns = apiServerEndpointName then m
  else
    match event.type with
    | .podAdded =>
      if (m.podCacheEntry pod ip).annotated = false ∧ (m.podCacheEntry pod ip).namespaced = false then
        { m with dirtyPods := m.dirtyPods.markToDelete ip (m.podCacheEntry pod ip) }
      else { m with dirtyPods := m.dirtyPods.markToAdd ip (m.podCacheEntry pod ip) }
    | .podDeleted =>
      match c.getPodByIP ip with
      | some _ => m
      | none => { m with dirtyPods := m.dirtyPods.markToDelete ip (m.podCacheEntry pod ip) }
    | _ => m

/-- The topic of the pods carries endpoints only. -/
def podCallBackFn (m : Module) (c : Cache) (event : CacheEvent) : Module :=
  match event.obj with
  | .endpoint pod =>
    match pod.primaryNetIP with
    | .error _ => m
    | .ok ip =>
      if event.type ≠ .podDeleted ∧ m.nsOfInterest pod.ns = false ∧ m.filterManager.hasIP ip = false ∧
          m.podAnnotated pod.annotations = false then m
      else m.handlePodEvent c event pod ip
  | _ => m

def applyDirtyPodsAdd (m : Module) (env : Surroundings) : Module :=
  let adds := m.dirtyPods.getAddList env.ipOrder
  let podsToAdd := (adds.filter (·.annotated)).map (·.ip)
  let podsToAddNamespaced := (adds.filter (·.namespaced)).map (·.ip)
  let m := if podsToAdd.length > 0 then m.addIPs env podsToAdd modulePodReqMetadata else m
  let m := if podsToAddNamespaced.length > 0 then m.addIPs env podsToAddNamespaced moduleReqMetadata else m
  { m with dirtyPods := { m.dirtyPods with toAdd := ∅ } }

def applyDirtyPodsDelete (m : Module) (env : Surroundings) : Module :=
  let ipsToDelete := (m.dirtyPods.getDeleteList env.ipOrder).map (·.ip)
  let m := if ipsToDelete.length > 0 then
      (m.deleteIPs env ipsToDelete modulePodReqMetadata).deleteIPs env ipsToDelete moduleReqMetadata
    else m
  { m with dirtyPods := { m.dirtyPods with toDelete := ∅ } }

def applyDirtyPods (m : Module) (env : Surroundings) : Module :=
  (m.applyDirtyPodsAdd env).applyDirtyPodsDelete env

def ofInterest (m : Module) (pod : RetinaEndpoint) : Bool := m.podAnnotated pod.annotations || m.nsOfInterest pod.ns

def Held (m : Module) (ip : NetIP) : Prop := ∃ md, m.Requested ip md

def WillHold (m : Module) (ip : NetIP) : Prop := ip ∈ m.dirtyPods.toAdd ∨ ip ∉ m.dirtyPods.toDelete ∧ m.Held ip

end Module

/-- An entry is marked under its own address, and no address has two marks. -/
structure DirtyCache.WellFormed (d : DirtyCache) : Prop where
  toAdd : ∀ ip entry, d.toAdd.lookup ip = some entry → entry.ip = ip
  toDelete : ∀ ip entry, d.toDelete.lookup ip = some entry → entry.ip = ip
  apart : ∀ ip, ip ∈ d.toAdd → ip ∉ d.toDelete

structure Module.Orderly (m : Module) : Prop where
  working : m.filterManager.Working
  toAdd : ∀ ip entry, m.dirtyPods.toAdd.lookup ip = some entry →
    entry.ip = ip ∧ isIPV4 ip = true ∧ (entry.annotated = true ∨ entry.namespaced = true)
  toDelete : ∀ ip entry, m.dirtyPods.toDelete.lookup ip = some entry → entry.ip = ip
  apart : ∀ ip, ip ∈ m.dirtyPods.toAdd → ip ∉ m.dirtyPods.toDelete
  kinds : ∀ ip md, m.Requested ip md → md = modulePodReqMetadata ∨ md = moduleReqMetadata

/-! ## What a mark changes -/

namespace DirtyCache
variable {d : DirtyCache} {ip : NetIP} {entry : DirtyCachePod}

theorem wellFormed_empty : ({} : DirtyCache).WellFormed where
  toAdd ip entry h := by simp at h
  toDelete ip entry h := by simp at h
  apart ip h := absurd h Finmap.notMem_empty

theorem lookup_insert_ip {marks : Finmap (fun _ : NetIP => DirtyCachePod)}
    (hmarks : ∀ ip entry, marks.lookup ip = some entry → entry.ip = ip) (hentry : entry.ip = ip) :
    ∀ ip' e, (marks.insert ip entry).lookup ip' = some e → e.ip = ip' := by
  intro ip' e h
  rw [FiniteMap.lookup_insert_eq_ite] at h
  split at h
  · next heq =>
    cases h
    exact hentry.trans heq.symm
  · exact hmarks ip' e h

theorem WellFormed.markToAdd (hd : d.WellFormed) (hentry : entry.ip = ip) : (d.markToAdd ip entry).WellFormed where
  toAdd := lookup_insert_ip hd.toAdd hentry
  toDelete ip' e h := hd.toDelete ip' e (FiniteMap.lookup_of_erase h).2
  apart ip' h h' := by
    simp only [DirtyCache.markToAdd, Finmap.mem_insert, Finmap.mem_erase] at h h'
    exact hd.apart ip' (h.resolve_left h'.1) h'.2

theorem WellFormed.markToDelete (hd : d.WellFormed) (hentry : entry.ip = ip) :
    (d.markToDelete ip entry).WellFormed where
  toAdd ip' e h := hd.toAdd ip' e (FiniteMap.lookup_of_erase h).2
  toDelete := lookup_insert_ip hd.toDelete hentry
  apart ip' h h' := by
    simp only [DirtyCache.markToDelete, Finmap.mem_insert, Finmap.mem_erase] at h h'
    exact hd.apart ip' h.2 (h'.resolve_left h.1)

end DirtyCache

namespace Module
variable {m : Module} {ip : NetIP} {entry : DirtyCachePod}

theorem willHold_markToAdd (m : Module) (ip : NetIP) (entry : DirtyCachePod) (ip' : NetIP) :
    WillHold { m with dirtyPods := m.dirtyPods.markToAdd ip entry } ip' ↔ ip' = ip ∨ m.WillHold ip' := by
  simp only [WillHold, DirtyCache.markToAdd, Finmap.mem_insert, Finmap.mem_erase, Held, Requested]
  tauto

theorem willHold_markToDelete (m : Module) (ip : NetIP) (entry : DirtyCachePod) (ip' : NetIP) :
    WillHold { m with dirtyPods := m.dirtyPods.markToDelete ip entry } ip' ↔ ip' ≠ ip ∧ m.WillHold ip' := by
  simp only [WillHold, DirtyCache.markToDelete, Finmap.mem_insert, Finmap.mem_erase, Held, Requested]
  tauto

theorem Orderly.wellFormed (hm : m.Orderly) : m.dirtyPods.WellFormed :=
  ⟨fun ip entry h => (hm.toAdd ip entry h).1,hm.toDelete,hm.apart⟩

theorem Orderly.markToAdd (hm : m.Orderly) (hentry : entry.ip = ip) (hip : isIPV4 ip = true)
    (hof : entry.annotated = true ∨ entry.namespaced = true) :
    Orderly { m with dirtyPods := m.dirtyPods.markToAdd ip entry } where
  working := hm.working
  toAdd ip' e h := by
    refine ⟨(hm.wellFormed.markToAdd hentry).toAdd ip' e h,?_⟩
    simp only [DirtyCache.markToAdd, FiniteMap.lookup_insert_eq_ite] at h
    split at h
    · next heq =>
      cases h
      exact ⟨heq ▸ hip,hof⟩
    · exact (hm.toAdd ip' e h).2
  toDelete := (hm.wellFormed.markToAdd hentry).toDelete
  apart := (hm.wellFormed.markToAdd hentry).apart
  kinds := hm.kinds

theorem Orderly.markToDelete (hm : m.Orderly) (hentry : entry.ip = ip) :
    Orderly { m with dirtyPods := m.dirtyPods.markToDelete ip entry } where
  working := hm.working
  toAdd ip' e h := hm.toAdd ip' e (FiniteMap.lookup_of_erase h).2
  toDelete := (hm.wellFormed.markToDelete hentry).toDelete
  apart := (hm.wellFormed.markToDelete hentry).apart
  kinds := hm.kinds

theorem not_held_of_not_hasIP (h : m.filterManager.hasIP ip = false) : ¬m.Held ip := by
  rintro ⟨md,hmd⟩
  have hkey := (FilterCache.hasKey_iff m.filterManager.c ip).mpr ⟨metricModuleReq,md,hmd⟩
  rw [FilterManager.hasIP] at h
  rw [h] at hkey
  cases hkey

end Module

/-! ## What an event changes -/

def NotAPIServer (pod : RetinaEndpoint) : Prop := ¬(pod.name = apiServerEndpointName ∧ pod.ns = apiServerEndpointName)

namespace Module
variable {m : Module} {c : Cache} {pod : RetinaEndpoint} {ip : NetIP}

/-- The callback does nothing but mark an address. -/
theorem podCallBackFn_frame (m : Module) (c : Cache) (e : CacheEvent) :
    m.podCallBackFn c e = { m with dirtyPods := (m.podCallBackFn c e).dirtyPods } := by
  simp only [podCallBackFn]
  split
  · split
    · rfl
    · split
      · rfl
      · simp only [handlePodEvent]
        split
        · rfl
        · split
          · split <;> rfl
          · split <;> rfl
          · rfl
  · rfl

theorem podCallBackFn_added_eq (hip : pod.primaryNetIP = .ok ip) (hpod : NotAPIServer pod) :
    m.podCallBackFn c ⟨.podAdded,.endpoint pod⟩ =
      if m.ofInterest pod = true then { m with dirtyPods := m.dirtyPods.markToAdd ip (m.podCacheEntry pod ip) }
      else if m.filterManager.hasIP ip = true then
        { m with dirtyPods := m.dirtyPods.markToDelete ip (m.podCacheEntry pod ip) }
      else m := by
  have hneg : ¬(pod.name = apiServerEndpointName ∧ pod.ns = apiServerEndpointName) := hpod
  simp only [podCallBackFn, hip, handlePodEvent, if_neg hneg, podCacheEntry]
  by_cases hof : m.ofInterest pod = true
  · rw [if_pos hof]
    simp only [ofInterest, Bool.or_eq_true] at hof
    rcases hof with h | h <;> simp [h]
  · rw [if_neg hof]
    simp only [ofInterest, Bool.or_eq_true, not_or, Bool.not_eq_true] at hof
    by_cases hhas : m.filterManager.hasIP ip = true
    · simp [hof, hhas]
    · rw [Bool.not_eq_true] at hhas
      simp [hof, hhas]

section
variable (hm : m.Orderly) (hip : pod.primaryNetIP = .ok ip) (hpod : NotAPIServer pod)
include hm hip hpod

theorem podCallBackFn_added (hv4 : isIPV4 ip = true) :
    (m.podCallBackFn c ⟨.podAdded,.endpoint pod⟩).Orderly ∧
    (∀ ip', ip' ≠ ip → ((m.podCallBackFn c ⟨.podAdded,.endpoint pod⟩).WillHold ip' ↔ m.WillHold ip')) ∧
    (m.ofInterest pod = true → (m.podCallBackFn c ⟨.podAdded,.endpoint pod⟩).WillHold ip) ∧
    (m.ofInterest pod = false → m.filterManager.hasIP ip = true ∨ ip ∉ m.dirtyPods.toAdd →
      ¬(m.podCallBackFn c ⟨.podAdded,.endpoint pod⟩).WillHold ip) := by
  rw [podCallBackFn_added_eq hip hpod]
  by_cases hof : m.ofInterest pod = true
  · rw [if_pos hof]
    refine ⟨hm.markToAdd rfl hv4 (by simpa [ofInterest, podCacheEntry] using hof),?_,?_,?_⟩
    · intro ip' hne
      simp [willHold_markToAdd, hne]
    · simp [willHold_markToAdd]
    · simp [hof]
  · rw [if_neg hof]
    by_cases hhas : m.filterManager.hasIP ip = true
    · rw [if_pos hhas]
      refine ⟨hm.markToDelete rfl,?_,?_,?_⟩
      · intro ip' hne
        simp [willHold_markToDelete, hne]
      · simp [hof]
      · simp [willHold_markToDelete]
    · rw [if_neg hhas]
      refine ⟨hm,fun _ _ => Iff.rfl,by simp [hof],?_⟩
      rw [Bool.not_eq_true] at hhas
      rintro - hadd (h | ⟨-,h⟩)
      · exact hadd.elim (by simp [hhas]) fun hnot => hnot h
      · exact not_held_of_not_hasIP hhas h

theorem podCallBackFn_deleted :
    (m.podCallBackFn c ⟨.podDeleted,.endpoint pod⟩).Orderly ∧
    (∀ ip', ip' ≠ ip → ((m.podCallBackFn c ⟨.podDeleted,.endpoint pod⟩).WillHold ip' ↔ m.WillHold ip')) ∧
    (c.getPodByIP ip = none → ¬(m.podCallBackFn c ⟨.podDeleted,.endpoint pod⟩).WillHold ip) ∧
    (c.getPodByIP ip ≠ none → m.podCallBackFn c ⟨.podDeleted,.endpoint pod⟩ = m) := by
  cases hget : c.getPodByIP ip with
  | none =>
    have heq : m.podCallBackFn c ⟨.podDeleted,.endpoint pod⟩ =
        { m with dirtyPods := m.dirtyPods.markToDelete ip (m.podCacheEntry pod ip) } := by
      have hneg : ¬(pod.name = apiServerEndpointName ∧ pod.ns = apiServerEndpointName) := hpod
      simp only [podCallBackFn, hip, handlePodEvent, if_neg hneg, podCacheEntry]
      simp [hget]
    rw [heq]
    refine ⟨hm.markToDelete rfl,?_,?_,by simp⟩
    · intro ip' hne
      simp [willHold_markToDelete, hne]
    · simp [willHold_markToDelete]
  | some q =>
    have heq : m.podCallBackFn c ⟨.podDeleted,.endpoint pod⟩ = m := by
      simp [podCallBackFn, hip, handlePodEvent, hget]
    rw [heq]
    exact ⟨hm,fun _ _ => Iff.rfl,by simp,fun _ => rfl⟩

end

end Module

/-! ## What a tick changes -/

theorem mem_map_ip_filterMap {dirty : Finmap (fun _ : NetIP => DirtyCachePod)} (order : FiniteMap.Order NetIP)
    (hdirty : ∀ ip entry, dirty.lookup ip = some entry → entry.ip = ip) (p : DirtyCachePod → Bool) (ip : NetIP) :
    ip ∈ (((order.list dirty.keys).filterMap fun key => dirty.lookup key).filter p).map (·.ip) ↔
      ∃ entry, dirty.lookup ip = some entry ∧ p entry = true := by
  simp only [List.mem_map, List.mem_filter, List.mem_filterMap, order.mem_list, Finmap.mem_keys]
  constructor
  · rintro ⟨entry,⟨⟨key,-,hkey⟩,hp⟩,rfl⟩
    exact ⟨entry,by rw [hdirty key entry hkey, hkey],hp⟩
  · rintro ⟨entry,hentry,hp⟩
    exact ⟨entry,⟨⟨ip,Finmap.mem_of_lookup_eq_some hentry,hentry⟩,hp⟩,hdirty ip entry hentry⟩

namespace Module
variable {m : Module} {env : Surroundings}

/-- The module asks the filter manager only if the list is not empty, which makes no difference. -/
theorem addIPs_if_spec (hm : m.filterManager.Working) (henv : Accepts env.answers) {ips : List NetIP}
    (hips : ∀ ip ∈ ips, isIPV4 ip = true) (md : RequestMetadata) :
    (if ips.length > 0 then m.addIPs env ips md else m).filterManager.Working ∧
      ∀ ip' md', (if ips.length > 0 then m.addIPs env ips md else m).Requested ip' md' ↔
        m.Requested ip' md' ∨ ip' ∈ ips ∧ md' = md := by
  cases ips with
  | nil => exact ⟨hm,by simp⟩
  | cons ip ips =>
    rw [if_pos (by simp)]
    exact addIPs_spec hm henv hips md

theorem dirtyPods_addIPs_if (ips : List NetIP) (md : RequestMetadata) :
    (if ips.length > 0 then m.addIPs env ips md else m).dirtyPods = m.dirtyPods := by
  split <;> rfl

/-- The tick asks for the entries with a reason, and the kernel can hold all of them. -/
def DueIPv4 (m : Module) : Prop := ∀ ip entry, m.dirtyPods.toAdd.lookup ip = some entry →
  entry.annotated = true ∨ entry.namespaced = true → isIPV4 ip = true

theorem Orderly.dueIPv4 (hm : m.Orderly) : m.DueIPv4 := fun ip entry h _ => (hm.toAdd ip entry h).2.1

theorem applyDirtyPodsAdd_spec (hm : m.filterManager.Working) (henv : Accepts env.answers)
    (hmarks : m.dirtyPods.WellFormed) (hdue : m.DueIPv4) :
    (m.applyDirtyPodsAdd env).filterManager.Working ∧
      (m.applyDirtyPodsAdd env).dirtyPods = { m.dirtyPods with toAdd := ∅ } ∧
      ∀ ip md, (m.applyDirtyPodsAdd env).Requested ip md ↔ m.Requested ip md ∨
        ∃ entry, m.dirtyPods.toAdd.lookup ip = some entry ∧
          (md = modulePodReqMetadata ∧ entry.annotated = true ∨ md = moduleReqMetadata ∧ entry.namespaced = true) := by
  have hmem := mem_map_ip_filterMap env.ipOrder hmarks.toAdd
  have hv4 : ∀ p : DirtyCachePod → Bool, (∀ entry, p entry = true → entry.annotated = true ∨ entry.namespaced = true) →
      ∀ ip ∈ (((env.ipOrder.list m.dirtyPods.toAdd.keys).filterMap
        fun key => m.dirtyPods.toAdd.lookup key).filter p).map (·.ip), isIPV4 ip = true := by
    intro p hp ip hip
    obtain ⟨entry,hentry,hentryp⟩ := (hmem p ip).mp hip
    exact hdue ip entry hentry (hp entry hentryp)
  obtain ⟨hworking₁,hreq₁⟩ := addIPs_if_spec hm henv (hv4 (·.annotated) fun _ => .inl) modulePodReqMetadata
  obtain ⟨hworking₂,hreq₂⟩ := addIPs_if_spec hworking₁ henv (hv4 (·.namespaced) fun _ => .inr) moduleReqMetadata
  refine ⟨hworking₂,?_,?_⟩
  · simp only [applyDirtyPodsAdd, dirtyPods_addIPs_if]
  · intro ip md
    apply (hreq₂ ip md).trans
    rw [hreq₁, hmem, hmem]
    constructor
    · rintro ((h | ⟨⟨entry,hentry,ha⟩,hmd⟩) | ⟨⟨entry,hentry,hn⟩,hmd⟩)
      · exact .inl h
      · exact .inr ⟨entry,hentry,.inl ⟨hmd,ha⟩⟩
      · exact .inr ⟨entry,hentry,.inr ⟨hmd,hn⟩⟩
    · rintro (h | ⟨entry,hentry,⟨hmd,ha⟩ | ⟨hmd,hn⟩⟩)
      · exact .inl (.inl h)
      · exact .inl (.inr ⟨⟨entry,hentry,ha⟩,hmd⟩)
      · exact .inr ⟨⟨entry,hentry,hn⟩,hmd⟩

theorem applyDirtyPodsDelete_spec (hm : m.filterManager.Working) (henv : Accepts env.answers)
    (hdelete : ∀ ip entry, m.dirtyPods.toDelete.lookup ip = some entry → entry.ip = ip) :
    (m.applyDirtyPodsDelete env).filterManager.Working ∧
      (m.applyDirtyPodsDelete env).dirtyPods = { m.dirtyPods with toDelete := ∅ } ∧
      ∀ ip md, (m.applyDirtyPodsDelete env).Requested ip md ↔ m.Requested ip md ∧
        ¬(ip ∈ m.dirtyPods.toDelete ∧ (md = modulePodReqMetadata ∨ md = moduleReqMetadata)) := by
  have hmem : ∀ ip, ip ∈ (m.dirtyPods.getDeleteList env.ipOrder).map (·.ip) ↔ ip ∈ m.dirtyPods.toDelete := by
    intro ip
    have h := mem_map_ip_filterMap env.ipOrder hdelete (fun _ => true) ip
    rw [List.filter_true] at h
    apply h.trans
    rw [Finmap.mem_iff]
    simp
  by_cases hnil : (m.dirtyPods.getDeleteList env.ipOrder).map (·.ip) = []
  · have hnone : ∀ ip, ip ∉ m.dirtyPods.toDelete := by
      intro ip hip
      rw [← hmem, hnil] at hip
      cases hip
    simp only [applyDirtyPodsDelete, hnil, List.length_nil, gt_iff_lt, lt_self_iff_false, if_false]
    refine ⟨hm,trivial,?_⟩
    intro ip md
    simp only [hnone ip, false_and, not_false_eq_true, and_true]
    rfl
  · obtain ⟨hworking₁,hreq₁⟩ := deleteIPs_spec hm henv ((m.dirtyPods.getDeleteList env.ipOrder).map (·.ip))
      modulePodReqMetadata
    obtain ⟨hworking₂,hreq₂⟩ := deleteIPs_spec hworking₁ henv ((m.dirtyPods.getDeleteList env.ipOrder).map (·.ip))
      moduleReqMetadata
    simp only [applyDirtyPodsDelete, gt_iff_lt, List.length_pos_iff.mpr hnil, if_true]
    refine ⟨hworking₂,rfl,?_⟩
    intro ip md
    apply (hreq₂ ip md).trans
    rw [hreq₁, hmem]
    tauto

theorem applyDirtyPods_requested (hm : m.filterManager.Working) (henv : Accepts env.answers)
    (hmarks : m.dirtyPods.WellFormed) (hdue : m.DueIPv4) :
    (m.applyDirtyPods env).filterManager.Working ∧ (m.applyDirtyPods env).dirtyPods = {} ∧
    ∀ ip md, (m.applyDirtyPods env).Requested ip md ↔ (m.Requested ip md ∨
      ∃ entry, m.dirtyPods.toAdd.lookup ip = some entry ∧
        (md = modulePodReqMetadata ∧ entry.annotated = true ∨ md = moduleReqMetadata ∧ entry.namespaced = true)) ∧
      ¬(ip ∈ m.dirtyPods.toDelete ∧ (md = modulePodReqMetadata ∨ md = moduleReqMetadata)) := by
  obtain ⟨hworking₁,hdirty₁,hreq₁⟩ := applyDirtyPodsAdd_spec hm henv hmarks hdue
  have htoDelete : (m.applyDirtyPodsAdd env).dirtyPods.toDelete = m.dirtyPods.toDelete := by rw [hdirty₁]
  obtain ⟨hworking₂,hdirty₂,hreq₂⟩ := applyDirtyPodsDelete_spec hworking₁ henv fun ip entry h =>
    hmarks.toDelete ip entry (htoDelete ▸ h)
  refine ⟨hworking₂,by rw [applyDirtyPods, hdirty₂, hdirty₁],?_⟩
  intro ip md
  rw [applyDirtyPods, hreq₂, hreq₁, htoDelete]

theorem applyDirtyPods_spec (hm : m.Orderly) (henv : Accepts env.answers) :
    (m.applyDirtyPods env).Orderly ∧ (m.applyDirtyPods env).dirtyPods = {} ∧
      ∀ ip, (m.applyDirtyPods env).Held ip ↔ m.WillHold ip := by
  obtain ⟨hworking,hdirty,hreq⟩ := applyDirtyPods_requested hm.working henv hm.wellFormed hm.dueIPv4
  have hkinds : ∀ ip md, (m.applyDirtyPods env).Requested ip md →
      md = modulePodReqMetadata ∨ md = moduleReqMetadata := by
    intro ip md h
    rcases ((hreq ip md).mp h).1 with h | ⟨entry,-,⟨hmd,-⟩ | ⟨hmd,-⟩⟩
    · exact hm.kinds ip md h
    · exact .inl hmd
    · exact .inr hmd
  refine ⟨⟨hworking,?_,?_,?_,hkinds⟩,hdirty,?_⟩
  · simp [hdirty]
  · simp [hdirty]
  · intro ip hip
    rw [hdirty] at hip
    exact absurd hip (Finmap.notMem_empty)
  · intro ip
    constructor
    · rintro ⟨md,hmd⟩
      obtain ⟨hadd,hnot⟩ := (hreq ip md).mp hmd
      rcases hadd with h | ⟨entry,hentry,-⟩
      · exact .inr ⟨fun hin => hnot ⟨hin,hm.kinds ip md h⟩,md,h⟩
      · exact .inl (Finmap.mem_of_lookup_eq_some hentry)
    · rintro (hin | ⟨hnot,md,h⟩)
      · obtain ⟨entry,hentry⟩ := Finmap.mem_iff.mp hin
        have hnot := hm.apart ip hin
        rcases (hm.toAdd ip entry hentry).2.2 with ha | hn
        · exact ⟨modulePodReqMetadata,(hreq ip _).mpr ⟨.inr ⟨entry,hentry,.inl ⟨rfl,ha⟩⟩,fun h => hnot h.1⟩⟩
        · exact ⟨moduleReqMetadata,(hreq ip _).mpr ⟨.inr ⟨entry,hentry,.inr ⟨rfl,hn⟩⟩,fun h => hnot h.1⟩⟩
      · exact ⟨md,(hreq ip md).mpr ⟨.inl h,fun h => hnot h.1⟩⟩

theorem applyDirtyPods_frame (m : Module) (env : Surroundings) : m.applyDirtyPods env =
    { m with
      filterManager := (m.applyDirtyPods env).filterManager
      dirtyPods := (m.applyDirtyPods env).dirtyPods } := by
  simp only [applyDirtyPods, applyDirtyPodsDelete, applyDirtyPodsAdd]
  split <;> split <;> split <;> rfl

theorem applyDirtyPods_clean (h : m.dirtyPods = {}) (env : Surroundings) : m.applyDirtyPods env = m := by
  have hadd : m.dirtyPods.getAddList env.ipOrder = [] := by simp [DirtyCache.getAddList, h]
  have hclear : m.applyDirtyPodsAdd env = m := by
    simp only [applyDirtyPodsAdd, hadd, List.filter_nil, List.map_nil, List.length_nil, gt_iff_lt, lt_irrefl, if_false]
    rw [h, ← h]
  have hdelete : m.dirtyPods.getDeleteList env.ipOrder = [] := by simp [DirtyCache.getDeleteList, h]
  rw [applyDirtyPods, hclear]
  simp only [applyDirtyPodsDelete, hdelete, List.map_nil, List.length_nil, gt_iff_lt, lt_irrefl, if_false]
  rw [h, ← h]

end Module

end Retina.Metrics
