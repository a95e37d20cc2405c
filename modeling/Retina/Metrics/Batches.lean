import Retina.Metrics.Tracking

/-! # Batches of pods

A tick hands all pending additions with one reason to the filter manager at once. The
kernel map computes the keys of a batch before it writes the first of them, so that an
address without a key takes the others with it. The pending additions are dropped in any case.
-/
namespace Retina.Metrics
open Cache (NetIP isIPV4)
open Retina.Filter

def DirtyCachePod.Due (entry : DirtyCachePod) (md : RequestMetadata) : Prop :=
  md = modulePodReqMetadata ∧ entry.annotated = true ∨ md = moduleReqMetadata ∧ entry.namespaced = true

namespace Module

/-- The tick that leads to `m'` adds every pod that the kernel can hold, and keeps what it could not add. -/
structure Served (m m' : Module) : Prop where
  present : ∀ ip entry, m.dirtyPods.toAdd.lookup ip = some entry → isIPV4 ip = true →
    entry.annotated = true ∨ entry.namespaced = true →
    m'.filterManager.hasIP ip = true ∧ ∃ key ∈ m'.filterManager.fm.kfm, mapKey ip = .ok key
  pending : ∀ ip entry md, m.dirtyPods.toAdd.lookup ip = some entry → entry.Due md → ¬m'.Requested ip md →
    m'.dirtyPods.toAdd.lookup ip = some entry

variable {m : Module} {env : Surroundings} {ip : NetIP}

theorem hasIP_of_requested {md : RequestMetadata} (h : m.Requested ip md) : m.filterManager.hasIP ip = true :=
  (FilterCache.hasKey_iff m.filterManager.c ip).mpr ⟨metricModuleReq,md,h⟩

theorem exists_due {entry : DirtyCachePod} :
    (entry.annotated = true ∨ entry.namespaced = true) ↔ ∃ md, entry.Due md := by
  simp [DirtyCachePod.Due, exists_or]

/-- The pending additions do not survive a tick. -/
theorem toAdd_applyDirtyPods (m : Module) (env : Surroundings) : (m.applyDirtyPods env).dirtyPods.toAdd = ∅ := by
  simp only [applyDirtyPods, applyDirtyPodsDelete]
  split
  · rfl
  · rfl

/-! ## Batches with an address that the kernel cannot hold -/

theorem not_hasIP_iff : m.filterManager.hasIP ip = false ↔ ∀ r md, ¬m.filterManager.c.Holds ip r md := by
  rw [← Bool.not_eq_true, FilterManager.hasIP, FilterCache.hasKey_iff]
  simp

/-- If the address is pending for the reason, then an address without a key is pending for it as well. -/
def Blocked (m : Module) (ip : NetIP) (reason : DirtyCachePod → Bool) : Prop :=
  (∃ entry, m.dirtyPods.toAdd.lookup ip = some entry ∧ reason entry = true) →
    ∃ ip' entry, m.dirtyPods.toAdd.lookup ip' = some entry ∧ reason entry = true ∧ isIPV4 ip' = false

theorem Blocked.batch {reason : DirtyCachePod → Bool} (h : m.Blocked ip reason) (hmarks : m.dirtyPods.WellFormed)
    (env : Surroundings) (hin : ip ∈ ((m.dirtyPods.getAddList env.ipOrder).filter reason).map (·.ip)) :
    ∃ ip' ∈ ((m.dirtyPods.getAddList env.ipOrder).filter reason).map (·.ip), isIPV4 ip' = false := by
  have hmem := mem_map_ip_filterMap env.ipOrder hmarks.toAdd reason
  obtain ⟨ip',entry,hentry,hreason,hv6⟩ := h ((hmem ip).mp hin)
  exact ⟨ip',(hmem ip').mpr ⟨entry,hentry,hreason⟩,hv6⟩

section
variable (hm : m.filterManager.Working) (henv : Accepts env.answers)
include hm henv

theorem working_addIPs_if (ips : List NetIP) (md : RequestMetadata) :
    (if ips.length > 0 then m.addIPs env ips md else m).filterManager.Working := by
  split
  · exact hm.addIPs henv metricModuleReq md ips
  · exact hm

theorem working_applyDirtyPodsAdd : (m.applyDirtyPodsAdd env).filterManager.Working :=
  working_addIPs_if (working_addIPs_if hm henv _ _) henv _ _

theorem working_applyDirtyPods : (m.applyDirtyPods env).filterManager.Working := by
  have hadd := working_applyDirtyPodsAdd hm henv
  simp only [applyDirtyPods, applyDirtyPodsDelete]
  split
  · exact (deleteIPs_spec (deleteIPs_spec hadd henv _ _).1 henv _ _).1
  · exact hadd

/-- An unknown address stays unknown if its batch has an address that the kernel cannot hold. -/
theorem unknown_addIPs_if {ips : List NetIP} (md : RequestMetadata)
    (hips : ip ∈ ips → ∃ ip' ∈ ips, isIPV4 ip' = false) (hunknown : m.filterManager.hasIP ip = false) :
    (if ips.length > 0 then m.addIPs env ips md else m).filterManager.hasIP ip = false := by
  split
  · apply not_hasIP_iff.mpr
    intro r md' h
    have hno := not_hasIP_iff.mp hunknown r md'
    by_cases hall : ∀ ip' ∈ ips, isIPV4 ip' = true
    · obtain h | ⟨hin,-⟩ := ((hm.addIPs_spec henv metricModuleReq md hall).2.2 ip r md').mp h
      · exact hno h
      · obtain ⟨ip',hin',hv6⟩ := hips hin
        simp [hall ip' hin'] at hv6
    · obtain h | ⟨-,hkey,-⟩ := ((hm.addIPs_of_not_all henv metricModuleReq md hall).2.2 ip r md').mp h
      · exact hno h
      · exact absurd (hkey.symm.trans hunknown) (by decide)
  · exact hunknown

theorem unknown_deleteIPs (ips : List NetIP) (md : RequestMetadata) (hunknown : m.filterManager.hasIP ip = false) :
    (m.deleteIPs env ips md).filterManager.hasIP ip = false := by
  apply not_hasIP_iff.mpr
  intro r md' h
  exact not_hasIP_iff.mp hunknown r md' (((hm.deleteIPs_spec henv metricModuleReq md ips).2.2 ip r md').mp h).1

/-- A tick does not make an address known if both batches with it are blocked. -/
theorem unknown_applyDirtyPods (hmarks : m.dirtyPods.WellFormed) (hunknown : m.filterManager.hasIP ip = false)
    (hannotated : m.Blocked ip (·.annotated)) (hnamespaced : m.Blocked ip (·.namespaced)) :
    (m.applyDirtyPods env).filterManager.hasIP ip = false := by
  have hadd := unknown_addIPs_if (working_addIPs_if hm henv _ _) henv moduleReqMetadata
    (hnamespaced.batch hmarks env) (unknown_addIPs_if hm henv modulePodReqMetadata (hannotated.batch hmarks env) hunknown)
  have hworking := working_applyDirtyPodsAdd hm henv
  simp only [applyDirtyPods, applyDirtyPodsDelete]
  split
  · exact unknown_deleteIPs (deleteIPs_spec hworking henv _ _).1 henv _ _ (unknown_deleteIPs hworking henv _ _ hadd)
  · exact hadd

end

end Module

/-- A tick serves its pending additions exactly if the kernel can hold all that it asks for. -/
theorem batch_served_iff (m : Module) (hm : m.filterManager.Working) (hmarks : m.dirtyPods.WellFormed)
    (env : Surroundings) (henv : Accepts env.answers) :
    m.Served (m.applyDirtyPods env) ↔
      ∀ ip entry, m.dirtyPods.toAdd.lookup ip = some entry → entry.annotated = true ∨ entry.namespaced = true →
        isIPV4 ip = true := by
  constructor
  · intro hserved ip entry hentry hof
    obtain ⟨md,hmd⟩ := Module.exists_due.mp hof
    by_cases hreq : (m.applyDirtyPods env).Requested ip md
    · obtain ⟨key,-,hkey⟩ :=
        (Module.working_applyDirtyPods hm henv).mirrors.cached ip (Module.hasIP_of_requested hreq)
      exact FilterManager.isIPV4_of_mapKey hkey
    · have hlookup := hserved.pending ip entry md hentry hmd hreq
      rw [Module.toAdd_applyDirtyPods, Finmap.lookup_empty] at hlookup
      cases hlookup
  · intro hdue
    obtain ⟨hworking,-,hreq⟩ := Module.applyDirtyPods_requested hm henv hmarks hdue
    have hheld : ∀ ip entry md, m.dirtyPods.toAdd.lookup ip = some entry → entry.Due md →
        (m.applyDirtyPods env).Requested ip md := by
      intro ip entry md hentry hmd
      have hnot := hmarks.apart ip (Finmap.mem_of_lookup_eq_some hentry)
      exact (hreq ip md).mpr ⟨.inr ⟨entry,hentry,hmd⟩,fun h => hnot h.1⟩
    constructor
    · intro ip entry hentry _ hof
      obtain ⟨md,hmd⟩ := Module.exists_due.mp hof
      have hhas := Module.hasIP_of_requested (hheld ip entry md hentry hmd)
      exact ⟨hhas,hworking.mirrors.cached ip hhas⟩
    · intro ip entry md hentry hmd hnot
      exact absurd (hheld ip entry md hentry hmd) hnot

section Sample

def otherIP : NetIP := .v6 1

def markedModule (ips : List NetIP) : Module :=
  { includingModule with
    dirtyPods := ips.foldl (fun d ip => d.markToAdd ip ⟨ip,false,true⟩) {} }

theorem wellFormed_markedModule (ips : List NetIP) : (markedModule ips).dirtyPods.WellFormed := by
  induction ips using List.reverseRecOn with
  | nil => exact DirtyCache.wellFormed_empty
  | append_singleton ips ip ih =>
    simp only [markedModule, List.foldl_append]
    exact ih.markToAdd rfl

end Sample

/-- The pod with an IPv4 address is neither added nor pending, because of the other pod. -/
theorem batch_lost :
    isIPV4 sampleIP = true ∧
    (markedModule [sampleIP,otherIP]).dirtyPods.toAdd.lookup sampleIP = some ⟨sampleIP,false,true⟩ ∧
    ((markedModule [sampleIP,otherIP]).applyDirtyPods sampleEnv).filterManager.hasIP sampleIP = false ∧
    ((markedModule [sampleIP,otherIP]).applyDirtyPods sampleEnv).dirtyPods.toAdd.lookup sampleIP = none := by
  refine ⟨rfl,rfl,?_,?_⟩
  · refine Module.unknown_applyDirtyPods idle_includingModule.working accepts_sampleEnv (wellFormed_markedModule _) rfl
      ?_ fun _ => ⟨otherIP,⟨otherIP,false,true⟩,rfl,rfl,rfl⟩
    intro ⟨entry,hentry,hannotated⟩
    cases hentry
    cases hannotated
  · rw [Module.toAdd_applyDirtyPods, Finmap.lookup_empty]

theorem batch_served_alone :
    ((markedModule [sampleIP,.v4 10 0 0 2]).applyDirtyPods sampleEnv).filterManager.hasIP sampleIP = true := by
  have hserved := (batch_served_iff (markedModule [sampleIP,.v4 10 0 0 2]) idle_includingModule.working
    (wellFormed_markedModule _) sampleEnv accepts_sampleEnv).mpr ?_
  · exact (hserved.present sampleIP ⟨sampleIP,false,true⟩ rfl rfl (.inr rfl)).1
  · intro ip entry hentry _
    simp only [markedModule, List.foldl_cons, List.foldl_nil, DirtyCache.markToAdd, FiniteMap.lookup_insert_eq_ite,
      Finmap.lookup_empty] at hentry
    split_ifs at hentry with h₁ h₂
    · exact h₁ ▸ rfl
    · exact h₂ ▸ rfl

end Retina.Metrics
