import Retina.Cache.Namespaces
import Retina.Filter.Working

/-! # The metrics module and its namespaces

`pkg/module/metrics/metrics_module.go`. The module asks the filter manager for the
addresses of pods. An error of the filter manager is logged and dropped. The sets of
namespaces are maps in the source, a nil map reads like an empty one.
-/
namespace Retina.Metrics
open Cache (NetIP isIPV4)
open Retina.Filter

def metricModuleReq : Requestor := "metricModule"
def moduleReqMetadata : RequestMetadata := ⟨"namespace"⟩
def modulePodReqMetadata : RequestMetadata := ⟨"pod"⟩

structure MetricsSpec where
  nsInclude : List String := []
  nsExclude : List String := []
deriving DecidableEq

structure DirtyCachePod where
  ip : NetIP
  annotated : Bool
  namespaced : Bool
deriving DecidableEq

structure DirtyCache where
  toAdd : Finmap (fun _ : NetIP => DirtyCachePod) := ∅
  toDelete : Finmap (fun _ : NetIP => DirtyCachePod) := ∅

/-- The flag `enableAnnotations` is the one of the daemon configuration. -/
structure Module where
  enableAnnotations : Bool := false
  includedNamespaces : Finset String := ∅
  excludedNamespaces : Finset String := ∅
  filterManager : FilterManager
  dirtyPods : DirtyCache := {}

/-- What the surroundings choose during a call: the orders of the iterations over maps and the answers of the kernel. -/
structure Surroundings where
  order : FiniteMap.Order String
  ipOrder : FiniteMap.Order NetIP
  answers : ℕ → KernelAnswer

def MetricsSpec.OneList (spec : MetricsSpec) : Prop := spec.nsInclude = [] ∨ spec.nsExclude = []

def interesting (included excluded : Finset String) (ns : String) : Bool :=
  if included.card > 0 then ns ∈ included
  else if excluded.card > 0 then ns ∉ excluded
  else false

def MetricsSpec.nsOfInterest (spec : MetricsSpec) (ns : String) : Bool :=
  interesting spec.nsInclude.toFinset spec.nsExclude.toFinset ns

namespace Module

def nsOfInterest (m : Module) (ns : String) : Bool := interesting m.includedNamespaces m.excludedNamespaces ns

def addIPs (m : Module) (env : Surroundings) (ips : List NetIP) (md : RequestMetadata) : Module :=
  { m with filterManager := (m.filterManager.addIPs ips metricModuleReq md env.answers).1 }

def deleteIPs (m : Module) (env : Surroundings) (ips : List NetIP) (md : RequestMetadata) : Module :=
  { m with filterManager := (m.filterManager.deleteIPs ips metricModuleReq md env.answers).1 }

/-- The loops of the list functions that add the addresses of some namespaces. -/
def addNamespaces (m : Module) (env : Surroundings) (c : Cache) (namespaces : List String) : Module :=
  namespaces.foldl (fun m ns => m.addIPs env (c.getIPsByNamespace env.order ns) moduleReqMetadata) m

def deleteNamespaces (m : Module) (env : Surroundings) (c : Cache) (namespaces : List String) : Module :=
  namespaces.foldl (fun m ns => m.deleteIPs env (c.getIPsByNamespace env.order ns) moduleReqMetadata) m

def appendIncludeList (m : Module) (env : Surroundings) (c : Cache) (namespaces : List String) : Module :=
  let tempNewNs := namespaces.toFinset
  let toAdd := namespaces.filter (· ∉ m.includedNamespaces)
  let toRemove := (env.order.list m.includedNamespaces).filter (· ∉ tempNewNs)
  let kept := m.includedNamespaces.filter (· ∈ tempNewNs)
  let included := if kept.card ≠ tempNewNs.card then tempNewNs else kept
  (addNamespaces { m with includedNamespaces := included } env c toAdd).deleteNamespaces env c toRemove

def appendExcludeList (m : Module) (env : Surroundings) (c : Cache) (ns : List String) : Module :=
  let tempNewNs := ns.toFinset
  let newlyExcluded := ns.filter (· ∉ m.excludedNamespaces)
  let newlyUnexcluded := (env.order.list m.excludedNamespaces).filter (· ∉ tempNewNs)
  let m := { m with excludedNamespaces := tempNewNs }
  let m := (m.deleteNamespaces env c newlyExcluded).addNamespaces env c newlyUnexcluded
  if newlyExcluded.length > 0 ∧ newlyUnexcluded.length = 0 ∧ newlyExcluded.length = ns.length then
    m.addNamespaces env c ((c.getAllNamespaces env.order).filter (· ∉ tempNewNs))
  else m

def updateNamespaceLists (m : Module) (env : Surroundings) (c : Cache) (spec : MetricsSpec) : Module :=
  if spec.nsInclude.length > 0 ∧ spec.nsExclude.length > 0 then m
  else if spec.nsInclude.length > 0 then
    (m.appendExcludeList env c []).appendIncludeList env c spec.nsInclude
  else if spec.nsExclude.length > 0 then
    (m.appendIncludeList env c []).appendExcludeList env c spec.nsExclude
  else (m.appendIncludeList env c []).appendExcludeList env c []

def Requested (m : Module) (ip : NetIP) (md : RequestMetadata) : Prop := m.filterManager.c.Holds ip metricModuleReq md

end Module

/-! ## What the list functions do to the requests -/

def AllIPv4 (c : Cache) : Prop := ∀ ep ip, c.PodAt ep ip → isIPV4 ip = true

namespace Module
variable {m : Module} {env : Surroundings} {c : Cache}

theorem addNamespaces_frame (namespaces : List String) : m.addNamespaces env c namespaces =
    { m with filterManager := (m.addNamespaces env c namespaces).filterManager } := by
  induction namespaces generalizing m with
  | nil => rfl
  | cons ns namespaces ih => exact ih

theorem deleteNamespaces_frame (namespaces : List String) : m.deleteNamespaces env c namespaces =
    { m with filterManager := (m.deleteNamespaces env c namespaces).filterManager } := by
  induction namespaces generalizing m with
  | nil => rfl
  | cons ns namespaces ih => exact ih

section Requests
variable (hm : m.filterManager.Working) (henv : Accepts env.answers)
include hm henv

theorem addIPs_spec {ips : List NetIP} (hips : ∀ ip ∈ ips, isIPV4 ip = true) (md : RequestMetadata) :
    (m.addIPs env ips md).filterManager.Working ∧
      ∀ ip' md', (m.addIPs env ips md).Requested ip' md' ↔ m.Requested ip' md' ∨ ip' ∈ ips ∧ md' = md := by
  obtain ⟨-,hworking,hholds⟩ := hm.addIPs_spec henv metricModuleReq md hips
  refine ⟨hworking,?_⟩
  intro ip' md'
  have h := hholds ip' metricModuleReq md'
  simp only [true_and] at h
  exact h

theorem deleteIPs_spec (ips : List NetIP) (md : RequestMetadata) :
    (m.deleteIPs env ips md).filterManager.Working ∧
      ∀ ip' md', (m.deleteIPs env ips md).Requested ip' md' ↔ m.Requested ip' md' ∧ ¬(ip' ∈ ips ∧ md' = md) := by
  obtain ⟨-,hworking,hholds⟩ := hm.deleteIPs_spec henv metricModuleReq md ips
  refine ⟨hworking,?_⟩
  intro ip' md'
  have h := hholds ip' metricModuleReq md'
  simp only [true_and] at h
  exact h

theorem addNamespaces_spec (hc : AllIPv4 c) (namespaces : List String) :
    (m.addNamespaces env c namespaces).filterManager.Working ∧
      ∀ ip md, (m.addNamespaces env c namespaces).Requested ip md ↔
        m.Requested ip md ∨ (∃ ep, c.PodAt ep ip ∧ ep.ns ∈ namespaces) ∧ md = moduleReqMetadata := by
  induction namespaces generalizing m with
  | nil => exact ⟨hm,by simp [addNamespaces]⟩
  | cons ns namespaces ih =>
    have hips : ∀ ip ∈ c.getIPsByNamespace env.order ns, isIPV4 ip = true := by
      intro ip hip
      obtain ⟨ep,hpod,-⟩ := (c.mem_getIPsByNamespace env.order ns ip).mp hip
      exact hc ep ip hpod
    obtain ⟨hworking,hadd⟩ := addIPs_spec hm henv hips moduleReqMetadata
    obtain ⟨hworking,hrest⟩ := ih hworking
    refine ⟨hworking,?_⟩
    intro ip md
    apply (hrest ip md).trans
    simp only [hadd, Cache.mem_getIPsByNamespace, List.mem_cons]
    constructor
    · rintro ((h | ⟨⟨ep,hpod,hns⟩,hmd⟩) | ⟨⟨ep,hpod,hns⟩,hmd⟩)
      · exact .inl h
      · exact .inr ⟨⟨ep,hpod,.inl hns⟩,hmd⟩
      · exact .inr ⟨⟨ep,hpod,.inr hns⟩,hmd⟩
    · rintro (h | ⟨⟨ep,hpod,hns | hns⟩,hmd⟩)
      · exact .inl (.inl h)
      · exact .inl (.inr ⟨⟨ep,hpod,hns⟩,hmd⟩)
      · exact .inr ⟨⟨ep,hpod,hns⟩,hmd⟩

theorem deleteNamespaces_spec (namespaces : List String) :
    (m.deleteNamespaces env c namespaces).filterManager.Working ∧
      ∀ ip md, (m.deleteNamespaces env c namespaces).Requested ip md ↔
        m.Requested ip md ∧ ¬((∃ ep, c.PodAt ep ip ∧ ep.ns ∈ namespaces) ∧ md = moduleReqMetadata) := by
  induction namespaces generalizing m with
  | nil => exact ⟨hm,by simp [deleteNamespaces]⟩
  | cons ns namespaces ih =>
    obtain ⟨hworking,hdel⟩ := deleteIPs_spec hm henv (c.getIPsByNamespace env.order ns) moduleReqMetadata
    obtain ⟨hworking,hrest⟩ := ih hworking
    refine ⟨hworking,?_⟩
    intro ip md
    apply (hrest ip md).trans
    simp only [hdel, Cache.mem_getIPsByNamespace, List.mem_cons]
    constructor
    · rintro ⟨⟨h,hnot⟩,hnot'⟩
      refine ⟨h,?_⟩
      rintro ⟨⟨ep,hpod,hns | hns⟩,hmd⟩
      · exact hnot ⟨⟨ep,hpod,hns⟩,hmd⟩
      · exact hnot' ⟨⟨ep,hpod,hns⟩,hmd⟩
    · rintro ⟨h,hnot⟩
      refine ⟨⟨h,?_⟩,?_⟩
      · rintro ⟨⟨ep,hpod,hns⟩,hmd⟩
        exact hnot ⟨⟨ep,hpod,.inl hns⟩,hmd⟩
      · rintro ⟨⟨ep,hpod,hns⟩,hmd⟩
        exact hnot ⟨⟨ep,hpod,.inr hns⟩,hmd⟩

end Requests

/-- The condition under which `appendExcludeList` takes itself to enter the exclude mode. -/
theorem enters_exclude_mode_iff (excluded : Finset String) (order : FiniteMap.Order String) (ns : List String) :
    ((ns.filter (· ∉ excluded)).length > 0 ∧ ((order.list excluded).filter (· ∉ ns.toFinset)).length = 0 ∧
      (ns.filter (· ∉ excluded)).length = ns.length) ↔ ns ≠ [] ∧ excluded = ∅ := by
  constructor
  · rintro ⟨hsome,hnone,hall⟩
    refine ⟨?_,?_⟩
    · rintro rfl
      simp at hsome
    · rw [Finset.eq_empty_iff_forall_notMem]
      intro n hn
      have hold : n ∈ ns := by
        by_contra hnot
        have hmem : n ∈ (order.list excluded).filter (· ∉ ns.toFinset) := by simp [order.mem_list, hn, hnot]
        exact absurd hnone (List.length_pos_of_mem hmem).ne'
      simpa [hn] using List.length_filter_eq_length_iff.mp hall n hold
  · rintro ⟨hne,rfl⟩
    simp [List.length_pos_iff, hne]

/-- The replacement of the map by one of another size makes no difference. -/
theorem kept_eq (included : Finset String) (namespaces : List String) :
    (if (included.filter (· ∈ namespaces.toFinset)).card ≠ namespaces.toFinset.card then namespaces.toFinset
      else included.filter (· ∈ namespaces.toFinset)) = namespaces.toFinset := by
  split
  · rfl
  · next h =>
    apply Finset.eq_of_subset_of_card_le
    · intro ns hns
      exact (Finset.mem_filter.mp hns).2
    · exact (not_not.mp h).ge

theorem appendIncludeList_frame (namespaces : List String) : m.appendIncludeList env c namespaces =
    { m with
      includedNamespaces := namespaces.toFinset
      filterManager := (m.appendIncludeList env c namespaces).filterManager } := by
  simp only [appendIncludeList, kept_eq]
  exact (deleteNamespaces_frame _).trans (by rw [addNamespaces_frame])

theorem appendExcludeList_frame (ns : List String) : m.appendExcludeList env c ns =
    { m with
      excludedNamespaces := ns.toFinset
      filterManager := (m.appendExcludeList env c ns).filterManager } := by
  simp only [appendExcludeList]
  split
  · exact (addNamespaces_frame _).trans (by rw [addNamespaces_frame, deleteNamespaces_frame])
  · exact (addNamespaces_frame _).trans (by rw [deleteNamespaces_frame])

section Lists
variable (hm : m.filterManager.Working) (henv : Accepts env.answers) (hc : AllIPv4 c)
include hm henv hc

theorem appendIncludeList_spec (namespaces : List String) :
    (m.appendIncludeList env c namespaces).filterManager.Working ∧
      ∀ ip md, (m.appendIncludeList env c namespaces).Requested ip md ↔
        (m.Requested ip md ∨
          (∃ ep, c.PodAt ep ip ∧ ep.ns ∈ namespaces ∧ ep.ns ∉ m.includedNamespaces) ∧ md = moduleReqMetadata) ∧
        ¬((∃ ep, c.PodAt ep ip ∧ ep.ns ∈ m.includedNamespaces ∧ ep.ns ∉ namespaces) ∧ md = moduleReqMetadata) := by
  simp only [appendIncludeList, kept_eq]
  obtain ⟨hworking,hadd⟩ := addNamespaces_spec (m := { m with includedNamespaces := namespaces.toFinset }) hm henv hc
    (namespaces.filter (· ∉ m.includedNamespaces))
  obtain ⟨hworking,hdel⟩ := deleteNamespaces_spec (c := c) hworking henv
    ((env.order.list m.includedNamespaces).filter (· ∉ namespaces.toFinset))
  refine ⟨hworking,?_⟩
  intro ip md
  apply (hdel ip md).trans
  simp only [hadd, List.mem_filter, env.order.mem_list, List.mem_toFinset, decide_eq_true_eq]
  rfl

theorem appendExcludeList_spec (ns : List String) :
    (m.appendExcludeList env c ns).filterManager.Working ∧
      ∀ ip md, (m.appendExcludeList env c ns).Requested ip md ↔
        (m.Requested ip md ∧
          ¬((∃ ep, c.PodAt ep ip ∧ ep.ns ∈ ns ∧ ep.ns ∉ m.excludedNamespaces) ∧ md = moduleReqMetadata)) ∨
        (∃ ep, c.PodAt ep ip ∧ ep.ns ∉ ns ∧ (ep.ns ∈ m.excludedNamespaces ∨ ns ≠ [] ∧ m.excludedNamespaces = ∅)) ∧
          md = moduleReqMetadata := by
  obtain ⟨hworking,hdel⟩ := deleteNamespaces_spec (m := { m with excludedNamespaces := ns.toFinset }) (c := c) hm henv
    (ns.filter (· ∉ m.excludedNamespaces))
  obtain ⟨hworking,hadd⟩ := addNamespaces_spec hworking henv hc
    ((env.order.list m.excludedNamespaces).filter (· ∉ ns.toFinset))
  simp only [appendExcludeList, enters_exclude_mode_iff]
  split
  · next henter =>
    obtain ⟨hworking,hall⟩ := addNamespaces_spec hworking henv hc
      ((c.getAllNamespaces env.order).filter (· ∉ ns.toFinset))
    refine ⟨hworking,?_⟩
    intro ip md
    have hmem : (∃ ep, c.PodAt ep ip ∧ ep.ns ∈ (c.getAllNamespaces env.order).filter (· ∉ ns.toFinset)) ↔
        ∃ ep, c.PodAt ep ip ∧ ep.ns ∉ ns := by
      refine exists_congr fun ep => and_congr_right fun hpod => ?_
      simp only [List.mem_filter, Cache.mem_getAllNamespaces, List.mem_toFinset, decide_eq_true_eq]
      obtain ⟨⟨key,hkey⟩,-⟩ := hpod
      exact ⟨And.right,fun h => ⟨⟨key,ep,hkey,rfl⟩,h⟩⟩
    apply (hall ip md).trans
    rw [hmem, hadd, hdel]
    simp only [List.mem_filter, env.order.mem_list, List.mem_toFinset, decide_eq_true_eq, henter.2,
      Finset.notMem_empty, henter.1, ne_eq, not_false_eq_true, false_and, and_false, exists_false, or_false, and_true,
      false_or, and_self]
    rfl
  · next hstay =>
    refine ⟨hworking,?_⟩
    intro ip md
    apply (hadd ip md).trans
    simp only [hdel, List.mem_filter, env.order.mem_list, List.mem_toFinset, decide_eq_true_eq, hstay, or_false]
    simp only [and_comm]
    rfl

end Lists

theorem updateNamespaceLists_eq {spec : MetricsSpec} (hspec : spec.OneList) :
    (spec.nsExclude = [] ∧ m.updateNamespaceLists env c spec =
      (m.appendExcludeList env c []).appendIncludeList env c spec.nsInclude) ∨
    (spec.nsInclude = [] ∧ m.updateNamespaceLists env c spec =
      (m.appendIncludeList env c []).appendExcludeList env c spec.nsExclude) := by
  simp only [updateNamespaceLists, List.length_pos_iff]
  by_cases hinclude : spec.nsInclude = []
  · by_cases hexclude : spec.nsExclude = [] <;> simp [hinclude, hexclude]
  · have hexclude := hspec.resolve_left hinclude
    simp [hinclude, hexclude]

end Module

theorem interesting_iff {included excluded : Finset String} (h : included = ∅ ∨ excluded = ∅) (ns : String) :
    interesting included excluded ns = true ↔ ns ∈ included ∨ excluded ≠ ∅ ∧ ns ∉ excluded := by
  simp only [interesting, gt_iff_lt, Finset.card_pos, Finset.nonempty_iff_ne_empty]
  rcases h with rfl | rfl
  · by_cases he : excluded = ∅ <;> simp [he]
  · by_cases hi : included = ∅ <;> simp [hi]

theorem MetricsSpec.OneList.nsOfInterest_iff {spec : MetricsSpec} (h : spec.OneList) (ns : String) :
    spec.nsOfInterest ns = true ↔ ns ∈ spec.nsInclude ∨ spec.nsExclude ≠ [] ∧ ns ∉ spec.nsExclude := by
  have hone : spec.nsInclude.toFinset = ∅ ∨ spec.nsExclude.toFinset = ∅ := by
    simp only [List.toFinset_eq_empty_iff]
    exact h
  rw [MetricsSpec.nsOfInterest, interesting_iff hone]
  simp only [List.mem_toFinset, ne_eq, List.toFinset_eq_empty_iff]

section Sample

noncomputable def sampleEnv : Surroundings where
  order := FiniteMap.Order.arbitrary String
  ipOrder := FiniteMap.Order.arbitrary NetIP
  answers _ := {}

theorem accepts_sampleEnv : Accepts sampleEnv.answers := fun _ => FilterManager.succeeds_default

def samplePod (ns : String) (ip : NetIP) : Cache.RetinaEndpoint := Cache.newRetinaEndpoint "pod" ns (some { ipv4 := ip })

end Sample

end Retina.Metrics
