import Retina.Metrics.Module

/-! # Which pods a sequence of specs selects

The lists of namespaces always agree with the last spec. The requests do not: a spec
without exclusions that follows one with exclusions requests the namespaces that
were excluded and withdraws nothing, so that everything is requested from then on
except what is included and later dropped again. The next spec with exclusions puts
this right.
-/
namespace Retina.Metrics
open Cache (NetIP isIPV4)
open Retina.Filter

structure Update where
  spec : MetricsSpec
  env : Surroundings

def Module.apply (c : Cache) (m : Module) (u : Update) : Module := m.updateNamespaceLists u.env c u.spec

def lastSpec (history : List MetricsSpec) : MetricsSpec := history.headD {}

@[simp] theorem lastSpec_cons (spec : MetricsSpec) (older : List MetricsSpec) : lastSpec (spec :: older) = spec := rfl

/-- The namespace is left over from a spec with exclusions. -/
def Leftover (ns : String) : List MetricsSpec → Prop
  | [] => False
  | spec :: older =>
    spec.nsExclude = [] ∧ ns ∉ spec.nsInclude ∧ (Leftover ns older ∨ (lastSpec older).nsExclude ≠ [])

def sinceExclude (history : List MetricsSpec) : List MetricsSpec := history.takeWhile (·.nsExclude = [])

theorem sinceExclude_cons (spec : MetricsSpec) (older : List MetricsSpec) : sinceExclude (spec :: older) =
    if spec.nsExclude = [] then spec :: sinceExclude older else [] := by
  simp only [sinceExclude, List.takeWhile_cons, decide_eq_true_eq]

theorem leftover_iff (ns : String) (history : List MetricsSpec) : Leftover ns history ↔
    (∃ spec ∈ history, spec.nsExclude ≠ []) ∧ sinceExclude history ≠ [] ∧
      ∀ spec ∈ sinceExclude history, ns ∉ spec.nsInclude := by
  induction history with
  | nil => simp [Leftover]
  | cons spec older ih =>
    rw [Leftover, ih, sinceExclude_cons]
    by_cases hspec : spec.nsExclude = []
    · cases older with
      | nil => simp [hspec, lastSpec]
      | cons spec' older =>
        rw [sinceExclude_cons]
        by_cases hspec' : spec'.nsExclude = []
        · simp only [hspec, hspec', lastSpec, List.headD_cons, if_true, ne_eq, not_true_eq_false, or_false, true_and,
            reduceCtorEq, not_false_eq_true, List.mem_cons, exists_eq_or_imp, false_or, forall_eq_or_imp]
          tauto
        · simp [hspec, hspec', lastSpec]
    · simp [hspec]

theorem Leftover.last {ns : String} {history : List MetricsSpec} (h : Leftover ns history) :
    (lastSpec history).nsExclude = [] ∧ ns ∉ (lastSpec history).nsInclude := by
  cases history with
  | nil => cases h
  | cons spec older => exact ⟨h.1,h.2.1⟩

def DistinctIPs (c : Cache) : Prop := ∀ key key' ep ep' ip, c.epMap.lookup key = some ep →
  c.epMap.lookup key' = some ep' → ep.primaryNetIP = .ok ip → ep'.primaryNetIP = .ok ip → key = key'

theorem DistinctIPs.eq {c : Cache} (hc : DistinctIPs c) {ep ep' : Cache.RetinaEndpoint} {ip : NetIP}
    (h : c.PodAt ep ip) (h' : c.PodAt ep' ip) : ep = ep' := by
  obtain ⟨⟨key,hkey⟩,hip⟩ := h
  obtain ⟨⟨key',hkey'⟩,hip'⟩ := h'
  cases hc key key' ep ep' ip hkey hkey' hip hip'
  exact Option.some.inj (hkey.symm.trans hkey')

theorem DistinctIPs.exists_iff {c : Cache} (hc : DistinctIPs c) {ep : Cache.RetinaEndpoint} {ip : NetIP}
    (h : c.PodAt ep ip) (P : Cache.RetinaEndpoint → Prop) : (∃ ep', c.PodAt ep' ip ∧ P ep') ↔ P ep := by
  constructor
  · rintro ⟨ep',h',hP⟩
    rwa [hc.eq h h']
  · intro hP
    exact ⟨ep,h,hP⟩

namespace Module
variable {m : Module} {env : Surroundings} {c : Cache} (hm : m.filterManager.Working) (henv : Accepts env.answers)
  (hc : AllIPv4 c) (hdistinct : DistinctIPs c) {ep : Cache.RetinaEndpoint} {ip : NetIP} (hpod : c.PodAt ep ip)
include hm henv hc hdistinct hpod

theorem appendIncludeList_pod (namespaces : List String) :
    (m.appendIncludeList env c namespaces).Requested ip moduleReqMetadata ↔
      (m.Requested ip moduleReqMetadata ∨ ep.ns ∈ namespaces ∧ ep.ns ∉ m.includedNamespaces) ∧
        ¬(ep.ns ∈ m.includedNamespaces ∧ ep.ns ∉ namespaces) := by
  rw [(appendIncludeList_spec hm henv hc namespaces).2, hdistinct.exists_iff hpod, hdistinct.exists_iff hpod]
  simp only [and_true]

theorem appendExcludeList_pod (ns : List String) :
    (m.appendExcludeList env c ns).Requested ip moduleReqMetadata ↔
      (m.Requested ip moduleReqMetadata ∧ ¬(ep.ns ∈ ns ∧ ep.ns ∉ m.excludedNamespaces)) ∨
        ep.ns ∉ ns ∧ (ep.ns ∈ m.excludedNamespaces ∨ ns ≠ [] ∧ m.excludedNamespaces = ∅) := by
  rw [(appendExcludeList_spec hm henv hc ns).2, hdistinct.exists_iff hpod, hdistinct.exists_iff hpod]
  simp only [and_true]

end Module

/-- The module after a history of specs. -/
structure Selects (c : Cache) (m : Module) (history : List MetricsSpec) : Prop where
  working : m.filterManager.Working
  oneList : (lastSpec history).OneList
  included : m.includedNamespaces = (lastSpec history).nsInclude.toFinset
  excluded : m.excludedNamespaces = (lastSpec history).nsExclude.toFinset
  pods : ∀ ip, m.Requested ip moduleReqMetadata → ∃ ep, c.PodAt ep ip
  requested : ∀ ep ip, c.PodAt ep ip → (m.Requested ip moduleReqMetadata ↔
    (lastSpec history).nsOfInterest ep.ns = true ∨ Leftover ep.ns history)

namespace Selects
variable {c : Cache} {m : Module} {history : List MetricsSpec} {env : Surroundings} {spec : MetricsSpec}

theorem excludes_nothing (hs : Selects c m history) {ns : String} (h : ns ∈ (lastSpec history).nsInclude) :
    (lastSpec history).nsExclude = [] := by
  rcases hs.oneList with hnone | hnone
  · simp [hnone] at h
  · exact hnone

section
variable (hs : Selects c m history) (henv : Accepts env.answers) (hc : AllIPv4 c) (hdistinct : DistinctIPs c)
include hs henv hc hdistinct

/-- First the exclusions are given up, then the inclusions change. -/
theorem toInclude (hexclude : spec.nsExclude = []) :
    Selects c ((m.appendExcludeList env c []).appendIncludeList env c spec.nsInclude) (spec :: history) := by
  obtain ⟨hworking₁,hreq₁⟩ := m.appendExcludeList_spec hs.working henv hc []
  obtain ⟨hworking₂,hreq₂⟩ := Module.appendIncludeList_spec hworking₁ henv hc spec.nsInclude
  have hinc : (m.appendExcludeList env c []).includedNamespaces = (lastSpec history).nsInclude.toFinset :=
    (congrArg Module.includedNamespaces (Module.appendExcludeList_frame [])).trans hs.included
  have hone : (lastSpec (spec :: history)).OneList := .inr hexclude
  constructor
  · exact hworking₂
  · exact hone
  · exact congrArg Module.includedNamespaces (Module.appendIncludeList_frame _)
  · rw [Module.appendIncludeList_frame, Module.appendExcludeList_frame]
    simp [lastSpec, hexclude]
  · intro ip hip
    rcases ((hreq₂ ip moduleReqMetadata).mp hip).1 with h | ⟨⟨ep,hpod,-⟩,-⟩
    · rcases (hreq₁ ip moduleReqMetadata).mp h with ⟨h,-⟩ | ⟨⟨ep,hpod,-⟩,-⟩
      · exact hs.pods ip h
      · exact ⟨ep,hpod⟩
    · exact ⟨ep,hpod⟩
  · intro ep ip hpod
    rw [Module.appendIncludeList_pod hworking₁ henv hc hdistinct hpod,
      Module.appendExcludeList_pod hs.working henv hc hdistinct hpod, hs.requested ep ip hpod,
      hs.oneList.nsOfInterest_iff, hone.nsOfInterest_iff, hinc, hs.excluded, Leftover, hexclude]
    simp only [lastSpec_cons, hexclude, List.mem_toFinset, List.not_mem_nil, ne_eq, not_true_eq_false,
      not_false_eq_true, false_and, and_true, or_false, true_and]
    by_cases hlast : (lastSpec history).nsExclude = []
    · have hleft : Leftover ep.ns history → ep.ns ∉ (lastSpec history).nsInclude := fun h => h.last.2
      simp [hlast]
      tauto
    · have hincluded : ep.ns ∉ (lastSpec history).nsInclude := fun h => hlast (hs.excludes_nothing h)
      simp [hlast, hincluded]
      tauto

/-- First the inclusions are given up, then the exclusions change. -/
theorem toExclude (hinclude : spec.nsInclude = []) :
    Selects c ((m.appendIncludeList env c []).appendExcludeList env c spec.nsExclude) (spec :: history) := by
  obtain ⟨hworking₁,hreq₁⟩ := m.appendIncludeList_spec hs.working henv hc []
  obtain ⟨hworking₂,hreq₂⟩ := Module.appendExcludeList_spec hworking₁ henv hc spec.nsExclude
  have hexc : (m.appendIncludeList env c []).excludedNamespaces = (lastSpec history).nsExclude.toFinset :=
    (congrArg Module.excludedNamespaces (Module.appendIncludeList_frame [])).trans hs.excluded
  have hone : (lastSpec (spec :: history)).OneList := .inl hinclude
  constructor
  · exact hworking₂
  · exact hone
  · rw [Module.appendExcludeList_frame, Module.appendIncludeList_frame]
    simp [lastSpec, hinclude]
  · exact congrArg Module.excludedNamespaces (Module.appendExcludeList_frame _)
  · intro ip hip
    rcases (hreq₂ ip moduleReqMetadata).mp hip with ⟨h,-⟩ | ⟨⟨ep,hpod,-⟩,-⟩
    · rcases ((hreq₁ ip moduleReqMetadata).mp h).1 with h | ⟨⟨ep,hpod,-⟩,-⟩
      · exact hs.pods ip h
      · exact ⟨ep,hpod⟩
    · exact ⟨ep,hpod⟩
  · intro ep ip hpod
    rw [Module.appendExcludeList_pod hworking₁ henv hc hdistinct hpod,
      Module.appendIncludeList_pod hs.working henv hc hdistinct hpod, hs.requested ep ip hpod,
      hs.oneList.nsOfInterest_iff, hone.nsOfInterest_iff, hexc, hs.included, Leftover, hinclude]
    simp only [lastSpec_cons, hinclude, List.mem_toFinset, List.not_mem_nil, List.toFinset_eq_empty_iff,
      not_false_eq_true, false_and, and_true, or_false, true_and, false_or]
    by_cases hlast : (lastSpec history).nsExclude = []
    · have hleft : Leftover ep.ns history → ep.ns ∉ (lastSpec history).nsInclude := fun h => h.last.2
      by_cases hnow : spec.nsExclude = []
      · simp [hlast, hnow]
        tauto
      · simp [hlast, hnow]
    · have hleft : ¬Leftover ep.ns history := fun h => hlast h.last.1
      have hincluded : ep.ns ∉ (lastSpec history).nsInclude := fun h => hlast (hs.excludes_nothing h)
      by_cases hnow : spec.nsExclude = []
      · simp [hlast, hnow, hleft, hincluded]
        tauto
      · simp [hlast, hnow, hleft, hincluded]
        tauto

theorem step (hone : spec.OneList) : Selects c (m.updateNamespaceLists env c spec) (spec :: history) := by
  rcases Module.updateNamespaceLists_eq hone with ⟨hexclude,heq⟩ | ⟨hinclude,heq⟩
  · rw [heq]
    exact hs.toInclude henv hc hdistinct hexclude
  · rw [heq]
    exact hs.toExclude henv hc hdistinct hinclude

end

end Selects

structure Module.Fresh (m : Module) : Prop where
  working : m.filterManager.Working
  included : m.includedNamespaces = ∅
  excluded : m.excludedNamespaces = ∅
  requests : ∀ ip, ¬m.Requested ip moduleReqMetadata

theorem Module.Fresh.selects {m : Module} (hm : m.Fresh) (c : Cache) : Selects c m [] where
  working := hm.working
  oneList := .inl rfl
  included := hm.included
  excluded := hm.excluded
  pods ip hip := absurd hip (hm.requests ip)
  requested ep ip _ := by simp [hm.requests ip, Leftover, lastSpec, MetricsSpec.nsOfInterest, interesting]

theorem selects_run {c : Cache} (hc : AllIPv4 c) (hdistinct : DistinctIPs c) {m : Module} (hm : m.Fresh)
    (updates : List Update) (hupdates : ∀ u ∈ updates, u.spec.OneList ∧ Accepts u.env.answers) :
    Selects c (Execution.run (Module.apply c) m updates) (updates.map Update.spec).reverse := by
  induction updates using List.reverseRecOn with
  | nil => exact hm.selects c
  | append_singleton updates u ih =>
    obtain ⟨hone,henv⟩ := hupdates u (by simp)
    have hs := ih fun u hu => hupdates u (List.mem_append_left [_] hu)
    rw [Execution.run_append, List.map_append, List.reverse_append]
    exact hs.step henv hc hdistinct hone

theorem never_leftover_iff (c : Cache) (updates : List Update) :
    (∀ ep ip, c.PodAt ep ip → ¬Leftover ep.ns (updates.map Update.spec).reverse) ↔
      (∀ u ∈ updates, u.spec.nsExclude = []) ∨ sinceExclude (updates.map Update.spec).reverse = [] ∨
        ∀ ep ip, c.PodAt ep ip → ∃ spec ∈ sinceExclude (updates.map Update.spec).reverse, ep.ns ∈ spec.nsInclude := by
  simp only [leftover_iff, List.mem_reverse, List.mem_map, exists_exists_and_eq_and]
  constructor
  · intro hall
    by_cases hnone : ∀ u ∈ updates, u.spec.nsExclude = []
    · exact .inl hnone
    · refine .inr ((em _).imp_right fun hsome ep ip hpod => ?_)
      by_contra hnever
      push Not at hnone hnever
      exact hall ep ip hpod ⟨hnone,hsome,hnever⟩
  · rintro hcond ep ip hpod ⟨⟨u,hu,hexclude⟩,hsome,hnever⟩
    rcases hcond with hnone | hempty | hall
    · exact hexclude (hnone u hu)
    · exact hsome hempty
    · obtain ⟨spec,hspec,hin⟩ := hall ep ip hpod
      exact hnever spec hspec hin

/-- The requests are those of the last spec exactly if no spec had exclusions, or the last one has some, or every
pod has been included since the last one that had some. -/
theorem namespaces_selected_iff (c : Cache) (hc : AllIPv4 c) (hdistinct : DistinctIPs c) (m : Module) (hm : m.Fresh)
    (updates : List Update) (hupdates : ∀ u ∈ updates, u.spec.OneList ∧ Accepts u.env.answers) :
    (∀ ip, (Execution.run (Module.apply c) m updates).Requested ip moduleReqMetadata ↔
      ∃ ep, c.PodAt ep ip ∧ (lastSpec (updates.map Update.spec).reverse).nsOfInterest ep.ns = true) ↔
    ((∀ u ∈ updates, u.spec.nsExclude = []) ∨ sinceExclude (updates.map Update.spec).reverse = [] ∨
      ∀ ep ip, c.PodAt ep ip → ∃ spec ∈ sinceExclude (updates.map Update.spec).reverse, ep.ns ∈ spec.nsInclude) := by
  have hs := selects_run hc hdistinct hm updates hupdates
  rw [← never_leftover_iff]
  constructor
  · intro hall ep ip hpod hleft
    obtain ⟨ep',hpod',hint⟩ := (hall ip).mp ((hs.requested ep ip hpod).mpr (.inr hleft))
    rw [← hdistinct.eq hpod hpod', hs.oneList.nsOfInterest_iff] at hint
    obtain ⟨hexclude,hinclude⟩ := hleft.last
    rcases hint with h | h
    · exact hinclude h
    · exact h.1 hexclude
  · intro hall ip
    constructor
    · intro hip
      obtain ⟨ep,hpod⟩ := hs.pods ip hip
      exact ⟨ep,hpod,((hs.requested ep ip hpod).mp hip).resolve_right (hall ep ip hpod)⟩
    · rintro ⟨ep,hpod,hint⟩
      exact (hs.requested ep ip hpod).mpr (.inl hint)

section Sample

def sampleModule : Module := { filterManager := { retry := 3 } }

theorem fresh_sampleModule : sampleModule.Fresh where
  working := ⟨FilterManager.mirrors_init 3,by decide⟩
  included := rfl
  excluded := rfl
  requests ip := FilterCache.not_holds_reset {} ip metricModuleReq moduleReqMetadata

def sampleCache : Cache := Cache.after [
  .update (.endpoint (samplePod "ns1" (.v4 10 0 0 1))),
  .update (.endpoint (samplePod "ns2" (.v4 10 0 0 2)))]

theorem primaryNetIP_samplePod (ns : String) (a b c d : BitVec 8) :
    (samplePod ns (.v4 a b c d)).primaryNetIP = .ok (.v4 a b c d) := rfl

theorem lookup_sampleCache (key : String) : sampleCache.epMap.lookup key =
    if key = "ns2/pod" then some (samplePod "ns2" (.v4 10 0 0 2))
    else if key = "ns1/pod" then some (samplePod "ns1" (.v4 10 0 0 1)) else none := by
  have hmap : sampleCache.epMap = (Finmap.insert "ns1/pod" (samplePod "ns1" (.v4 10 0 0 1)) ∅).insert "ns2/pod"
    (samplePod "ns2" (.v4 10 0 0 2)) := by decide
  simp only [hmap, FiniteMap.lookup_insert_eq_ite, Finmap.lookup_empty]

theorem podAt_sampleCache (ep : Cache.RetinaEndpoint) (ip : NetIP) : sampleCache.PodAt ep ip ↔
    ep = samplePod "ns1" (.v4 10 0 0 1) ∧ ip = .v4 10 0 0 1 ∨
      ep = samplePod "ns2" (.v4 10 0 0 2) ∧ ip = .v4 10 0 0 2 := by
  simp only [Cache.PodAt, lookup_sampleCache]
  constructor
  · rintro ⟨⟨key,hkey⟩,hip⟩
    split at hkey
    · cases hkey
      rw [primaryNetIP_samplePod, Except.ok.injEq] at hip
      exact .inr ⟨rfl,hip.symm⟩
    · split at hkey
      · cases hkey
        rw [primaryNetIP_samplePod, Except.ok.injEq] at hip
        exact .inl ⟨rfl,hip.symm⟩
      · cases hkey
  · rintro (⟨rfl,rfl⟩ | ⟨rfl,rfl⟩)
    · exact ⟨⟨"ns1/pod",by decide⟩,primaryNetIP_samplePod _ _ _ _ _⟩
    · exact ⟨⟨"ns2/pod",by decide⟩,primaryNetIP_samplePod _ _ _ _ _⟩

theorem allIPv4_sampleCache : AllIPv4 sampleCache := by
  intro ep ip hpod
  rcases (podAt_sampleCache ep ip).mp hpod with ⟨-,rfl⟩ | ⟨-,rfl⟩ <;> rfl

theorem key_sampleCache {key : String} {ep : Cache.RetinaEndpoint} (h : sampleCache.epMap.lookup key = some ep) :
    key = ep.key := by
  rw [lookup_sampleCache] at h
  split at h
  · next hkey =>
    cases h
    exact hkey
  · split at h
    · next hkey =>
      cases h
      exact hkey
    · cases h

theorem distinctIPs_sampleCache : DistinctIPs sampleCache := by
  intro key key' ep ep' ip hkey hkey' hip hip'
  rw [key_sampleCache hkey, key_sampleCache hkey']
  rcases (podAt_sampleCache ep ip).mp ⟨⟨key,hkey⟩,hip⟩ with ⟨rfl,rfl⟩ | ⟨rfl,rfl⟩ <;>
    rcases (podAt_sampleCache ep' _).mp ⟨⟨key',hkey'⟩,hip'⟩ with ⟨rfl,h⟩ | ⟨rfl,h⟩
  · rfl
  · cases h
  · cases h
  · rfl

noncomputable def leavingExclude : List Update :=
  [⟨{ nsExclude := ["ns1"] },sampleEnv⟩,⟨{ nsInclude := ["ns2"] },sampleEnv⟩]

noncomputable def excludingAgain : List Update := leavingExclude ++ [⟨{},sampleEnv⟩,⟨{ nsExclude := ["ns2"] },sampleEnv⟩]

theorem leavingExclude_valid : ∀ u ∈ excludingAgain, u.spec.OneList ∧ Accepts u.env.answers := by
  intro u hu
  simp only [excludingAgain, leavingExclude, List.cons_append, List.nil_append, List.mem_cons, List.not_mem_nil,
    or_false] at hu
  rcases hu with rfl | rfl | rfl | rfl
  · exact ⟨.inl rfl,accepts_sampleEnv⟩
  · exact ⟨.inr rfl,accepts_sampleEnv⟩
  · exact ⟨.inl rfl,accepts_sampleEnv⟩
  · exact ⟨.inl rfl,accepts_sampleEnv⟩

end Sample

/-- The pod of the namespace that was excluded and is not included now is requested. -/
theorem excluded_namespace_requested :
    (Execution.run (Module.apply sampleCache) sampleModule leavingExclude).Requested (.v4 10 0 0 1) moduleReqMetadata ∧
    ¬∃ ep, sampleCache.PodAt ep (.v4 10 0 0 1) ∧
      (lastSpec (leavingExclude.map Update.spec).reverse).nsOfInterest ep.ns = true := by
  have hs := selects_run allIPv4_sampleCache distinctIPs_sampleCache fresh_sampleModule leavingExclude
    fun u hu => leavingExclude_valid u (List.mem_append_left _ hu)
  have hpod := (podAt_sampleCache (samplePod "ns1" (.v4 10 0 0 1)) (.v4 10 0 0 1)).mpr (.inl ⟨rfl,rfl⟩)
  constructor
  · rw [hs.requested _ _ hpod]
    simp [Leftover, leavingExclude, samplePod, Cache.newRetinaEndpoint, lastSpec]
  · rintro ⟨ep,hpod',hint⟩
    rw [← distinctIPs_sampleCache.eq hpod hpod'] at hint
    exact absurd hint (by decide)

theorem namespaces_selected_excluding_again :
    (Execution.run (Module.apply sampleCache) sampleModule excludingAgain).Requested (.v4 10 0 0 1) moduleReqMetadata ∧
    ¬(Execution.run (Module.apply sampleCache) sampleModule excludingAgain).Requested (.v4 10 0 0 2)
      moduleReqMetadata := by
  have hlast : sinceExclude (excludingAgain.map Update.spec).reverse = [] := by simp [excludingAgain, sinceExclude]
  have hall := (namespaces_selected_iff sampleCache allIPv4_sampleCache distinctIPs_sampleCache sampleModule
    fresh_sampleModule excludingAgain leavingExclude_valid).mpr (.inr (.inl hlast))
  constructor
  · exact (hall _).mpr ⟨samplePod "ns1" (.v4 10 0 0 1),(podAt_sampleCache _ _).mpr (.inl ⟨rfl,rfl⟩),rfl⟩
  · rw [hall]
    rintro ⟨ep,hpod,hint⟩
    rcases (podAt_sampleCache _ _).mp hpod with ⟨-,hip⟩ | ⟨rfl,-⟩
    · cases hip
    · cases hint

end Retina.Metrics
