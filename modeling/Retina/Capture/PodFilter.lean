import Retina.Capture.FilterEntries
import Retina.Capture.JobEnv

/-! # Excluded packets on the nodes of pods

The addresses of the pods are joined to the include and exclude filter by `or`, behind the
negated exclude list. A packet of a pod is captured even if it is excluded.
-/
namespace Retina.Capture
open FilterGrammar

section
variable {ip : IPParser}

theorem podFilterGroup_ne_empty (podIPAddresses : List String) : podFilterGroup podIPAddresses ≠ "" := by
  intro h
  have hlist := congrArg String.toList h
  simp [podFilterGroup] at hlist

theorem isTerm_podFilterGroup {P : Type} (L : PcapLanguage ip P) {pods : List (IPText ip)} (hpods : pods ≠ []) :
    IsTerm L.toGrammar (L.lex (podFilterGroup (texts pods))) (some (L.packets (anyAddress hostSet pods))) := by
  rw [podFilterGroup, L.lex_group]
  exact (L.isExpr_joinTexts L.isTerm_host hpods).group

def withPods {P : Type} (L : PcapLanguage ip P) (filter : String) (o : Option (Set P)) (pods : List (IPText ip)) :
    Option (Set P) :=
  if pods.isEmpty then o
  else if filter = "" then some (L.packets (anyAddress hostSet pods))
  else Option.map₂ (· ∪ ·) o (some (L.packets (anyAddress hostSet pods)))

/-- The filter is read from the left to the right, so that the pods are outside of a negation. -/
theorem isExpr_updateTcpdumpFilter {P : Type} (L : PcapLanguage ip P) {filter : String} {o : Option (Set P)}
    (h : filter ≠ "" → IsExpr L.toGrammar (L.lex filter) o) (pods : List (IPText ip))
    (hne : updateTcpdumpFilterWithPodIPAddress (texts pods) filter ≠ "") :
    IsExpr L.toGrammar (L.lex (updateTcpdumpFilterWithPodIPAddress (texts pods) filter)) (withPods L filter o pods) := by
  unfold withPods
  unfold updateTcpdumpFilterWithPodIPAddress at hne ⊢
  rcases pods with _ | ⟨pod,pods⟩
  · exact h hne
  · have hpods := isTerm_podFilterGroup L (List.cons_ne_nil pod pods)
    by_cases hfilter : filter = ""
    · simpa [texts, hfilter] using hpods.expr
    · simp only [texts, List.map_cons, List.isEmpty_cons, Bool.false_eq_true, if_false, if_neg hfilter]
      rw [(L.lex_connective _ _).2]
      exact (h hfilter).join .or hpods

def systemSet (inc exc : List (Entry ip)) (pods : List (IPText ip)) : Set Header :=
  if pods.isEmpty then documentedSet inc exc
  else if entriesFilter inc exc = "" then anyAddress hostSet pods
  else documentedSet inc exc ∪ anyAddress hostSet pods

def systemFilter (inc exc : List (Entry ip)) (pods : List (IPText ip)) : String :=
  updateTcpdumpFilterWithPodIPAddress (texts pods) (entriesFilter inc exc)

theorem accepts_systemFilter_iff {P : Type} (L : PcapLanguage ip P) {inc exc : List (Entry ip)} (hinc : Clean inc)
    (hexc : Clean exc) (pods : List (IPText ip)) (m : Set P) :
    L.Accepts (systemFilter inc exc pods) m ↔ L.packets (systemSet inc exc pods) = m := by
  rcases pods with _ | ⟨pod,pods⟩
  · exact (accepts_entriesFilter_iff L inc exc m).trans (and_iff_right ⟨hinc,hexc⟩)
  · have hexpr : entriesFilter inc exc ≠ "" →
        IsExpr L.toGrammar (L.lex (entriesFilter inc exc)) (some (L.packets (documentedSet inc exc))) := by
      intro hne
      rw [← (filterMeaning_eq_some_iff L).mpr ⟨⟨hinc,hexc⟩,rfl⟩]
      exact isExpr_tcpdumpFilters L (entryMap_valid inc) (entryMap_valid exc) hne
    have hne : systemFilter inc exc (pod :: pods) ≠ "" := by
      rw [systemFilter, updateTcpdumpFilterWithPodIPAddress, if_neg (by simp [texts])]
      split_ifs
      · exact podFilterGroup_ne_empty _
      · simp [podFilterGroup_ne_empty]
    refine (PcapLanguage.accepts_iff (isExpr_updateTcpdumpFilter L hexpr (pod :: pods) hne) m).trans ?_
    rw [withPods, systemSet]
    by_cases hempty : entriesFilter inc exc = ""
    · simp [hempty]
    · simp [hempty, PcapLanguage.packets]

/-- Packets of an address that an entry names. -/
theorem exists_mem_matching_iff (a : Address) (e : Entry ip) :
    (∃ p, p ∈ hostSet a ∧ p ∈ e.matching) ↔ a.family = .ipv4 ∨ e.pair.1 = anyIPOrPort := by
  have hhost : ∀ (host : IPv4Text ip) (m : Set Header), m ⊆ hostSet (.v4 host.addr) →
      (∃ n, hostSet (.v4 host.addr) ∩ portSet n ⊆ m) →
      ((∃ p, p ∈ hostSet a ∧ p ∈ m) ↔ a.family = .ipv4 ∨ host.text = anyIPOrPort) := by
    intro host m hm hn
    have hne : host.text ≠ anyIPOrPort := address_ne_empty host.parsed
    rw [or_iff_left hne]
    constructor
    · rintro ⟨p,hp,hp'⟩
      exact family_eq_of_mem_hostSet hp (hm hp')
    · intro hfamily
      obtain ⟨n,hn⟩ := hn
      obtain ⟨p,hp,hp',hport⟩ := exists_mem_hostSet (show a.family = (Address.v4 host.addr).family from hfamily) n
      exact ⟨p,hp,hn ⟨hp',hport⟩⟩
  have hport : ∀ n : UInt16, ∃ p, p ∈ hostSet a ∧ p ∈ portSet n := by
    intro n
    obtain ⟨p,hp,-,hport⟩ := exists_mem_hostSet (rfl : a.family = a.family) n
    exact ⟨p,hp,hport⟩
  cases e with
  | ipPort host port => exact hhost host _ Set.inter_subset_left ⟨port,subset_rfl⟩
  | ipOnly host => exact hhost host _ subset_rfl ⟨0,Set.inter_subset_left⟩
  | portOnly port => exact iff_of_true (hport port) (Or.inr rfl)
  | anyIPPort port => exact iff_of_true (hport port) (Or.inr rfl)
  | ipAnyPort host => exact hhost host _ subset_rfl ⟨0,Set.inter_subset_left⟩

def PodsApart (exc : List (Entry ip)) (pods : List (IPText ip)) : Prop :=
  ∀ pod ∈ pods, ∀ e ∈ exc, pod.addr.family = .ipv6 ∧ e.pair.1 ≠ anyIPOrPort

theorem podsApart_iff {exc : List (Entry ip)} {pods : List (IPText ip)} :
    PodsApart exc pods ↔ ∀ p ∈ entriesSet exc, p ∉ anyAddress hostSet pods := by
  have hfamily : ∀ a : Address, a.family = .ipv6 ↔ a.family ≠ .ipv4 := by
    intro a
    cases a <;> simp [Address.family]
  constructor
  · rintro h p ⟨e,he,hp⟩ ⟨pod,hpod,hp'⟩
    obtain ⟨hv6,hip⟩ := h pod hpod e he
    rcases (exists_mem_matching_iff pod.addr e).mp ⟨p,hp',hp⟩ with hv4 | hany
    · exact (hfamily _).mp hv6 hv4
    · exact hip hany
  · intro h pod hpod e he
    have hnone : ¬(pod.addr.family = .ipv4 ∨ e.pair.1 = anyIPOrPort) := by
      rw [← exists_mem_matching_iff]
      rintro ⟨p,hp,hp'⟩
      exact h p ⟨e,he,hp'⟩ ⟨pod,hpod,hp⟩
    rw [not_or] at hnone
    exact ⟨(hfamily _).mpr hnone.1,hnone.2⟩

theorem forall_excluded_notMem_systemSet_iff (inc exc : List (Entry ip)) (pods : List (IPText ip)) :
    (∀ p ∈ entriesSet exc, p ∉ systemSet inc exc pods) ↔ PodsApart exc pods := by
  rw [podsApart_iff]
  refine forall₂_congr fun p hp => ?_
  have hout : p ∉ documentedSet inc exc := fun h => h.2 hp
  rw [systemSet]
  split_ifs with hpods hempty
  · rw [List.isEmpty_iff.mp hpods]
    exact iff_of_true hout fun ⟨_,h,_⟩ => absurd h List.not_mem_nil
  · rfl
  · rw [Set.mem_union, or_iff_right hout]

def OneEntryPerIP (es : List (Entry ip)) : Prop :=
  ∀ w q q', w ≠ anyIPOrPort → (w,q) ∈ pairs es → (w,q') ∈ pairs es → q = q'

theorem OneEntryPerIP.clean {es : List (Entry ip)} (h : OneEntryPerIP es) : Clean es := by
  intro w q hw hq hany hsurvives
  exact hq (h w q anyIPOrPort hw hsurvives.mem hany)

/-- The filter of a Linux job. -/
theorem renderJob_linux_tcpdumpFilter {config : CaptureConfiguration} {inc exc : List (Entry ip)}
    (hconfig : config.filters = some ⟨inc.map Entry.text,exc.map Entry.text⟩) (pods : List (IPText ip)) :
    ∃ env, obtainCaptureJobPodEnv ip config = .ok env ∧
      (renderJob ip .linux (texts pods) env).tcpdumpFilter = systemFilter inc exc pods := by
  refine ⟨filterEnv ip config (entriesFilter inc exc),?_,rfl⟩
  rw [obtainCaptureJobPodEnv, hconfig, obtainTcpdumpFilters_entries]
  rfl

/-- No excluded packet is captured iff there are no pods, nothing is excluded, or all pods have
IPv6 addresses and all exclude entries have an IPv4 address. -/
theorem renderJob_excluded_not_captured_iff {P : Type} (L : PcapLanguage ip P) {config : CaptureConfiguration}
    {inc exc : List (Entry ip)} (hinc : Clean inc) (hexc : Clean exc)
    (hconfig : config.filters = some ⟨inc.map Entry.text,exc.map Entry.text⟩) (pods : List (IPText ip)) :
    ∃ env, obtainCaptureJobPodEnv ip config = .ok env ∧
      (∃ m, L.Accepts (renderJob ip .linux (texts pods) env).tcpdumpFilter m) ∧
      ((∀ m, L.Accepts (renderJob ip .linux (texts pods) env).tcpdumpFilter m →
          ∀ p, L.header p ∈ entriesSet exc → p ∉ m) ↔
        PodsApart exc pods) := by
  obtain ⟨env,henv,hfilter⟩ := renderJob_linux_tcpdumpFilter hconfig pods
  refine ⟨env,henv,?_,?_⟩
  · rw [hfilter]
    exact ⟨_,(accepts_systemFilter_iff L hinc hexc pods _).mpr rfl⟩
  · rw [← forall_excluded_notMem_systemSet_iff inc, hfilter, L.header_surjective.forall]
    simp only [accepts_systemFilter_iff L hinc hexc, forall_eq']
    rfl

end

/-! ## A pod with an IPv4 address -/

section
open HostLanguage

def excludeFirst : CaptureConfiguration where
  filters := some ⟨[],["10.0.0.1"]⟩
  tcpdumpFilter := none
  pcapFilter := none
  sourceIPs := []
  destinationIPs := []

theorem oneEntryPerIP_nil : OneEntryPerIP ([] : List (Entry knownParser)) :=
  fun _ _ _ _ h => absurd h List.not_mem_nil

theorem oneEntryPerIP_first : OneEntryPerIP [.ipOnly firstHost] := by
  intro w q q' _ h h'
  rw [(Prod.mk.inj (List.mem_singleton.mp h)).2, (Prod.mk.inj (List.mem_singleton.mp h')).2]

theorem entriesFilter_first : entriesFilter [] [.ipOnly firstHost] = "not ((host 10.0.0.1))" := by
  have hips : (entryMap [.ipOnly firstHost]).ips = {"10.0.0.1"} := by decide +kernel
  have harray : filterArray (entryMap [.ipOnly firstHost]) = [.host "10.0.0.1"] := by
    rw [filterArray, hips, sortStrings, Finset.sort_singleton, List.flatMap_singleton, addressClauses,
      if_neg (by decide), if_pos (by decide +kernel)]
  have hgroup : filterGroup (entryMap [.ipOnly firstHost]) = "((host 10.0.0.1))" := by
    rw [filterGroup, harray]
    decide +kernel
  have hempty : filterGroup (entryMap ([] : List (Entry knownParser))) = "" :=
    filterGroup_eq_empty_iff.mpr (filterArray_entryMap_eq_nil_iff.mpr rfl)
  rw [entriesFilter, tcpdumpFiltersFromIncludeAndExcludeFilters, hgroup, hempty]
  decide +kernel

/-- The excluded address talks to the pod. -/
theorem excludedPacket_captured :
    ∃ env, obtainCaptureJobPodEnv knownParser excludeFirst = .ok env ∧
      (renderJob knownParser .linux ["10.0.0.2"] env).tcpdumpFilter = "not ((host 10.0.0.1)) or (host 10.0.0.2)" ∧
      (∃ m, (hostLanguage knownParser).Accepts "not ((host 10.0.0.1)) or (host 10.0.0.2)" m ∧ firstToSecond ∈ m) ∧
      firstToSecond ∈ (Entry.ipOnly firstHost).matching := by
  obtain ⟨env,henv,hfilter⟩ :=
    renderJob_linux_tcpdumpFilter (show excludeFirst.filters = some ⟨([] : List (Entry knownParser)).map Entry.text,
      [Entry.ipOnly firstHost].map Entry.text⟩ from rfl) [secondIP]
  have htext : systemFilter [] [.ipOnly firstHost] [secondIP] = "not ((host 10.0.0.1)) or (host 10.0.0.2)" := by
    rw [systemFilter, entriesFilter_first]
    decide +kernel
  rw [htext] at hfilter
  refine ⟨env,henv,hfilter,⟨systemSet [] [.ipOnly firstHost] [secondIP],?_,?_⟩,⟨_,rfl,Or.inl rfl⟩⟩
  · rw [← htext]
    exact (accepts_systemFilter_iff _ oneEntryPerIP_nil.clean oneEntryPerIP_first.clean _ _).mpr rfl
  · rw [systemSet, if_neg (by simp), entriesFilter_first, if_neg (by decide)]
    exact Or.inr ⟨secondIP,List.mem_cons_self,_,rfl,Or.inr rfl⟩

/-- A pod with an IPv6 address has no traffic with the excluded address. -/
theorem ipv6Pod_excluded_not_captured :
    ∃ env, obtainCaptureJobPodEnv knownParser excludeFirst = .ok env ∧
      ∀ m, (hostLanguage knownParser).Accepts (renderJob knownParser .linux (texts [ipv6IP]) env).tcpdumpFilter m →
        ∀ p ∈ entriesSet [.ipOnly firstHost], p ∉ m := by
  have hconfig : excludeFirst.filters = some ⟨([] : List (Entry knownParser)).map Entry.text,
      [Entry.ipOnly firstHost].map Entry.text⟩ := rfl
  obtain ⟨env,henv,-,hiff⟩ := renderJob_excluded_not_captured_iff (hostLanguage knownParser)
    oneEntryPerIP_nil.clean oneEntryPerIP_first.clean hconfig [ipv6IP]
  refine ⟨env,henv,hiff.mpr ?_⟩
  intro pod hpod e he
  rw [List.mem_singleton.mp hpod, List.mem_singleton.mp he]
  exact ⟨rfl,by decide⟩

end

end Retina.Capture
