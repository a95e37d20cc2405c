import Retina.Labels.Registry
import Retina.MetricsConfig.Spec

/-! # Options that are taken for unchanged

`Reconcile` keeps the registry if the comparison does not tell the options of the new spec from those of the current one.
The comparison looks at the last option of each name and at the labels as sets. The results say when the registries of
the two specs would have been the same.
-/
namespace Retina.Labels
open MetricsConfig (compareStringSlice optionsByName sameOption)
open Registry (lastOption ttlOf)
open Metrics (LatencyMetrics)

/-! ## The comparison -/

/-- The comparison does not see whether a list is missing. -/
def SpecOption.toConfig (option : SpecOption) : MetricsConfig.MetricsContextOptions where
  metricName := option.metricName
  sourceLabels := option.sourceLabels.getD []
  destinationLabels := option.destinationLabels.getD []
  additionalLabels := option.additionalLabels.getD []
  ttl := option.ttl

def metricsContextOptionsCompare (old new : List SpecOption) : Bool :=
  MetricsConfig.metricsContextOptionsCompare (old.map SpecOption.toConfig) (new.map SpecOption.toConfig)

def SpecOption.Same (old new : SpecOption) : Prop := sameOption old.toConfig new.toConfig = true

theorem lookup_optionsByName (options : List SpecOption) (name : String) :
    (optionsByName (options.map SpecOption.toConfig)).lookup name =
      (lastOption options name).map SpecOption.toConfig := by
  induction options using List.reverseRecOn with
  | nil => rfl
  | append_singleton options option ih =>
    rw [Registry.lastOption_append, List.map_append, optionsByName, List.foldl_append]
    simp only [List.map_cons, List.map_nil, List.foldl_cons, List.foldl_nil]
    rw [FiniteMap.lookup_insert_eq_ite, show option.toConfig.metricName = option.metricName from rfl]
    by_cases hname : option.metricName = name
    · rw [if_pos hname, if_pos hname.symm]
      rfl
    · rw [if_neg hname, if_neg (Ne.symm hname)]
      exact ih

/-- Options that are not told apart have the same names, and the last options of a name are the same. -/
theorem rel_lastOption {old new : List SpecOption} (h : metricsContextOptionsCompare old new = true) (name : String) :
    Option.Rel SpecOption.Same (lastOption old name) (lastOption new name) := by
  simp only [metricsContextOptionsCompare, MetricsConfig.metricsContextOptionsCompare, decide_eq_true_eq] at h
  obtain ⟨-,hcard,hall⟩ := h
  have hsubset : (optionsByName (old.map SpecOption.toConfig)).keys ⊆
      (optionsByName (new.map SpecOption.toConfig)).keys := by
    intro key hkey
    obtain ⟨_,_,n,hn,_⟩ := hall key hkey
    exact Finmap.mem_keys.mpr (Finmap.mem_of_lookup_eq_some hn)
  have hkeys := Finset.eq_of_subset_of_card_le hsubset hcard.ge
  have hmem : ∀ options : List SpecOption, name ∈ (optionsByName (options.map SpecOption.toConfig)).keys ↔
      (lastOption options name).isSome := by
    intro options
    rw [Finmap.mem_keys, ← Finmap.lookup_isSome, lookup_optionsByName, Option.isSome_map]
  cases hold : lastOption old name with
  | none =>
    have hnew : lastOption new name = none := by
      rw [← Option.not_isSome_iff_eq_none, ← hmem, ← hkeys, hmem, hold]
      simp
    rw [hnew]
    exact .none
  | some o =>
    obtain ⟨o',ho',n',hn',hsame⟩ := hall name ((hmem old).mpr (by rw [hold]; rfl))
    rw [lookup_optionsByName, hold] at ho'
    rw [lookup_optionsByName] at hn'
    obtain ⟨n,hn,rfl⟩ := Option.map_eq_some_iff.mp hn'
    cases ho'
    rw [hn]
    exact .some hsame

theorem compareStringSlice_eq_true {l l' : List String} (h : compareStringSlice l l' = true) :
    (∀ x, x ∈ l ↔ x ∈ l') ∧ (l = [] ↔ l' = []) := by
  simp only [compareStringSlice, decide_eq_true_eq] at h
  obtain ⟨hlength,hcard,hsubset⟩ := h
  have heq := Finset.eq_of_subset_of_card_le hsubset hcard.ge
  refine ⟨fun x => by rw [← List.mem_toFinset, heq, List.mem_toFinset],?_⟩
  rw [← List.length_eq_zero_iff, hlength, List.length_eq_zero_iff]

/-! ## Contexts -/

section Contexts
variable (toLower : String → String)

theorem ContextOptions.eq_of_selects {c c' : ContextOptions} (hoption : c.option = c'.option)
    (hselects : ∀ k, c.selects k = c'.selects k) : c = c' := by
  have hip := hselects .ip
  have hns := hselects .ns
  have hpodname := hselects .podname
  have hworkload := hselects .workload
  have hservice := hselects .service
  have hport := hselects .port
  have hzone := hselects .zone
  cases c
  cases c'
  simp only [selects] at hip hns hpodname hworkload hservice hport hzone
  simp only at hoption
  simp [hoption, hip, hns, hpodname, hworkload, hservice, hport, hzone]

/-- A context is made of the set of its labels. -/
theorem newCtxOption_congr {l l' : List String} (h : ∀ x, x ∈ l ↔ x ∈ l') (option : CtxOptionType) :
    newCtxOption toLower l option = newCtxOption toLower l' option := by
  refine ContextOptions.eq_of_selects (by simp) fun k => ?_
  rw [Bool.eq_iff_iff, newCtxOption_selects, newCtxOption_selects]
  simp only [Requested, h]

/-- What a context without labels adds is nothing, so that a context may be missing as well. -/
theorem getD_map_congr {α : Type*} (part : ContextOptions → List α) {option : CtxOptionType}
    (hblank : part { option } = []) {l l' : Option (List String)} (h : compareStringSlice (l.getD []) (l'.getD []) = true) :
    (((l.map (newCtxOption toLower · option)).map part).getD [] : List α) =
      ((l'.map (newCtxOption toLower · option)).map part).getD [] := by
  have hgetD : ∀ l : Option (List String), ((l.map (newCtxOption toLower · option)).map part).getD [] =
      part (newCtxOption toLower (l.getD []) option) := by
    rintro (_ | l)
    · exact hblank.symm
    · rfl
  rw [hgetD, hgetD, newCtxOption_congr toLower (compareStringSlice_eq_true h).1]

end Contexts

/-! ## Objects -/

/-- Base objects that show the same labels and the same values in a remote context. -/
structure BaseMetricObject.Alike (b b' : BaseMetricObject) : Prop where
  advEnable : b.advEnable = b'.advEnable
  contextMode : b.contextMode = b'.contextMode
  ctxLabels : b.ctxLabels = b'.ctxLabels
  ctxValues : ∀ f, b.ctxValues f = b'.ctxValues f
  isReply : b.additionalLabels.contains isReplyLabel = b'.additionalLabels.contains isReplyLabel

namespace SpecOption
variable (toLower : String → String) (mode : EnrichmentContext) (kind : Kind) {old new : SpecOption}

def base (option : SpecOption) : BaseMetricObject :=
  newBaseMetricsObject toLower
    ⟨kind.name,option.sourceLabels,option.destinationLabels,option.additionalLabels⟩ mode

theorem Same.parts (h : old.Same new) :
    compareStringSlice (old.sourceLabels.getD []) (new.sourceLabels.getD []) = true ∧
    compareStringSlice (old.destinationLabels.getD []) (new.destinationLabels.getD []) = true ∧
    old.metricName = new.metricName ∧ old.ttl = new.ttl ∧
    compareStringSlice (old.additionalLabels.getD []) (new.additionalLabels.getD []) = true := by
  simpa [Same, sameOption, toConfig, and_assoc] using h

theorem Same.alike (h : old.Same new) : (old.base toLower mode kind).Alike (new.base toLower mode kind) := by
  obtain ⟨hsource,hdestination,-,-,hadditional⟩ := h.parts
  have hempty := (compareStringSlice_eq_true hsource).2
  have hempty' := (compareStringSlice_eq_true hdestination).2
  constructor
  · have hadv : ∀ option : SpecOption, (option.base toLower mode kind).advEnable =
        (kind.name.text != "" &&
          (!(option.sourceLabels.getD []).isEmpty || !(option.destinationLabels.getD []).isEmpty)) :=
      fun _ => newBaseMetricsObject_advEnable toLower _ mode
    rw [hadv, hadv, Bool.eq_iff_iff]
    simp only [Bool.and_eq_true, Bool.or_eq_true, Bool.not_eq_true', List.isEmpty_eq_false_iff, ne_eq, hempty, hempty']
  · rw [base, base, newBaseMetricsObject_contextMode, newBaseMetricsObject_contextMode]
  · cases mode with
    | localContext => exact congrArg (· ++ []) (getD_map_congr toLower ContextOptions.getLabels rfl hsource)
    | remoteContext =>
      exact congrArg₂ (· ++ ·) (getD_map_congr toLower ContextOptions.getLabels rfl hsource)
        (getD_map_congr toLower ContextOptions.getLabels rfl hdestination)
  · intro f
    cases mode with
    | localContext => exact congrArg (· ++ []) (getD_map_congr toLower (·.getValues f) rfl hsource)
    | remoteContext =>
      exact congrArg₂ (· ++ ·) (getD_map_congr toLower (·.getValues f) rfl hsource)
        (getD_map_congr toLower (·.getValues f) rfl hdestination)
  · rw [base, base, newBaseMetricsObject_additionalLabels, newBaseMetricsObject_additionalLabels, Bool.eq_iff_iff,
      List.contains_iff_mem, List.contains_iff_mem]
    exact (compareStringSlice_eq_true hadditional).1 isReplyLabel

/-- If the source labels are given for both or for none, the source contexts are equal. -/
theorem Same.srcCtx_eq (h : old.Same new) (hnone : old.sourceLabels = none ↔ new.sourceLabels = none) :
    (old.base toLower .localContext kind).srcCtx = (new.base toLower .localContext kind).srcCtx := by
  have hsource := h.parts.1
  change old.sourceLabels.map _ = new.sourceLabels.map _
  cases hold : old.sourceLabels with
  | none => rw [hnone.mp hold]
  | some l =>
    cases hnew : new.sourceLabels with
    | none => rw [hnone.mpr hnew] at hold; cases hold
    | some l' =>
      rw [hold, hnew] at hsource
      exact congrArg some (newCtxOption_congr toLower (compareStringSlice_eq_true hsource).1 _)

end SpecOption

def Kind.localCalls (name : String) (f : Flow) : Kind → Option ((Side → List String) → Calls)
  | forward => if f.verdict = .forwarded then some (sideCalls fun side => [[side.traffic]]) else none
  | drop => if f.verdict = .dropped then some (sideCalls fun side => [[dropReasonDescription f,side.traffic]]) else none
  | tcpFlags =>
    match f.verdict,f.l4 with
    | .forwarded,some (.tcp _ _ flags) =>
      if (Metrics.getFlagValues flags).isEmpty then none
      else some (sideCalls fun _ =>
        (TCPMetrics.combinedFlags (Metrics.getFlagValues flags) f).map fun flag => [flagText flag])
    | _,_ => none
  | tcpRetrans => if f.verdict = .retransmission then some (sideCalls fun side => [[side.traffic]]) else none
  | dns =>
    if f.verdict = .dns then
      some (DNSMetrics.localCalls f (DNSMetrics.getLabelsForProcessFlow (MetricObject.dnsName name) f))
    else none

theorem Kind.localCalls_blank {kind : Kind} {name : String} {f : Flow} {calls : (Side → List String) → Calls}
    (h : kind.localCalls name f = some calls) : calls (fun _ => []) = [] := by
  have hside : ∀ first, sideCalls first (fun _ => []) = [] := fun first => by simp [sideCalls]
  have hdns : ∀ labels, DNSMetrics.localCalls f labels (fun _ => []) = [] := fun labels => by
    simp [DNSMetrics.localCalls]
  cases kind with
  | tcpFlags =>
    simp only [localCalls] at h
    split at h
    · obtain ⟨-,⟨⟩⟩ := Option.ite_none_left_eq_some.mp h
      exact hside _
    · cases h
  | dns =>
    obtain ⟨-,⟨⟩⟩ := Option.ite_none_right_eq_some.mp h
    exact hdns _
  | _ =>
    obtain ⟨-,⟨⟩⟩ := Option.ite_none_right_eq_some.mp h
    exact hside _

/-- In a local context the values are all that an object reads of its base. -/
theorem MetricObject.updates_local {m : MetricObject} (hmode : m.base.contextMode = .localContext) (name : String)
    (f : Flow) : m.updates name f = (m.kind.localCalls name f).elim (some []) (m.base.withLocalCtxValues f) := by
  unfold updates
  cases m.kind with
  | forward =>
    by_cases h : f.verdict = .forwarded <;>
      simp [ForwardMetrics.processFlow, ForwardMetrics.processLocalCtxFlow, Kind.localCalls, hmode, h]
  | drop =>
    by_cases h : f.verdict = .dropped <;>
      simp [DropCountMetrics.processFlow, DropCountMetrics.processLocalCtxFlow, Kind.localCalls, hmode, h]
  | tcpFlags =>
    simp only [TCPMetrics.processFlow, TCPMetrics.processLocalCtxFlow, Kind.localCalls, hmode]
    grind
  | tcpRetrans =>
    by_cases h : f.verdict = .retransmission <;>
      simp [TCPRetransMetrics.processFlow, TCPRetransMetrics.processLocalCtxFlow, Kind.localCalls, hmode, h]
  | dns =>
    by_cases h : f.verdict = .dns <;>
      simp [DNSMetrics.processFlow, DNSMetrics.processLocalCtxFlow, Kind.localCalls, hmode, h]

namespace MetricObject
variable {m m' : MetricObject} (hkind : m.kind = m'.kind) (h : m.base.Alike m'.base)
include hkind h

theorem labels_congr (name : String) : m.labels name = m'.labels name := by
  unfold labels
  rw [hkind]
  cases m'.kind with
  | forward => simp only [ForwardMetrics.getLabels, h.advEnable, h.ctxLabels, h.isReply]
  | drop => simp only [DropCountMetrics.getLabels, h.ctxLabels]
  | tcpFlags => simp only [TCPMetrics.getLabels, h.ctxLabels]
  | tcpRetrans => simp only [TCPRetransMetrics.getLabels, h.ctxLabels]
  | dns =>
    simp only [DNSMetrics.getRequestLabels, DNSMetrics.getResponseLabels, h.ctxLabels]

theorem vector_congr (name : String) : m.vector name = m'.vector name := by
  rw [vector, vector, labels_congr hkind h, hkind]

theorem updates_congr (hsrc : m.base.contextMode = .localContext → m.base.srcCtx = m'.base.srcCtx) (name : String)
    (f : Flow) : m.updates name f = m'.updates name f := by
  cases hmode : m.base.contextMode with
  | localContext =>
    have hlocal : m.base.withLocalCtxValues f = m'.base.withLocalCtxValues f := by
      funext calls
      rw [BaseMetricObject.withLocalCtxValues, hsrc hmode, BaseMetricObject.withLocalCtxValues]
    rw [updates_local hmode, updates_local (h.contextMode ▸ hmode), hkind, hlocal]
  | remoteContext =>
    have hmode' := h.contextMode ▸ hmode
    unfold updates
    rw [hkind]
    cases m'.kind <;>
      simp only [ForwardMetrics.processFlow, DropCountMetrics.processFlow, TCPMetrics.processFlow,
        TCPRetransMetrics.processFlow, DNSMetrics.processFlow, hmode, hmode', h.advEnable, h.ctxValues, h.isReply,
        reduceCtorEq, if_false]

theorem react_congr (hsrc : m.base.contextMode = .localContext → m.base.srcCtx = m'.base.srcCtx) (name : String)
    (f : Flow) : m.react name f = m'.react name f := by
  rw [react, react, updates_congr hkind h hsrc, vector_congr hkind h, hkind]

end MetricObject

/-! ## Flows that find the source context missing -/

def Kind.probe : Kind → Flow
  | forward => { verdict := .forwarded }
  | drop => { verdict := .dropped }
  | tcpFlags => { verdict := .forwarded, l4 := some (.tcp 0 0 (some fun _ => true)) }
  | tcpRetrans => { verdict := .retransmission }
  | dns => { verdict := .dns }

theorem Kind.exists_localCalls_probe (kind : Kind) (name : String) :
    ∃ calls, kind.localCalls name kind.probe = some calls := by
  cases kind <;> exact ⟨_,rfl⟩

namespace MetricObject
variable {m : MetricObject} (hmode : m.base.contextMode = .localContext)
include hmode

theorem react_probe_of_none (h : m.base.srcCtx = none) (name : String) : m.react name m.kind.probe = none := by
  obtain ⟨calls,hcalls⟩ := m.kind.exists_localCalls_probe name
  have hupdates : m.updates name m.kind.probe = none := by
    rw [updates_local hmode, hcalls, Option.elim_some, BaseMetricObject.withLocalCtxValues, h, Option.map_none]
  rw [react, hupdates]

theorem react_probe_of_blank (h : m.base.srcCtx = some { option := .localCtx }) (name : String) :
    m.react name m.kind.probe = some [] := by
  obtain ⟨calls,hcalls⟩ := m.kind.exists_localCalls_probe name
  have hlocal : m.base.withLocalCtxValues m.kind.probe calls = some (calls fun _ => []) := by
    rw [BaseMetricObject.withLocalCtxValues, h]
    simp [ContextOptions.getLocalCtxValues, ContextOptions.getByDirectionValues]
  have hupdates : m.updates name m.kind.probe = some [] := by
    rw [updates_local hmode, hcalls, Option.elim_some, hlocal, Kind.localCalls_blank hcalls]
  rw [react, hupdates]
  cases m.vector name <;> simp

end MetricObject

namespace SpecOption
variable (toLower : String → String) (kind : Kind) (option : SpecOption) (ttl : ℤ) (name : String)

theorem react_probe_of_missing (h : option.sourceLabels = none) :
    (option.object toLower .localContext kind ttl).react name kind.probe = none :=
  MetricObject.react_probe_of_none (newBaseMetricsObject_contextMode toLower _ _)
    (congrArg (Option.map (newCtxOption toLower · .localCtx)) h) name

theorem react_probe_of_given (h : option.sourceLabels ≠ none) (hempty : option.sourceLabels.getD [] = []) :
    (option.object toLower .localContext kind ttl).react name kind.probe = some [] := by
  have hgiven : option.sourceLabels = some [] := by
    obtain ⟨l,hl⟩ := Option.ne_none_iff_exists'.mp h
    rw [hl] at hempty ⊢
    exact congrArg some hempty
  exact MetricObject.react_probe_of_blank (newBaseMetricsObject_contextMode toLower _ _)
    (congrArg (Option.map (newCtxOption toLower · .localCtx)) hgiven) name

/-- If the flow makes no difference, the source labels are missing on both sides or on none. -/
theorem Same.missing_iff {old new : SpecOption} (h : old.Same new) (ttl ttl' : ℤ)
    (hreact : (old.object toLower .localContext kind ttl).react name kind.probe =
      (new.object toLower .localContext kind ttl').react name kind.probe) :
    old.sourceLabels = none ↔ new.sourceLabels = none := by
  have hempty := (compareStringSlice_eq_true h.parts.1).2
  constructor
  · intro hnone
    by_contra hsome
    rw [hnone] at hempty
    rw [old.react_probe_of_missing toLower kind ttl name hnone,
      new.react_probe_of_given toLower kind ttl' name hsome (hempty.mp rfl)] at hreact
    cases hreact
  · intro hnone
    by_contra hsome
    rw [hnone] at hempty
    rw [old.react_probe_of_given toLower kind ttl name hsome (hempty.mpr rfl),
      new.react_probe_of_missing toLower kind ttl' name hnone] at hreact
    cases hreact

end SpecOption

/-! ## Registries -/

/-- Registries with the same keys, and under each key with the same type, duration, vector and reaction to every flow. -/
structure Registry.Same (r r' : Registry) : Prop where
  keys : r.objects.keys = r'.objects.keys
  hasLatency : r.hasLatency = r'.hasLatency
  latency : r.lm = r'.lm
  objects : ∀ name m m', r.objects.lookup name = some m → r'.objects.lookup name = some m' →
    m.kind = m'.kind ∧ m.ttl = m'.ttl ∧ m.vector name = m'.vector name ∧ ∀ f, m.react name f = m'.react name f

/-- Where an object is made, the source labels are missing in both of the last options or in none. -/
def SourcesAgree (toLower : String → String) (old new : List SpecOption) : Prop :=
  ∀ name kind o n, served toLower name = .object kind → lastOption old name = some o → lastOption new name = some n →
    (o.sourceLabels = none ↔ n.sourceLabels = none)

section Registries
variable (toLower : String → String) (parseDuration : String → Except String ℤ) (mode : EnrichmentContext)
variable (lm : LatencyMetrics) {old new : List SpecOption} (h : metricsContextOptionsCompare old new = true)
include h

theorem lastOption_eq_none_iff (name : String) : lastOption old name = none ↔ lastOption new name = none := by
  have hrel := rel_lastOption h name
  generalize lastOption old name = o, lastOption new name = n at hrel
  cases hrel <;> simp

theorem mem_latencyNames_iff (name : String) :
    name ∈ Registry.latencyNames toLower old ↔ name ∈ Registry.latencyNames toLower new := by
  have hnames : (∃ option ∈ old, option.metricName = name) ↔ ∃ option ∈ new, option.metricName = name := by
    have hnone := not_congr (lastOption_eq_none_iff h name)
    simpa [Registry.lastOption_eq_none] using hnone
  simp only [Registry.latencyNames, List.mem_filter, List.mem_map, hnames]

theorem lookup_objects_cases {name : String} {m m' : MetricObject}
    (hm : (old.foldl (Registry.add toLower parseDuration mode) { lm := lm }).objects.lookup name = some m)
    (hm' : (new.foldl (Registry.add toLower parseDuration mode) { lm := lm }).objects.lookup name = some m') :
    ∃ kind o n, served toLower name = .object kind ∧ lastOption old name = some o ∧ lastOption new name = some n ∧
      o.Same n ∧ m = o.object toLower mode kind ((ttlOf parseDuration o).getD 0) ∧
      m' = n.object toLower mode kind ((ttlOf parseDuration n).getD 0) := by
  rw [Registry.lookup_objects] at hm hm'
  have hrel := rel_lastOption h name
  cases hserved : served toLower name with
  | object kind =>
    rw [hserved] at hm hm'
    obtain ⟨o,ho,rfl⟩ := Option.map_eq_some_iff.mp hm
    obtain ⟨n,hn,rfl⟩ := Option.map_eq_some_iff.mp hm'
    rw [ho, hn, Option.rel_some_some] at hrel
    exact ⟨kind,o,n,rfl,ho,hn,hrel,rfl,rfl⟩
  | latency => rw [hserved] at hm; cases hm
  | nothing => rw [hserved] at hm; cases hm

theorem keys_objects_eq : (old.foldl (Registry.add toLower parseDuration mode) { lm := lm }).objects.keys =
    (new.foldl (Registry.add toLower parseDuration mode) { lm := lm }).objects.keys := by
  ext name
  simp only [Finmap.mem_keys, ← Finmap.lookup_isSome, Registry.lookup_objects]
  have hnone := lastOption_eq_none_iff h name
  cases served toLower name with
  | object kind =>
    rw [Option.isSome_map, Option.isSome_map, ← Option.ne_none_iff_isSome, ← Option.ne_none_iff_isSome]
    exact not_congr hnone
  | latency => rfl
  | nothing => rfl

theorem latency_eq :
    (old.foldl (Registry.add toLower parseDuration mode) { lm := lm }).hasLatency =
      (new.foldl (Registry.add toLower parseDuration mode) { lm := lm }).hasLatency ∧
    (old.foldl (Registry.add toLower parseDuration mode) { lm := lm }).lm =
      (new.foldl (Registry.add toLower parseDuration mode) { lm := lm }).lm := by
  have hmem := mem_latencyNames_iff toLower h
  have hempty : (Registry.latencyNames toLower old).isEmpty = (Registry.latencyNames toLower new).isEmpty := by
    rw [Bool.eq_iff_iff, List.isEmpty_iff, List.isEmpty_iff, List.eq_nil_iff_forall_not_mem,
      List.eq_nil_iff_forall_not_mem]
    exact forall_congr' fun name => not_congr (hmem name)
  obtain ⟨hhas,hlm⟩ := Registry.foldl_add_latency toLower parseDuration mode { lm := lm } old
  obtain ⟨hhas',hlm'⟩ := Registry.foldl_add_latency toLower parseDuration mode { lm := lm } new
  rw [hhas, hhas', hlm, hlm', hempty, Registry.foldl_addLatency, Registry.foldl_addLatency]
  simp only [hmem, and_self]

/-- Without a crash the registries are the same unless source labels are missing on one side in a local context. -/
theorem same_iff_sourcesAgree :
    (old.foldl (Registry.add toLower parseDuration mode) { lm := lm }).initLatency.Same
        (new.foldl (Registry.add toLower parseDuration mode) { lm := lm }).initLatency ↔
      (mode = .localContext → SourcesAgree toLower old new) := by
  constructor
  · rintro hsame rfl name kind o n hserved ho hn
    have hrel := rel_lastOption h name
    rw [ho, hn, Option.rel_some_some] at hrel
    have hlookup : ∀ {options : List SpecOption} {o}, lastOption options name = some o →
        (options.foldl (Registry.add toLower parseDuration .localContext) { lm := lm }).objects.lookup name =
          some (o.object toLower .localContext kind ((ttlOf parseDuration o).getD 0)) := fun ho => by
      rw [Registry.lookup_objects, hserved, ho]
      rfl
    have hreact := (hsame.objects name _ _ (hlookup ho) (hlookup hn)).2.2.2 kind.probe
    exact hrel.missing_iff toLower kind name _ _ hreact
  · intro hsources
    refine ⟨keys_objects_eq toLower parseDuration mode lm h,(latency_eq toLower parseDuration mode lm h).1,?_,?_⟩
    · rw [Registry.initLatency, Registry.initLatency, (latency_eq toLower parseDuration mode lm h).2]
    · intro name m m' hm hm'
      obtain ⟨kind,o,n,hserved,ho,hn,hsame,rfl,rfl⟩ := lookup_objects_cases toLower parseDuration mode lm h hm hm'
      have halike := hsame.alike toLower mode kind
      have httl : ttlOf parseDuration o = ttlOf parseDuration n := by
        rw [ttlOf, ttlOf, hsame.parts.2.2.2.1]
      rw [httl]
      have hkind : (o.object toLower mode kind ((ttlOf parseDuration n).getD 0)).kind =
          (n.object toLower mode kind ((ttlOf parseDuration n).getD 0)).kind := rfl
      refine ⟨hkind,rfl,MetricObject.vector_congr hkind halike name,MetricObject.react_congr hkind halike ?_ name⟩
      intro hmode
      obtain rfl : mode = .localContext := (newBaseMetricsObject_contextMode toLower _ mode).symm.trans hmode
      exact hsame.srcCtx_eq toLower kind (hsources rfl name kind o n hserved ho hn)

/-- Options that are not told apart build the same registry if and only if either both or none of them ask for a vector
twice, and, in a local context, no metric has source labels that are missing on one side and empty on the other. -/
theorem unchanged_spec_iff (registrar : Registrar String) (order order' : FiniteMap.Order String)
    (hvalid : ∀ option ∈ old, ttlOf parseDuration option ≠ none)
    (hvalid' : ∀ option ∈ new, ttlOf parseDuration option ≠ none) :
    Option.Rel Registry.Same (Registry.updateMetricsContexts registrar toLower parseDuration mode order lm old)
        (Registry.updateMetricsContexts registrar toLower parseDuration mode order' lm new) ↔
      (Registry.Collides toLower old ↔ Registry.Collides toLower new) ∧
        (mode = .localContext → ¬Registry.Collides toLower old → SourcesAgree toLower old new) := by
  obtain ⟨hnone,hsome⟩ := Registry.updateMetricsContexts_eq toLower parseDuration mode registrar order lm hvalid
  obtain ⟨hnone',hsome'⟩ := Registry.updateMetricsContexts_eq toLower parseDuration mode registrar order' lm hvalid'
  by_cases hold : Registry.Collides toLower old <;> by_cases hnew : Registry.Collides toLower new
  · simp [hnone hold, hnone' hnew, hold, hnew]
  · simp [hnone hold, hsome' hnew, hold, hnew]
  · simp [hsome hold, hnone' hnew, hold, hnew]
  · rw [hsome hold, hsome' hnew, Option.rel_some_some, same_iff_sourcesAgree toLower parseDuration mode lm h]
    simp [hold, hnew]

end Registries

def dropOption (sourceLabels : Option (List String)) : SpecOption := { metricName := "drop_count", sourceLabels }

def latencyOption : SpecOption := { metricName := "node_apiserver_latency" }

def sampleBuild (registrar : Registrar String) (order : FiniteMap.Order String) (options : List SpecOption) :
    Option Registry :=
  Registry.updateMetricsContexts registrar id (fun _ => .ok 0) .localContext order {} options

theorem valid_sampleBuild (options : List SpecOption) : ∀ option ∈ options, ttlOf (fun _ => .ok 0) option ≠ none := by
  intro option _
  unfold ttlOf
  split <;> nofun

theorem sampleBuild_eq (registrar : Registrar String) (order : FiniteMap.Order String) (options : List SpecOption) :
    (Registry.Collides id options → sampleBuild registrar order options = none) ∧
    (¬Registry.Collides id options → sampleBuild registrar order options =
      some (options.foldl (Registry.add id (fun _ => .ok 0) .localContext) { lm := {} }).initLatency) :=
  Registry.updateMetricsContexts_eq id (fun _ => .ok 0) .localContext registrar order {} (valid_sampleBuild options)

theorem not_collides_singleton (option : SpecOption) : ¬Registry.Collides id [option] := by
  rintro (hnodup | ⟨o,ho,n,hn,hne,-⟩)
  · cases hvector : Registry.vectorAtOnce id option <;> simp [hvector] at hnodup
  · rw [List.mem_singleton] at ho hn
    exact hne (by rw [ho, hn])

theorem unchanged_spec_reordered_labels :
    let old := [dropOption (some ["ip","podname"])]
    let new := [dropOption (some ["podname","ip"])]
    let order := FiniteMap.Order.arbitrary String
    metricsContextOptionsCompare old new = true ∧
      Option.Rel Registry.Same (sampleBuild .once order old) (sampleBuild .once order new) := by
  intro old new order
  have hcompare : metricsContextOptionsCompare old new = true := by decide +kernel
  have hlast : ∀ {option o : SpecOption} {name}, lastOption [option] name = some o → o = option := fun ho => by
    simpa using List.mem_of_find?_eq_some ho
  refine ⟨hcompare,(unchanged_spec_iff id (fun _ => .ok 0) .localContext {} hcompare .once order order
    (valid_sampleBuild old) (valid_sampleBuild new)).mpr
      ⟨iff_of_false (not_collides_singleton _) (not_collides_singleton _),?_⟩⟩
  intro _ _ name kind o n _ ho hn
  rw [hlast ho, hlast hn]
  exact iff_of_false nofun nofun

def reactToDrop (r : Registry) : Option (Option Calls) :=
  (r.objects.lookup "drop_count").map (·.react "drop_count" Kind.drop.probe)

/-- Missing source labels are taken for empty ones, and a dropped packet then crashes one module only. A latency that is
asked for twice crashes the module at once, and the comparison looks at its last option only. -/
theorem unchanged_spec_crashes_one :
    (metricsContextOptionsCompare [dropOption none] [dropOption (some [])] = true ∧
      ∀ registrar order, (sampleBuild registrar order [dropOption none]).map reactToDrop = some (some none) ∧
        (sampleBuild registrar order [dropOption (some [])]).map reactToDrop = some (some (some []))) ∧
    metricsContextOptionsCompare [latencyOption,latencyOption,dropOption (some ["ip"])]
        [latencyOption,dropOption (some ["ip"]),dropOption (some ["ip"])] = true ∧
      ∀ registrar order, sampleBuild registrar order [latencyOption,latencyOption,dropOption (some ["ip"])] = none ∧
        (sampleBuild registrar order [latencyOption,dropOption (some ["ip"]),dropOption (some ["ip"])]).isSome := by
  have hlatency : ¬Registry.Collides id [latencyOption,dropOption (some ["ip"]),dropOption (some ["ip"])] := by
    have hnone : Registry.vectorOf id latencyOption.metricName = none := by decide +kernel
    rintro (hnodup | ⟨o,ho,n,hn,hne,v,hv,hv'⟩)
    · exact hnodup (by decide +kernel)
    · simp only [List.mem_cons, List.not_mem_nil, or_false, or_self] at ho hn
      rcases ho with rfl | rfl
      · cases hnone.symm.trans hv
      rcases hn with rfl | rfl
      · cases hnone.symm.trans hv'
      · exact hne rfl
  refine ⟨⟨by decide +kernel,fun registrar order => ⟨?_,?_⟩⟩,by decide +kernel,fun registrar order => ⟨?_,?_⟩⟩
  · rw [(sampleBuild_eq registrar order _).2 (not_collides_singleton _)]
    decide +kernel
  · rw [(sampleBuild_eq registrar order _).2 (not_collides_singleton _)]
    decide +kernel
  · exact (sampleBuild_eq registrar order _).1 (.inl (by decide +kernel))
  · rw [(sampleBuild_eq registrar order _).2 hlatency]
    rfl

end Retina.Labels
