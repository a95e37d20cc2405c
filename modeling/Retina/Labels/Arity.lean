import Retina.Labels.AdvancedMetrics

/-! # Label arity

A call of `WithLabelValues` panics unless it passes one value for each name of the vector.
Three things get in the way: a port that the flow does not have, source labels that were
not given although the local context relies on them, and the reply label, which the local
context announces and does not set.
-/
namespace Retina.Labels
open Conntrack Metrics

/-! ## Values in the position of their labels -/

/-- Whose labels a call sets: those of both ends, or those of the pod at one of them. -/
inductive Viewpoint where
  | both | pod (side : Side)

def Viewpoint.mode : Viewpoint → EnrichmentContext
  | both => .remoteContext
  | pod _ => .localContext

def Viewpoint.sideOf (view : Viewpoint) : CtxOptionType → Side
  | .source => .source
  | .destination => .destination
  | .localCtx => match view with
    | both => .source
    | pod side => side

/-- What each label stands for. -/
def meaning (f : Flow) (view : Viewpoint) (flag : FlagName) : Label → String
  | .direction => match view with
    | .both => trafficDirectionString f.trafficDirection
    | .pod side => side.traffic
  | .isReply => formatBool f.isReply
  | .reason => dropReasonDescription f
  | .flag => flagText flag
  | .queryType => (f.dns.map fun dns => ",".intercalate dns.qtypes).getD ""
  | .query => (f.dns.map DNS.query).getD ""
  | .returnCode => dnsRcodeToString f
  | .response => (f.dns.map fun dns => ",".intercalate dns.ips).getD ""
  | .numResponse => toString (getDNS f).2.2.toNat
  | .context option field => f.read (view.sideOf option) field

def Fits (labels : List Label) (f : Flow) (mode : EnrichmentContext) (values : List String) : Prop :=
  ∃ view flag, Viewpoint.mode view = mode ∧ values = labels.map (meaning f view flag)

def LabelsMatch (toLower : String → String) (options : MetricsContextOptions) (mode : EnrichmentContext)
    (f : Flow) : Prop :=
  ∃ calls, processFlow options.metricName (newBaseMetricsObject toLower options mode) f = some calls ∧
    ∀ values ∈ calls, Fits (getLabels options.metricName (newBaseMetricsObject toLower options mode)) f mode values

/-! ## Which flows a metric counts -/

def Flow.HasFlags (f : Flow) : Prop :=
  ∃ sourcePort destinationPort flags, f.l4 = some (.tcp sourcePort destinationPort flags) ∧ getFlagValues flags ≠ []

/-- The flow passes the checks ahead of the context mode. -/
def Reaches (name : MetricName) (f : Flow) : Prop :=
  f.verdict = name.verdict ∧ (name = .tcpFlag → f.HasFlags)

def Counts (name : MetricName) (f : Flow) : Prop :=
  Reaches name f ∧ (name = .dnsRequest → (getDNS f).2.1 = .query) ∧ (name = .dnsResponse → (getDNS f).2.1 = .response)

section Shape
variable (toLower : String → String) (options : MetricsContextOptions) (mode : EnrichmentContext) (f : Flow)

/-! ## The values of the own labels -/

def Viewpoint.direction (f : Flow) : Viewpoint → String
  | both => trafficDirectionString f.trafficDirection
  | pod side => side.traffic

def flagsOf (f : Flow) : List FlagName :=
  match f.l4 with
  | some (.tcp _ _ tcpFlags) =>
    if (getFlagValues tcpFlags).isEmpty then [] else TCPMetrics.combinedFlags (getFlagValues tcpFlags) f
  | _ => []

/-- The values of the labels of the metric itself, call by call. There are none if the
metric does not count the flow. -/
def ownCalls (name : MetricName) (f : Flow) (view : Viewpoint) : Calls :=
  if f.verdict ≠ name.verdict then []
  else match name with
    | .forwardPackets | .forwardBytes | .tcpRetrans => [[view.direction f]]
    | .droppedPackets | .dropBytes => [[dropReasonDescription f, view.direction f]]
    | .tcpFlag => (flagsOf f).map fun flag => [flagText flag]
    | .dnsRequest | .dnsResponse =>
      if (DNSMetrics.getLabelsForProcessFlow name f).isEmpty then []
      else [DNSMetrics.getLabelsForProcessFlow name f]

def extraValues (name : MetricName) (b : BaseMetricObject) (f : Flow) : List String :=
  if name.isForward && b.advEnable && b.additionalLabels.contains isReplyLabel then [formatBool f.isReply] else []

theorem map_extraLabels (name : MetricName) (b : BaseMetricObject) (f : Flow) (view : Viewpoint) (flag : FlagName) :
    (extraLabels name b).map (meaning f view flag) = extraValues name b f := by
  unfold extraLabels extraValues
  split <;> rfl

theorem mem_combinedFlags {tcpFlags : TcpFlags} {flag : FlagName} (h : flag ∈ getFlagValues (some tcpFlags)) :
    flag ∈ TCPMetrics.combinedFlags (getFlagValues (some tcpFlags)) f := by
  have hmem : flag ∈ TCPMetrics.flagNames := by rcases flag with ⟨_ | _⟩ | _ <;> decide
  refine List.mem_filter.2 ⟨hmem, ?_⟩
  rw [combineFlagsWithPrevious, foldl_bumpFlag (getFlagValues_nodup tcpFlags), if_pos h]
  simp [bumpFlag]

theorem flagsOf_ne_nil_iff : flagsOf f ≠ [] ↔ f.HasFlags := by
  rcases hl4 : f.l4 with _ | ⟨_, _, _ | tcpFlags⟩ | _ | _
  case some.tcp.some =>
    cases hflags : getFlagValues (some tcpFlags) with
    | nil => simp [flagsOf, Flow.HasFlags, hl4, hflags]
    | cons flag flags =>
      have hmem : flag ∈ TCPMetrics.combinedFlags (getFlagValues (some tcpFlags)) f :=
        mem_combinedFlags f (by simp [hflags])
      rw [hflags] at hmem
      simpa [flagsOf, Flow.HasFlags, hl4, hflags] using List.ne_nil_of_mem hmem
  all_goals simp [flagsOf, Flow.HasFlags, hl4, getFlagValues]

theorem getDNS_fst : (getDNS f).1 = f.dns := by
  unfold getDNS
  split <;> simp_all

theorem getDNS_of_none (h : f.dns = none) : getDNS f = (none, .unknown, 0) := by simp [getDNS, h]

/-- The values are those of the kind of message the metric is about, or none. -/
theorem getLabelsForProcessFlow_eq {name : MetricName} (hname : name = .dnsRequest ∨ name = .dnsResponse)
    (view : Viewpoint) (flag : FlagName) : DNSMetrics.getLabelsForProcessFlow name f =
      if (getDNS f).2.1 = (if name = .dnsRequest then .query else .response)
      then name.ownLabels.map (meaning f view flag) else [] := by
  cases hdns : f.dns with
  | none =>
    rcases hname with rfl | rfl <;> simp [DNSMetrics.getLabelsForProcessFlow, getDNS_of_none f hdns]
  | some dns =>
    have hfst := getDNS_fst f
    rcases hget : getDNS f with ⟨flowDNS, dnsType, numResponses⟩
    obtain rfl : flowDNS = some dns := by simpa [hget, hdns] using hfst
    rcases hname with rfl | rfl <;> cases dnsType <;>
      simp [DNSMetrics.getLabelsForProcessFlow, DNSMetrics.requestValues, DNSMetrics.responseValues,
        DNSMetrics.ignores, MetricName.ownLabels, meaning, hget, hdns]

theorem mem_ownCalls {name : MetricName} {f : Flow} {view : Viewpoint} {own : List String}
    (h : own ∈ ownCalls name f view) : ∃ flag, own = name.ownLabels.map (meaning f view flag) := by
  unfold ownCalls at h
  split at h
  · simp at h
  · cases name
    case tcpFlag =>
      obtain ⟨flag, _, rfl⟩ := List.mem_map.1 h
      exact ⟨flag, rfl⟩
    case dnsRequest | dnsResponse =>
      refine ⟨.synack, ?_⟩
      rw [getLabelsForProcessFlow_eq f (by simp) view .synack] at h
      split at h <;> simp_all
    all_goals
      cases view <;> exact ⟨.synack, List.mem_singleton.1 h⟩

theorem ownCalls_ne_nil_iff (name : MetricName) (view : Viewpoint) : ownCalls name f view ≠ [] ↔ Counts name f := by
  by_cases hverdict : f.verdict = name.verdict
  · cases name
    case tcpFlag => simp [ownCalls, Counts, Reaches, hverdict, ← flagsOf_ne_nil_iff]
    case dnsRequest | dnsResponse =>
      simp [ownCalls, Counts, Reaches, hverdict, getLabelsForProcessFlow_eq f _ view .synack, MetricName.ownLabels]
    all_goals simp [ownCalls, Counts, Reaches, hverdict]
  · simp [ownCalls, Counts, Reaches, hverdict]

theorem processFlow_of_not_reaches {name : MetricName} (b : BaseMetricObject) {f : Flow} (h : ¬ Reaches name f) :
    processFlow name b f = some [] := by
  by_cases hverdict : f.verdict = name.verdict
  · -- Only the flags can have stopped the flow.
    obtain rfl : name = .tcpFlag := by_contra fun hne => h ⟨hverdict, fun heq => absurd heq hne⟩
    have hflags : ∀ sourcePort destinationPort flags, f.l4 = some (.tcp sourcePort destinationPort flags) →
        getFlagValues flags = [] := by
      intro sourcePort destinationPort flags hl4
      exact by_contra fun hne => h ⟨hverdict, fun _ => ⟨_, _, _, hl4, hne⟩⟩
    rcases hl4 : f.l4 with _ | ⟨_, _, tcpFlags⟩ | _ | _
    case some.tcp => simp [processFlow, TCPMetrics.processFlow, hl4, hflags _ _ _ hl4]
    all_goals simp [processFlow, TCPMetrics.processFlow, hl4]
  · cases name <;> simp only [MetricName.verdict] at hverdict <;>
      simp [processFlow, ForwardMetrics.processFlow, DropCountMetrics.processFlow, TCPMetrics.processFlow,
        TCPRetransMetrics.processFlow, DNSMetrics.processFlow, hverdict]

theorem ownCalls_of_not_reaches {name : MetricName} {f : Flow} (h : ¬ Reaches name f) (view : Viewpoint) :
    ownCalls name f view = [] :=
  by_contra fun hne => h ((ownCalls_ne_nil_iff f name view).1 hne).1

theorem processFlow_remote :
    processFlow options.metricName (newBaseMetricsObject toLower options .remoteContext) f =
      some ((ownCalls options.metricName f .both).map (· ++
        (newBaseMetricsObject toLower options .remoteContext).ctxValues f ++
        extraValues options.metricName (newBaseMetricsObject toLower options .remoteContext) f)) := by
  have hempty : options.isAdvanced = false → _ := ctxValues_of_not_isAdvanced toLower options .remoteContext f
  by_cases hreach : Reaches options.metricName f
  · obtain ⟨hverdict, -⟩ := hreach
    cases hname : options.metricName with
    | forwardPackets | forwardBytes =>
      simp only [hname, MetricName.verdict] at hverdict
      cases hadv : options.isAdvanced <;>
        simp [processFlow, ForwardMetrics.processFlow, ownCalls, extraValues, MetricName.verdict, MetricName.isForward,
          Viewpoint.direction, hverdict, hadv, hempty]
    | droppedPackets | dropBytes =>
      simp only [hname, MetricName.verdict] at hverdict
      cases hadv : options.isAdvanced <;>
        simp [processFlow, DropCountMetrics.processFlow, ownCalls, extraValues, MetricName.verdict,
          MetricName.isForward, Viewpoint.direction, hverdict, hadv, hempty]
    | tcpFlag =>
      simp only [hname, MetricName.verdict] at hverdict
      rcases hl4 : f.l4 with _ | ⟨_, _, tcpFlags⟩ | _ | _ <;>
        simp [processFlow, TCPMetrics.processFlow, ownCalls, flagsOf, extraValues, MetricName.verdict,
          MetricName.isForward, hverdict, hl4]
      split <;> simp
    | tcpRetrans =>
      simp only [hname, MetricName.verdict] at hverdict
      simp [processFlow, TCPRetransMetrics.processFlow, ownCalls, extraValues, MetricName.verdict,
        MetricName.isForward, Viewpoint.direction, hverdict]
    | dnsRequest | dnsResponse =>
      simp only [hname, MetricName.verdict] at hverdict
      simp [processFlow, DNSMetrics.processFlow, ownCalls, extraValues, MetricName.verdict, MetricName.isForward,
        hverdict]
      split <;> simp
  · simp [processFlow_of_not_reaches _ hreach, ownCalls_of_not_reaches hreach]

/-! ## One pod at a time -/

def podValues (c : ContextOptions) (f : Flow) (side : Side) : List String :=
  if ContextOptions.hasPod f side then c.getByDirectionValues f side else []

/-- The calls are about pods with values, and they leave out no flow that the metric counts. -/
structure PodCalls (name : MetricName) (f : Flow) (values : Side → List String) (calls : Calls) : Prop where
  sound : ∀ call ∈ calls, ∃ side, values side ≠ [] ∧ ∃ own ∈ ownCalls name f (.pod side), call = own ++ values side
  complete : ∀ side, values side ≠ [] → ownCalls name f (.pod side) ≠ [] → calls ≠ []

theorem podCalls_sideCalls (name : MetricName) (values : Side → List String) :
    PodCalls name f values (sideCalls (fun side => ownCalls name f (.pod side)) values) where
  sound call h := by
    obtain ⟨side, _, hcall⟩ := List.mem_flatMap.1 h
    by_cases hvalues : values side = []
    · simp [hvalues] at hcall
    · simp only [List.isEmpty_iff, hvalues, if_false, List.mem_map] at hcall
      obtain ⟨own, hown, rfl⟩ := hcall
      exact ⟨side, hvalues, own, hown, rfl⟩
  complete side hvalues hown := by
    obtain ⟨own, hown⟩ := List.exists_mem_of_ne_nil _ hown
    refine List.ne_nil_of_mem (a := own ++ values side) (List.mem_flatMap.2 ⟨side, by cases side <;> simp, ?_⟩)
    simpa [hvalues] using hown

theorem podCalls_nil {name : MetricName} {f : Flow} (h : ∀ view, ownCalls name f view = [])
    (values : Side → List String) : PodCalls name f values [] where
  sound call hcall := by simp at hcall
  complete side _ hown := absurd (h _) hown

theorem podCalls_localCalls {name : MetricName} {f : Flow} {labels : List String}
    (hown : ∀ view, ownCalls name f view = if labels.isEmpty then [] else [labels]) (values : Side → List String) :
    PodCalls name f values (DNSMetrics.localCalls f labels values) := by
  by_cases hlabels : labels = []
  · subst hlabels
    exact podCalls_nil hown values
  · simp only [List.isEmpty_iff, hlabels, if_false] at hown
    constructor
    · intro call h
      simp only [hown, List.mem_singleton, exists_eq_left]
      unfold DNSMetrics.localCalls at h
      grind
    · intro side hvalues _
      unfold DNSMetrics.localCalls
      cases side <;> grind

theorem withLocalCtxValues_eq {b : BaseMetricObject} {c : ContextOptions} (hc : b.srcCtx = some c)
    (hoption : c.option = .localCtx) (calls : (Side → List String) → Calls) :
    b.withLocalCtxValues f calls = some (calls (podValues c f)) := by
  have hvalues : c.getLocalCtxValues f = some (podValues c f) := if_neg (not_not.2 hoption)
  simp [BaseMetricObject.withLocalCtxValues, hc, hvalues]

theorem processFlow_local (name : MetricName) {b : BaseMetricObject} {c : ContextOptions}
    (hmode : b.contextMode = .localContext) (hc : b.srcCtx = some c) (hoption : c.option = .localCtx) :
    ∃ calls, processFlow name b f = some calls ∧ PodCalls name f (podValues c f) calls := by
  have hlocal := withLocalCtxValues_eq f hc hoption
  by_cases hreach : Reaches name f
  · obtain ⟨hverdict, hflags⟩ := hreach
    cases name
    case dnsRequest | dnsResponse =>
      refine ⟨_, ?_, podCalls_localCalls (fun view => if_neg (not_not.2 hverdict)) _⟩
      simp [processFlow, DNSMetrics.processFlow, DNSMetrics.processLocalCtxFlow, hmode, hlocal, hverdict,
        MetricName.verdict]
    case tcpFlag =>
      obtain ⟨_, _, tcpFlags, hl4, hflags⟩ := hflags rfl
      refine ⟨_, ?_, podCalls_sideCalls f _ _⟩
      simp [processFlow, TCPMetrics.processFlow, TCPMetrics.processLocalCtxFlow,
        MetricName.verdict, ownCalls, flagsOf, hmode, hlocal, hverdict, hl4, hflags]
    all_goals
      refine ⟨_, ?_, podCalls_sideCalls f _ _⟩
      simp [processFlow, ForwardMetrics.processFlow, ForwardMetrics.processLocalCtxFlow, DropCountMetrics.processFlow,
        DropCountMetrics.processLocalCtxFlow, TCPRetransMetrics.processFlow, TCPRetransMetrics.processLocalCtxFlow,
        MetricName.verdict, ownCalls, Viewpoint.direction, hmode, hlocal, hverdict]
  · exact ⟨[], processFlow_of_not_reaches b hreach, podCalls_nil (ownCalls_of_not_reaches hreach) _⟩

theorem processFlow_local_of_none {name : MetricName} {b : BaseMetricObject} {f : Flow} (hreach : Reaches name f)
    (hmode : b.contextMode = .localContext) (hc : b.srcCtx = none) : processFlow name b f = none := by
  have hlocal : ∀ calls, b.withLocalCtxValues f calls = none := fun calls => by
    simp [BaseMetricObject.withLocalCtxValues, hc]
  obtain ⟨hverdict, hflags⟩ := hreach
  cases name
  case tcpFlag =>
    obtain ⟨_, _, tcpFlags, hl4, hflags⟩ := hflags rfl
    simp [processFlow, TCPMetrics.processFlow, TCPMetrics.processLocalCtxFlow, MetricName.verdict, hmode, hlocal,
      hverdict, hl4, hflags]
  all_goals
    simp [processFlow, ForwardMetrics.processFlow, ForwardMetrics.processLocalCtxFlow, DropCountMetrics.processFlow,
      DropCountMetrics.processLocalCtxFlow, TCPRetransMetrics.processFlow, TCPRetransMetrics.processLocalCtxFlow,
      DNSMetrics.processFlow, DNSMetrics.processLocalCtxFlow, MetricName.verdict, hmode, hlocal, hverdict]

/-! ## When a call fits -/

theorem map_ctxLabels_remote {f : Flow}
    (h : ∀ c, (newBaseMetricsObject toLower options .remoteContext).srcCtx = some c ∨
      (newBaseMetricsObject toLower options .remoteContext).dstCtx = some c → ¬ c.MissesPort f) (flag : FlagName) :
    (newBaseMetricsObject toLower options .remoteContext).ctxLabels.map (meaning f .both flag) =
      (newBaseMetricsObject toLower options .remoteContext).ctxValues f := by
  have hctx : ∀ {c : ContextOptions}, c.option ≠ .localCtx → ¬ c.MissesPort f →
      c.getLabels.map (meaning f .both flag) = c.getValues f := by
    intro c hoption hport
    refine ContextOptions.map_getLabels (fun field => ?_) hport
    cases hc : c.option <;> simp_all [meaning, Viewpoint.sideOf, ContextOptions.isDest]
  simp only [newBaseMetricsObject, populateCtxOptions, BaseMetricObject.ctxLabels, BaseMetricObject.ctxValues,
    List.map_append] at h ⊢
  congr 1
  · cases hsource : options.sourceLabels with
    | none => rfl
    | some labels => exact hctx (by simp) (h _ (.inl (by simp [hsource])))
  · cases hdestination : options.destinationLabels with
    | none => rfl
    | some labels => exact hctx (by simp) (h _ (.inr (by simp [hdestination])))

theorem fits_remote_iff {f : Flow} {own : List String} (hown : own ∈ ownCalls options.metricName f .both) :
    Fits (getLabels options.metricName (newBaseMetricsObject toLower options .remoteContext)) f .remoteContext
        (own ++ (newBaseMetricsObject toLower options .remoteContext).ctxValues f ++
          extraValues options.metricName (newBaseMetricsObject toLower options .remoteContext) f) ↔
      ∀ c, (newBaseMetricsObject toLower options .remoteContext).srcCtx = some c ∨
        (newBaseMetricsObject toLower options .remoteContext).dstCtx = some c → ¬ c.MissesPort f := by
  obtain ⟨flag, rfl⟩ := mem_ownCalls hown
  rw [getLabels_eq]
  constructor
  · intro ⟨view, flag', _, hvalues⟩ c hc hport
    have hlength := congrArg List.length hvalues
    have hlt := BaseMetricObject.length_ctxValues_lt hc hport
    rw [← map_extraLabels _ _ f .both flag] at hlength
    simp only [List.length_append, List.length_map] at hlength
    omega
  · intro h
    refine ⟨.both, flag, rfl, ?_⟩
    rw [List.map_append, List.map_append, map_ctxLabels_remote toLower options h, map_extraLabels]

theorem fits_local_iff {f : Flow} {labels : List String} (hlabels : options.sourceLabels = some labels) {side : Side}
    {own : List String} (hown : own ∈ ownCalls options.metricName f (.pod side)) :
    Fits (getLabels options.metricName (newBaseMetricsObject toLower options .localContext)) f .localContext
        (own ++ (newCtxOption toLower labels .localCtx).getByDirectionValues f side) ↔
      ¬ (newCtxOption toLower labels .localCtx).MissesPort f ∧
        extraLabels options.metricName (newBaseMetricsObject toLower options .localContext) = [] := by
  have hctx : (newBaseMetricsObject toLower options .localContext).ctxLabels =
      (newCtxOption toLower labels .localCtx).getLabels := by
    simp [newBaseMetricsObject, populateCtxOptions, BaseMetricObject.ctxLabels, hlabels]
  obtain ⟨flag, rfl⟩ := mem_ownCalls hown
  rw [getLabels_eq, hctx]
  constructor
  · rintro ⟨view, flag', -, hvalues⟩
    have hlength := congrArg List.length hvalues
    have hle := (newCtxOption toLower labels .localCtx).length_getByDirectionValues_le f side
    simp only [List.length_append, List.length_map] at hlength
    refine ⟨fun hport => ?_, List.length_eq_zero_iff.1 (by omega)⟩
    have hlt := ContextOptions.length_getByDirectionValues_lt side hport
    omega
  · rintro ⟨hport, hextra⟩
    refine ⟨.pod side, flag, rfl, ?_⟩
    rw [hextra, List.append_nil, List.map_append, ContextOptions.map_getLabels (fun field => ?_) hport]
    simp [meaning, Viewpoint.sideOf]

end Shape

/-! ## Which labels a flow can answer -/

section Available
variable (toLower : String → String)

def Answered (labels : List String) (f : Flow) : Prop :=
  ∃ k, Requested toLower labels k ∧ ¬ (k = .port ∧ f.portUnknown = true)

def NothingMissed (options : MetricsContextOptions) (labels : List String) (f : Flow) : Prop :=
  ¬ (Requested toLower labels .port ∧ f.portUnknown = true) ∧
    ¬ (options.metricName.isForward = true ∧ isReplyLabel ∈ options.additionalLabels.getD [])

/-- In the remote context the port of a flow that the metric counts is requested only if it is
known. In the local context there are source labels, and nothing is missed if a pod at one
end of the flow has values to report. -/
def LabelsAvailable (options : MetricsContextOptions) (mode : EnrichmentContext) (f : Flow) : Prop :=
  match mode with
  | .remoteContext => Counts options.metricName f → f.portUnknown = true → ∀ labels,
      options.sourceLabels = some labels ∨ options.destinationLabels = some labels → ¬ Requested toLower labels .port
  | .localContext => Reaches options.metricName f → ∃ labels, options.sourceLabels = some labels ∧
      (Counts options.metricName f → (∃ side, ContextOptions.hasPod f side = true) → Answered toLower labels f →
        NothingMissed toLower options labels f)

theorem missesPort_newCtxOption (labels : List String) (option : CtxOptionType) (f : Flow) :
    (newCtxOption toLower labels option).MissesPort f ↔ Requested toLower labels .port ∧ f.portUnknown = true :=
  and_congr_left fun _ => newCtxOption_selects toLower labels option .port

theorem labelsMatch_remote_iff (options : MetricsContextOptions) (f : Flow) :
    LabelsMatch toLower options .remoteContext f ↔ LabelsAvailable toLower options .remoteContext f := by
  constructor
  · intro ⟨calls, hcalls, hfits⟩ hcounts hunknown labels hlabels hrequested
    obtain ⟨own, hown⟩ := List.exists_mem_of_ne_nil _ ((ownCalls_ne_nil_iff f _ .both).2 hcounts)
    rw [processFlow_remote, Option.some.injEq] at hcalls
    subst hcalls
    have hfit := (fits_remote_iff toLower options hown).1 (hfits _ (List.mem_map.2 ⟨own, hown, rfl⟩))
    simp only [newBaseMetricsObject, populateCtxOptions] at hfit
    rcases hlabels with hlabels | hlabels
    · exact hfit _ (.inl (by rw [hlabels]; rfl)) ((missesPort_newCtxOption ..).2 ⟨hrequested, hunknown⟩)
    · exact hfit _ (.inr (by rw [hlabels]; rfl)) ((missesPort_newCtxOption ..).2 ⟨hrequested, hunknown⟩)
  · intro h
    refine ⟨_, processFlow_remote .., fun values hvalues => ?_⟩
    obtain ⟨own, hown, rfl⟩ := List.mem_map.1 hvalues
    have hcounts := (ownCalls_ne_nil_iff f _ .both).1 (List.ne_nil_of_mem hown)
    refine (fits_remote_iff toLower options hown).2 fun c hc hport => ?_
    simp only [newBaseMetricsObject, populateCtxOptions, Option.map_eq_some_iff] at hc
    rcases hc with ⟨labels, hlabels, rfl⟩ | ⟨labels, hlabels, rfl⟩
    · exact h hcounts hport.2 labels (.inl hlabels) ((missesPort_newCtxOption ..).1 hport).1
    · exact h hcounts hport.2 labels (.inr hlabels) ((missesPort_newCtxOption ..).1 hport).1

theorem podValues_ne_nil_iff (labels : List String) (f : Flow) (side : Side) :
    podValues (newCtxOption toLower labels .localCtx) f side ≠ [] ↔
      ContextOptions.hasPod f side = true ∧ Answered toLower labels f := by
  simp [podValues, ContextOptions.getByDirectionValues_eq_nil_iff, Answered]

theorem extraLabels_eq_nil_iff {options : MetricsContextOptions} {labels : List String} {f : Flow}
    (hlabels : options.sourceLabels = some labels) (h : Answered toLower labels f) :
    extraLabels options.metricName (newBaseMetricsObject toLower options .localContext) = [] ↔
      ¬ (options.metricName.isForward = true ∧ isReplyLabel ∈ options.additionalLabels.getD []) := by
  obtain ⟨k, ⟨opt, hopt, _⟩, _⟩ := h
  have hadv : options.isAdvanced = true := by
    by_contra hadv
    have hnil := (MetricsContextOptions.labels_of_not_isAdvanced (Bool.eq_false_iff.2 hadv)).1
    simp [hlabels, List.ne_nil_of_mem hopt] at hnil
  simp [extraLabels, hadv]

theorem fits_podCall_iff {options : MetricsContextOptions} {labels : List String} {f : Flow} {calls : Calls}
    (hlabels : options.sourceLabels = some labels)
    (hpods : PodCalls options.metricName f (podValues (newCtxOption toLower labels .localCtx) f) calls)
    {call : List String} (hcall : call ∈ calls) :
    Fits (getLabels options.metricName (newBaseMetricsObject toLower options .localContext)) f .localContext call ↔
      NothingMissed toLower options labels f := by
  obtain ⟨side, hvalues, own, hown, rfl⟩ := hpods.sound call hcall
  obtain ⟨hpod, hanswered⟩ := (podValues_ne_nil_iff ..).1 hvalues
  rw [podValues, if_pos hpod, fits_local_iff toLower options hlabels hown, missesPort_newCtxOption,
    extraLabels_eq_nil_iff toLower hlabels hanswered]
  rfl

theorem exists_podCall_iff {options : MetricsContextOptions} {labels : List String} {f : Flow} {calls : Calls}
    (hpods : PodCalls options.metricName f (podValues (newCtxOption toLower labels .localCtx) f) calls) :
    (∃ call, call ∈ calls) ↔ Counts options.metricName f ∧ (∃ side, ContextOptions.hasPod f side = true) ∧
      Answered toLower labels f := by
  constructor
  · intro ⟨call, hcall⟩
    obtain ⟨side, hvalues, own, hown, rfl⟩ := hpods.sound call hcall
    obtain ⟨hpod, hanswered⟩ := (podValues_ne_nil_iff ..).1 hvalues
    exact ⟨(ownCalls_ne_nil_iff f _ _).1 (List.ne_nil_of_mem hown), ⟨side, hpod⟩, hanswered⟩
  · intro ⟨hcounts, ⟨side, hpod⟩, hanswered⟩
    exact List.exists_mem_of_ne_nil _ (hpods.complete side ((podValues_ne_nil_iff ..).2 ⟨hpod, hanswered⟩)
      ((ownCalls_ne_nil_iff f _ _).2 hcounts))

theorem labelsMatch_local_iff (options : MetricsContextOptions) (f : Flow) :
    LabelsMatch toLower options .localContext f ↔ LabelsAvailable toLower options .localContext f := by
  by_cases hreach : Reaches options.metricName f
  · cases hsource : options.sourceLabels with
    | none =>
      have hnone : processFlow options.metricName (newBaseMetricsObject toLower options .localContext) f = none :=
        processFlow_local_of_none hreach rfl (by simp [newBaseMetricsObject, populateCtxOptions, hsource])
      simp [LabelsMatch, LabelsAvailable, hnone, hreach, hsource]
    | some labels =>
      have hctx : (newBaseMetricsObject toLower options .localContext).srcCtx =
          some (newCtxOption toLower labels .localCtx) := by
        simp [newBaseMetricsObject, populateCtxOptions, hsource]
      obtain ⟨calls, hcalls, hpods⟩ :=
        processFlow_local f options.metricName (newBaseMetricsObject_contextMode ..) hctx (by simp)
      calc LabelsMatch toLower options .localContext f
        _ ↔ ∀ call ∈ calls, NothingMissed toLower options labels f := by
          simp only [LabelsMatch, hcalls, Option.some.injEq, exists_eq_left']
          exact forall₂_congr fun call hcall => fits_podCall_iff toLower hsource hpods hcall
        _ ↔ ((∃ call, call ∈ calls) → NothingMissed toLower options labels f) := by simp
        _ ↔ LabelsAvailable toLower options .localContext f := by
          simp [exists_podCall_iff toLower hpods, LabelsAvailable, hreach, hsource]
  · exact iff_of_true ⟨[], processFlow_of_not_reaches _ hreach, by simp⟩ fun h => absurd h hreach

end Available

/-- Flows are processed without an absent context or a label left open if and only if the
labels are available. -/
theorem labels_match_iff (toLower : String → String) (options : MetricsContextOptions) (mode : EnrichmentContext)
    (f : Flow) : LabelsMatch toLower options mode f ↔ LabelsAvailable toLower options mode f := by
  cases mode with
  | localContext => exact labelsMatch_local_iff toLower options f
  | remoteContext => exact labelsMatch_remote_iff toLower options f

theorem not_labelsMatch_of_none {toLower : String → String} {options : MetricsContextOptions}
    {mode : EnrichmentContext} {f : Flow}
    (h : processFlow options.metricName (newBaseMetricsObject toLower options mode) f = none) :
    ¬ LabelsMatch toLower options mode f := by
  simp [LabelsMatch, h]

theorem not_labelsMatch_of_length {toLower : String → String} {options : MetricsContextOptions}
    {mode : EnrichmentContext} {f : Flow}
    (h : ∃ call ∈ (processFlow options.metricName (newBaseMetricsObject toLower options mode) f).getD [],
      call.length ≠ (getLabels options.metricName (newBaseMetricsObject toLower options mode)).length) :
    ¬ LabelsMatch toLower options mode f := by
  obtain ⟨call, hcall, hlength⟩ := h
  intro ⟨calls, hcalls, hfits⟩
  rw [hcalls] at hcall
  obtain ⟨view, flag, -, rfl⟩ := hfits call hcall
  simp at hlength

def samplePodFlow (l4 : Option Layer4) : Flow where
  verdict := .forwarded
  trafficDirection := .egress
  ip := some fun _ => "10.0.0.1"
  endpoint
    | .source => some { ns := "default", podName := "web" }
    | .destination => none
  l4 := l4

def forwardOptions (sourceLabels additionalLabels : Option (List String)) : MetricsContextOptions :=
  { metricName := .forwardPackets, sourceLabels, additionalLabels }

/-- The port of an ICMP flow, source labels that were never given, and the reply label in the
local context. -/
theorem labels_mismatch :
    ¬ LabelsMatch String.toLower (forwardOptions (some ["ip", "port"]) none) .remoteContext
      (samplePodFlow (some .other)) ∧
    ¬ LabelsMatch String.toLower (forwardOptions none none) .localContext (samplePodFlow none) ∧
    ¬ LabelsMatch String.toLower (forwardOptions (some ["ip"]) (some ["is_reply"])) .localContext
      (samplePodFlow none) := by
  exact ⟨not_labelsMatch_of_length (by decide +kernel), not_labelsMatch_of_none rfl,
    not_labelsMatch_of_length (by decide +kernel)⟩

end Retina.Labels
