import Retina.Labels.Context

/-! # The advanced metrics and their labels

Five types of metrics pass label values to `WithLabelValues`, which panics unless there is
one for each name the vector was created with. The names depend on the options alone, the
values on the flow as well. A call of `ProcessFlow` is modelled by the values it passes
on, call by call, and by `none` if it uses the source context although there is none.
-/
namespace Retina.Labels
open Conntrack Metrics

/-! ## The base object -/

inductive MetricName where
  | forwardPackets | forwardBytes | droppedPackets | dropBytes | tcpFlag | tcpRetrans | dnsRequest | dnsResponse
deriving DecidableEq

def MetricName.text : MetricName → String
  | .forwardPackets => "forward_count"
  | .forwardBytes => "forward_bytes"
  | .droppedPackets => "drop_count"
  | .dropBytes => "drop_bytes"
  | .tcpFlag => "tcp_flag_gauges"
  | .tcpRetrans => "tcp_retransmission_count"
  | .dnsRequest => "dns_request_count"
  | .dnsResponse => "dns_response_count"

structure MetricsContextOptions where
  metricName : MetricName
  sourceLabels : Option (List String) := none
  destinationLabels : Option (List String) := none
  additionalLabels : Option (List String) := none

def MetricsContextOptions.isAdvanced (m : MetricsContextOptions) : Bool :=
  m.metricName.text != "" && (!(m.sourceLabels.getD []).isEmpty || !(m.destinationLabels.getD []).isEmpty)

inductive EnrichmentContext where
  | localContext | remoteContext
deriving DecidableEq

structure BaseMetricObject where
  advEnable : Bool
  contextMode : EnrichmentContext
  ctxOptions : MetricsContextOptions
  srcCtx : Option ContextOptions := none
  dstCtx : Option ContextOptions := none

def populateCtxOptions (toLower : String → String) (b : BaseMetricObject) : BaseMetricObject :=
  match b.contextMode with
  | .localContext =>
    { b with srcCtx := b.ctxOptions.sourceLabels.map (newCtxOption toLower · .localCtx) }
  | .remoteContext =>
    { b with
      srcCtx := b.ctxOptions.sourceLabels.map (newCtxOption toLower · .source)
      dstCtx := b.ctxOptions.destinationLabels.map (newCtxOption toLower · .destination) }

def newBaseMetricsObject (toLower : String → String) (ctxOptions : MetricsContextOptions)
    (contextMode : EnrichmentContext) : BaseMetricObject :=
  populateCtxOptions toLower { advEnable := ctxOptions.isAdvanced, contextMode, ctxOptions }

/-- The label values of the calls of `WithLabelValues`, in the order of the calls. -/
abbrev Calls := List (List String)

def Side.traffic : Side → String
  | .source => "egress"
  | .destination => "ingress"

namespace BaseMetricObject

def additionalLabels (b : BaseMetricObject) : List String := b.ctxOptions.additionalLabels.getD []

def ctxLabels (b : BaseMetricObject) : List Label :=
  (b.srcCtx.map ContextOptions.getLabels).getD [] ++ (b.dstCtx.map ContextOptions.getLabels).getD []

def ctxValues (b : BaseMetricObject) (f : Flow) : List String :=
  (b.srcCtx.map (·.getValues f)).getD [] ++ (b.dstCtx.map (·.getValues f)).getD []

/-- How every `processLocalCtxFlow` begins. -/
def withLocalCtxValues (b : BaseMetricObject) (f : Flow) (calls : (Side → List String) → Calls) : Option Calls :=
  b.srcCtx.map fun c => match c.getLocalCtxValues f with
    | none => []
    | some labelValuesMap => calls labelValuesMap

end BaseMetricObject

/-- The calls for ingress and then those for egress, each only if its pod has values. -/
def sideCalls (first : Side → Calls) (labelValuesMap : Side → List String) : Calls :=
  [Side.destination, Side.source].flatMap fun side =>
    if (labelValuesMap side).isEmpty then [] else (first side).map (· ++ labelValuesMap side)

/-! ## The five types -/

def trafficDirectionString : TrafficDirection → String
  | .unknown => "TRAFFIC_DIRECTION_UNKNOWN"
  | .ingress => "INGRESS"
  | .egress => "EGRESS"

def formatBool (b : Bool) : String := if b then "true" else "false"

def flagText : FlagName → String
  | .flag .syn => "SYN"
  | .flag .ack => "ACK"
  | .flag .fin => "FIN"
  | .flag .rst => "RST"
  | .flag .psh => "PSH"
  | .flag .urg => "URG"
  | .flag .ece => "ECE"
  | .flag .cwr => "CWR"
  | .flag .ns => "NS"
  | .synack => "SYNACK"

def isReplyLabel : String := "is_reply"

namespace ForwardMetrics

def getLabels (b : BaseMetricObject) : List Label :=
  if !b.advEnable then [Label.direction]
  else [Label.direction] ++ b.ctxLabels ++ if b.additionalLabels.contains isReplyLabel then [Label.isReply] else []

def processLocalCtxFlow (b : BaseMetricObject) (f : Flow) : Option Calls :=
  b.withLocalCtxValues f (sideCalls fun side => [[side.traffic]])

def processFlow (b : BaseMetricObject) (f : Flow) : Option Calls :=
  if f.verdict ≠ .forwarded then some []
  else if b.contextMode = .localContext then processLocalCtxFlow b f
  else if !b.advEnable then some [[trafficDirectionString f.trafficDirection]]
  else some [[trafficDirectionString f.trafficDirection] ++ b.ctxValues f ++
    if b.additionalLabels.contains isReplyLabel then [formatBool f.isReply] else []]

end ForwardMetrics

namespace DropCountMetrics

def getLabels (b : BaseMetricObject) : List Label := [Label.reason, Label.direction] ++ b.ctxLabels

def processLocalCtxFlow (b : BaseMetricObject) (f : Flow) : Option Calls :=
  b.withLocalCtxValues f (sideCalls fun side => [[dropReasonDescription f, side.traffic]])

def processFlow (b : BaseMetricObject) (f : Flow) : Option Calls :=
  if f.verdict ≠ .dropped then some []
  else if b.contextMode = .localContext then processLocalCtxFlow b f
  else if !b.advEnable then some [[dropReasonDescription f, trafficDirectionString f.trafficDirection]]
  else some [[dropReasonDescription f, trafficDirectionString f.trafficDirection] ++ b.ctxValues f]

end DropCountMetrics

namespace TCPMetrics

def getLabels (b : BaseMetricObject) : List Label := [Label.flag] ++ b.ctxLabels

def flagNames : List FlagName :=
  [.flag .syn, .flag .ack, .flag .fin, .flag .rst, .flag .psh, .flag .urg, .flag .ece, .flag .cwr, .flag .ns, .synack]

def observed (f : Flow) : Metrics.Flow where
  verdict := .forwarded
  l4 := none
  extensions := f.extensions.map fun s => { prevObservedTcpFlags := s.prevObservedTcpFlags }

/-- The keys of the combined flags. The order in which the map is visited does not matter here. -/
def combinedFlags (flags : List FlagName) (f : Flow) : List FlagName :=
  flagNames.filter fun flag => (combineFlagsWithPrevious flags (observed f) flag).isSome

def processLocalCtxFlow (b : BaseMetricObject) (f : Flow) (flags : List FlagName) : Option Calls :=
  b.withLocalCtxValues f (sideCalls fun _ => (combinedFlags flags f).map fun flag => [flagText flag])

def processFlow (b : BaseMetricObject) (f : Flow) : Option Calls :=
  if f.verdict ≠ .forwarded then some []
  else match f.l4 with
    | some (.tcp _ _ tcpFlags) =>
      let flags := getFlagValues tcpFlags
      if flags.isEmpty then some []
      else if b.contextMode = .localContext then processLocalCtxFlow b f flags
      else some ((combinedFlags flags f).map fun flag => [flagText flag] ++ b.ctxValues f)
    | _ => some []

end TCPMetrics

namespace TCPRetransMetrics

def getLabels (b : BaseMetricObject) : List Label := [Label.direction] ++ b.ctxLabels

def processLocalCtxFlow (b : BaseMetricObject) (f : Flow) : Option Calls :=
  b.withLocalCtxValues f (sideCalls fun side => [[side.traffic]])

def processFlow (b : BaseMetricObject) (f : Flow) : Option Calls :=
  if f.verdict ≠ .retransmission then some []
  else if b.contextMode = .localContext then processLocalCtxFlow b f
  else some [[trafficDirectionString f.trafficDirection] ++ b.ctxValues f]

end TCPRetransMetrics

namespace DNSMetrics

def getRequestLabels (b : BaseMetricObject) : List Label := [Label.queryType, Label.query] ++ b.ctxLabels

def getResponseLabels (b : BaseMetricObject) : List Label :=
  [Label.returnCode, Label.queryType, Label.query, Label.response, Label.numResponse] ++ b.ctxLabels

def ignores (metricName : MetricName) (dnsType : DNSType) : Bool :=
  dnsType = .unknown || (metricName = .dnsRequest && dnsType ≠ .query) ||
    (metricName = .dnsResponse && dnsType ≠ .response)

def requestValues (metricName : MetricName) (f : Flow) : List String :=
  match getDNS f with
  | (none, _, _) => []
  | (some flowDNS, dnsType, _) =>
    if ignores metricName dnsType then []
    else [",".intercalate flowDNS.qtypes, flowDNS.query]

def responseValues (metricName : MetricName) (f : Flow) : List String :=
  match getDNS f with
  | (none, _, _) => []
  | (some flowDNS, dnsType, numResponses) =>
    if ignores metricName dnsType then []
    else [dnsRcodeToString f, ",".intercalate flowDNS.qtypes, flowDNS.query,
      ",".intercalate flowDNS.ips, toString numResponses.toNat]

def getLabelsForProcessFlow (metricName : MetricName) (f : Flow) : List String :=
  match (getDNS f).2.1 with
  | .query => requestValues metricName f
  | .response => responseValues metricName f
  | .unknown => []

/-- With pods on both sides the direction of the flow decides, so there is one call at most. -/
def localCalls (f : Flow) (labels : List String) (labelValuesMap : Side → List String) : Calls :=
  if labels.isEmpty then []
  else if !(labelValuesMap .destination).isEmpty && !(labelValuesMap .source).isEmpty then
    if f.trafficDirection = .ingress then [labels ++ labelValuesMap .destination]
    else [labels ++ labelValuesMap .source]
  else if !(labelValuesMap .destination).isEmpty then [labels ++ labelValuesMap .destination]
  else if !(labelValuesMap .source).isEmpty then [labels ++ labelValuesMap .source]
  else []

def processLocalCtxFlow (metricName : MetricName) (b : BaseMetricObject) (f : Flow) : Option Calls :=
  b.withLocalCtxValues f (localCalls f (getLabelsForProcessFlow metricName f))

def processFlow (metricName : MetricName) (b : BaseMetricObject) (f : Flow) : Option Calls :=
  if f.verdict ≠ .dns then some []
  else if b.contextMode = .localContext then processLocalCtxFlow metricName b f
  else
    let labels := getLabelsForProcessFlow metricName f
    if labels.isEmpty then some [] else some [labels ++ b.ctxValues f]

end DNSMetrics

def getLabels (name : MetricName) (b : BaseMetricObject) : List Label :=
  match name with
  | .forwardPackets | .forwardBytes => ForwardMetrics.getLabels b
  | .droppedPackets | .dropBytes => DropCountMetrics.getLabels b
  | .tcpFlag => TCPMetrics.getLabels b
  | .tcpRetrans => TCPRetransMetrics.getLabels b
  | .dnsRequest => DNSMetrics.getRequestLabels b
  | .dnsResponse => DNSMetrics.getResponseLabels b

def processFlow (name : MetricName) (b : BaseMetricObject) (f : Flow) : Option Calls :=
  match name with
  | .forwardPackets | .forwardBytes => ForwardMetrics.processFlow b f
  | .droppedPackets | .dropBytes => DropCountMetrics.processFlow b f
  | .tcpFlag => TCPMetrics.processFlow b f
  | .tcpRetrans => TCPRetransMetrics.processFlow b f
  | .dnsRequest | .dnsResponse => DNSMetrics.processFlow name b f

namespace MetricName

def verdict : MetricName → Verdict
  | forwardPackets | forwardBytes | tcpFlag => .forwarded
  | droppedPackets | dropBytes => .dropped
  | tcpRetrans => .retransmission
  | dnsRequest | dnsResponse => .dns

def isForward : MetricName → Bool
  | forwardPackets | forwardBytes => true
  | _ => false

def ownLabels : MetricName → List Label
  | forwardPackets | forwardBytes | tcpRetrans => [.direction]
  | droppedPackets | dropBytes => [.reason, .direction]
  | tcpFlag => [.flag]
  | dnsRequest => [.queryType, .query]
  | dnsResponse => [.returnCode, .queryType, .query, .response, .numResponse]

end MetricName

/-! ## The shape of labels and calls -/

theorem MetricsContextOptions.labels_of_not_isAdvanced {options : MetricsContextOptions}
    (h : options.isAdvanced = false) :
    options.sourceLabels.getD [] = [] ∧ options.destinationLabels.getD [] = [] := by
  have htext : options.metricName.text ≠ "" := by cases options.metricName <;> decide
  simpa [MetricsContextOptions.isAdvanced, htext] using h

def extraLabels (name : MetricName) (b : BaseMetricObject) : List Label :=
  if name.isForward && b.advEnable && b.additionalLabels.contains isReplyLabel then [.isReply] else []

namespace BaseMetricObject

theorem length_ctxValues (b : BaseMetricObject) (f : Flow) :
    (b.ctxValues f).length = ((b.srcCtx.map (·.getValues f)).getD []).length +
      ((b.dstCtx.map (·.getValues f)).getD []).length := List.length_append

theorem length_ctxLabels (b : BaseMetricObject) :
    b.ctxLabels.length = ((b.srcCtx.map ContextOptions.getLabels).getD []).length +
      ((b.dstCtx.map ContextOptions.getLabels).getD []).length := List.length_append

theorem length_getValues_le (ctx : Option ContextOptions) (f : Flow) :
    ((ctx.map (·.getValues f)).getD []).length ≤ ((ctx.map ContextOptions.getLabels).getD []).length := by
  cases ctx with
  | none => simp
  | some c => exact c.length_getByDirectionValues_le f _

theorem length_ctxValues_le (b : BaseMetricObject) (f : Flow) : (b.ctxValues f).length ≤ b.ctxLabels.length := by
  rw [length_ctxValues, length_ctxLabels]
  exact Nat.add_le_add (length_getValues_le _ f) (length_getValues_le _ f)

theorem length_ctxValues_lt {b : BaseMetricObject} {f : Flow} {c : ContextOptions}
    (hc : b.srcCtx = some c ∨ b.dstCtx = some c) (hport : c.MissesPort f) :
    (b.ctxValues f).length < b.ctxLabels.length := by
  have hlt : (c.getValues f).length < c.getLabels.length := ContextOptions.length_getByDirectionValues_lt _ hport
  rw [length_ctxValues, length_ctxLabels]
  rcases hc with hc | hc
  · exact Nat.add_lt_add_of_lt_of_le (by simpa [hc] using hlt) (length_getValues_le _ f)
  · exact Nat.add_lt_add_of_le_of_lt (length_getValues_le _ f) (by simpa [hc] using hlt)

end BaseMetricObject

section Shape
variable (toLower : String → String) (options : MetricsContextOptions) (mode : EnrichmentContext) (f : Flow)

@[simp] theorem newBaseMetricsObject_advEnable :
    (newBaseMetricsObject toLower options mode).advEnable = options.isAdvanced := by
  cases mode <;> rfl

@[simp] theorem newBaseMetricsObject_contextMode :
    (newBaseMetricsObject toLower options mode).contextMode = mode := by
  cases mode <;> rfl

@[simp] theorem newBaseMetricsObject_additionalLabels :
    (newBaseMetricsObject toLower options mode).additionalLabels = options.additionalLabels.getD [] := by
  cases mode <;> rfl

variable {options}

theorem ctxLabels_of_not_isAdvanced (h : options.isAdvanced = false) :
    (newBaseMetricsObject toLower options mode).ctxLabels = [] := by
  obtain ⟨hsource, hdestination⟩ := MetricsContextOptions.labels_of_not_isAdvanced h
  obtain ⟨name, source, destination, additional⟩ := options
  cases mode <;> rcases source with _ | source <;> rcases destination with _ | destination <;>
    simp_all [newBaseMetricsObject, populateCtxOptions, BaseMetricObject.ctxLabels, newCtxOption,
      ContextOptions.getLabels]

variable (options)

theorem ctxValues_of_not_isAdvanced (h : options.isAdvanced = false) :
    (newBaseMetricsObject toLower options mode).ctxValues f = [] := by
  have hle := (newBaseMetricsObject toLower options mode).length_ctxValues_le f
  rw [ctxLabels_of_not_isAdvanced toLower mode h] at hle
  exact List.length_eq_zero_iff.1 (Nat.le_zero.1 hle)

theorem getLabels_eq : getLabels options.metricName (newBaseMetricsObject toLower options mode) =
    options.metricName.ownLabels ++ (newBaseMetricsObject toLower options mode).ctxLabels ++
      extraLabels options.metricName (newBaseMetricsObject toLower options mode) := by
  have hempty : options.isAdvanced = false → _ := ctxLabels_of_not_isAdvanced toLower mode
  cases hname : options.metricName <;>
    simp [getLabels, MetricName.ownLabels, MetricName.isForward, extraLabels, ForwardMetrics.getLabels,
      DropCountMetrics.getLabels, TCPMetrics.getLabels, TCPRetransMetrics.getLabels,
      DNSMetrics.getRequestLabels, DNSMetrics.getResponseLabels]
  all_goals
    cases hadv : options.isAdvanced with
    | false => simp [hempty hadv]
    | true => simp

end Shape

/-! ## The names of the labels -/

def Field.all : List Field := [.ip, .ns, .podname, .workloadKind, .workloadName, .service, .port, .zone]

/-- The option of the context that a mode makes of the source labels. -/
def EnrichmentContext.sourceOption : EnrichmentContext → CtxOptionType
  | localContext => .localCtx
  | remoteContext => .source

def labelPool (name : MetricName) (mode : EnrichmentContext) : List Label :=
  name.ownLabels ++ (Field.all.map (Label.context mode.sourceOption) ++
    Field.all.map (Label.context .destination)) ++ [Label.isReply]

theorem labelPool_nodup (name : MetricName) (mode : EnrichmentContext) :
    ((labelPool name mode).map Label.text).Nodup := by
  cases mode <;> cases name <;> decide +kernel

theorem ite_sublist {α : Type*} (p : Bool) (l : List α) : (if p then l else []).Sublist l := by
  cases p <;> simp

theorem ContextOptions.getLabels_sublist (c : ContextOptions) :
    c.getLabels.Sublist (Field.all.map (.context c.option)) :=
  ((((((ite_sublist _ _).append (ite_sublist _ _)).append (ite_sublist _ _)).append (ite_sublist _ _)).append
    (ite_sublist _ _)).append (ite_sublist _ _)).append (ite_sublist _ _)

theorem getLabels_sublist_of_option {ctx : Option ContextOptions} {option : CtxOptionType}
    (h : ∀ c ∈ ctx, c.option = option) :
    ((ctx.map ContextOptions.getLabels).getD []).Sublist (Field.all.map (.context option)) := by
  cases ctx with
  | none => simp
  | some c =>
    obtain rfl := h c rfl
    exact c.getLabels_sublist

/-- The names of a vector are distinct, so creating it does not fail for a repeated one. -/
theorem labelNames_nodup (toLower : String → String) (options : MetricsContextOptions) (mode : EnrichmentContext) :
    ((getLabels options.metricName (newBaseMetricsObject toLower options mode)).map Label.text).Nodup := by
  have hsource : ∀ c ∈ (newBaseMetricsObject toLower options mode).srcCtx, c.option = mode.sourceOption := by
    cases mode <;> simp [newBaseMetricsObject, populateCtxOptions, EnrichmentContext.sourceOption]
  have hdestination : ∀ c ∈ (newBaseMetricsObject toLower options mode).dstCtx, c.option = .destination := by
    cases mode <;> simp [newBaseMetricsObject, populateCtxOptions]
  have hcontexts := (getLabels_sublist_of_option hsource).append (getLabels_sublist_of_option hdestination)
  have hextra : (extraLabels options.metricName (newBaseMetricsObject toLower options mode)).Sublist [.isReply] := by
    unfold extraLabels
    exact ite_sublist _ _
  rw [getLabels_eq]
  exact ((((List.Sublist.refl _).append hcontexts).append hextra).map _).nodup (labelPool_nodup _ mode)

end Retina.Labels
