import Mathlib

/-! # Specs of metrics configurations

`crd/api/v1alpha1/validations/validate_metricconfiguration.go`: which specs are valid, and which specs
are taken for the same. Lists of labels and of namespaces are compared as sets with a length, and
of several options with one metric name the last one counts. `time.ParseDuration` is a parameter.
-/
namespace Retina.MetricsConfig

structure MetricsContextOptions where
  metricName : String
  sourceLabels : List String := []
  destinationLabels : List String := []
  additionalLabels : List String := []
  ttl : String := ""
deriving DecidableEq

/-- A missing list is `none`. -/
structure MetricsNamespaces where
  includes : Option (List String) := none
  excludes : Option (List String) := none
deriving DecidableEq

structure MetricsSpec where
  contextOptions : List MetricsContextOptions
  namespaces : MetricsNamespaces
deriving DecidableEq

def advancedMetrics : List String :=
  ["drop_count","drop_bytes","forward_count","forward_bytes","node_connectivity_status",
    "node_connectivity_latency_seconds","tcp_state","tcp_connection_remote","tcp_connection_stats","tcp_flag_gauges",
    "tcp_retransmission_count","ip_connection_stats","udp_connection_stats","dns_request_count","dns_response_count",
    "node_apiserver_latency","node_apiserver_handshake_latency","node_apiserver_no_response"]

def isAdvancedMetric (name : String) : Bool := advancedMetrics.contains name

/-! ## Validation -/

section Validation
variable (parseDuration : String → Except String ℤ)

/-- The check of one option in the loop of `MetricsSpec`. -/
def contextOptionError (contextOption : MetricsContextOptions) : Option String :=
  if isAdvancedMetric contextOption.metricName = false then
    some (contextOption.metricName ++ " is not a valid metric")
  else if contextOption.ttl = "" then none
  else
    match parseDuration contextOption.ttl with
    | .error err => some ("invalid TTL format for metric " ++ contextOption.metricName ++ ": " ++ err)
    | .ok ttl => if ttl < 0 then some ("TTL cannot be negative for metric " ++ contextOption.metricName) else none

def metricsNamespaces (mn : MetricsNamespaces) : Option String :=
  if mn.includes = none ∧ mn.excludes = none then some "metrics namespaces include and exclude are both nil"
  else if mn.includes ≠ none ∧ mn.excludes ≠ none then some "metrics namespaces include and exclude are both not nil"
  else none

def metricsSpec (spec : MetricsSpec) : Option String :=
  if spec.contextOptions = [] then some "metrics spec context options is empty"
  else
    match spec.contextOptions.findSome? (contextOptionError parseDuration) with
    | some err => some err
    | none => metricsNamespaces spec.namespaces

def metricsCRD (name : String) (spec : MetricsSpec) : Option String :=
  if name = "" then some "metrics configuration name is empty" else metricsSpec parseDuration spec

end Validation

/-! ## Comparison -/

def compareStringSlice (a b : List String) : Bool :=
  a.length = b.length ∧ a.toFinset.card = b.toFinset.card ∧ a.toFinset ⊆ b.toFinset

/-- The options by their names, where a later option replaces an earlier one. -/
def optionsByName (options : List MetricsContextOptions) : Finmap (fun _ : String => MetricsContextOptions) :=
  options.foldl (fun m option => m.insert option.metricName option) ∅

def sameOption (old new : MetricsContextOptions) : Bool :=
  compareStringSlice old.sourceLabels new.sourceLabels && compareStringSlice old.destinationLabels new.destinationLabels &&
    old.metricName == new.metricName && old.ttl == new.ttl &&
    compareStringSlice old.additionalLabels new.additionalLabels

def metricsContextOptionsCompare (old new : List MetricsContextOptions) : Bool :=
  old.length = new.length ∧ (optionsByName old).keys.card = (optionsByName new).keys.card ∧
    ∀ key ∈ (optionsByName old).keys, ∃ o ∈ (optionsByName old).lookup key, ∃ n ∈ (optionsByName new).lookup key,
      sameOption o n = true

def metricsNamespacesCompare (old new : MetricsNamespaces) : Bool :=
  compareStringSlice (old.includes.getD []) (new.includes.getD []) &&
    compareStringSlice (old.excludes.getD []) (new.excludes.getD [])

def metricsSpecCompare (old new : MetricsSpec) : Bool :=
  old.contextOptions.length == new.contextOptions.length && metricsNamespacesCompare old.namespaces new.namespaces &&
    metricsContextOptionsCompare old.contextOptions new.contextOptions

def dropSpec (sourceLabels : List String) : MetricsSpec where
  contextOptions := [{ metricName := "drop_count", sourceLabels }]
  namespaces := { includes := some ["default"] }

/-- Specs that are not told apart. -/
example : metricsSpecCompare (dropSpec ["ip","pod"]) (dropSpec ["pod","ip"]) = true ∧
    dropSpec ["ip","pod"] ≠ dropSpec ["pod","ip"] := by
  decide

end Retina.MetricsConfig
