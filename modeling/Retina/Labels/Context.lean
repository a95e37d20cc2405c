import Retina.Metrics.TcpFlags
import Retina.Metrics.PodEvents

/-! # Context labels

A metric names the labels of its vector once and reads their values from every flow,
by two functions that have to agree on the order. An option of the context answers with
one label, or with two for the workload, and with as many values, except the port: a
flow of a transport that is neither TCP nor UDP has none. `strings.ToLower` is a parameter.
-/
namespace Retina.Labels
open Conntrack Metrics

/-! ## Flows -/

inductive Side where
  | source | destination
deriving DecidableEq

structure Workload where
  kind : String
  name : String

structure Endpoint where
  ns : String
  podName : String
  workloads : List Workload := []

/-- A transport other than TCP and UDP has no ports that a label could show. -/
inductive Layer4 where
  | tcp (sourcePort destinationPort : UInt32) (flags : Option TcpFlags)
  | udp (sourcePort destinationPort : UInt32)
  | other

inductive Verdict where
  | forwarded | dropped | retransmission | dns | other
deriving DecidableEq

structure DNS where
  query : String
  qtypes : List String
  ips : List String
  rcode : UInt32

structure Extensions where
  dropReason : Option String := none
  zone : Side → Option String := fun _ => none
  dnsType : Option String := none
  numResponses : Option UInt32 := none
  prevObservedTcpFlags : Option TcpFlagsCount := none

structure Flow where
  verdict : Verdict
  trafficDirection : TrafficDirection := .unknown
  isReply : Bool := false
  ip : Option (Side → String) := none
  endpoint : Side → Option Endpoint := fun _ => none
  service : Side → Option String := fun _ => none
  l4 : Option Layer4 := none
  dns : Option DNS := none
  extensions : Option Extensions := none

def Layer4.port (side : Side) : Layer4 → Option UInt32
  | .tcp sourcePort destinationPort _ | .udp sourcePort destinationPort =>
    some (match side with
      | .source => sourcePort
      | .destination => destinationPort)
  | .other => none

def Layer4.isOther : Layer4 → Bool
  | .other => true
  | _ => false

def Flow.portUnknown (f : Flow) : Bool := f.l4.any Layer4.isOther

def dropReasonDescription (f : Flow) : String := (f.extensions.bind Extensions.dropReason).getD ""

/-- `SourceZone` and `DestinationZone`. -/
def zoneOf (side : Side) (f : Flow) : String := (f.extensions.bind (·.zone side)).getD "unknown"

inductive DNSType where
  | unknown | query | response
deriving DecidableEq

def getDNS (f : Flow) : Option DNS × DNSType × UInt32 :=
  match f.dns, f.extensions with
  | none, _ => (none, .unknown, 0)
  | some dns, none => (some dns, .unknown, 0)
  | some dns, some s =>
    (some dns,
      match s.dnsType with
        | some "QUERY" => .query
        | some "RESPONSE" => .response
        | _ => .unknown,
      s.numResponses.getD 0)

def dnsRcodeToString (f : Flow) : String :=
  match f.dns with
  | none => ""
  | some dns => match dns.rcode.toNat with
    | 0 => "NOERROR"
    | 1 => "FORMERR"
    | 2 => "SERVFAIL"
    | 3 => "NXDOMAIN"
    | 4 => "NOTIMP"
    | 5 => "REFUSED"
    | _ => ""

def isAPIServerPod (ep : Endpoint) : Bool :=
  ep.ns == apiServerEndpointName && ep.podName == apiServerEndpointName

/-! ## Labels -/

inductive CtxOptionType where
  | source | destination | localCtx
deriving DecidableEq

def CtxOptionType.ctxPrefix : CtxOptionType → String
  | .source => "source_"
  | .destination => "destination_"
  | .localCtx => ""

inductive Field where
  | ip | ns | podname | workloadKind | workloadName | service | port | zone
deriving DecidableEq

def Field.text : Field → String
  | .ip => "ip"
  | .ns => "namespace"
  | .podname => "podname"
  | .workloadKind => "workload_kind"
  | .workloadName => "workload_name"
  | .service => "service"
  | .port => "port"
  | .zone => "zone"

inductive Label where
  | direction | isReply | reason | flag
  | queryType | query | returnCode | response | numResponse
  | context (option : CtxOptionType) (field : Field)
deriving DecidableEq

def Label.text : Label → String
  | .direction => "direction"
  | .isReply => "is_reply"
  | .reason => "reason"
  | .flag => "flag"
  | .queryType => "query_type"
  | .query => "query"
  | .returnCode => "return_code"
  | .response => "response"
  | .numResponse => "num_response"
  | .context option field => option.ctxPrefix ++ field.text

/-! ## Context options -/

structure ContextOptions where
  option : CtxOptionType
  ip : Bool := false
  ns : Bool := false
  podname : Bool := false
  workload : Bool := false
  service : Bool := false
  port : Bool := false
  zone : Bool := false

def addCtxOption (toLower : String → String) (c : ContextOptions) (opt : String) : ContextOptions :=
  match toLower opt with
  | "ip" => { c with ip := true }
  | "namespace" => { c with ns := true }
  | "podname" => { c with podname := true }
  | "workload" => { c with workload := true }
  | "service" => { c with service := true }
  | "port" => { c with port := true }
  | "zone" => { c with zone := true }
  | _ => c

def newCtxOption (toLower : String → String) (opts : List String) (option : CtxOptionType) : ContextOptions :=
  opts.foldl (addCtxOption toLower) { option }

namespace ContextOptions

def getLabels (c : ContextOptions) : List Label :=
  (if c.ip then [Label.context c.option .ip] else []) ++
  (if c.ns then [Label.context c.option .ns] else []) ++
  (if c.podname then [Label.context c.option .podname] else []) ++
  (if c.workload then [Label.context c.option .workloadKind, Label.context c.option .workloadName] else []) ++
  (if c.service then [Label.context c.option .service] else []) ++
  (if c.port then [Label.context c.option .port] else []) ++
  (if c.zone then [Label.context c.option .zone] else [])

def getByDirectionValues (c : ContextOptions) (f : Flow) (side : Side) : List String :=
  let ep := f.endpoint side
  (if c.ip then [match f.ip with
    | some ip => ip side
    | none => "unknown"] else []) ++
  (if c.ns then [match ep with
    | some ep => ep.ns
    | none => "unknown"] else []) ++
  (if c.podname then [match ep with
    | some ep => ep.podName
    | none => "unknown"] else []) ++
  (if c.workload then match (ep.map Endpoint.workloads).getD [] with
    | wk :: _ => [wk.kind, wk.name]
    | [] => ["unknown", "unknown"] else []) ++
  (if c.service then [(f.service side).getD "unknown"] else []) ++
  (if c.port then match f.l4 with
    | some l4 => match l4.port side with
      | some port => [toString port.toNat]
      | none => []
    | none => ["unknown"] else []) ++
  (if c.zone then [zoneOf side f] else [])

def isDest (c : ContextOptions) : Bool := c.option = .destination

def getValues (c : ContextOptions) (f : Flow) : List String :=
  c.getByDirectionValues f (if c.isDest then .destination else .source)

def hasPod (f : Flow) (side : Side) : Bool := (f.endpoint side).any fun ep => !isAPIServerPod ep

/-- The values under `egress` are those of the source, those under `ingress` are those of
the destination. There is no map at all for a context of another type. -/
def getLocalCtxValues (c : ContextOptions) (f : Flow) : Option (Side → List String) :=
  if c.option ≠ .localCtx then none
  else some fun side => if hasPod f side then c.getByDirectionValues f side else []

end ContextOptions

/-! ## What a context asks for -/

inductive CtxOption where
  | ip | ns | podname | workload | service | port | zone
deriving DecidableEq

namespace CtxOption

def text : CtxOption → String
  | ip => "ip"
  | ns => "namespace"
  | podname => "podname"
  | workload => "workload"
  | service => "service"
  | port => "port"
  | zone => "zone"

def all : List CtxOption := [ip, ns, podname, workload, service, port, zone]

theorem mem_all (k : CtxOption) : k ∈ all := by cases k <;> decide

def fields : CtxOption → List Field
  | ip => [.ip]
  | ns => [.ns]
  | podname => [.podname]
  | workload => [.workloadKind, .workloadName]
  | service => [.service]
  | port => [.port]
  | zone => [.zone]

end CtxOption

def ContextOptions.selects (c : ContextOptions) : CtxOption → Bool
  | .ip => c.ip
  | .ns => c.ns
  | .podname => c.podname
  | .workload => c.workload
  | .service => c.service
  | .port => c.port
  | .zone => c.zone

def Requested (toLower : String → String) (opts : List String) (k : CtxOption) : Prop :=
  ∃ opt ∈ opts, toLower opt = k.text

section NewCtxOption
variable (toLower : String → String)

theorem addCtxOption_option (c : ContextOptions) (opt : String) : (addCtxOption toLower c opt).option = c.option := by
  unfold addCtxOption
  split <;> rfl

theorem addCtxOption_selects (c : ContextOptions) (opt : String) (k : CtxOption) :
    (addCtxOption toLower c opt).selects k = true ↔ c.selects k = true ∨ toLower opt = k.text := by
  unfold addCtxOption
  split <;> cases k <;> simp_all [ContextOptions.selects, CtxOption.text]

theorem foldl_addCtxOption (opts : List String) (c : ContextOptions) :
    (opts.foldl (addCtxOption toLower) c).option = c.option ∧
      ∀ k, (opts.foldl (addCtxOption toLower) c).selects k = true ↔
        c.selects k = true ∨ Requested toLower opts k := by
  induction opts generalizing c with
  | nil => simp [Requested]
  | cons opt opts ih =>
    obtain ⟨hoption, hselects⟩ := ih (addCtxOption toLower c opt)
    refine ⟨hoption.trans (addCtxOption_option toLower c opt), fun k => ?_⟩
    simp only [List.foldl_cons, hselects, addCtxOption_selects, Requested, List.exists_mem_cons_iff]
    exact or_assoc

@[simp] theorem newCtxOption_option (opts : List String) (option : CtxOptionType) :
    (newCtxOption toLower opts option).option = option :=
  (foldl_addCtxOption toLower opts { option }).1

@[simp] theorem newCtxOption_selects (opts : List String) (option : CtxOptionType) (k : CtxOption) :
    (newCtxOption toLower opts option).selects k = true ↔ Requested toLower opts k := by
  have h := (foldl_addCtxOption toLower opts { option }).2 k
  cases k <;> simpa [newCtxOption, ContextOptions.selects] using h

end NewCtxOption

/-! ## Labels against values -/

def Flow.read (f : Flow) (side : Side) : Field → String
  | .ip => (f.ip.map (· side)).getD "unknown"
  | .ns => ((f.endpoint side).map Endpoint.ns).getD "unknown"
  | .podname => ((f.endpoint side).map Endpoint.podName).getD "unknown"
  | .workloadKind => (((f.endpoint side).bind (·.workloads.head?)).map Workload.kind).getD "unknown"
  | .workloadName => (((f.endpoint side).bind (·.workloads.head?)).map Workload.name).getD "unknown"
  | .service => (f.service side).getD "unknown"
  | .port => ((f.l4.bind (Layer4.port side)).map fun port => toString port.toNat).getD "unknown"
  | .zone => zoneOf side f

def Flow.values (f : Flow) (side : Side) (k : CtxOption) : List String :=
  if k = .port ∧ f.portUnknown then [] else k.fields.map (f.read side)

theorem Flow.values_port (f : Flow) (side : Side) :
    f.values side .port = match f.l4 with
      | some l4 => match l4.port side with
        | some port => [toString port.toNat]
        | none => []
      | none => ["unknown"] := by
  cases hl4 : f.l4 with
  | none => simp [Flow.values, Flow.portUnknown, CtxOption.fields, Flow.read, hl4]
  | some l4 => cases l4 <;> simp [Flow.values, Flow.portUnknown, CtxOption.fields, Flow.read, Layer4.port,
      Layer4.isOther, hl4]

theorem Flow.values_workload (f : Flow) (side : Side) :
    f.values side .workload = match ((f.endpoint side).map Endpoint.workloads).getD [] with
      | wk :: _ => [wk.kind, wk.name]
      | [] => ["unknown", "unknown"] := by
  cases hep : f.endpoint side with
  | none => simp [Flow.values, CtxOption.fields, Flow.read, hep]
  | some ep => cases hwk : ep.workloads <;> simp [Flow.values, CtxOption.fields, Flow.read, hep, hwk]

theorem Flow.values_eq_nil_iff (f : Flow) (side : Side) (k : CtxOption) :
    f.values side k = [] ↔ k = .port ∧ f.portUnknown = true := by
  unfold Flow.values
  cases k <;> simp [CtxOption.fields]

namespace ContextOptions
variable (c : ContextOptions) (f : Flow) (side : Side)

theorem getLabels_eq : c.getLabels = CtxOption.all.flatMap fun k =>
    if c.selects k then k.fields.map (Label.context c.option) else [] := by
  simp [getLabels, CtxOption.all, CtxOption.fields, selects]

theorem getByDirectionValues_eq : c.getByDirectionValues f side = CtxOption.all.flatMap fun k =>
    if c.selects k then f.values side k else [] := by
  simp only [CtxOption.all, List.flatMap_cons, List.flatMap_nil, selects, f.values_port, f.values_workload]
  cases hip : f.ip <;> cases hep : f.endpoint side <;>
    simp [getByDirectionValues, Flow.values, CtxOption.fields, Flow.read, hip, hep]

def MissesPort : Prop := c.port = true ∧ f.portUnknown = true

theorem getByDirectionValues_eq_nil_iff :
    c.getByDirectionValues f side = [] ↔ ∀ k, c.selects k = true → k = .port ∧ f.portUnknown = true := by
  simp [getByDirectionValues_eq, CtxOption.mem_all, Flow.values_eq_nil_iff]

/-- The values are those of the labels, one by one, unless the port is missed. -/
theorem map_getLabels {reading : Label → String} {c : ContextOptions} {f : Flow} {side : Side}
    (hread : ∀ field, reading (.context c.option field) = f.read side field) (hport : ¬ c.MissesPort f) :
    c.getLabels.map reading = c.getByDirectionValues f side := by
  have hreads : reading ∘ Label.context c.option = f.read side := funext hread
  rw [getLabels_eq, getByDirectionValues_eq, List.map_flatMap]
  refine List.flatMap_congr fun k _ => ?_
  cases hk : c.selects k with
  | false => rfl
  | true =>
    have hvalues : ¬ (k = .port ∧ f.portUnknown = true) := by
      rintro ⟨rfl, hunknown⟩
      exact hport ⟨hk, hunknown⟩
    simp [Flow.values, hvalues, hreads]

theorem length_values_le (k : CtxOption) : (f.values side k).length ≤ k.fields.length := by
  unfold Flow.values
  split <;> simp

theorem length_getByDirectionValues_le : (c.getByDirectionValues f side).length ≤ c.getLabels.length := by
  simp only [getLabels_eq, getByDirectionValues_eq, List.length_flatMap]
  refine List.sum_le_sum fun k _ => ?_
  cases c.selects k with
  | false => rfl
  | true => simpa using length_values_le f side k

theorem length_getByDirectionValues_lt {c : ContextOptions} {f : Flow} (h : c.MissesPort f) :
    (c.getByDirectionValues f side).length < c.getLabels.length := by
  simp only [getLabels_eq, getByDirectionValues_eq, List.length_flatMap]
  refine List.sum_lt_sum _ _ (fun k _ => ?_) ⟨.port, CtxOption.mem_all _, ?_⟩
  · cases c.selects k with
    | false => rfl
    | true => simpa using length_values_le f side k
  · have hvalues : f.values side .port = [] := (f.values_eq_nil_iff side .port).2 ⟨rfl, h.2⟩
    simp [selects, h.1, hvalues, CtxOption.fields]

end ContextOptions

end Retina.Labels
