import Retina.Labels.AdvancedMetrics
import Retina.Library.FiniteMap
import Retina.Library.Registrar
import Retina.Metrics.Latency

/-! # The registry of the advanced metrics

`updateMetricsContexts` of `pkg/module/metrics/metrics_module.go`. It visits the options of a spec in their order, chooses
a type of metrics by what the name of the option contains, and files the object under the name; then each object creates
its vector. The exporter refuses to create one vector twice, with a panic. `strings.ToLower` and `time.ParseDuration`
are parameters.
-/
namespace Retina.Labels
open Metrics (LatencyMetrics)

structure SpecOption where
  metricName : String
  sourceLabels : Option (List String) := none
  destinationLabels : Option (List String) := none
  additionalLabels : Option (List String) := none
  ttl : String := ""

inductive Kind where
  | forward | drop | tcpFlags | tcpRetrans | dns
deriving DecidableEq

def Kind.name : Kind → MetricName
  | forward => .forwardPackets
  | drop => .droppedPackets
  | tcpFlags => .tcpFlag
  | tcpRetrans => .tcpRetrans
  | dns => .dnsRequest

structure MetricObject where
  kind : Kind
  base : BaseMetricObject
  ttl : ℤ

/-! ## The objects -/

def containsText (s sub : String) : Bool := decide (sub.toList <:+: s.toList)

section Constructors
variable (toLower : String → String) (mode : EnrichmentContext) (option : SpecOption) (ttl : ℤ)

/-- The five constructors, with the word that they look for. The base object reads of the name only that it is not
empty. -/
def newMetrics (kind : Kind) (word : String) : Option MetricObject :=
  if containsText (toLower option.metricName) word then
    some
      { kind := kind
        base := newBaseMetricsObject toLower
          ⟨kind.name,option.sourceLabels,option.destinationLabels,option.additionalLabels⟩ mode
        ttl := ttl }
  else none

def newForwardCountMetrics : Option MetricObject := newMetrics toLower mode option ttl .forward "forward"

def newDropCountMetrics : Option MetricObject := newMetrics toLower mode option ttl .drop "drop"

def newTCPMetrics : Option MetricObject := newMetrics toLower mode option ttl .tcpFlags "flag"

def newTCPRetransMetrics : Option MetricObject := newMetrics toLower mode option ttl .tcpRetrans "retrans"

def newDNSMetrics : Option MetricObject := newMetrics toLower mode option ttl .dns "dns"

end Constructors

def Kind.vectorName : Kind → String → Option String
  | forward,"forward_count" => some "adv_forward_count"
  | forward,"forward_bytes" => some "adv_forward_bytes"
  | drop,"drop_count" => some "adv_drop_count"
  | drop,"drop_bytes" => some "adv_drop_bytes"
  | tcpFlags,_ => some "adv_tcpflags_count"
  | tcpRetrans,_ => some "adv_tcpretrans_count"
  | dns,"dns_request_count" => some "adv_dns_request_count"
  | dns,"dns_response_count" => some "adv_dns_response_count"
  | _,_ => none

namespace MetricObject

def labels (m : MetricObject) (metricName : String) : List Label :=
  match m.kind with
  | .forward => ForwardMetrics.getLabels m.base
  | .drop => DropCountMetrics.getLabels m.base
  | .tcpFlags => TCPMetrics.getLabels m.base
  | .tcpRetrans => TCPRetransMetrics.getLabels m.base
  | .dns => match metricName with
    | "dns_request_count" => DNSMetrics.getRequestLabels m.base
    | _ => DNSMetrics.getResponseLabels m.base

def vector (m : MetricObject) (metricName : String) : Option (String × List Label) :=
  (m.kind.vectorName metricName).map (·,m.labels metricName)

/-- The names that a DNS metric tells apart. Any other name is to it like the name of another metric. -/
def dnsName : String → MetricName
  | "dns_request_count" => .dnsRequest
  | "dns_response_count" => .dnsResponse
  | _ => .forwardPackets

def updates (m : MetricObject) (metricName : String) (f : Flow) : Option Calls :=
  match m.kind with
  | .forward => ForwardMetrics.processFlow m.base f
  | .drop => DropCountMetrics.processFlow m.base f
  | .tcpFlags => TCPMetrics.processFlow m.base f
  | .tcpRetrans => TCPRetransMetrics.processFlow m.base f
  | .dns => DNSMetrics.processFlow (dnsName metricName) m.base f

/-- What a flow does to the vector of an object: nothing comes back from a panic. Without a vector the forward and the
drop metrics ignore the flow, and a DNS metric uses the vector nevertheless. -/
def react (m : MetricObject) (metricName : String) (f : Flow) : Option Calls :=
  match m.updates metricName f,m.vector metricName with
  | none,_ => none
  | some calls,some (_,labels) => if calls.all fun values => values.length = labels.length then some calls else none
  | some calls,none => if m.kind = .dns ∧ calls ≠ [] then none else some []

end MetricObject

/-! ## The loops -/

/-- The registry without the object of the latencies, whether this object is there, and the object itself, of which there
is one for all specs. -/
structure Registry where
  objects : Finmap fun _ : String => MetricObject := ∅
  hasLatency : Bool := false
  lm : LatencyMetrics

def nodeApiserver : String := "node_apiserver"

namespace Registry

def set (r : Registry) (metricName : String) : Option MetricObject → Registry
  | some m => { r with objects := r.objects.insert metricName m }
  | none => r

/-- The part of the latencies that a name stands for: the vector that is created for it. -/
def latencyVector : String → Option String
  | "node_apiserver_latency" => some "adv_node_apiserver_latency"
  | "node_apiserver_handshake_latency" => some "adv_node_apiserver_tcp_handshake_latency"
  | "node_apiserver_no_response" => some "adv_node_apiserver_no_response"
  | _ => none

def addLatency (lm : LatencyMetrics) : String → LatencyMetrics
  | "node_apiserver_latency" => { lm with nodeAPIServerLatency := some [] }
  | "node_apiserver_handshake_latency" => { lm with nodeAPIServerHandshakeLatency := some [] }
  | "node_apiserver_no_response" => { lm with noResponseMetric := some 0 }
  | _ => lm

/-- The vectors of the latencies are created at once. -/
def newLatencyMetrics (registrar : Registrar String) (toLower : String → String) (metricName : String) (p : Registry × Finset String) :
    Option (Registry × Finset String) :=
  if containsText (toLower metricName) nodeApiserver then
    (registrar.claim p.2 (latencyVector metricName)).map fun vectors =>
      ({ p.1 with hasLatency := true, lm := addLatency p.1.lm metricName },vectors)
  else some p

section Loops
variable (registrar : Registrar String) (toLower : String → String) (parseDuration : String → Except String ℤ) (mode : EnrichmentContext)

def addOption (p : Registry × Finset String) (option : SpecOption) (ttl : ℤ) : Option (Registry × Finset String) :=
  let name := option.metricName
  if containsText name "forward" then some (p.1.set name (newForwardCountMetrics toLower mode option ttl),p.2)
  else if containsText name "drop" then some (p.1.set name (newDropCountMetrics toLower mode option ttl),p.2)
  else if containsText name "tcp" then
    some ((p.1.set name (newTCPMetrics toLower mode option ttl)).set name (newTCPRetransMetrics toLower mode option ttl),
      p.2)
  else if containsText name nodeApiserver then newLatencyMetrics registrar toLower name p
  else if containsText name "dns" || containsText name "pktmon" then
    some (p.1.set name (newDNSMetrics toLower mode option ttl),p.2)
  else some p

def ttlOf (option : SpecOption) : Option ℤ :=
  if option.ttl = "" then some 0 else (parseDuration option.ttl).toOption

/-- An option whose text is no duration is passed over. -/
def visit (p : Registry × Finset String) (option : SpecOption) : Option (Registry × Finset String) :=
  match ttlOf parseDuration option with
  | none => some p
  | some ttl => addOption registrar toLower mode p option ttl

def initObject (objects : Finmap fun _ : String => MetricObject) (p : Unit × Finset String) (metricName : String) :
    Option (Unit × Finset String) :=
  (registrar.claim p.2 ((objects.lookup metricName).bind (·.kind.vectorName metricName))).map ((),·)

/-- `Init` of the latencies starts with an empty cache and without addresses. -/
def initLatency (r : Registry) : Registry := { r with lm := { r.lm with cache := ∅, apiServerIps := ∅ } }

/-- The registry has been cleaned and the exporter reset. Nothing is the result of a panic. -/
def updateMetricsContexts (order : FiniteMap.Order String) (lm : LatencyMetrics) (options : List SpecOption) :
    Option Registry :=
  (options.foldlM (visit registrar toLower parseDuration mode) ({ lm := lm },∅)).bind fun p =>
    ((order.list p.1.objects.keys).foldlM (initObject registrar p.1.objects) ((),p.2)).map fun _ => p.1.initLatency

end Loops

/-! ## What the loops build -/

end Registry

inductive Served where
  | object (kind : Kind) | latency | nothing
deriving DecidableEq

/-- The choice by what the name contains, together with the check of the constructor. For TCP the second constructor
replaces what the first one has made. -/
def served (toLower : String → String) (name : String) : Served :=
  if containsText name "forward" then
    if containsText (toLower name) "forward" then .object .forward else .nothing
  else if containsText name "drop" then
    if containsText (toLower name) "drop" then .object .drop else .nothing
  else if containsText name "tcp" then
    if containsText (toLower name) "retrans" then .object .tcpRetrans
    else if containsText (toLower name) "flag" then .object .tcpFlags else .nothing
  else if containsText name nodeApiserver then
    if containsText (toLower name) nodeApiserver then .latency else .nothing
  else if containsText name "dns" || containsText name "pktmon" then
    if containsText (toLower name) "dns" then .object .dns else .nothing
  else .nothing

def SpecOption.object (toLower : String → String) (mode : EnrichmentContext) (kind : Kind) (option : SpecOption)
    (ttl : ℤ) : MetricObject where
  kind := kind
  base := newBaseMetricsObject toLower
    ⟨kind.name,option.sourceLabels,option.destinationLabels,option.additionalLabels⟩ mode
  ttl := ttl

namespace Registry
section Build
variable (toLower : String → String) (parseDuration : String → Except String ℤ) (mode : EnrichmentContext)

def vectorAtOnce (option : SpecOption) : Option String :=
  if served toLower option.metricName = .latency then latencyVector option.metricName else none

def add (r : Registry) (option : SpecOption) : Registry :=
  match served toLower option.metricName with
  | .object kind =>
    { r with
      objects := r.objects.insert option.metricName
        (option.object toLower mode kind ((ttlOf parseDuration option).getD 0)) }
  | .latency => { r with hasLatency := true, lm := addLatency r.lm option.metricName }
  | .nothing => r

theorem set_newMetrics (r : Registry) (option : SpecOption) (ttl : ℤ) (kind : Kind) (word : String) :
    r.set option.metricName (newMetrics toLower mode option ttl kind word) =
      if containsText (toLower option.metricName) word then
        { r with objects := r.objects.insert option.metricName (option.object toLower mode kind ttl) }
      else r := by
  unfold newMetrics
  split <;> rfl

theorem visit_eq (registrar : Registrar String) (p : Registry × Finset String) {option : SpecOption} (hvalid : ttlOf parseDuration option ≠ none) :
    visit registrar toLower parseDuration mode p option =
      (registrar.claim p.2 (vectorAtOnce toLower option)).map (add toLower parseDuration mode p.1 option,·) := by
  obtain ⟨ttl,httl⟩ := Option.ne_none_iff_exists'.mp hvalid
  -- With each case it is known what the name contains; what is left is the check of the constructor.
  simp only [visit, httl, addOption, newForwardCountMetrics, newDropCountMetrics, newTCPMetrics, newTCPRetransMetrics,
    newDNSMetrics, set_newMetrics, newLatencyMetrics, vectorAtOnce, add, served]
  by_cases hforward : containsText option.metricName "forward" = true
  · by_cases hlower : containsText (toLower option.metricName) "forward" = true <;>
      simp [hforward, hlower, Registrar.claim]
  by_cases hdrop : containsText option.metricName "drop" = true
  · by_cases hlower : containsText (toLower option.metricName) "drop" = true <;>
      simp [hforward, hdrop, hlower, Registrar.claim]
  by_cases htcp : containsText option.metricName "tcp" = true
  · by_cases hretrans : containsText (toLower option.metricName) "retrans" = true <;>
      by_cases hflag : containsText (toLower option.metricName) "flag" = true <;>
        simp [hforward, hdrop, htcp, hretrans, hflag, Registrar.claim]
  by_cases hlatency : containsText option.metricName nodeApiserver = true
  · by_cases hlower : containsText (toLower option.metricName) nodeApiserver = true <;>
      simp [hforward, hdrop, htcp, hlatency, hlower, Registrar.claim]
  by_cases hdns : (containsText option.metricName "dns" || containsText option.metricName "pktmon") = true
  · by_cases hlower : containsText (toLower option.metricName) "dns" = true <;>
      simp [hforward, hdrop, htcp, hlatency, hdns, hlower, Registrar.claim]
  · simp [hforward, hdrop, htcp, hlatency, hdns, Registrar.claim]

def lastOption (options : List SpecOption) (name : String) : Option SpecOption :=
  options.reverse.find? fun option => option.metricName = name

theorem lastOption_append (options : List SpecOption) (option : SpecOption) (name : String) :
    lastOption (options ++ [option]) name = if option.metricName = name then some option else lastOption options name := by
  by_cases h : option.metricName = name <;> simp [lastOption, h]

theorem lookup_add (r : Registry) (option : SpecOption) (name : String) :
    (add toLower parseDuration mode r option).objects.lookup name =
      match served toLower name with
      | .object kind =>
        if option.metricName = name then some (option.object toLower mode kind ((ttlOf parseDuration option).getD 0))
        else r.objects.lookup name
      | _ => r.objects.lookup name := by
  unfold add
  by_cases hname : option.metricName = name
  · subst hname
    cases served toLower option.metricName <;> simp
  · have hinsert : ∀ m, (r.objects.insert option.metricName m).lookup name = r.objects.lookup name := fun m =>
      Finmap.lookup_insert_of_ne _ (Ne.symm hname)
    cases served toLower option.metricName <;> cases served toLower name <;> simp [hname, hinsert]

theorem lookup_objects (lm : LatencyMetrics) (options : List SpecOption) (name : String) :
    (options.foldl (add toLower parseDuration mode) { lm := lm }).objects.lookup name =
      match served toLower name with
      | .object kind => (lastOption options name).map fun option =>
          option.object toLower mode kind ((ttlOf parseDuration option).getD 0)
      | _ => none := by
  induction options using List.reverseRecOn with
  | nil => cases served toLower name <;> rfl
  | append_singleton options option ih =>
    rw [List.foldl_append, List.foldl_cons, List.foldl_nil, lastOption_append, lookup_add, ih]
    cases served toLower name with
    | object kind => by_cases hname : option.metricName = name <;> simp [hname]
    | latency => rfl
    | nothing => rfl

def latencyNames (options : List SpecOption) : List String :=
  (options.map SpecOption.metricName).filter fun name => served toLower name = .latency

theorem foldl_add_latency (r : Registry) (options : List SpecOption) :
    (options.foldl (add toLower parseDuration mode) r).hasLatency =
      (r.hasLatency || !(latencyNames toLower options).isEmpty) ∧
    (options.foldl (add toLower parseDuration mode) r).lm = (latencyNames toLower options).foldl addLatency r.lm := by
  induction options generalizing r with
  | nil => simp [latencyNames]
  | cons option options ih =>
    obtain ⟨hhas,hlm⟩ := ih (add toLower parseDuration mode r option)
    rw [List.foldl_cons, hhas, hlm]
    unfold add latencyNames
    cases hserved : served toLower option.metricName with
    | object kind => simp [hserved]
    | latency => simp [hserved]
    | nothing => simp [hserved]

theorem foldl_addLatency (lm : LatencyMetrics) (names : List String) : names.foldl addLatency lm =
    { lm with
      nodeAPIServerLatency := if "node_apiserver_latency" ∈ names then some [] else lm.nodeAPIServerLatency
      nodeAPIServerHandshakeLatency :=
        if "node_apiserver_handshake_latency" ∈ names then some [] else lm.nodeAPIServerHandshakeLatency
      noResponseMetric := if "node_apiserver_no_response" ∈ names then some 0 else lm.noResponseMetric } := by
  induction names generalizing lm with
  | nil => rfl
  | cons name names ih =>
    rw [List.foldl_cons, ih]
    unfold addLatency
    split
    · simp
    · simp
    · simp
    · next hlatency hhandshake hnoResponse =>
      simp [Ne.symm hlatency, Ne.symm hhandshake, Ne.symm hnoResponse]

/-! ## When a vector would be created twice -/

def vectorOf (name : String) : Option String :=
  match served toLower name with
  | .object kind => kind.vectorName name
  | _ => none

/-- A part of the latencies is asked for twice, or two names lead to one vector. -/
def Collides (options : List SpecOption) : Prop :=
  ¬(options.filterMap (vectorAtOnce toLower)).Nodup ∨
    ∃ option ∈ options, ∃ option' ∈ options, option.metricName ≠ option'.metricName ∧
      ∃ v, vectorOf toLower option.metricName = some v ∧ vectorOf toLower option'.metricName = some v

theorem lastOption_eq_none {options : List SpecOption} {name : String} :
    lastOption options name = none ↔ ∀ option ∈ options, option.metricName ≠ name := by
  simp [lastOption]

/-- The vectors of the latencies are not those of the other objects. -/
theorem latencyVector_ne_vectorOf {name name' v : String} (h : latencyVector name = some v) :
    vectorOf toLower name' ≠ some v := by
  have hlatency : v ∈ ["adv_node_apiserver_latency","adv_node_apiserver_tcp_handshake_latency",
      "adv_node_apiserver_no_response"] := by
    unfold latencyVector at h
    split at h <;> cases h <;> decide
  have hobject : ∀ kind : Kind, ∀ w, kind.vectorName name' = some w → w ∉ ["adv_node_apiserver_latency",
      "adv_node_apiserver_tcp_handshake_latency","adv_node_apiserver_no_response"] := by
    intro kind w hw
    unfold Kind.vectorName at hw
    split at hw <;> cases hw <;> decide
  unfold vectorOf
  cases served toLower name' with
  | object kind => exact fun hv => hobject kind v hv hlatency
  | latency => nofun
  | nothing => nofun

section Init
variable (lm : LatencyMetrics) {options : List SpecOption}

def builtVector (options : List SpecOption) (name : String) : Option String :=
  ((options.foldl (add toLower parseDuration mode) { lm := lm }).objects.lookup name).bind (·.kind.vectorName name)

theorem builtVector_eq_some_iff {name v : String} : builtVector toLower parseDuration mode lm options name = some v ↔
    vectorOf toLower name = some v ∧ ∃ option ∈ options, option.metricName = name := by
  have heq : builtVector toLower parseDuration mode lm options name =
      if lastOption options name = none then none else vectorOf toLower name := by
    rw [builtVector, lookup_objects, vectorOf]
    cases served toLower name <;> cases lastOption options name <;> simp [SpecOption.object]
  rw [heq]
  by_cases h : ∃ option ∈ options, option.metricName = name
  · obtain ⟨option,hmem,hname⟩ := h
    rw [if_neg fun hnone => lastOption_eq_none.mp hnone option hmem hname]
    exact ⟨fun hv => ⟨hv,option,hmem,hname⟩,And.left⟩
  · rw [if_pos (lastOption_eq_none.mpr fun option hmem hname => h ⟨option,hmem,hname⟩)]
    exact iff_of_false nofun fun hv => h hv.2

theorem mem_keys_of_builtVector {name v : String} (h : builtVector toLower parseDuration mode lm options name = some v) :
    name ∈ (options.foldl (add toLower parseDuration mode) { lm := lm }).objects.keys := by
  rw [Finmap.mem_keys, ← Finmap.lookup_isSome]
  rw [builtVector] at h
  cases hlookup : (options.foldl (add toLower parseDuration mode) { lm := lm }).objects.lookup name with
  | none => simp [hlookup] at h
  | some m => rfl

theorem available_init_iff (order : FiniteMap.Order String) :
    Registrar.Available (∅ ∪ (options.filterMap (vectorAtOnce toLower)).toFinset)
      ((order.list (options.foldl (add toLower parseDuration mode) { lm := lm }).objects.keys).filterMap
        (builtVector toLower parseDuration mode lm options)) ↔
    ∀ option ∈ options, ∀ option' ∈ options, option.metricName ≠ option'.metricName →
      ∀ v, vectorOf toLower option.metricName = some v → vectorOf toLower option'.metricName ≠ some v := by
  rw [Registrar.Available, Registrar.nodup_filterMap_iff (order.nodup_list _)]
  constructor
  · rintro ⟨hnodup,-⟩ option hmem option' hmem' hne v hv hv'
    have hbuilt := (builtVector_eq_some_iff toLower parseDuration mode lm).mpr ⟨hv,option,hmem,rfl⟩
    have hbuilt' := (builtVector_eq_some_iff toLower parseDuration mode lm).mpr ⟨hv',option',hmem',rfl⟩
    exact hnodup _ ((order.mem_list _ _).mpr (mem_keys_of_builtVector toLower parseDuration mode lm hbuilt))
      _ ((order.mem_list _ _).mpr (mem_keys_of_builtVector toLower parseDuration mode lm hbuilt')) hne v hbuilt hbuilt'
  · intro hshared
    refine ⟨fun name _ name' _ hne v hv hv' => ?_,fun v hv htaken => ?_⟩
    · obtain ⟨hv,option,hmem,rfl⟩ := (builtVector_eq_some_iff toLower parseDuration mode lm).mp hv
      obtain ⟨hv',option',hmem',rfl⟩ := (builtVector_eq_some_iff toLower parseDuration mode lm).mp hv'
      exact hshared option hmem option' hmem' hne v hv hv'
    · obtain ⟨name,-,hv⟩ := List.mem_filterMap.mp hv
      obtain ⟨hv,-⟩ := (builtVector_eq_some_iff toLower parseDuration mode lm).mp hv
      simp only [Finset.empty_union, List.mem_toFinset, List.mem_filterMap, vectorAtOnce] at htaken
      obtain ⟨option,-,hlatency⟩ := htaken
      split_ifs at hlatency
      exact latencyVector_ne_vectorOf toLower hlatency hv

end Init

/-- The two loops build the registry, unless a vector would be created twice. -/
theorem updateMetricsContexts_eq (registrar : Registrar String) (order : FiniteMap.Order String) (lm : LatencyMetrics) {options : List SpecOption}
    (hvalid : ∀ option ∈ options, ttlOf parseDuration option ≠ none) :
    (Collides toLower options → updateMetricsContexts registrar toLower parseDuration mode order lm options = none) ∧
    (¬Collides toLower options → updateMetricsContexts registrar toLower parseDuration mode order lm options =
      some (options.foldl (add toLower parseDuration mode) { lm := lm }).initLatency) := by
  have hbody : ∀ p, ∀ option ∈ options, visit registrar toLower parseDuration mode p option =
      (registrar.claim p.2 (vectorAtOnce toLower option)).map (add toLower parseDuration mode p.1 option,·) :=
    fun p option hmem => visit_eq toLower parseDuration mode registrar p (hvalid option hmem)
  have hinit : ∀ p, ∀ name ∈ order.list (options.foldl (add toLower parseDuration mode) { lm := lm }).objects.keys,
      initObject registrar (options.foldl (add toLower parseDuration mode) { lm := lm }).objects p name =
        (registrar.claim p.2 (builtVector toLower parseDuration mode lm options name)).map ((),·) :=
    fun _ _ _ => rfl
  unfold updateMetricsContexts
  by_cases hnodup : (options.filterMap (vectorAtOnce toLower)).Nodup
  · have hfree : Registrar.Available ∅ (options.filterMap (vectorAtOnce toLower)) := ⟨hnodup,by simp⟩
    rw [registrar.foldlM_of_available _ hbody { lm := lm } hfree, Option.bind_some]
    dsimp only
    by_cases hshared : Registrar.Available (∅ ∪ (options.filterMap (vectorAtOnce toLower)).toFinset)
        ((order.list (options.foldl (add toLower parseDuration mode) { lm := lm }).objects.keys).filterMap
          (builtVector toLower parseDuration mode lm options))
    · rw [registrar.foldlM_of_available (fun _ _ => ()) hinit () hshared]
      refine ⟨fun hcollides => ?_,fun _ => rfl⟩
      rcases hcollides with hnot | ⟨option,hmem,option',hmem',hne,v,hv,hv'⟩
      · exact absurd hnodup hnot
      · exact absurd hv' ((available_init_iff toLower parseDuration mode lm order).mp hshared option hmem option' hmem'
          hne v hv)
    · rw [registrar.foldlM_of_not_available (fun _ _ => ()) hinit () hshared]
      refine ⟨fun _ => rfl,fun hno => absurd (.inr ?_) hno⟩
      rw [available_init_iff] at hshared
      push Not at hshared
      exact hshared
  · have hfirst := registrar.foldlM_of_not_available _ hbody { lm := lm } fun h : Registrar.Available ∅ _ => hnodup h.1
    exact ⟨fun _ => by rw [hfirst]; rfl,fun h => absurd (.inl hnodup) h⟩

end Build
end Registry
end Retina.Labels
