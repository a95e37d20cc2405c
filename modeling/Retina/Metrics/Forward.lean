import Retina.Metrics.Flow

/-! # The forward metrics

A gauge adds, for each flow, the packet and what was held back before it, in
`uint32` arithmetic. A gauge value is a `float64`, and each of the added values is
exact there; the model follows their sum as a natural number.
-/
namespace Retina.Metrics
open Conntrack

inductive ForwardMetricName where
  | forwardPackets | forwardBytes | other

structure ForwardMetrics where
  metricName : ForwardMetricName
  gauge : List String → ℕ := fun _ => 0

def ForwardMetrics.add (f : ForwardMetrics) (labels : List String) (value : UInt32) : ForwardMetrics :=
  { f with gauge := Function.update f.gauge labels (f.gauge labels + value.toNat) }

def ForwardMetrics.update (f : ForwardMetrics) (fl : Flow) (labels : List String) : ForwardMetrics :=
  match f.metricName with
  | .forwardPackets => f.add labels (previouslyObservedPackets fl + 1)
  | .forwardBytes => f.add labels (packetSize fl + previouslyObservedBytes fl)
  | .other => f

def ForwardMetricName.value (name : ForwardMetricName) (fl : Flow) : ℕ :=
  match name with
  | .forwardPackets => (previouslyObservedPackets fl + 1).toNat
  | .forwardBytes => (packetSize fl + previouslyObservedBytes fl).toNat
  | .other => 0

def forwardTotal (name : ForwardMetricName) (flows : List Flow) (labels : List String) : ℕ :=
  (flows.foldl (fun f fl => ForwardMetrics.update f fl labels) { metricName := name }).gauge labels

theorem ForwardMetrics.update_metricName (f : ForwardMetrics) (fl : Flow) (labels : List String) :
    (f.update fl labels).metricName = f.metricName := by
  unfold ForwardMetrics.update
  split <;> rfl

theorem ForwardMetrics.update_gauge (f : ForwardMetrics) (fl : Flow) (labels : List String) :
    (f.update fl labels).gauge labels = f.gauge labels + f.metricName.value fl := by
  unfold ForwardMetrics.update ForwardMetricName.value
  split <;> simp [ForwardMetrics.add]

theorem ForwardMetrics.foldl_gauge (f : ForwardMetrics) (flows : List Flow) (labels : List String) :
    (flows.foldl (fun f fl => f.update fl labels) f).gauge labels =
      f.gauge labels + (flows.map f.metricName.value).sum := by
  induction flows generalizing f with
  | nil => rfl
  | cons fl flows ih =>
    rw [List.foldl_cons, ih, f.update_gauge, f.update_metricName, List.map_cons, List.sum_cons, Nat.add_assoc]

theorem forwardTotal_eq (name : ForwardMetricName) (flows : List Flow) (labels : List String) :
    forwardTotal name flows labels = (flows.map name.value).sum := by
  rw [forwardTotal, ForwardMetrics.foldl_gauge, Nat.zero_add]

inductive Measures : ForwardMetricName → Counter → Prop
  | packets : Measures .forwardPackets .packets
  | bytes : Measures .forwardBytes .bytes

theorem Measures.value {name : ForwardMetricName} {ctr : Counter} (h : Measures name ctr) {cfg : Config}
    {key : CtV4Key} {v : Visit} (hv : Logged cfg key v) :
    name.value (processRecord (carry v.packet v.report)) =
      (v.report.observed ctr + v.amount ctr) % (counterLimit + 1) := by
  obtain ⟨isReply,entry,hpacket⟩ := hv.packet
  cases h with
  | packets =>
    rw [ForwardMetricName.value, previouslyObservedPackets_processRecord]
    exact UInt32.toNat_add _ 1
  | bytes =>
    have hbytes : (carry v.packet v.report).bytes = v.call.packet.bytes := by
      rw [hpacket]
      rfl
    rw [ForwardMetricName.value, previouslyObservedBytes_processRecord, packetSize_processRecord, hbytes,
      UInt32.add_comm]
    exact UInt32.toNat_add _ _

/-- The forward metrics of one direction of a living entry, together with what it has
pending, are exact if and only if no packet of the direction, reported or not, takes
its pending counter past `UINT32_MAX`. -/
theorem forward_exact_iff (cfg : Config) (events : List Event) (key : CtV4Key) (entry : CtEntry)
    (hentry : (World.run cfg events).map.lookup key = some entry) (d : Direction) (labels : List String)
    (name : ForwardMetricName) (ctr : Counter) (hm : Measures name ctr) :
    processed d ctr ((World.run cfg events).log key) =
        forwardTotal name (flowsOf .high (visitsOf d ((World.run cfg events).log key))) labels +
          (entry.dir d).pending ctr ↔
      ∀ v ∈ (World.run cfg events).log key, v.dir = d → v.pendingBefore ctr + v.amount ctr ≤ counterLimit := by
  have hlife := World.run_lifetime cfg events key
  have hlogged := hlife.logged
  have hcounted : ctr.counted key.proto = true := by cases hm <;> rfl
  obtain ⟨ho,hp⟩ := hlife.refines hcounted
  generalize (World.run cfg events).log key = log at *
  have hforward : forwardTotal name (flowsOf .high (visitsOf d log)) labels =
      (deferred ctr).received (fun pending v => (pending + v.amount ctr) % (counterLimit + 1)) (visitsOf d log) := by
    rw [forwardTotal_eq, sum_flowsOf_high, received_eq_sum _ ho]
    congr 1
    apply List.map_congr_left
    intro v hv
    have hmem : v ∈ log := (List.mem_filter.mp (List.mem_filter.mp hv).1).1
    exact hm.value (hlogged v hmem)
  rw [hforward, hp entry hentry]
  refine ((deferred ctr).total_eq_received_iff (fun _ _ => Nat.mod_le _ _) (visitsOf d log)).trans ?_
  rw [exact_iff ho]
  refine forall_congr' fun v => forall_congr' fun hv => forall_congr' fun _ => ?_
  have hobserved := (hlogged v hv).observed ctr
  change (v.report.report = false → v.report.observed ctr + v.amount ctr ≤ counterLimit) ∧
    (v.report.report = true → (v.report.observed ctr + v.amount ctr) % (counterLimit + 1) =
      v.report.observed ctr + v.amount ctr) ↔ _
  rw [hobserved, mod_eq_self_iff]
  cases v.report.report with
  | true => simp only [reduceCtorEq, false_implies, true_and, forall_const]
  | false => simp only [reduceCtorEq, false_implies, and_true, forall_const]

theorem forward_exact_iff_handshake :
    processed .tx .bytes ((World.run sampleConfig handshake).log tcpKey) =
      forwardTotal .forwardBytes (flowsOf .high (visitsOf .tx ((World.run sampleConfig handshake).log tcpKey))) [] +
        100 := by
  exact (forward_exact_iff sampleConfig handshake tcpKey _ rfl .tx [] .forwardBytes .bytes .bytes).mpr (by decide)

def largePackets : List Event :=
  [.packet ⟨1000,clientPacket ipprotoUdp 1 40,0,true⟩,
    .packet ⟨1001,clientPacket ipprotoUdp 1 4294967295,0,true⟩,
    .packet ⟨1030,clientPacket ipprotoUdp 1 100,0,true⟩]

/-- The second report adds a wrapped value to the gauge. -/
theorem forward_bytes_wrap :
    processed .tx .bytes ((World.run sampleConfig largePackets).log udpKey) = 4294967435 ∧
      forwardTotal .forwardBytes
        (flowsOf .high (visitsOf .tx ((World.run sampleConfig largePackets).log udpKey))) [] = 139 ∧
      ((World.run sampleConfig largePackets).map.lookup udpKey).map (fun e => (e.dir .tx).pending .bytes) =
        some 0 := by
  decide

end Retina.Metrics
