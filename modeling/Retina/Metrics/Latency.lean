import Retina.Library.Execution
import Retina.Library.FiniteMap
import Retina.Library.Rounding
import Retina.Cache.Types
import Retina.Metrics.Flow

/-! # The latency of the API server

`pkg/module/metrics/latency.go`. A packet to the API server is stored under its connection
and its time stamp option, and the packet that echoes the option gives the latency. A
packet is stored with the nanoseconds of its time only, without the seconds. The rounding
of quotients to `float64` and the function `net.ParseIP` are parameters.
-/
namespace Retina.Metrics
open Cache (NetIP)

inductive TraceObservationPoint
  | unknownPoint
  | toStack
  | toEndpoint
  | fromNetwork
  | toNetwork
deriving DecidableEq

/-- A time that `decodeTime` has checked. -/
structure Timestamp where
  seconds : ℤ
  nanos : Int32
  valid : 0 ≤ nanos.toInt ∧ nanos.toInt < 1000000000

def Timestamp.toNanos (t : Timestamp) : ℤ := t.seconds * 1000000000 + t.nanos.toInt

/-- A flow with TCP and with addresses. Others are ignored by the metric. -/
structure LatencyFlow where
  source : String
  destination : String
  sourcePort : UInt32
  destinationPort : UInt32
  flags : Option TcpFlags
  tcpID : UInt64
  traceObservationPoint : TraceObservationPoint
  time : Timestamp

structure LatencyKey where
  srcIP : String
  dstIP : String
  srcP : UInt32
  dstP : UInt32
  id : UInt64
deriving DecidableEq

structure LatencyVal where
  t : Int32
  flags : Option TcpFlags

/-- The addresses are those that the watcher published. A metric that is not configured is `none`. -/
structure LatencyMetrics where
  apiServerIps : Finset NetIP := ∅
  cache : Finmap (fun _ : LatencyKey => LatencyVal) := ∅
  nodeAPIServerLatency : Option (List ℤ) := none
  nodeAPIServerHandshakeLatency : Option (List ℤ) := none
  noResponseMetric : Option ℕ := none

def LatencyFlow.key (f : LatencyFlow) : LatencyKey :=
  ⟨f.source,f.destination,f.sourcePort,f.destinationPort,f.tcpID⟩

/-- The key under which the packet was stored that this one replies to. -/
def LatencyFlow.replyKey (f : LatencyFlow) : LatencyKey :=
  ⟨f.destination,f.source,f.destinationPort,f.sourcePort,f.tcpID⟩

def isHandshake (prev cur : Option TcpFlags) : Bool :=
  match prev,cur with
  | some prevFlowflags,some curFlowflags => prevFlowflags .syn && curFlowflags .syn && curFlowflags .ack
  | _,_ => false

namespace LatencyMetrics
variable (fl : ℚ → ℚ)

/-- The difference is one of 32 bit integers. -/
def latency (f : LatencyFlow) (v : LatencyVal) : ℤ := roundAway (fl ((f.time.nanos - v.t).toInt / 1000000))

def observe (lm : LatencyMetrics) (value : ℤ) (handshake : Bool) : LatencyMetrics := { lm with
  nodeAPIServerLatency := lm.nodeAPIServerLatency.map (· ++ [value])
  nodeAPIServerHandshakeLatency :=
    if handshake = true then lm.nodeAPIServerHandshakeLatency.map (· ++ [value])
    else lm.nodeAPIServerHandshakeLatency }

def calculateLatency (lm : LatencyMetrics) (f : LatencyFlow) : LatencyMetrics :=
  match f.traceObservationPoint with
  | .toNetwork =>
    match lm.cache.lookup f.key with
    | none => { lm with cache := lm.cache.insert f.key ⟨f.time.nanos,f.flags⟩ }
    | some _ => lm
  | .fromNetwork =>
    match lm.cache.lookup f.replyKey with
    | none => lm
    | some v => { lm.observe (latency fl f v) (isHandshake v.flags f.flags) with cache := lm.cache.erase f.replyKey }
  | _ => lm

def processFlow (parseIP : String → NetIP) (lm : LatencyMetrics) (f : LatencyFlow) : LatencyMetrics :=
  if f.tcpID = 0 then lm
  else if parseIP f.source ∈ lm.apiServerIps ∨ parseIP f.destination ∈ lm.apiServerIps then lm.calculateLatency fl f
  else lm

/-- An entry that expires was not answered. -/
def evict (lm : LatencyMetrics) (k : LatencyKey) : LatencyMetrics :=
  match lm.cache.lookup k with
  | none => lm
  | some _ => { lm with cache := lm.cache.erase k, noResponseMetric := lm.noResponseMetric.map (· + 1) }

end LatencyMetrics

inductive LatencyOp
  | flow (f : LatencyFlow)
  | expire (k : LatencyKey)

namespace LatencyMetrics

def step (fl : ℚ → ℚ) (parseIP : String → NetIP) (lm : LatencyMetrics) : LatencyOp → LatencyMetrics
  | .flow f => lm.processFlow fl parseIP f
  | .expire k => lm.evict k

end LatencyMetrics

def LatencyOp.Leaves (k : LatencyKey) : LatencyOp → Prop
  | .flow f => f.traceObservationPoint = .fromNetwork → f.replyKey ≠ k
  | .expire k' => k' ≠ k

/-! ## An entry until its reply -/

namespace LatencyMetrics
variable {fl : ℚ → ℚ} {parseIP : String → NetIP} {lm : LatencyMetrics} {k : LatencyKey} {v : LatencyVal}

structure Waits (k : LatencyKey) (v : LatencyVal) (lm : LatencyMetrics) : Prop where
  entry : lm.cache.lookup k = some v
  configured : lm.nodeAPIServerLatency ≠ none

theorem Waits.calculateLatency (h : lm.Waits k v) {f : LatencyFlow}
    (hf : f.traceObservationPoint = .fromNetwork → f.replyKey ≠ k) : (lm.calculateLatency fl f).Waits k v := by
  unfold LatencyMetrics.calculateLatency
  cases hpoint : f.traceObservationPoint with
  | unknownPoint => exact h
  | toStack => exact h
  | toEndpoint => exact h
  | toNetwork =>
    cases hlookup : lm.cache.lookup f.key with
    | none =>
      have hne : k ≠ f.key := by
        intro heq
        rw [← heq, h.entry] at hlookup
        cases hlookup
      exact ⟨(Finmap.lookup_insert_of_ne _ hne).trans h.entry,h.configured⟩
    | some w => exact h
  | fromNetwork =>
    cases hlookup : lm.cache.lookup f.replyKey with
    | none => exact h
    | some w =>
      refine ⟨(Finmap.lookup_erase_ne (Ne.symm (hf hpoint))).trans h.entry,?_⟩
      simp [observe, h.configured]

theorem Waits.step (h : lm.Waits k v) {op : LatencyOp} (hop : op.Leaves k) :
    (lm.step fl parseIP op).Waits k v := by
  cases op with
  | flow f =>
    simp only [LatencyMetrics.step, processFlow]
    split
    · exact h
    · split
      · exact h.calculateLatency hop
      · exact h
  | expire k' =>
    cases hlookup : lm.cache.lookup k' with
    | none =>
      simp only [LatencyMetrics.step, evict, hlookup]
      exact h
    | some w =>
      simp only [LatencyMetrics.step, evict, hlookup]
      exact ⟨(Finmap.lookup_erase_ne (Ne.symm hop)).trans h.entry,h.configured⟩

theorem waits_run (h : lm.Waits k v) {ops : List LatencyOp} (hops : ∀ op ∈ ops, op.Leaves k) :
    (Execution.run (step fl parseIP) lm ops).Waits k v :=
  Execution.invariant (P := fun _ op => op.Leaves k) (fun _ _ h hop => h.step hop) h
    (Execution.along_of_forall (fun op hop _ => hops op hop) lm)

/-- A first packet is stored. -/
theorem waits_calculateLatency {f : LatencyFlow} (hout : f.traceObservationPoint = .toNetwork)
    (hfirst : lm.cache.lookup f.key = none) (hconfigured : lm.nodeAPIServerLatency ≠ none) :
    (lm.calculateLatency fl f).Waits f.key ⟨f.time.nanos,f.flags⟩ := by
  simp only [LatencyMetrics.calculateLatency, hout, hfirst]
  exact ⟨Finmap.lookup_insert _,hconfigured⟩

/-- The reply is observed with the value that is computed from the entry. -/
theorem Waits.reply {f : LatencyFlow} (h : lm.Waits f.replyKey v) (hin : f.traceObservationPoint = .fromNetwork) :
    (lm.calculateLatency fl f).nodeAPIServerLatency = lm.nodeAPIServerLatency.map (· ++ [latency fl f v]) := by
  simp only [LatencyMetrics.calculateLatency, hin, h.entry, observe]

end LatencyMetrics

/-! ## The value that is observed -/

def elapsedMillis (t₁ t₂ : Timestamp) : ℤ := roundAway ((t₂.toNanos - t₁.toNanos : ℤ) / 1000000)

theorem nanos_sub (t₁ t₂ : Timestamp) : (t₂.nanos - t₁.nanos).toInt = t₂.nanos.toInt - t₁.nanos.toInt := by
  have h₁ := t₁.valid
  have h₂ := t₂.valid
  rw [Int32.toInt_sub]
  refine Int.bmod_eq_of_le ?_ ?_
  · omega
  · omega

section
variable {t₁ t₂ : Timestamp} (hle : t₁.toNanos ≤ t₂.toNanos) (httl : t₂.toNanos - t₁.toNanos < 500000000)
include hle httl

/-- The second packet comes in the same second or in the next one. -/
theorem seconds_cases : t₁.seconds = t₂.seconds ∧ t₂.nanos.toInt - t₁.nanos.toInt = t₂.toNanos - t₁.toNanos ∨
    t₁.seconds ≠ t₂.seconds ∧ t₂.nanos.toInt - t₁.nanos.toInt ≤ -500000000 := by
  have h₁ := t₁.valid
  have h₂ := t₂.valid
  unfold Timestamp.toNanos at *
  omega

theorem latency_eq_elapsed_iff {fl : ℚ → ℚ} (hfl : Float64Rounding fl) :
    roundAway (fl ((t₂.nanos - t₁.nanos).toInt / 1000000)) = elapsedMillis t₁ t₂ ↔ t₁.seconds = t₂.seconds := by
  have hnonneg : (0 : ℚ) ≤ (t₂.toNanos - t₁.toNanos : ℤ) / 1000000 := by
    have : (0 : ℤ) ≤ t₂.toNanos - t₁.toNanos := by omega
    exact div_nonneg (by exact_mod_cast this) (by norm_num)
  rw [nanos_sub]
  obtain ⟨hsame,hdiff⟩ | ⟨hother,hdiff⟩ := seconds_cases hle httl
  · refine iff_of_true ?_ hsame
    rw [hdiff, elapsedMillis]
    have hround : round (fl (((t₂.toNanos - t₁.toNanos : ℤ) : ℚ) / 1000000)) =
        round (((t₂.toNanos - t₁.toNanos : ℤ) : ℚ) / 1000000) := by
      have h := hfl.round_div (n := t₂.toNanos - t₁.toNanos) (d := 500000) (by omega) (by norm_num) (by norm_num)
        (by omega)
      norm_num at h ⊢
      exact h
    have hfl0 : 0 ≤ fl (((t₂.toNanos - t₁.toNanos : ℤ) : ℚ) / 1000000) := by
      have hzero := hfl.exact_int (k := 0) (by norm_num)
      rw [← Int.cast_zero, ← hzero]
      exact hfl.mono (by simpa using hnonneg)
    rw [roundAway_of_nonneg hfl0, roundAway_of_nonneg hnonneg, hround]
  · refine iff_of_false ?_ hother
    -- The difference is negative, and so is the observed value.
    have hneg : fl ((t₂.nanos.toInt - t₁.nanos.toInt : ℤ) / 1000000) ≤ -500 := by
      have hexact := hfl.exact_int (k := -500) (by norm_num)
      have hcast : ((t₂.nanos.toInt - t₁.nanos.toInt : ℤ) : ℚ) ≤ -500000000 := by exact_mod_cast hdiff
      have hmono := hfl.mono (show ((t₂.nanos.toInt - t₁.nanos.toInt : ℤ) : ℚ) / 1000000 ≤ ((-500 : ℤ) : ℚ) by
        rw [div_le_iff₀ (by norm_num)]
        push_cast
        push_cast at hcast
        linarith)
      rw [hexact] at hmono
      push_cast at hmono ⊢
      exact hmono
    have hobserved := roundAway_neg (hneg.trans (by norm_num))
    have helapsed : 0 ≤ elapsedMillis t₁ t₂ := roundAway_nonneg hnonneg
    intro heq
    rw [heq] at hobserved
    omega

end

/-- The observed latency is the elapsed time exactly if both packets are of the same second. -/
theorem latency_is_elapsed_iff (fl : ℚ → ℚ) (hfl : Float64Rounding fl) (parseIP : String → NetIP) (lm : LatencyMetrics)
    (hconfigured : lm.nodeAPIServerLatency ≠ none) (f₁ f₂ : LatencyFlow)
    (hout : f₁.traceObservationPoint = .toNetwork) (hin : f₂.traceObservationPoint = .fromNetwork)
    (hkey : f₂.replyKey = f₁.key) (hfirst : lm.cache.lookup f₁.key = none)
    (hle : f₁.time.toNanos ≤ f₂.time.toNanos) (httl : f₂.time.toNanos - f₁.time.toNanos < 500000000)
    (between : List LatencyOp) (hbetween : ∀ op ∈ between, op.Leaves f₁.key) :
    ((Execution.run (LatencyMetrics.step fl parseIP) (lm.calculateLatency fl f₁) between).calculateLatency fl
        f₂).nodeAPIServerLatency =
      (Execution.run (LatencyMetrics.step fl parseIP) (lm.calculateLatency fl f₁) between).nodeAPIServerLatency.map
        (· ++ [elapsedMillis f₁.time f₂.time]) ↔
    f₁.time.seconds = f₂.time.seconds := by
  have hwaits : (Execution.run (LatencyMetrics.step fl parseIP) (lm.calculateLatency fl f₁) between).Waits f₁.key
      ⟨f₁.time.nanos,f₁.flags⟩ :=
    LatencyMetrics.waits_run (LatencyMetrics.waits_calculateLatency hout hfirst hconfigured) hbetween
  rw [← hkey] at hwaits
  rw [hwaits.reply hin, ← latency_eq_elapsed_iff hle httl hfl]
  obtain ⟨values,hvalues⟩ := Option.ne_none_iff_exists'.mp hwaits.configured
  simp [hvalues, LatencyMetrics.latency]

section Sample

def timeAt (seconds : ℤ) (nanos : Int32) (valid : 0 ≤ nanos.toInt ∧ nanos.toInt < 1000000000) : Timestamp :=
  ⟨seconds,nanos,valid⟩

def requestAt (t : Timestamp) : LatencyFlow := ⟨"10.0.0.5","10.0.0.1",40000,443,none,7,.toNetwork,t⟩

def replyAt (t : Timestamp) : LatencyFlow := ⟨"10.0.0.1","10.0.0.5",443,40000,none,7,.fromNetwork,t⟩

def observing : LatencyMetrics := { nodeAPIServerLatency := some [] }

end Sample

/-- A request at the end of a second and its reply in the next second. -/
theorem latency_negative :
    ((observing.calculateLatency id (requestAt (timeAt 0 900000000 (by decide)))).calculateLatency id
      (replyAt (timeAt 1 100000000 (by decide)))).nodeAPIServerLatency = some [-800] ∧
    elapsedMillis (timeAt 0 900000000 (by decide)) (timeAt 1 100000000 (by decide)) = 200 := by
  have hstored : (observing.calculateLatency id (requestAt (timeAt 0 900000000 (by decide)))).Waits
    (replyAt (timeAt 1 100000000 (by decide))).replyKey ⟨900000000,none⟩ := ⟨rfl,by decide⟩
  have hdiff : ((100000000 - 900000000 : Int32)).toInt = -800000000 := by decide
  constructor
  · rw [hstored.reply rfl]
    simp only [observing, LatencyMetrics.latency, replyAt, timeAt, hdiff]
    norm_num [LatencyMetrics.calculateLatency, roundAway, round_eq, requestAt]
  · have helapsed : (timeAt 1 100000000 (by decide)).toNanos - (timeAt 0 900000000 (by decide)).toNanos = 200000000 := by
      decide
    rw [elapsedMillis, helapsed]
    norm_num [roundAway, round_eq]

theorem latency_is_elapsed_within_second :
    ((observing.calculateLatency id (requestAt (timeAt 0 100000000 (by decide)))).calculateLatency id
      (replyAt (timeAt 0 300000000 (by decide)))).nodeAPIServerLatency =
        some [elapsedMillis (timeAt 0 100000000 (by decide)) (timeAt 0 300000000 (by decide))] :=
  (latency_is_elapsed_iff id float64Rounding_id (fun _ => .nil) observing (by decide)
    (requestAt (timeAt 0 100000000 (by decide))) (replyAt (timeAt 0 300000000 (by decide))) rfl rfl rfl rfl (by decide)
    (by decide) [] (by simp)).mpr rfl

end Retina.Metrics
