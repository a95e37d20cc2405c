import Retina.Conntrack.GarbageCollection
import Retina.Library.Rounding

/-! # The totals of a node

A cycle of the garbage collection adds up the counters of the entries that it comes to and sets the gauges of the
node to the sums. Bytes are added in 64 bits, packets in 32. The rounding of integers to `float64` is a
parameter.
-/
namespace Retina.Conntrack

def ctMapSize : ℕ := 262144

def Cycle.visited (s : Cycle) (e : CycleEvent) : Option ConntrackMetadata :=
  match e.action with
  | .scan key => if s.scanning then (s.map.lookup key).map CtEntry.conntrackMetadata else none
  | _ => none

def Cycle.iterated (cfg : GcConfig) : Cycle → List CycleEvent → List ConntrackMetadata
  | _,[] => []
  | s,e :: events => (s.visited e).toList ++ iterated cfg (s.step cfg e) events

def Cycle.entries (cfg : GcConfig) (map : CtMap) (start : UInt64) (events : List CycleEvent) : List ConntrackMetadata :=
  Cycle.iterated cfg { map := map, bootNs := start } events

def exactSum (counter : ConntrackMetadata → ℕ) (entries : List ConntrackMetadata) : ℕ := (entries.map counter).sum

def packetsTx (ctMeta : ConntrackMetadata) : ℕ := ctMeta.packetsTxCount.toNat
def packetsRx (ctMeta : ConntrackMetadata) : ℕ := ctMeta.packetsRxCount.toNat
def bytesTx (ctMeta : ConntrackMetadata) : ℕ := ctMeta.bytesTxCount.toNat
def bytesRx (ctMeta : ConntrackMetadata) : ℕ := ctMeta.bytesRxCount.toNat

/-- The five gauges show the sums over the entries and their number, each rounded to `float64`. -/
structure ExactGauges (fl : ℚ → ℚ) (entries : List ConntrackMetadata) (gauges : NodeTotals) : Prop where
  packetsTx : fl gauges.packetsCountTx.toNat = fl (exactSum packetsTx entries)
  packetsRx : fl gauges.packetsCountRx.toNat = fl (exactSum packetsRx entries)
  bytesTx : fl gauges.bytesCountTx.toNat = fl (exactSum bytesTx entries)
  bytesRx : fl gauges.bytesCountRx.toNat = fl (exactSum bytesRx entries)
  connections : fl gauges.totConnections.toNat = fl entries.length

/-! ## The sums of a cycle -/

theorem Cycle.totals_step {cfg : GcConfig} (hcfg : cfg.conntrackMetricsEnabled = true) (s : Cycle) (e : CycleEvent) :
    (s.step cfg e).totals = (s.visited e).toList.foldl NodeTotals.add s.totals := by
  obtain ⟨bootNs,action⟩ := e
  cases action with
  | packet p observationPoint sampled => rfl
  | evict key => rfl
  | scan key =>
    by_cases hscan : s.scanning = true
    · simp only [step, act, visited, hscan, if_true, scan, hcfg]
      cases s.map.lookup key <;> rfl
    · simp only [step, act, visited, if_neg hscan]
      rfl
  | finishScan =>
    simp only [step, act, visited]
    split <;> rfl
  | delete =>
    simp only [step, act, visited]
    split
    · rfl
    · split <;> rfl

theorem Cycle.totals_run {cfg : GcConfig} (hcfg : cfg.conntrackMetricsEnabled = true) (s : Cycle)
    (events : List CycleEvent) :
    (Execution.run (Cycle.step cfg) s events).totals = (s.iterated cfg events).foldl NodeTotals.add s.totals := by
  induction events generalizing s with
  | nil => rfl
  | cons e events ih => rw [Execution.run_cons, ih, totals_step hcfg, iterated, List.foldl_append]

def Cycle.GaugesSet (s : Cycle) : Prop := s.scanning = false → s.gauges = s.totals

theorem Cycle.GaugesSet.step {cfg : GcConfig} (hcfg : cfg.conntrackMetricsEnabled = true) {s : Cycle} (h : s.GaugesSet)
    (e : CycleEvent) : (s.step cfg e).GaugesSet := by
  obtain ⟨bootNs,action⟩ := e
  unfold GaugesSet at h ⊢
  cases action with
  | packet p observationPoint sampled => exact h
  | evict key => exact h
  | scan key =>
    by_cases hscan : s.scanning = true
    · intro hover
      have hstill : (s.step cfg ⟨bootNs,.scan key⟩).scanning = true := by
        simp only [Cycle.step, act, hscan, if_true, scan]
        cases s.map.lookup key <;> rfl
      rw [hstill] at hover
      cases hover
    · simpa only [Cycle.step, act, if_neg hscan] using h
  | finishScan =>
    simp only [Cycle.step, act, hcfg, if_true]
    split
    · exact fun _ => rfl
    · exact h
  | delete =>
    simp only [Cycle.step, act]
    split
    · exact h
    · split <;> exact h

theorem Cycle.gauges_run {cfg : GcConfig} (hcfg : cfg.conntrackMetricsEnabled = true) (map : CtMap) (start : UInt64)
    (events : List CycleEvent) (hover : (Cycle.run cfg map start events).scanning = false) :
    (Cycle.run cfg map start events).gauges = (Cycle.entries cfg map start events).foldl NodeTotals.add {} := by
  have hset : (Cycle.run cfg map start events).GaugesSet :=
    Execution.invariant_of_step (I := Cycle.GaugesSet) (fun s e h => h.step hcfg e) (fun h => by cases h) events
  rw [hset hover, Cycle.run, totals_run hcfg, entries]

/-! ## Wrapping -/

theorem exactSum_append_singleton (counter : ConntrackMetadata → ℕ) (entries : List ConntrackMetadata)
    (ctMeta : ConntrackMetadata) :
    exactSum counter (entries ++ [ctMeta]) = exactSum counter entries + counter ctMeta := by
  simp [exactSum]

/-- A sum that wraps at every addition is the exact sum, wrapped once. -/
theorem foldl_add_eq_mod (total : NodeTotals → ℕ) (counter : ConntrackMetadata → ℕ) {m : ℕ} (hzero : total {} = 0)
    (hadd : ∀ t ctMeta, total (t.add ctMeta) = (total t + counter ctMeta) % m) (entries : List ConntrackMetadata) :
    total (entries.foldl NodeTotals.add {}) = exactSum counter entries % m := by
  induction entries using List.reverseRecOn with
  | nil => simp [exactSum, hzero]
  | append_singleton entries ctMeta ih =>
    rw [List.foldl_append, List.foldl_cons, List.foldl_nil, hadd, ih, Nat.mod_add_mod, exactSum_append_singleton]

variable {fl : ℚ → ℚ}

/-- A sum of counters of 32 bits stays far below the integers that `float64` cannot represent. -/
theorem exactSum_le {counter : ConntrackMetadata → ℕ} (hcounter : ∀ ctMeta, counter ctMeta < 2 ^ 32)
    {entries : List ConntrackMetadata} (hsize : entries.length ≤ ctMapSize) : exactSum counter entries ≤ 2 ^ 53 := by
  have hle : exactSum counter entries ≤ entries.length * 2 ^ 32 := by
    rw [exactSum, ← List.length_map counter]
    apply List.sum_le_card_nsmul
    intro n hn
    obtain ⟨ctMeta,-,rfl⟩ := List.mem_map.mp hn
    exact (hcounter ctMeta).le
  have hmul : entries.length * 2 ^ 32 ≤ ctMapSize * 2 ^ 32 := Nat.mul_le_mul_right _ hsize
  have hsize' : ctMapSize * 2 ^ 32 ≤ 2 ^ 53 := by decide
  exact hle.trans (hmul.trans hsize')

theorem fl_wrapped_eq_iff (hfl : Float64Rounding fl) (counter : ConntrackMetadata → ℕ)
    (hcounter : ∀ ctMeta, counter ctMeta < 2 ^ 32) {entries : List ConntrackMetadata}
    (hsize : entries.length ≤ ctMapSize) :
    fl (exactSum counter entries % 2 ^ 32 : ℕ) = fl (exactSum counter entries) ↔ exactSum counter entries < 2 ^ 32 := by
  have hle := exactSum_le hcounter hsize
  rw [hfl.nat_inj ((Nat.mod_le _ _).trans hle) hle, Nat.mod_eq_iff_lt (by decide)]

/-- The gauges are exact exactly if the packets of each direction fit in 32 bits. -/
theorem node_totals_exact_iff (hfl : Float64Rounding fl) (cfg : GcConfig) (hcfg : cfg.conntrackMetricsEnabled = true)
    (map : CtMap) (start : UInt64) (events : List CycleEvent)
    (hover : (Cycle.run cfg map start events).scanning = false)
    (hsize : (Cycle.entries cfg map start events).length ≤ ctMapSize)
    (htx : exactSum bytesTx (Cycle.entries cfg map start events) < 2 ^ 64)
    (hrx : exactSum bytesRx (Cycle.entries cfg map start events) < 2 ^ 64) :
    ExactGauges fl (Cycle.entries cfg map start events) (Cycle.run cfg map start events).gauges ↔
      exactSum packetsTx (Cycle.entries cfg map start events) < 2 ^ 32 ∧
        exactSum packetsRx (Cycle.entries cfg map start events) < 2 ^ 32 := by
  rw [Cycle.gauges_run hcfg map start events hover]
  generalize Cycle.entries cfg map start events = entries at *
  have hptx := foldl_add_eq_mod (·.packetsCountTx.toNat) packetsTx rfl (fun _ _ => UInt32.toNat_add _ _) entries
  have hprx := foldl_add_eq_mod (·.packetsCountRx.toNat) packetsRx rfl (fun _ _ => UInt32.toNat_add _ _) entries
  have hbtx := foldl_add_eq_mod (·.bytesCountTx.toNat) bytesTx rfl (fun _ _ => UInt64.toNat_add _ _) entries
  have hbrx := foldl_add_eq_mod (·.bytesCountRx.toNat) bytesRx rfl (fun _ _ => UInt64.toNat_add _ _) entries
  have hcount := foldl_add_eq_mod (·.totConnections.toNat) (fun _ => 1) rfl (fun _ _ => UInt32.toNat_add _ _) entries
  have hlength : exactSum (fun _ => 1) entries = entries.length := by simp [exactSum]
  have hfits : entries.length < 2 ^ 32 := hsize.trans_lt (by decide)
  have htxiff := fl_wrapped_eq_iff hfl packetsTx (fun ctMeta => ctMeta.packetsTxCount.toNat_lt) hsize
  have hrxiff := fl_wrapped_eq_iff hfl packetsRx (fun ctMeta => ctMeta.packetsRxCount.toNat_lt) hsize
  constructor
  · rintro ⟨hgtx,hgrx,-,-,-⟩
    rw [hptx, htxiff] at hgtx
    rw [hprx, hrxiff] at hgrx
    exact ⟨hgtx,hgrx⟩
  · rintro ⟨hgtx,hgrx⟩
    constructor
    · rw [hptx, Nat.mod_eq_of_lt hgtx]
    · rw [hprx, Nat.mod_eq_of_lt hgrx]
    · rw [hbtx, Nat.mod_eq_of_lt htx]
    · rw [hbrx, Nat.mod_eq_of_lt hrx]
    · rw [hcount, hlength, Nat.mod_eq_of_lt hfits]

def twoConnections (packetsTxCount : UInt32) : CtMap :=
  ((∅ : CtMap).insert ⟨1,2,3,4,6⟩ { conntrackMetadata := { packetsTxCount, bytesTxCount := 1500 } }).insert ⟨5,6,7,8,6⟩
    { conntrackMetadata := { packetsTxCount, bytesTxCount := 1500 } }

def scanBoth : List CycleEvent := [⟨0,.scan ⟨1,2,3,4,6⟩⟩,⟨0,.scan ⟨5,6,7,8,6⟩⟩,⟨0,.finishScan⟩]

theorem node_totals_exact_small :
    exactSum packetsTx (Cycle.entries sampleGcConfig (twoConnections 3) 0 scanBoth) = 6 ∧
      ExactGauges id (Cycle.entries sampleGcConfig (twoConnections 3) 0 scanBoth)
        (Cycle.run sampleGcConfig (twoConnections 3) 0 scanBoth).gauges :=
  ⟨by decide,(node_totals_exact_iff float64Rounding_id sampleGcConfig rfl (twoConnections 3) 0 scanBoth (by decide)
    (by decide) (by decide) (by decide)).mpr ⟨by decide,by decide⟩⟩

theorem packets_wrap_to_zero :
    exactSum packetsTx (Cycle.entries sampleGcConfig (twoConnections 0x80000000) 0 scanBoth) = 2 ^ 32 ∧
      (Cycle.run sampleGcConfig (twoConnections 0x80000000) 0 scanBoth).gauges.packetsCountTx = 0 := by
  decide

end Retina.Conntrack
