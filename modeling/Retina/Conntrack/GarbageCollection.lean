import Retina.Conntrack.Lifetime
import Retina.Library.FiniteMap

/-! # The garbage collection cycle of `Conntrack.Run`

A cycle reads the map entry by entry, collects the keys of expired entries, and
deletes the collected keys after the iteration. Packets are processed at any point
in between. Both sides read one clock: `bpf_mono_now` in whole seconds since boot,
and `time.Now` as the same clock shifted by `ktime.MonotonicOffset`. The conversions
of the expiry test to `float64` are taken to be exact.
-/
namespace Retina.Conntrack

def nsecPerSec : UInt64 := 1000000000

def bpfMonoNow (bootNs : UInt64) : UInt64 := bootNs / nsecPerSec

/-- The expiry test of the scan, in nanoseconds: `time.Now().Unix()` drops the fraction
of a second. -/
def scanExpired (monotonicOffset : ℤ) (bootNs : UInt64) (value : CtEntry) : Bool :=
  decide (monotonicOffset + value.evictionTime.toNat * 1000000000 <
    (bootNs.toNat + monotonicOffset) / 1000000000 * 1000000000)

structure NodeTotals where
  packetsCountTx : UInt32 := 0
  packetsCountRx : UInt32 := 0
  totConnections : UInt32 := 0
  bytesCountTx : UInt64 := 0
  bytesCountRx : UInt64 := 0
deriving DecidableEq

def NodeTotals.add (t : NodeTotals) (ctMeta : ConntrackMetadata) : NodeTotals where
  packetsCountTx := t.packetsCountTx + ctMeta.packetsTxCount
  packetsCountRx := t.packetsCountRx + ctMeta.packetsRxCount
  totConnections := t.totConnections + 1
  bytesCountTx := t.bytesCountTx + ctMeta.bytesTxCount
  bytesCountRx := t.bytesCountRx + ctMeta.bytesRxCount

structure GcConfig extends Config where
  monotonicOffset : ℤ
  conntrackMetricsEnabled : Bool

/-- A cycle in progress. The keys are deleted in the order in which they were collected. -/
structure Cycle where
  map : CtMap
  bootNs : UInt64
  scanning : Bool := true
  keysToDelete : List CtV4Key := []
  totals : NodeTotals := {}
  gauges : NodeTotals := {}

inductive CycleAction where
  | packet (p : Packet) (observationPoint : UInt8) (sampled : Bool)
  | evict (key : CtV4Key)
  | scan (key : CtV4Key)
  | finishScan
  | delete

structure CycleEvent where
  bootNs : UInt64
  action : CycleAction

/-- One iteration of the scan: `iter.Next` skips a key that has left the map. -/
def Cycle.scan (cfg : GcConfig) (s : Cycle) (key : CtV4Key) : Cycle :=
  match s.map.lookup key with
  | none => s
  | some value =>
    { s with
      keysToDelete := if scanExpired cfg.monotonicOffset s.bootNs value then s.keysToDelete ++ [key]
        else s.keysToDelete
      totals := if cfg.conntrackMetricsEnabled then s.totals.add value.conntrackMetadata else s.totals }

def Cycle.act (cfg : GcConfig) (s : Cycle) : CycleAction → Cycle
  | .packet p observationPoint sampled =>
    { s with map := (ctProcessPacket cfg.toConfig (bpfMonoNow s.bootNs) s.map p observationPoint sampled).map }
  | .evict key => { s with map := s.map.erase key }
  | .scan key => if s.scanning then s.scan cfg key else s
  | .finishScan => if s.scanning then
      { s with scanning := false, gauges := if cfg.conntrackMetricsEnabled then s.totals else s.gauges } else s
  | .delete => if s.scanning then s else
      match s.keysToDelete with
      | [] => s
      | key :: keys => { s with map := s.map.erase key, keysToDelete := keys }

def Cycle.step (cfg : GcConfig) (s : Cycle) (e : CycleEvent) : Cycle :=
  Cycle.act cfg { s with bootNs := e.bootNs } e.action

def Cycle.run (cfg : GcConfig) (map : CtMap) (start : UInt64) (events : List CycleEvent) : Cycle :=
  Execution.run (Cycle.step cfg) { map := map, bootNs := start } events

def Cycle.createsCollected (s : Cycle) (e : CycleEvent) : Bool :=
  match e.action with
  | .packet p _ _ => (s.map.lookup p.key).isNone && (s.map.lookup (ctReverseKey p.key)).isNone &&
      (newConnectionDirection (bpfMonoNow e.bootNs) p).any fun d => decide (p.connectionKey d ∈ s.keysToDelete)
  | _ => false

def expired (now : UInt64) (entry : CtEntry) : Prop := entry.evictionTime.toUInt64 ≤ now

instance (now : UInt64) (entry : CtEntry) : Decidable (expired now entry) :=
  inferInstanceAs (Decidable (_ ≤ _))

theorem bpfMonoNow_le {a b : UInt64} (h : a ≤ b) : bpfMonoNow a ≤ bpfMonoNow b := by
  rw [UInt64.le_iff_toNat_le] at h ⊢
  rw [bpfMonoNow, bpfMonoNow, UInt64.toNat_div, UInt64.toNat_div]
  exact Nat.div_le_div_right h

theorem expired.mono {a b : UInt64} {entry : CtEntry} (h : expired (bpfMonoNow a) entry) (hab : a ≤ b) :
    expired (bpfMonoNow b) entry := UInt64.le_trans h (bpfMonoNow_le hab)

/-- What the scan takes for expired has timed out for the data path too. -/
theorem scanExpired.expired {offset : ℤ} {bootNs : UInt64} {value : CtEntry}
    (h : scanExpired offset bootNs value = true) : expired (bpfMonoNow bootNs) value := by
  have hlt := of_decide_eq_true h
  have hfloor : (bootNs.toNat + offset) / 1000000000 * 1000000000 ≤ bootNs.toNat + offset :=
    Int.ediv_mul_le _ (by decide)
  have hns : value.evictionTime.toNat * 1000000000 ≤ bootNs.toNat := by omega
  have hsec : value.evictionTime.toNat ≤ bootNs.toNat / 1000000000 := by omega
  rw [Conntrack.expired, UInt64.le_iff_toNat_le, bpfMonoNow, UInt64.toNat_div, UInt32.toNat_toUInt64]
  exact hsec

def CollectedExpired (s : Cycle) : Prop :=
  ∀ key ∈ s.keysToDelete, ∀ entry, s.map.lookup key = some entry → expired (bpfMonoNow s.bootNs) entry

theorem CollectedExpired.advance {s : Cycle} (h : CollectedExpired s) {bootNs : UInt64} (hle : s.bootNs ≤ bootNs) :
    CollectedExpired { s with bootNs := bootNs } := by
  intro key hkey entry hl
  exact (h key hkey entry hl).mono hle

theorem CollectedExpired.scan {cfg : GcConfig} {s : Cycle} (h : CollectedExpired s) (key : CtV4Key) :
    CollectedExpired (s.scan cfg key) := by
  unfold Cycle.scan
  split
  · exact h
  · rename_i value hvalue
    intro k hk entry hl
    change k ∈ (if _ then _ else _) at hk
    split at hk
    · rename_i hexpired
      rcases List.mem_append.mp hk with hk | hk
      · exact h k hk entry hl
      · obtain rfl := List.mem_singleton.mp hk
        obtain rfl := Option.some.inj (hvalue.symm.trans hl)
        exact scanExpired.expired hexpired
    · exact h k hk entry hl

theorem removes_of_expired {now : UInt64} {entry : CtEntry} (h : expired now entry) (key : CtV4Key)
    (flags : UInt8) (d : Direction) : removes now key entry flags d = true := by
  have hle : entry.evictionTime.toUInt64 ≤ now := h
  rw [removes, decide_eq_true hle, Bool.true_or]

/-- A packet that finds an expired entry removes it, so it never refreshes a collected key. -/
theorem CollectedExpired.process (cfg : Config) {s : Cycle} (h : CollectedExpired s) (c : Call)
    (hnow : c.now = bpfMonoNow s.bootNs)
    (hnew : ∀ d, Missed s.map c.packet → newConnectionDirection c.now c.packet = some d →
      c.packet.connectionKey d ∉ s.keysToDelete) :
    CollectedExpired { s with map := (c.process cfg s.map).map } := by
  -- A collected key is never the one that the call writes, so its entry is the old one.
  have hsame : ∀ key ∈ s.keysToDelete, ∀ entry, (c.process cfg s.map).map.lookup key = some entry →
      s.map.lookup key = some entry := by
    intro key hkey entry hl
    have heffect := c.process_effect cfg s.map
    generalize c.process cfg s.map = outcome at heffect hl
    cases heffect with
    | ignored hm hn => exact hl
    | @born d born hm hn hb =>
      rcases FiniteMap.lookup_of_insert hl with ⟨rfl,-⟩ | ⟨-,hl⟩
      · exact absurd hkey (hnew d hm hn)
      · exact hl
    | @kept d found kept report hf hr hreport hobserved hk =>
      rcases FiniteMap.lookup_of_insert hl with ⟨rfl,-⟩ | ⟨-,hl⟩
      · have hexpired := h _ hkey found hf.lookup
        rw [← hnow] at hexpired
        rw [removes_of_expired hexpired] at hr
        cases hr
      · exact hl
    | removed hf hr hreport hobserved => exact (FiniteMap.lookup_of_erase hl).2
  intro key hkey entry hl
  exact h key hkey entry (hsame key hkey entry hl)

theorem CollectedExpired.erase {s : Cycle} (h : CollectedExpired s) (gone : CtV4Key) {keys : List CtV4Key}
    (hkeys : ∀ key ∈ keys, key ∈ s.keysToDelete) :
    CollectedExpired { s with map := s.map.erase gone, keysToDelete := keys } := by
  intro key hkey entry hl
  exact h key (hkeys key hkey) entry (FiniteMap.lookup_of_erase hl).2

theorem Cycle.step_collectedExpired (cfg : GcConfig) (s : Cycle) (e : CycleEvent) (h : CollectedExpired s)
    (he : s.bootNs ≤ e.bootNs ∧ s.createsCollected e = false) : CollectedExpired (s.step cfg e) := by
  obtain ⟨hle,hcreates⟩ := he
  obtain ⟨bootNs,action⟩ := e
  have hnow := h.advance hle
  cases action with
  | packet p observationPoint sampled =>
    refine hnow.process cfg.toConfig ⟨bpfMonoNow bootNs,p,observationPoint,sampled⟩ rfl ?_
    intro d hm hn hmem
    have hk : s.map.lookup p.key = none := hm.key
    have hr : s.map.lookup (ctReverseKey p.key) = none := hm.reverseKey
    have hd : newConnectionDirection (bpfMonoNow bootNs) p = some d := hn
    have hin : p.connectionKey d ∈ s.keysToDelete := hmem
    simp [Cycle.createsCollected, hk, hr, hd, hin] at hcreates
  | evict key => exact hnow.erase key fun _ hkey => hkey
  | scan key =>
    unfold Cycle.step Cycle.act
    dsimp only
    split
    · exact hnow.scan key
    · exact hnow
  | finishScan =>
    unfold Cycle.step Cycle.act
    dsimp only
    split
    · exact hnow
    · exact hnow
  | delete =>
    unfold Cycle.step Cycle.act
    dsimp only
    split
    · exact hnow
    · split
      · exact hnow
      · rename_i key keys hkeys
        refine hnow.erase key fun k hk => ?_
        change k ∈ s.keysToDelete
        rw [hkeys]
        exact List.mem_cons_of_mem key hk

/-- In a cycle in which no packet creates an entry under a collected key, every entry that
the cycle deletes has timed out at that moment. -/
theorem deletes_only_expired (cfg : GcConfig) (map : CtMap) (start : UInt64) (events : List CycleEvent)
    (h : Execution.Along (Cycle.step cfg) (fun s e => s.bootNs ≤ e.bootNs ∧ s.createsCollected e = false)
      { map := map, bootNs := start } events)
    (bootNs : UInt64) (hlater : (Cycle.run cfg map start events).bootNs ≤ bootNs) (key : CtV4Key)
    (entry : CtEntry) (hentry : (Cycle.run cfg map start events).map.lookup key = some entry)
    (hgone : ((Cycle.run cfg map start events).step cfg ⟨bootNs,.delete⟩).map.lookup key = none) :
    expired (bpfMonoNow bootNs) entry := by
  have hstart : CollectedExpired { map := map, bootNs := start } := by
    intro key hkey
    cases hkey
  have hcollected : CollectedExpired (Cycle.run cfg map start events) :=
    Execution.invariant (Cycle.step_collectedExpired cfg) hstart h
  generalize Cycle.run cfg map start events = s at *
  have hmem : key ∈ s.keysToDelete := by
    by_contra hnot
    unfold Cycle.step Cycle.act at hgone
    dsimp only at hgone
    split at hgone
    · simp [hentry] at hgone
    · split at hgone
      · simp [hentry] at hgone
      · rename_i first keys hkeys
        have hne : key ≠ first := by
          rintro rfl
          exact hnot (hkeys ▸ List.mem_cons_self)
        rw [Finmap.lookup_erase_ne hne] at hgone
        simp [hentry] at hgone
  exact (hcollected key hmem entry hentry).mono hlater

def sampleGcConfig : GcConfig where
  toConfig := sampleConfig
  monotonicOffset := 0
  conntrackMetricsEnabled := true

def idleMap : CtMap := (World.run sampleConfig [.packet ⟨1000,clientPacket ipprotoUdp 1 40,0,true⟩]).map

theorem deletes_only_expired_idle :
    ∃ entry, (Cycle.run sampleGcConfig idleMap 1100000000000
        [⟨1100000000000,.scan udpKey⟩,⟨1100000000000,.finishScan⟩]).map.lookup udpKey = some entry ∧
      expired (bpfMonoNow 1100000000000) entry := by
  exact ⟨_,rfl,deletes_only_expired sampleGcConfig idleMap 1100000000000
    [⟨1100000000000,.scan udpKey⟩,⟨1100000000000,.finishScan⟩] (by decide) 1100000000000 (by decide) udpKey _ rfl
    (by decide)⟩

/-- After the scan one packet removes the expired connection and the next one creates it
again. The cycle then deletes the new entry with its pending packet. -/
def recreated : List CycleEvent :=
  [⟨1100000000000,.scan udpKey⟩,
    ⟨1100000000000,.packet (clientPacket ipprotoUdp 1 40) 0 false⟩,
    ⟨1100000000000,.packet (clientPacket ipprotoUdp 1 40) 0 false⟩,
    ⟨1100000000000,.finishScan⟩]

theorem recreated_entry_deleted :
    ∃ entry, (Cycle.run sampleGcConfig idleMap 1100000000000 recreated).map.lookup udpKey = some entry ∧
      ¬ expired (bpfMonoNow 1100000000000) entry ∧ (entry.dir .tx).pending .packets = 1 ∧
      ((Cycle.run sampleGcConfig idleMap 1100000000000 recreated).step sampleGcConfig
        ⟨1100000000000,.delete⟩).map.lookup udpKey = none := by
  exact ⟨_,rfl,by decide,by decide,by decide⟩

end Retina.Conntrack
