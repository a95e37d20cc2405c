import Retina.Conntrack.Accounting

/-! # Lifetime counters

With `ENABLE_CONNTRACK_METRICS` an entry also counts its packets and bytes in
`conntrack_metadata`, apart from the pending counters. The lifetime counters wrap
and the pending counters skip, so the two agree with each other only while no
pending counter is saturated.
-/
namespace Retina.Conntrack

def ConntrackMetadata.packetsCount (m : ConntrackMetadata) : Direction → UInt32
  | .tx => m.packetsTxCount
  | .rx => m.packetsRxCount

def ConntrackMetadata.bytesCount (m : ConntrackMetadata) : Direction → UInt64
  | .tx => m.bytesTxCount
  | .rx => m.bytesRxCount

variable {cfg : Config} {key : CtV4Key}

section CountPacket
variable (hm : cfg.enableConntrackMetrics = true) (m : ConntrackMetadata) (d : Direction) (bytes : UInt32)
include hm

theorem countPacket_packetsCount_self :
    ((countPacket cfg m d bytes).packetsCount d).toNat = ((m.packetsCount d).toNat + 1) % 2 ^ 32 := by
  unfold countPacket
  rw [if_pos hm]
  cases d <;> exact UInt32.toNat_add _ 1

theorem countPacket_bytesCount_self :
    ((countPacket cfg m d bytes).bytesCount d).toNat = ((m.bytesCount d).toNat + bytes.toNat) % 2 ^ 64 := by
  have hb : bytes.toUInt64.toNat = bytes.toNat := UInt32.toNat_toUInt64 bytes
  unfold countPacket
  rw [if_pos hm, ← hb]
  cases d <;> exact UInt64.toNat_add _ _

end CountPacket

theorem countPacket_packetsCount_other (m : ConntrackMetadata) (d : Direction) (bytes : UInt32) :
    (countPacket cfg m d bytes).packetsCount d.other = m.packetsCount d.other := by
  unfold countPacket
  split <;> cases d <;> rfl

theorem countPacket_bytesCount_other (m : ConntrackMetadata) (d : Direction) (bytes : UInt32) :
    (countPacket cfg m d bytes).bytesCount d.other = m.bytesCount d.other := by
  unfold countPacket
  split <;> cases d <;> rfl

theorem newMetadata_eq (cfg : Config) (d : Direction) (bytes : UInt32) :
    newMetadata cfg d bytes = countPacket cfg {} d bytes := by
  have hb : (0 : UInt64) + bytes.toUInt64 = bytes.toUInt64 := UInt64.zero_add _
  unfold newMetadata countPacket
  split
  · cases d <;> simp only [hb] <;> rfl
  · rfl

/-- The lifetime counters agree with the visits, up to the width of their fields. -/
def Counts (m : ConntrackMetadata) (log : List Visit) : Prop :=
  ∀ d, (m.packetsCount d).toNat = processed d .packets log % 2 ^ 32 ∧
    (m.bytesCount d).toNat = processed d .bytes log % 2 ^ 64

theorem counts_nil : Counts {} [] := by
  intro d
  cases d <;> exact ⟨rfl,rfl⟩

theorem Counts.cons (hm : cfg.enableConntrackMetrics = true) {m : ConntrackMetadata} {log : List Visit}
    (h : Counts m log) (v : Visit) : Counts (countPacket cfg m v.dir v.call.packet.bytes) (v :: log) := by
  intro d
  obtain ⟨hp,hb⟩ := h d
  rcases Direction.eq_or_eq_other v.dir d with rfl | rfl
  · have ha : v.amount .packets = 1 := rfl
    have hbytes : v.amount .bytes = v.call.packet.bytes.toNat := rfl
    rw [countPacket_packetsCount_self hm, countPacket_bytesCount_self hm, processed_cons_self rfl,
      processed_cons_self rfl, hp, hb, ha, hbytes, Nat.mod_add_mod, Nat.mod_add_mod]
    exact ⟨by rw [Nat.add_comm],by rw [Nat.add_comm]⟩
  · have hne := (Direction.other_ne v.dir).symm
    rw [countPacket_packetsCount_other, countPacket_bytesCount_other, processed_cons_other hne,
      processed_cons_other hne]
    exact ⟨hp,hb⟩

theorem Lifetime.counts (hm : cfg.enableConntrackMetrics = true) {entry : Option CtEntry} {log : List Visit}
    (h : Lifetime cfg key entry log) : ∀ e ∈ entry, Counts e.conntrackMetadata log := by
  induction h with
  | unborn => exact nofun
  | @born _ v entry hl hkey hbefore hnew hborn hreport hpacket ih =>
    rintro e ⟨⟩
    rw [hborn.conntrackMetadata, newMetadata_eq]
    exact counts_nil.cons hm v
  | @kept log v entry kept hl hkey hbefore hremoves hreport hobserved hkept hpacket ih =>
    rintro e ⟨⟩
    rw [hkept.conntrackMetadata, countEntry_conntrackMetadata]
    exact (ih entry rfl).cons hm v
  | removed hl hkey hbefore hremoves hreport hobserved hpacket ih => exact nofun
  | evicted hl ih => exact nofun

/-- Whatever path a call takes, it writes the counted metadata to the packet, and
these are the metadata of the entry if one stays in the map. -/
theorem Call.process_metadata (hm : cfg.enableConntrackMetrics = true) (map : CtMap) (c : Call) {d : Direction}
    (hd : c.direction map = some d) :
    (c.process cfg map).packet.conntrackMetadata = countPacket cfg
        ((map.lookup (c.packet.connectionKey d)).elim {} CtEntry.conntrackMetadata) d c.packet.bytes ∧
      ∀ entry, (c.process cfg map).map.lookup (c.packet.connectionKey d) = some entry →
        (c.process cfg map).packet.conntrackMetadata = entry.conntrackMetadata := by
  have heffect := c.process_effect cfg map
  generalize c.process cfg map = outcome at heffect
  cases heffect with
  | ignored hm hn => simp [hm.direction, hn] at hd
  | @born d' entry hmiss hn hb =>
    obtain rfl : d' = d := by simpa [hmiss.direction, hn] using hd
    simp only [labelPacket, hm, ↓reduceIte, hmiss.lookup d', Option.elim_none, hb.conntrackMetadata,
      newMetadata_eq, Finmap.lookup_insert, true_and]
    rintro e ⟨⟩
    rw [hb.conntrackMetadata, newMetadata_eq]
  | @kept d' entry kept report hf hr hreport hobserved hk =>
    obtain rfl := Option.some.inj (hf.direction.symm.trans hd)
    simp only [labelPacket, hm, ↓reduceIte, hf.lookup, Option.elim_some, countEntry_conntrackMetadata,
      Finmap.lookup_insert, true_and]
    rintro e ⟨⟩
    rw [hk.conntrackMetadata, countEntry_conntrackMetadata]
  | @removed d' entry report hf hr hreport hobserved =>
    obtain rfl := Option.some.inj (hf.direction.symm.trans hd)
    simp only [labelPacket, hm, ↓reduceIte, hf.lookup, Option.elim_some, countEntry_conntrackMetadata,
      Finmap.lookup_erase, true_and]
    exact nofun

/-- The lifetime counters of a living entry agree with its reports and pending
counters, and every packet leaves with the metadata that count it. -/
theorem metadata_agrees (cfg : Config) (hm : cfg.enableConntrackMetrics = true) (events : List Event) :
    (∀ key entry, (World.run cfg events).map.lookup key = some entry → ∀ d,
      (NotSaturated d .packets ((World.run cfg events).log key) →
        (entry.conntrackMetadata.packetsCount d).toNat =
          (reported d .packets ((World.run cfg events).log key) + (entry.dir d).pending .packets) % 2 ^ 32) ∧
      (NotSaturated d .bytes ((World.run cfg events).log key) →
        (entry.conntrackMetadata.bytesCount d).toNat =
          (reported d .bytes ((World.run cfg events).log key) + (entry.dir d).pending .bytes) % 2 ^ 64)) ∧
    (∀ (c : Call) (d : Direction), c.direction (World.run cfg events).map = some d →
      (c.process cfg (World.run cfg events).map).packet.conntrackMetadata = countPacket cfg
          (((World.run cfg events).map.lookup (c.packet.connectionKey d)).elim {} CtEntry.conntrackMetadata)
          d c.packet.bytes ∧
        ∀ entry, (c.process cfg (World.run cfg events).map).map.lookup (c.packet.connectionKey d) = some entry →
          (c.process cfg (World.run cfg events).map).packet.conntrackMetadata = entry.conntrackMetadata) := by
  constructor
  · intro key entry hentry d
    have hlife := World.run_lifetime cfg events key
    obtain ⟨hp,hb⟩ := hlife.counts hm entry hentry d
    have hpackets := hlife.refines (rfl : Counter.packets.counted key.proto = true)
    have hbytes := hlife.refines (rfl : Counter.bytes.counted key.proto = true)
    constructor
    · intro hs
      rw [hp, processed_eq hpackets.1 hs, hpackets.2 entry hentry]
    · intro hs
      rw [hb, processed_eq hbytes.1 hs, hbytes.2 entry hentry]
  · intro c d hd
    exact Call.process_metadata hm _ c hd

theorem metadata_agrees_handshake :
    ∃ entry, (World.run sampleConfig handshake).map.lookup tcpKey = some entry ∧
      (entry.conntrackMetadata.packetsCount .tx).toNat = 3 ∧
      (entry.conntrackMetadata.packetsCount .tx).toNat =
        (reported .tx .packets ((World.run sampleConfig handshake).log tcpKey) +
          (entry.dir .tx).pending .packets) % 2 ^ 32 := by
  exact ⟨_,rfl,by decide,((metadata_agrees sampleConfig rfl handshake).1 tcpKey _ rfl .tx).1 (by decide)⟩

/-! ## Saturation

A flood of equal packets at one instant is reported once, at its creation. -/

def floodCall : Call := ⟨1000,clientPacket ipprotoUdp 1 0,0,true⟩

structure Flooded (n : ℕ) (w : World) (entry : CtEntry) : Prop where
  lookup : w.map.lookup udpKey = some entry
  evictionTime : entry.evictionTime = 1060
  flagsSeen : (entry.dir .tx).flagsSeen = 1
  lastReport : (entry.dir .tx).lastReport = 1000
  pending : (entry.dir .tx).pending .packets = min n counterLimit
  reported : reported .tx .packets (w.log udpKey) = 1
  processed : processed .tx .packets (w.log udpKey) = n + 1

theorem flooded_zero : ∃ entry, Flooded 0 (World.run sampleConfig [.packet floodCall]) entry := by
  refine ⟨_,rfl,?_,?_,?_,?_,?_,?_⟩ <;> decide

theorem Flooded.step {n : ℕ} {w : World} {entry : CtEntry} (h : Flooded n w entry) :
    ∃ kept, Flooded (n + 1) (w.step sampleConfig (.packet floodCall)) kept := by
  have hremoves : removes 1000 udpKey entry 1 .tx = false := by
    simp only [removes, h.evictionTime]
    rfl
  have hreports : reports sampleConfig 1000 udpKey entry 1 .tx true = false := by
    simp only [reports, h.flagsSeen, h.lastReport]
    rfl
  obtain ⟨kept,hl,hlog,hreport,hk⟩ :=
    World.step_kept sampleConfig w floodCall (d := .tx) ⟨h.lookup,fun hd => absurd hd (by decide)⟩ hremoves
  replace hreport := hreport.trans hreports
  change World.log _ udpKey = _ :: w.log udpKey at hlog
  refine ⟨kept,hl,hk.evictionTime,?_,?_,?_,?_,?_⟩
  · rw [hk.flagsSeen, countEntry_dir, h.flagsSeen]
    rfl
  · rw [hk.lastReport, hreport, countEntry_dir, h.lastReport]
    rfl
  · rw [hk.pending, hreport, countEntry_dir, h.pending]
    change DeferredCounter.add counterLimit (min n counterLimit) 1 = min (n + 1) counterLimit
    unfold DeferredCounter.add
    split <;> omega
  · rw [hlog, reported_cons_self (d := .tx) rfl, hreport, h.reported]
    rfl
  · rw [hlog, processed_cons_self (d := .tx) rfl, h.processed]
    exact Nat.add_comm 1 (n + 1)

theorem flooded (n : ℕ) :
    ∃ entry, Flooded n (World.run sampleConfig (List.replicate (n + 1) (.packet floodCall))) entry := by
  induction n with
  | zero => exact flooded_zero
  | succ n ih =>
    obtain ⟨entry,h⟩ := ih
    rw [List.replicate_succ', World.run, Execution.run_append]
    exact h.step

/-- After 2^32 unreported packets the two accounts differ. -/
theorem metadata_flood_disagrees :
    ∃ entry, (World.run sampleConfig (List.replicate (2 ^ 32 + 1) (.packet floodCall))).map.lookup udpKey =
        some entry ∧
      (entry.conntrackMetadata.packetsCount .tx).toNat ≠
        (reported .tx .packets
            ((World.run sampleConfig (List.replicate (2 ^ 32 + 1) (.packet floodCall))).log udpKey) +
          (entry.dir .tx).pending .packets) % 2 ^ 32 := by
  obtain ⟨entry,h⟩ := flooded (2 ^ 32)
  have hcounts := (World.run_lifetime sampleConfig _ udpKey).counts rfl entry h.lookup .tx
  have hl : counterLimit = 4294967295 := rfl
  refine ⟨entry,h.lookup,?_⟩
  rw [hcounts.1, h.processed, h.reported, h.pending, hl]
  decide

end Retina.Conntrack
