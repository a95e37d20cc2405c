import Retina.Conntrack.Cases
import Retina.Filter.Mirror
import Retina.PacketParser.Parse

/-! # The addresses of interest and the packets reported

`lookup` of `retina_filter.c` reads the map that the filter manager keeps, and the end of `parse`
hands what it has read to conntrack and to user space. Filter calls, frames and removals of
connections come in any order. A frame of addresses that nobody asks for leaves nothing behind.
-/
namespace Retina.Filter
open Cache (NetIP)

/-- The bits of a key in the order of the trie: byte after byte in memory, the most significant bit of a byte first. -/
def trieBit (data : BitVec 32) (i : ℕ) : Bool := data.getLsbD (8 * (i / 8) + (7 - i % 8))

def trieMatches (key : FilterMapKey) (data : BitVec 32) : Bool :=
  (List.range key.prefixlen.toNat).all fun i => trieBit key.data i == trieBit data i

/-- The trie answers with the longest key that matches, of which `lookup` only asks whether it exists. -/
def lookup (kfm : KernelKeys) (ipaddr : UInt32) : Bool :=
  decide (∃ key ∈ kfm, trieMatches key ipaddr.toBitVec = true)

theorem trieMatches_iff {key : FilterMapKey} (hlen : key.prefixlen = 32) (data : BitVec 32) :
    trieMatches key data = true ↔ key.data = data := by
  rw [trieMatches, List.all_eq_true, hlen]
  constructor
  · intro hall
    apply BitVec.eq_of_getLsbD_eq
    intro j hj
    -- The order of the trie is an involution on the bits of a byte.
    have hbit := hall (8 * (j / 8) + (7 - j % 8)) (List.mem_range.mpr (show _ < 32 by omega))
    rw [beq_iff_eq, trieBit, trieBit] at hbit
    rwa [show 8 * ((8 * (j / 8) + (7 - j % 8)) / 8) + (7 - (8 * (j / 8) + (7 - j % 8)) % 8) = j by omega] at hbit
  · rintro rfl i _
    exact beq_self_eq_true _

theorem prefixlen_of_mapKey {ip : NetIP} {key : FilterMapKey} (h : mapKey ip = .ok key) : key.prefixlen = 32 := by
  cases ip with
  | v4 a b c d =>
    rw [mapKey, Except.ok.injEq] at h
    rw [← h]
  | nil => cases h
  | v6 addr => cases h

/-- The address that a word of a frame spells: the host reads its four bytes in little endian order. -/
def address (ip : UInt32) : NetIP :=
  .v4 (ip.toBitVec.extractLsb' 0 8) (ip.toBitVec.extractLsb' 8 8) (ip.toBitVec.extractLsb' 16 8)
    (ip.toBitVec.extractLsb' 24 8)

theorem mapKey_address (ip : UInt32) : mapKey (address ip) = .ok ⟨32,ip.toBitVec⟩ := by
  have hdata : ip2int (ip.toBitVec.extractLsb' 0 8) (ip.toBitVec.extractLsb' 8 8) (ip.toBitVec.extractLsb' 16 8)
      (ip.toBitVec.extractLsb' 24 8) = ip.toBitVec := by
    rw [ip2int, BitVec.extractLsb'_append_extractLsb'_eq_extractLsb' (show 24 = 16 + 8 from rfl),
      BitVec.extractLsb'_append_extractLsb'_eq_extractLsb' (show 16 = 8 + 8 from rfl),
      BitVec.extractLsb'_append_extractLsb'_eq_extractLsb' (show 8 = 0 + 8 from rfl)]
    exact BitVec.extractLsb'_eq_self
  rw [address, mapKey, hdata]

/-- As long as the kernel mirrors the cache, the trie is asked for the requests. -/
theorem lookup_iff {f : FilterManager} (h : f.Mirrors) (ip : UInt32) :
    lookup f.fm.kfm ip = true ↔ ∃ r m, f.c.Holds (address ip) r m := by
  rw [← FilterCache.hasKey_iff, ← h.mem_iff (mapKey_address ip), lookup, decide_eq_true_eq]
  constructor
  · rintro ⟨key,hkey,hmatch⟩
    obtain ⟨ip',_,hmap⟩ := h.mapped key hkey
    have hlen := prefixlen_of_mapKey hmap
    rw [trieMatches_iff hlen] at hmatch
    rwa [show (⟨32,ip.toBitVec⟩ : FilterMapKey) = key by rw [← hmatch, ← hlen]]
  · intro hkey
    exact ⟨_,hkey,(trieMatches_iff rfl _).mpr rfl⟩

end Retina.Filter

namespace Retina.PacketParser
open Conntrack (CtMap CtV4Key PacketReport)
open Retina.Filter (FilterManager FilterOp lookup address)

inductive Level where
  | low | high
deriving DecidableEq

structure Config where
  bypassLookupIPOfInterest : Bool
  dataAggregationLevel : Level
  dataSamplingRate : UInt32
  conntrack : Conntrack.Config

structure Frame where
  skb : Skb
  obs : UInt8
  bootNs : UInt64
  now : UInt64
  rand : UInt32

def Config.sampled (cfg : Config) (rand : UInt32) : Bool :=
  !decide (Conntrack.uint32Max / cfg.dataSamplingRate ≤ rand)

def output (level : Level) (p : Packet) (report : PacketReport) : Option Packet :=
  match level with
  | .low => some { p with
      previouslyObservedPackets := 0, previouslyObservedBytes := 0, previouslyObservedFlags := {} }
  | .high =>
    if report.report then some { p with
      previouslyObservedPackets := report.previouslyObservedPackets
      previouslyObservedBytes := report.previouslyObservedBytes
      previouslyObservedFlags := report.previouslyObservedFlags }
    else none

structure Datapath where
  manager : FilterManager
  ct : CtMap := ∅
  events : List Packet := []

inductive DatapathOp where
  | filter (op : FilterOp)
  | frame (f : Frame)
  | remove (key : CtV4Key)

namespace Datapath

def report (cfg : Config) (d : Datapath) (f : Frame) (p : Packet) : Datapath :=
  let outcome := Conntrack.ctProcessPacket cfg.conntrack f.now d.ct p.toPacket f.obs (cfg.sampled f.rand)
  { d with
    ct := outcome.map
    events := d.events ++
      (output cfg.dataAggregationLevel { p with toPacket := outcome.packet } outcome.report).toList }

def step (cfg : Config) (d : Datapath) : DatapathOp → Datapath
  | .filter op => { d with manager := d.manager.step op }
  | .frame f =>
    match parse cfg.bypassLookupIPOfInterest (lookup d.manager.fm.kfm) f.bootNs f.skb f.obs with
    | none => d
    | some p => d.report cfg f p
  | .remove key => { d with ct := d.ct.erase key }

/-- The kernel answers the filter calls such that nothing half done is left. -/
def Recovers (d : Datapath) : DatapathOp → Prop
  | .filter op => d.manager.Recovers op
  | .frame _ => True
  | .remove _ => True

def Requested (d : Datapath) (ip : UInt32) : Prop := ∃ r m, d.manager.c.Holds (address ip) r m

def Interest (cfg : Config) (d : Datapath) (skb : Skb) : Prop :=
  cfg.bypassLookupIPOfInterest = true ∨ d.Requested (skb.memory.le32 (skb.data + 26)) ∨
    d.Requested (skb.memory.le32 (skb.data + 30))

def after (cfg : Config) (retry : ℕ) (ops : List DatapathOp) : Datapath :=
  Execution.run (step cfg) { manager := { retry := retry } } ops

variable {cfg : Config} {d : Datapath}

theorem mirrors_step {op : DatapathOp} (hd : d.manager.Mirrors) (h : d.Recovers op) :
    (d.step cfg op).manager.Mirrors := by
  cases op with
  | filter op => exact hd.step h
  | remove key => exact hd
  | frame f =>
    rw [step]
    split
    · exact hd
    · exact hd

theorem mirrors_after {retry : ℕ} {ops : List DatapathOp}
    (hops : Execution.Along (step cfg) Recovers { manager := { retry := retry } } ops) :
    (after cfg retry ops).manager.Mirrors :=
  Execution.invariant (I := fun d : Datapath => d.manager.Mirrors) (fun _ _ hd hop => mirrors_step hd hop)
    (FilterManager.mirrors_init retry) hops

theorem lookup_interest (hd : d.manager.Mirrors) (skb : Skb) :
    d.Interest cfg skb ↔ (cfg.bypassLookupIPOfInterest = true ∨
      lookup d.manager.fm.kfm (skb.memory.le32 (skb.data + 26)) = true ∨
      lookup d.manager.fm.kfm (skb.memory.le32 (skb.data + 30)) = true) := by
  rw [Filter.lookup_iff hd, Filter.lookup_iff hd]
  rfl

end Datapath

/-- The first part of `parse` keeps the addresses of the frame, and lets no other frame through. -/
theorem interest_of_parse {bypass : Bool} {look : UInt32 → Bool} {bootNs : UInt64} {skb : Skb} {obs : UInt8}
    {p : Packet} (h : parse bypass look bootNs skb obs = some p) :
    (bypass = true ∨ look (skb.memory.le32 (skb.data + 26)) = true ∨
      look (skb.memory.le32 (skb.data + 30)) = true) ∧
    p.srcIp = skb.memory.le32 (skb.data + 26) ∧ p.dstIp = skb.memory.le32 (skb.data + 30) := by
  simp only [parse] at h
  split at h
  · cases h
  split at h
  · cases h
  split at h
  · cases h
  split at h
  · cases h
  rename_i hinterest
  have hlook : bypass = true ∨ look (skb.memory.le32 (skb.data + 26)) = true ∨
      look (skb.memory.le32 (skb.data + 30)) = true := by
    by_contra hnone
    simp only [not_or, Bool.not_eq_true] at hnone
    exact hinterest hnone
  refine ⟨hlook,?_⟩
  split_ifs at h <;> cases h <;> exact ⟨rfl,rfl⟩

section Conntrack
open Conntrack (Call Direction)
variable (cfg : Conntrack.Config) (map : CtMap) (c : Call)

/-- The only connection that a packet can add is its own. -/
theorem mem_process {key : CtV4Key} (h : key ∈ (c.process cfg map).map) :
    key ∈ map ∨ ∃ dir : Direction, key = c.packet.connectionKey dir := by
  have heffect := c.process_effect cfg map
  generalize c.process cfg map = outcome at h heffect
  cases heffect with
  | ignored hm hn => exact .inl h
  | born hm hn hb => exact (Finmap.mem_insert.mp h).symm.imp_right fun hkey => ⟨_,hkey⟩
  | kept hf hr hreport hobserved hk => exact (Finmap.mem_insert.mp h).symm.imp_right fun hkey => ⟨_,hkey⟩
  | removed hf hr hreport hobserved => exact .inl (Finmap.mem_erase.mp h).2

theorem process_addresses : (c.process cfg map).packet.srcIp = c.packet.srcIp ∧
    (c.process cfg map).packet.dstIp = c.packet.dstIp := by
  have heffect := c.process_effect cfg map
  generalize c.process cfg map = outcome at heffect
  cases heffect <;> exact ⟨rfl,rfl⟩

end Conntrack

theorem output_addresses {level : Level} {p sent : Packet} {report : PacketReport}
    (h : output level p report = some sent) : sent.srcIp = p.srcIp ∧ sent.dstIp = p.dstIp := by
  cases level with
  | low =>
    cases h
    exact ⟨rfl,rfl⟩
  | high =>
    rw [output] at h
    split at h <;> cases h
    exact ⟨rfl,rfl⟩

namespace Datapath

section Run
variable (cfg : Config) (retry : ℕ)

def EverRequested (ops : List DatapathOp) (src dst : UInt32) : Prop :=
  cfg.bypassLookupIPOfInterest = true ∨ ∃ earlier, earlier <+: ops ∧
    ((after cfg retry earlier).Requested src ∨ (after cfg retry earlier).Requested dst)

/-- What the requests decide of a run: which frames count, and of which addresses connections and
packets can be found at its end. -/
structure Selective (ops : List DatapathOp) : Prop where
  unrequested : ∀ f : Frame, ¬(after cfg retry ops).Interest cfg f.skb →
    (after cfg retry ops).step cfg (.frame f) = after cfg retry ops
  requested : ∀ f : Frame, f.skb.CarriesTransport → (after cfg retry ops).Interest cfg f.skb →
    ∃ p, f.skb.ReadsFixedOffset p ∧ (after cfg retry ops).step cfg (.frame f) = (after cfg retry ops).report cfg f p
  connections : ∀ key ∈ (after cfg retry ops).ct, EverRequested cfg retry ops key.srcIp key.dstIp
  events : ∀ p ∈ (after cfg retry ops).events, EverRequested cfg retry ops p.srcIp p.dstIp

end Run

variable {cfg : Config} {retry : ℕ} {ops : List DatapathOp} {d : Datapath}

theorem EverRequested.mono {later : List DatapathOp} {src dst : UInt32} (h : EverRequested cfg retry ops src dst)
    (hops : ops <+: later) : EverRequested cfg retry later src dst := by
  refine h.imp_right ?_
  rintro ⟨earlier,hearlier,hasked⟩
  exact ⟨earlier,hearlier.trans hops,hasked⟩

theorem EverRequested.swap {src dst : UInt32} (h : EverRequested cfg retry ops src dst) :
    EverRequested cfg retry ops dst src := by
  refine h.imp_right ?_
  rintro ⟨earlier,hearlier,hasked⟩
  exact ⟨earlier,hearlier,hasked.symm⟩

theorem EverRequested.connectionKey {p : Conntrack.Packet} (h : EverRequested cfg retry ops p.srcIp p.dstIp)
    (dir : Conntrack.Direction) :
    EverRequested cfg retry ops (p.connectionKey dir).srcIp (p.connectionKey dir).dstIp := by
  cases dir with
  | tx => exact h
  | rx => exact h.swap

theorem step_frame_cases (hd : d.manager.Mirrors) (f : Frame) :
    d.step cfg (.frame f) = d ∨ ∃ p, d.step cfg (.frame f) = d.report cfg f p ∧ d.Interest cfg f.skb ∧
      p.srcIp = f.skb.memory.le32 (f.skb.data + 26) ∧ p.dstIp = f.skb.memory.le32 (f.skb.data + 30) := by
  rw [step]
  split
  · exact .inl rfl
  · rename_i p hp
    obtain ⟨hlook,haddresses⟩ := interest_of_parse hp
    exact .inr ⟨p,rfl,(lookup_interest hd f.skb).mpr hlook,haddresses⟩

theorem step_unrequested (hd : d.manager.Mirrors) {f : Frame} (h : ¬d.Interest cfg f.skb) :
    d.step cfg (.frame f) = d := by
  rcases step_frame_cases hd f with hsame | ⟨p,_,hinterest,_⟩
  · exact hsame
  · exact absurd hinterest h

theorem step_requested (hd : d.manager.Mirrors) {f : Frame} (hf : f.skb.CarriesTransport)
    (h : d.Interest cfg f.skb) : ∃ p, f.skb.ReadsFixedOffset p ∧ d.step cfg (.frame f) = d.report cfg f p := by
  obtain ⟨p,hp,hreads⟩ := Skb.parse_eq_some f.bootNs f.obs hf ((lookup_interest hd f.skb).mp h)
  refine ⟨p,hreads,?_⟩
  rw [step, hp]

/-- What holds of the addresses of a packet holds of what its report leaves. -/
theorem report_addresses {P : UInt32 → UInt32 → Prop} (f : Frame) {p : Packet} (hp : P p.srcIp p.dstIp)
    (hkey : ∀ dir, P (p.connectionKey dir).srcIp (p.connectionKey dir).dstIp)
    (hct : ∀ key ∈ d.ct, P key.srcIp key.dstIp) (hevents : ∀ sent ∈ d.events, P sent.srcIp sent.dstIp) :
    (∀ key ∈ (d.report cfg f p).ct, P key.srcIp key.dstIp) ∧
      ∀ sent ∈ (d.report cfg f p).events, P sent.srcIp sent.dstIp := by
  constructor
  · intro key hmem
    rcases mem_process cfg.conntrack d.ct ⟨f.now,p.toPacket,f.obs,cfg.sampled f.rand⟩ hmem with hold | ⟨dir,rfl⟩
    · exact hct key hold
    · exact hkey dir
  · intro sent hmem
    rcases List.mem_append.mp hmem with hold | hnew
    · exact hevents sent hold
    · obtain ⟨hsrc,hdst⟩ := output_addresses (Option.mem_toList.mp hnew)
      obtain ⟨hsrc',hdst'⟩ := process_addresses cfg.conntrack d.ct ⟨f.now,p.toPacket,f.obs,cfg.sampled f.rand⟩
      rw [hsrc, hdst]
      exact hsrc'.symm ▸ hdst'.symm ▸ hp

/-- Connections and events stay those of requested addresses. The induction is on the end of the
run, since what has been asked for is judged by the run so far. -/
theorem everRequested_after (hops : Execution.Along (step cfg) Recovers { manager := { retry := retry } } ops) :
    (∀ key ∈ (after cfg retry ops).ct, EverRequested cfg retry ops key.srcIp key.dstIp) ∧
      ∀ p ∈ (after cfg retry ops).events, EverRequested cfg retry ops p.srcIp p.dstIp := by
  induction ops using List.reverseRecOn with
  | nil => exact ⟨fun key hkey => absurd hkey Finmap.notMem_empty,fun p hp => absurd hp List.not_mem_nil⟩
  | append_singleton ops op ih =>
    have hops' := ((Execution.along_append _ _ _ _).mp hops).1
    have hpre : ops <+: ops ++ [op] := List.prefix_append ops [op]
    obtain ⟨hct,hevents⟩ := ih hops'
    replace hct := fun key hkey => (hct key hkey).mono hpre
    replace hevents := fun p hp => (hevents p hp).mono hpre
    have hlast : after cfg retry (ops ++ [op]) = (after cfg retry ops).step cfg op := Execution.run_append _ _ _
    rw [hlast]
    cases op with
    | filter op => exact ⟨hct,hevents⟩
    | remove key => exact ⟨fun key' hkey' => hct key' (Finmap.mem_erase.mp hkey').2,hevents⟩
    | frame f =>
      rcases @step_frame_cases cfg _ (mirrors_after hops') f with hsame | ⟨p,hstep,hinterest,hsrc,hdst⟩
      · rw [hsame]
        exact ⟨hct,hevents⟩
      · rw [hstep]
        have hp : EverRequested cfg retry (ops ++ [.frame f]) p.srcIp p.dstIp := by
          rw [hsrc, hdst]
          exact hinterest.imp_right fun hasked => ⟨ops,hpre,hasked⟩
        exact report_addresses f hp hp.connectionKey hct hevents

theorem selective_run (cfg : Config) (retry : ℕ) (ops : List DatapathOp)
    (hops : Execution.Along (step cfg) Recovers { manager := { retry := retry } } ops) : Selective cfg retry ops where
  unrequested _ := step_unrequested (mirrors_after hops)
  requested _ := step_requested (mirrors_after hops)
  connections := (everRequested_after hops).1
  events := (everRequested_after hops).2

/-- The kernel adds one of two keys, fails, and adds both at the next attempt. -/
theorem selective_run_recovering : Selective ⟨false,.low,1,⟨true,30⟩⟩ 2 [
    .filter (.addIPs [FilterManager.host 1,FilterManager.host 2] "metricModule" ⟨"pod"⟩ (FilterManager.recovering 1)),
    .frame ⟨⟨fun _ => 0,0,64,64⟩,0,0,0,0⟩] :=
  selective_run _ 2 _ ⟨.inr ⟨1,by decide,FilterManager.succeeds_default⟩,trivial,trivial⟩

end Datapath

end Retina.PacketParser
