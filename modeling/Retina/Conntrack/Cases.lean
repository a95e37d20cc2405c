import Retina.Conntrack.Process
import Retina.Library.DeferredCounter

/-! # Specifications of the conntrack functions

One lemma for each function says everything that its callers may rely on. Later
modules cite these and never unfold the functions. The three groups of pending
counters of a direction are addressed by one index type, because each of them is
a deferred counter with limit `UINT32_MAX`.
-/
namespace Retina.Conntrack

inductive Counter where
  | packets | bytes | flag (f : TcpFlag)
deriving DecidableEq

def CtDirection.pending (s : CtDirection) : Counter → ℕ
  | .packets => s.packetsSeenSinceLastReport.toNat
  | .bytes => s.bytesSeenSinceLastReport.toNat
  | .flag f => (s.flagsSeenSinceLastReport.get f).toNat

def PacketReport.observed (r : PacketReport) : Counter → ℕ
  | .packets => r.previouslyObservedPackets.toNat
  | .bytes => r.previouslyObservedBytes.toNat
  | .flag f => (r.previouslyObservedFlags.get f).toNat

def amount (flags : UInt8) (bytes : UInt32) : Counter → ℕ
  | .packets => 1
  | .bytes => bytes.toNat
  | .flag f => if test flags.toUInt16 f.mask then 1 else 0

abbrev counterLimit : ℕ := uint32Max.toNat

@[simp] theorem ctReverseKey_ctReverseKey (key : CtV4Key) : ctReverseKey (ctReverseKey key) = key := rfl

theorem ctReverseKey_eq_iff (a b : CtV4Key) : ctReverseKey a = b ↔ a = ctReverseKey b := by
  constructor
  · intro h
    rw [← h, ctReverseKey_ctReverseKey]
  · intro h
    rw [h, ctReverseKey_ctReverseKey]

@[simp] theorem pending_default (c : Counter) : ({} : CtDirection).pending c = 0 := by
  cases c with
  | packets => rfl
  | bytes => rfl
  | flag f => cases f <;> rfl

@[simp] theorem observed_default (r : Bool) (c : Counter) : PacketReport.observed { report := r } c = 0 := by
  cases c with
  | packets => rfl
  | bytes => rfl
  | flag f => cases f <;> rfl

/-! ## Guarded additions -/

theorem guardedAdd_toNat (seen bytes : UInt32) :
    (if seen ≤ uint32Max - bytes then seen + bytes else seen).toNat =
      DeferredCounter.add counterLimit seen.toNat bytes.toNat := by
  have hs := seen.toNat_lt
  have hb := bytes.toNat_lt
  have hl : counterLimit = 4294967295 := rfl
  have hsub : (uint32Max - bytes).toNat = 4294967295 - bytes.toNat := by
    rw [UInt32.toNat_sub_of_le]
    · rfl
    · rw [UInt32.le_iff_toNat_le]
      change bytes.toNat ≤ 4294967295
      omega
  unfold DeferredCounter.add
  by_cases h : seen.toNat + bytes.toNat ≤ 4294967295
  · rw [if_pos (by rw [UInt32.le_iff_toNat_le, hsub]; omega), if_pos (by rw [hl]; exact h),
      UInt32.toNat_add, Nat.mod_eq_of_lt (by omega)]
  · rw [if_neg (by rw [UInt32.le_iff_toNat_le, hsub]; omega), if_neg (by rw [hl]; exact h)]

theorem recordTcpFlag_toNat (flags : UInt8) (f : TcpFlag) (count : UInt32) :
    (recordTcpFlag flags f count).toNat =
      DeferredCounter.add counterLimit count.toNat (if test flags.toUInt16 f.mask then 1 else 0) := by
  have hc := count.toNat_lt
  have hl : counterLimit = 4294967295 := rfl
  unfold recordTcpFlag
  cases test flags.toUInt16 f.mask with
  | false => simp only [Bool.false_eq_true, ↓reduceIte, DeferredCounter.add, Nat.add_zero, ite_self]
  | true =>
    simp only [↓reduceIte]
    by_cases h : count < uint32Max
    · have hlt : count.toNat < 4294967295 := UInt32.lt_iff_toNat_lt.mp h
      rw [if_pos h, UInt32.toNat_add, DeferredCounter.add_of_le (by rw [hl]; omega)]
      exact Nat.mod_eq_of_lt (by change count.toNat + 1 < 4294967296; omega)
    · have hle : ¬ count.toNat < 4294967295 := fun hlt => h (UInt32.lt_iff_toNat_lt.mpr hlt)
      rw [if_neg h, DeferredCounter.add_of_lt (by rw [hl]; omega)]

theorem ctRecordTcpFlags_get (flags : UInt8) (count : TcpFlagsCount) (f : TcpFlag) :
    (ctRecordTcpFlags flags count).get f = recordTcpFlag flags f (count.get f) := by cases f <;> rfl

/-! ## `_ct_should_report_packet` -/

/-- The source deletes the entry: it timed out, or a TCP packet ends the connection. -/
def removes (now : UInt64) (key : CtV4Key) (entry : CtEntry) (flags : UInt8) (d : Direction) : Bool :=
  decide (entry.evictionTime.toUInt64 ≤ now) || key.proto == ipprotoTcp &&
    (finalAck entry (flags ||| (entry.dir d).flagsSeen) ||
      test (flags ||| (entry.dir d).flagsSeen).toUInt16 TcpFlag.rst.mask)

def reports (cfg : Config) (now : UInt64) (key : CtV4Key) (entry : CtEntry) (flags : UInt8) (d : Direction)
    (sampled : Bool) : Bool :=
  (updateState now key.proto entry flags d).2 ||
    (sampled && (flags ||| (entry.dir d).flagsSeen) != (entry.dir d).flagsSeen) ||
    decide (now - (entry.dir d).lastReport.toUInt64 ≥ cfg.ctReportInterval.toUInt64)

structure Kept (now : UInt64) (key : CtV4Key) (flags : UInt8) (bytes : UInt32) (d : Direction)
    (reported : Bool) (entry kept : CtEntry) : Prop where
  other : kept.dir d.other = entry.dir d.other
  flagsSeen : (kept.dir d).flagsSeen = flags ||| (entry.dir d).flagsSeen
  pending : ∀ c, (kept.dir d).pending c = if reported then 0 else
    DeferredCounter.add counterLimit ((entry.dir d).pending c) (amount flags bytes c)
  lastReport : (kept.dir d).lastReport = if reported then now.toUInt32 else (entry.dir d).lastReport
  trafficDirection : kept.trafficDirection = entry.trafficDirection
  conntrackMetadata : kept.conntrackMetadata = entry.conntrackMetadata
  evictionTime : kept.evictionTime = (updateState now key.proto entry flags d).1.evictionTime

theorem or_fin_eq {flags : UInt8} (h : test flags.toUInt16 TcpFlag.fin.mask = true) :
    flags ||| TcpFlag.fin.mask.toUInt8 = flags := by
  obtain ⟨v⟩ := flags
  revert v
  decide

theorem setFlagsSeen_self (entry : CtEntry) (d : Direction) :
    setFlagsSeen entry d (entry.dir d).flagsSeen = entry := by cases d <;> rfl

/-- Whatever the protocol, only the flags of the packet's direction and the
eviction time move, and no flag moves but a FIN that the packet carries. -/
theorem updateState_eq (now : UInt64) (protocol : UInt8) (entry : CtEntry) (flags : UInt8) (d : Direction) :
    ∃ seen evictionTime, (updateState now protocol entry flags d).1 =
        { setFlagsSeen entry d seen with evictionTime := evictionTime } ∧
      (flags ||| (entry.dir d).flagsSeen = (entry.dir d).flagsSeen → seen = (entry.dir d).flagsSeen) := by
  have hself : ∃ seen evictionTime, entry = { setFlagsSeen entry d seen with evictionTime := evictionTime } ∧
      (flags ||| (entry.dir d).flagsSeen = (entry.dir d).flagsSeen → seen = (entry.dir d).flagsSeen) :=
    ⟨_,entry.evictionTime,by rw [setFlagsSeen_self],fun _ => rfl⟩
  unfold updateState
  split
  · unfold updateTcpState
    by_cases hf : test flags.toUInt16 TcpFlag.fin.mask = true
    · have hor : flags ||| (entry.dir d).flagsSeen = (entry.dir d).flagsSeen →
          (entry.dir d).flagsSeen ||| TcpFlag.fin.mask.toUInt8 = (entry.dir d).flagsSeen := by
        intro he
        apply or_fin_eq
        rw [← he, UInt8.toUInt16_or, test_or, hf, Bool.true_or]
      simp only [hf, ↓reduceIte]
      split
      · exact ⟨_,_,rfl,hor⟩
      · exact ⟨_,_,rfl,hor⟩
    · simp only [hf, Bool.false_eq_true, ↓reduceIte]
      split
      · exact ⟨_,_,by rw [setFlagsSeen_self],fun _ => rfl⟩
      · exact ⟨_,_,by rw [setFlagsSeen_self],fun _ => rfl⟩
  · split
    · exact ⟨_,_,by rw [setFlagsSeen_self],fun _ => rfl⟩
    · exact hself

/-- The stored flags end up merged, also when the source skips the write. -/
theorem updateState_setFlagsSeen (now : UInt64) (protocol : UInt8) (entry : CtEntry) (flags : UInt8)
    (d : Direction) :
    (if (flags ||| (entry.dir d).flagsSeen) != (entry.dir d).flagsSeen then
        setFlagsSeen (updateState now protocol entry flags d).1 d (flags ||| (entry.dir d).flagsSeen)
      else (updateState now protocol entry flags d).1) =
    { setFlagsSeen entry d (flags ||| (entry.dir d).flagsSeen) with
      evictionTime := (updateState now protocol entry flags d).1.evictionTime } := by
  obtain ⟨seen,evictionTime,hu,hs⟩ := updateState_eq now protocol entry flags d
  rw [hu]
  by_cases he : flags ||| (entry.dir d).flagsSeen = (entry.dir d).flagsSeen
  · rw [hs he, he, setFlagsSeen_self]
    simp
  · rw [if_pos (by simpa using he)]
    cases d <;> rfl

section ShouldReport
variable (cfg : Config) (now : UInt64) (key : CtV4Key) (entry : CtEntry) (flags : UInt8) (d : Direction)
variable (bytes : UInt32) (sampled : Bool)

theorem ctShouldReportPacket_observed (c : Counter) :
    (ctShouldReportPacket cfg now key entry flags d bytes sampled).2.observed c = (entry.dir d).pending c := by
  unfold ctShouldReportPacket
  dsimp only
  split
  · cases c <;> rfl
  · split
    · cases c <;> rfl
    · split
      · cases c <;> rfl
      · split <;> cases c <;> rfl

variable {now key entry flags d}

theorem ctShouldReportPacket_of_removes (h : removes now key entry flags d = true) :
    (ctShouldReportPacket cfg now key entry flags d bytes sampled).1 = none ∧
    (ctShouldReportPacket cfg now key entry flags d bytes sampled).2.report = true := by
  simp only [removes, Bool.or_eq_true, Bool.and_eq_true, decide_eq_true_eq] at h
  unfold ctShouldReportPacket
  dsimp only
  by_cases ht : entry.evictionTime.toUInt64 ≤ now
  · rw [if_pos ht]
    exact ⟨rfl,rfl⟩
  · rw [if_neg ht]
    obtain ⟨hp,ha | hr⟩ := h.resolve_left ht
    · rw [if_pos (by rw [hp, ha]; rfl)]
      exact ⟨rfl,rfl⟩
    · rw [if_pos (c := (key.proto == ipprotoTcp && test _ _) = true) (by rw [hp, hr]; rfl)]
      split <;> exact ⟨rfl,rfl⟩

theorem ctShouldReportPacket_of_not_removes (h : removes now key entry flags d = false) :
    ∃ kept, (ctShouldReportPacket cfg now key entry flags d bytes sampled).1 = some kept ∧
      (ctShouldReportPacket cfg now key entry flags d bytes sampled).2.report =
        reports cfg now key entry flags d sampled ∧
      Kept now key flags bytes d (reports cfg now key entry flags d sampled) entry kept := by
  simp only [removes, Bool.or_eq_false_iff, decide_eq_false_iff_not] at h
  obtain ⟨ht,hp⟩ := h
  have ha : (key.proto == ipprotoTcp && finalAck entry (flags ||| (entry.dir d).flagsSeen)) = false := by
    cases hk : key.proto == ipprotoTcp <;> simp_all
  have hr : (key.proto == ipprotoTcp &&
      test (flags ||| (entry.dir d).flagsSeen).toUInt16 TcpFlag.rst.mask) = false := by
    cases hk : key.proto == ipprotoTcp <;> simp_all
  unfold ctShouldReportPacket
  simp only [if_neg ht, ha, hr, Bool.false_eq_true, ↓reduceIte, updateState_setFlagsSeen]
  by_cases hrep : reports cfg now key entry flags d sampled = true
  · rw [if_pos (by simpa only [reports] using hrep), hrep]
    refine ⟨_,rfl,rfl,?_⟩
    constructor
    all_goals cases d
    all_goals first | rfl | (intro c; exact pending_default c)
  · rw [if_neg (by simpa only [reports] using hrep), Bool.eq_false_iff.mpr hrep]
    refine ⟨_,rfl,rfl,?_⟩
    constructor
    case pending =>
      intro c
      rw [CtEntry.dir_setDir_self]
      cases c with
      | packets => exact guardedAdd_toNat _ 1
      | bytes => exact guardedAdd_toNat _ bytes
      | flag f =>
        change ((ctRecordTcpFlags _ _).get f).toNat = _
        rw [ctRecordTcpFlags_get, recordTcpFlag_toNat]
        rfl
    all_goals cases d <;> rfl

end ShouldReport

/-! ## `ct_process_packet` -/

structure Call where
  now : UInt64
  packet : Packet
  observationPoint : UInt8
  sampled : Bool

def Call.flags (c : Call) : UInt8 := c.packet.flags.toUInt8

theorem Call.test_flags (c : Call) {f : TcpFlag} (hf : f ≠ .ns) :
    test c.flags.toUInt16 f.mask = test c.packet.flags f.mask := test_truncated c.packet.flags hf

def Call.process (cfg : Config) (map : CtMap) (c : Call) : Outcome :=
  ctProcessPacket cfg c.now map c.packet c.observationPoint c.sampled

def Packet.connectionKey (p : Packet) : Direction → CtV4Key
  | .tx => p.key
  | .rx => ctReverseKey p.key

@[simp] theorem connectionKey_proto (p : Packet) (d : Direction) : (p.connectionKey d).proto = p.proto := by
  cases d <;> rfl

/-- The direction in which a packet of an unknown connection creates an entry, if
it creates one: the protocol may be of no interest, or the overflow check of the
eviction time may refuse it. -/
def newConnectionDirection (now : UInt64) (p : Packet) : Option Direction :=
  let tcpHandshake : UInt8 := (p.flags &&& (TcpFlag.syn.mask ||| TcpFlag.ack.mask)).toUInt8
  if p.proto &&& ipprotoTcp != 0 then
    if tcpHandshake.toUInt16 == TcpFlag.syn.mask then
      if ctSynTimeout > uint32Max.toUInt64 - now then none else some .tx
    else if tcpHandshake.toUInt16 == TcpFlag.syn.mask ||| TcpFlag.ack.mask then
      if ctSynTimeout > uint32Max.toUInt64 - now then none else some .rx
    else if ctConnectionLifetimeTcp > uint32Max.toUInt64 - now then none
    else if test p.flags TcpFlag.ack.mask then some .rx else some .tx
  else if p.proto &&& ipprotoUdp != 0 then
    if ctConnectionLifetimeNontcp > uint32Max.toUInt64 - now then none else some .tx
  else none

structure Born (cfg : Config) (c : Call) (d : Direction) (entry : CtEntry) : Prop where
  dir : entry.dir d = newDirection c.now c.packet c.sampled (c.packet.proto &&& ipprotoTcp != 0)
  other : entry.dir d.other = {}
  trafficDirection : entry.trafficDirection = ctGetTrafficDirection c.observationPoint
  conntrackMetadata : entry.conntrackMetadata = newMetadata cfg d c.packet.bytes

theorem born_setDir (cfg : Config) (c : Call) (d : Direction) (evictionTime : UInt32) (unknown : Bool)
    {countFlags : Bool} (h : countFlags = (c.packet.proto &&& ipprotoTcp != 0)) :
    Born cfg c d (CtEntry.setDir
      { evictionTime := evictionTime
        isDirectionUnknown := unknown
        trafficDirection := ctGetTrafficDirection c.observationPoint
        conntrackMetadata := newMetadata cfg d c.packet.bytes } d
      (newDirection c.now c.packet c.sampled countFlags)) := by
  subst h
  constructor <;> cases d <;> rfl

theorem ctHandleNewConnection_cases (cfg : Config) (map : CtMap) (c : Call) :
    (newConnectionDirection c.now c.packet = none ∧
      ctHandleNewConnection cfg c.now map c.packet c.packet.key (ctReverseKey c.packet.key)
        c.observationPoint c.sampled = (map,c.packet,false)) ∨
    ∃ d entry, newConnectionDirection c.now c.packet = some d ∧ Born cfg c d entry ∧
      ctHandleNewConnection cfg c.now map c.packet c.packet.key (ctReverseKey c.packet.key)
        c.observationPoint c.sampled =
          (map.insert (c.packet.connectionKey d) entry,labelPacket cfg c.packet (d == .rx) entry,c.sampled) := by
  have hproto : c.packet.key.proto = c.packet.proto := rfl
  unfold ctHandleNewConnection newConnectionDirection
  rw [hproto]
  by_cases htcp : (c.packet.proto &&& ipprotoTcp != 0) = true
  · simp only [htcp, ↓reduceIte, ctHandleTcpConnection, ctCreateNewTcpConnection]
    split
    · split
      · exact .inl ⟨rfl,rfl⟩
      · exact .inr ⟨.tx,_,rfl,born_setDir cfg c .tx _ _ htcp.symm,rfl⟩
    · split
      · split
        · exact .inl ⟨rfl,rfl⟩
        · exact .inr ⟨.rx,_,rfl,born_setDir cfg c .rx _ _ htcp.symm,rfl⟩
      · split
        · exact .inl ⟨rfl,rfl⟩
        · cases hack : test c.packet.flags TcpFlag.ack.mask with
          | true => exact .inr ⟨.rx,_,rfl,born_setDir cfg c .rx _ _ htcp.symm,rfl⟩
          | false => exact .inr ⟨.tx,_,rfl,born_setDir cfg c .tx _ _ htcp.symm,rfl⟩
  · have hfalse := Bool.eq_false_iff.mpr htcp
    simp only [hfalse, Bool.false_eq_true, ↓reduceIte, ctHandleUdpConnection]
    split
    · split
      · exact .inl ⟨rfl,rfl⟩
      · exact .inr ⟨.tx,_,rfl,born_setDir cfg c .tx _ _ hfalse.symm,rfl⟩
    · exact .inl ⟨rfl,rfl⟩

section CountEntry
variable (cfg : Config) (entry : CtEntry) (d : Direction) (bytes : UInt32)

@[simp] theorem countEntry_dir (e : Direction) : (countEntry cfg entry d bytes).dir e = entry.dir e := by
  cases e <;> rfl
@[simp] theorem countEntry_conntrackMetadata :
    (countEntry cfg entry d bytes).conntrackMetadata = countPacket cfg entry.conntrackMetadata d bytes := rfl

theorem countEntry_setFlagsSeen (e : Direction) (flags : UInt8) :
    setFlagsSeen (countEntry cfg entry d bytes) e flags = countEntry cfg (setFlagsSeen entry e flags) d bytes := by
  cases e <;> rfl

/-- The state update neither reads nor writes the lifetime counters. -/
theorem updateState_countEntry (now : UInt64) (protocol flags : UInt8) (e : Direction) :
    updateState now protocol (countEntry cfg entry d bytes) flags e =
      (countEntry cfg (updateState now protocol entry flags e).1 d bytes,
        (updateState now protocol entry flags e).2) := by
  have hfin : ∀ x, finSeen (countEntry cfg x d bytes) = finSeen x := fun _ => rfl
  unfold updateState
  split
  · unfold updateTcpState
    simp only [countEntry_dir, countEntry_setFlagsSeen, ← apply_ite (countEntry cfg · d bytes), hfin]
    split <;> split <;> rfl
  · split <;> rfl

theorem removes_countEntry (now : UInt64) (key : CtV4Key) (flags : UInt8) (e : Direction) :
    removes now key (countEntry cfg entry d bytes) flags e = removes now key entry flags e := by
  cases e <;> rfl

theorem reports_countEntry (now : UInt64) (key : CtV4Key) (flags : UInt8) (e : Direction) (sampled : Bool) :
    reports cfg now key (countEntry cfg entry d bytes) flags e sampled =
      reports cfg now key entry flags e sampled := by
  unfold reports
  rw [updateState_countEntry, countEntry_dir]

end CountEntry

structure Found (map : CtMap) (p : Packet) (d : Direction) (entry : CtEntry) : Prop where
  lookup : map.lookup (p.connectionKey d) = some entry
  first : d = .rx → map.lookup p.key = none

structure Missed (map : CtMap) (p : Packet) : Prop where
  key : map.lookup p.key = none
  reverseKey : map.lookup (ctReverseKey p.key) = none

/-- Everything that one call can do. -/
inductive Effect (cfg : Config) (map : CtMap) (c : Call) : Outcome → Prop
  | ignored (hm : Missed map c.packet) (hn : newConnectionDirection c.now c.packet = none) :
      Effect cfg map c ⟨map,c.packet,{}⟩
  | born {d : Direction} {entry : CtEntry} (hm : Missed map c.packet)
      (hn : newConnectionDirection c.now c.packet = some d) (hb : Born cfg c d entry) :
      Effect cfg map c ⟨map.insert (c.packet.connectionKey d) entry,
        labelPacket cfg c.packet (d == .rx) entry,{ report := c.sampled }⟩
  | kept {d : Direction} {entry kept : CtEntry} {report : PacketReport} (hf : Found map c.packet d entry)
      (hr : removes c.now (c.packet.connectionKey d) entry c.flags d = false)
      (hreport : report.report = reports cfg c.now (c.packet.connectionKey d) entry c.flags d c.sampled)
      (hobserved : ∀ ctr, report.observed ctr = (entry.dir d).pending ctr)
      (hk : Kept c.now (c.packet.connectionKey d) c.flags c.packet.bytes d report.report
        (countEntry cfg entry d c.packet.bytes) kept) :
      Effect cfg map c ⟨map.insert (c.packet.connectionKey d) kept,
        labelPacket cfg c.packet (d == .rx) (countEntry cfg entry d c.packet.bytes),report⟩
  | removed {d : Direction} {entry : CtEntry} {report : PacketReport} (hf : Found map c.packet d entry)
      (hr : removes c.now (c.packet.connectionKey d) entry c.flags d = true)
      (hreport : report.report = true)
      (hobserved : ∀ ctr, report.observed ctr = (entry.dir d).pending ctr) :
      Effect cfg map c ⟨map.erase (c.packet.connectionKey d),
        labelPacket cfg c.packet (d == .rx) (countEntry cfg entry d c.packet.bytes),report⟩

theorem processFound_effect (cfg : Config) {map : CtMap} {c : Call} {d : Direction} {entry : CtEntry}
    (hf : Found map c.packet d entry) :
    Effect cfg map c (processFound cfg c.now map c.packet (c.packet.connectionKey d) entry d c.sampled) := by
  have hobserved := ctShouldReportPacket_observed cfg c.now (c.packet.connectionKey d)
    (countEntry cfg entry d c.packet.bytes) c.flags d c.packet.bytes c.sampled
  simp only [countEntry_dir] at hobserved
  have hflags : c.packet.flags.toUInt8 = c.flags := rfl
  unfold processFound
  dsimp only
  rw [hflags]
  generalize hresult : ctShouldReportPacket cfg c.now (c.packet.connectionKey d)
    (countEntry cfg entry d c.packet.bytes) c.flags d c.packet.bytes c.sampled = result at hobserved ⊢
  obtain ⟨kept?,report⟩ := result
  cases hr : removes c.now (c.packet.connectionKey d) entry c.flags d with
  | true =>
    have hs := ctShouldReportPacket_of_removes cfg c.packet.bytes c.sampled
      ((removes_countEntry cfg entry d c.packet.bytes c.now _ c.flags d).trans hr)
    rw [hresult] at hs
    obtain ⟨rfl,hreport⟩ := hs
    exact .removed hf hr hreport hobserved
  | false =>
    obtain ⟨kept,hk,hreport,hkept⟩ := ctShouldReportPacket_of_not_removes cfg c.packet.bytes c.sampled
      ((removes_countEntry cfg entry d c.packet.bytes c.now _ c.flags d).trans hr)
    rw [hresult] at hk hreport
    obtain rfl : kept? = some kept := hk
    rw [← hreport] at hkept
    rw [reports_countEntry] at hreport
    exact .kept hf hr hreport hobserved hkept

/-- The inversion lemma of the data path. -/
theorem Call.process_effect (cfg : Config) (map : CtMap) (c : Call) : Effect cfg map c (c.process cfg map) := by
  cases hk : map.lookup c.packet.key with
  | some entry =>
    simp only [Call.process, ctProcessPacket, hk]
    exact processFound_effect cfg (d := .tx) ⟨hk,nofun⟩
  | none =>
    cases hr : map.lookup (ctReverseKey c.packet.key) with
    | some entry =>
      simp only [Call.process, ctProcessPacket, hk, hr]
      exact processFound_effect cfg (d := .rx) ⟨hr,fun _ => hk⟩
    | none =>
      simp only [Call.process, ctProcessPacket, hk, hr]
      rcases ctHandleNewConnection_cases cfg map c with ⟨hn,he⟩ | ⟨d,entry,hn,hb,he⟩
      · rw [he]
        exact .ignored ⟨hk,hr⟩ hn
      · rw [he]
        exact .born ⟨hk,hr⟩ hn hb

theorem Missed.lookup {map : CtMap} {p : Packet} (h : Missed map p) (d : Direction) :
    map.lookup (p.connectionKey d) = none := by
  cases d with
  | tx => exact h.key
  | rx => exact h.reverseKey

theorem Missed.not_found {map : CtMap} {p : Packet} {d : Direction} {entry : CtEntry} (h : Missed map p)
    (hf : Found map p d entry) : False := by
  have hl := hf.lookup
  rw [h.lookup d] at hl
  cases hl

theorem Found.unique {map : CtMap} {p : Packet} {d e : Direction} {entry other : CtEntry}
    (h : Found map p d entry) (h' : Found map p e other) : d = e ∧ entry = other := by
  have hd : d = e := by
    cases d with
    | tx => cases e with
      | tx => rfl
      | rx =>
        have hl : map.lookup p.key = some entry := h.lookup
        rw [h'.first rfl] at hl
        cases hl
    | rx => cases e with
      | tx =>
        have hl : map.lookup p.key = some other := h'.lookup
        rw [h.first rfl] at hl
        cases hl
      | rx => rfl
  subst hd
  exact ⟨rfl,Option.some.inj (h.lookup.symm.trans h'.lookup)⟩

section ProcessFound
variable (cfg : Config) {map : CtMap} {c : Call} {d : Direction} {entry : CtEntry}

/-- A packet of a known connection either ends it or is counted for it. -/
theorem Call.process_cases_of_found (hf : Found map c.packet d entry) :
    (removes c.now (c.packet.connectionKey d) entry c.flags d = true ∧ ∃ report,
      c.process cfg map = ⟨map.erase (c.packet.connectionKey d),
        labelPacket cfg c.packet (d == .rx) (countEntry cfg entry d c.packet.bytes),report⟩ ∧
      report.report = true ∧ ∀ ctr, report.observed ctr = (entry.dir d).pending ctr) ∨
    (removes c.now (c.packet.connectionKey d) entry c.flags d = false ∧ ∃ kept report,
      c.process cfg map = ⟨map.insert (c.packet.connectionKey d) kept,
        labelPacket cfg c.packet (d == .rx) (countEntry cfg entry d c.packet.bytes),report⟩ ∧
      report.report = reports cfg c.now (c.packet.connectionKey d) entry c.flags d c.sampled ∧
      (∀ ctr, report.observed ctr = (entry.dir d).pending ctr) ∧
      Kept c.now (c.packet.connectionKey d) c.flags c.packet.bytes d report.report
        (countEntry cfg entry d c.packet.bytes) kept) := by
  have heffect := c.process_effect cfg map
  generalize c.process cfg map = outcome at heffect
  cases heffect with
  | ignored hm hn => exact (hm.not_found hf).elim
  | born hm hn hb => exact (hm.not_found hf).elim
  | kept hf' hr hreport hobserved hk =>
    obtain ⟨rfl,rfl⟩ := hf'.unique hf
    exact .inr ⟨hr,_,_,rfl,hreport,hobserved,hk⟩
  | removed hf' hr hreport hobserved =>
    obtain ⟨rfl,rfl⟩ := hf'.unique hf
    exact .inl ⟨hr,_,rfl,hreport,hobserved⟩

theorem Call.process_packet_of_found (hf : Found map c.packet d entry) :
    (c.process cfg map).packet =
      labelPacket cfg c.packet (d == .rx) (countEntry cfg entry d c.packet.bytes) := by
  rcases Call.process_cases_of_found cfg hf with ⟨-,report,heq,-⟩ | ⟨-,kept,report,heq,-⟩
  · rw [heq]
  · rw [heq]

theorem Call.process_observed (hf : Found map c.packet d entry) (ctr : Counter) :
    (c.process cfg map).report.observed ctr = (entry.dir d).pending ctr := by
  rcases Call.process_cases_of_found cfg hf with ⟨-,report,heq,-,hobserved⟩ | ⟨-,kept,report,heq,-,hobserved,-⟩
  · rw [heq]
    exact hobserved ctr
  · rw [heq]
    exact hobserved ctr

theorem Call.process_of_removes (hf : Found map c.packet d entry)
    (hr : removes c.now (c.packet.connectionKey d) entry c.flags d = true) :
    (c.process cfg map).map = map.erase (c.packet.connectionKey d) ∧ (c.process cfg map).report.report = true := by
  rcases Call.process_cases_of_found cfg hf with ⟨-,report,heq,hreport,-⟩ | ⟨hr',-⟩
  · rw [heq]
    exact ⟨rfl,hreport⟩
  · rw [hr] at hr'
    cases hr'

theorem Call.process_of_not_removes (hf : Found map c.packet d entry)
    (hr : removes c.now (c.packet.connectionKey d) entry c.flags d = false) :
    ∃ kept, (c.process cfg map).map = map.insert (c.packet.connectionKey d) kept ∧
      (c.process cfg map).report.report =
        reports cfg c.now (c.packet.connectionKey d) entry c.flags d c.sampled ∧
      Kept c.now (c.packet.connectionKey d) c.flags c.packet.bytes d (c.process cfg map).report.report
        (countEntry cfg entry d c.packet.bytes) kept := by
  rcases Call.process_cases_of_found cfg hf with ⟨hr',-⟩ | ⟨-,kept,report,heq,hreport,-,hk⟩
  · rw [hr] at hr'
    cases hr'
  · rw [heq]
    exact ⟨kept,rfl,hreport,hk⟩

theorem Call.process_lookup_eq_none_iff (hf : Found map c.packet d entry) :
    (c.process cfg map).map.lookup (c.packet.connectionKey d) = none ↔
      removes c.now (c.packet.connectionKey d) entry c.flags d = true := by
  cases hr : removes c.now (c.packet.connectionKey d) entry c.flags d with
  | true =>
    rw [(Call.process_of_removes cfg hf hr).1, Finmap.lookup_erase]
    exact ⟨fun _ => rfl,fun _ => rfl⟩
  | false =>
    obtain ⟨kept,hmap,-,-⟩ := Call.process_of_not_removes cfg hf hr
    rw [hmap, Finmap.lookup_insert]
    exact ⟨nofun,nofun⟩

end ProcessFound

end Retina.Conntrack
