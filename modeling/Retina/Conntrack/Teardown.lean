import Retina.Conntrack.Orientation
import Retina.Library.FiniteMap

/-! # Teardown of TCP connections

The teardown checks of `_ct_should_report_packet` read the packet's flags merged
with those that its direction has seen before. The merged flags contain every FIN
of the direction, so the rule for the final ACK never applies. They also contain a
RST that the creation path stored, which ends the connection at the next packet.
-/
namespace Retina.Conntrack

/-- Both directions have seen a FIN only if the merged flags contain one. -/
theorem finalAck_eq_false (entry : CtEntry) (flags : UInt8) (d : Direction) :
    finalAck entry (flags ||| (entry.dir d).flagsSeen) = false := by
  have hmerged : test (flags ||| (entry.dir d).flagsSeen).toUInt16 TcpFlag.fin.mask =
      (test flags.toUInt16 TcpFlag.fin.mask || test (entry.dir d).flagsSeen.toUInt16 TcpFlag.fin.mask) := by
    rw [UInt8.toUInt16_or, test_or]
  simp only [finalAck, test_mask_or, hmerged]
  cases d with
  | tx =>
    change (_ && !(_ || test entry.txDir.flagsSeen.toUInt16 TcpFlag.fin.mask || _ || _) && _ && _) = false
    cases test entry.txDir.flagsSeen.toUInt16 TcpFlag.fin.mask <;> simp
  | rx =>
    change (_ && !(_ || test entry.rxDir.flagsSeen.toUInt16 TcpFlag.fin.mask || _ || _) && _ && _) = false
    cases test entry.rxDir.flagsSeen.toUInt16 TcpFlag.fin.mask <;> simp

/-- An entry is removed at its timeout or, for TCP, by a RST of the packet or of its direction's past. -/
theorem removes_eq (c : Call) (key : CtV4Key) (entry : CtEntry) (d : Direction) :
    removes c.now key entry c.flags d = (decide (entry.evictionTime.toUInt64 ≤ c.now) ||
      key.proto == ipprotoTcp && (test c.packet.flags TcpFlag.rst.mask ||
        test (entry.dir d).flagsSeen.toUInt16 TcpFlag.rst.mask)) := by
  rw [removes, finalAck_eq_false, Bool.false_or, UInt8.toUInt16_or, test_or, Call.test_flags c (by decide)]

/-- Once both directions have seen a FIN, every packet that keeps the entry is reported. -/
theorem reports_of_finSeen (cfg : Config) (now : UInt64) {key : CtV4Key} {entry : CtEntry} (flags : UInt8)
    (d : Direction) (sampled : Bool) (hproto : key.proto = ipprotoTcp)
    (hfin : ∀ e, test (entry.dir e).flagsSeen.toUInt16 TcpFlag.fin.mask = true) :
    reports cfg now key entry flags d sampled = true := by
  have hstored : test ((entry.dir d).flagsSeen ||| TcpFlag.fin.mask.toUInt8).toUInt16 TcpFlag.fin.mask = true := by
    rw [UInt8.toUInt16_or, test_or, hfin d, Bool.true_or]
  have htx : test entry.txDir.flagsSeen.toUInt16 TcpFlag.fin.mask = true := hfin .tx
  have hrx : test entry.rxDir.flagsSeen.toUInt16 TcpFlag.fin.mask = true := hfin .rx
  have hseen : finSeen (if test flags.toUInt16 TcpFlag.fin.mask then
      setFlagsSeen entry d ((entry.dir d).flagsSeen ||| TcpFlag.fin.mask.toUInt8) else entry) = true := by
    split
    · cases d with
      | tx => exact Bool.and_eq_true_iff.mpr ⟨hstored,hrx⟩
      | rx => exact Bool.and_eq_true_iff.mpr ⟨htx,hstored⟩
    · exact Bool.and_eq_true_iff.mpr ⟨htx,hrx⟩
  have hupdate : (updateState now key.proto entry flags d).2 = true := by
    rw [updateState, hproto, if_pos (by decide)]
    unfold updateTcpState
    dsimp only
    rw [if_pos hseen]
  rw [reports, hupdate, Bool.true_or, Bool.true_or]

/-- When both directions of an unexpired TCP entry have seen a FIN, a packet without
RST is reported, and it ends the connection exactly if its direction has seen a RST.
An ACK without other control flags is such a packet. -/
theorem teardown_iff (cfg : Config) (map : CtMap) (c : Call) (d : Direction) (entry : CtEntry)
    (hf : Found map c.packet d entry) (hproto : c.packet.proto = ipprotoTcp)
    (halive : ¬ entry.evictionTime.toUInt64 ≤ c.now)
    (hfin : ∀ e, test (entry.dir e).flagsSeen.toUInt16 TcpFlag.fin.mask = true)
    (hrst : test c.packet.flags TcpFlag.rst.mask = false) :
    (c.process cfg map).report.report = true ∧
    ((c.process cfg map).report.report = true ∧
        (c.process cfg map).map.lookup (c.packet.connectionKey d) = none ↔
      test (entry.dir d).flagsSeen.toUInt16 TcpFlag.rst.mask = true) := by
  have hkey : (c.packet.connectionKey d).proto = ipprotoTcp := by rw [connectionKey_proto, hproto]
  have hremoves : removes c.now (c.packet.connectionKey d) entry c.flags d =
      test (entry.dir d).flagsSeen.toUInt16 TcpFlag.rst.mask := by
    rw [removes_eq, hkey, hrst, decide_eq_false halive]
    rfl
  have hreport : (c.process cfg map).report.report = true := by
    cases hr : removes c.now (c.packet.connectionKey d) entry c.flags d with
    | true => exact (Call.process_of_removes cfg hf hr).2
    | false =>
      obtain ⟨kept,hmap,hreport,hk⟩ := Call.process_of_not_removes cfg hf hr
      rw [hreport]
      exact reports_of_finSeen cfg _ _ _ _ hkey hfin
  refine ⟨hreport,?_⟩
  rw [Call.process_lookup_eq_none_iff cfg hf, hremoves]
  exact ⟨fun h => h.2,fun h => ⟨hreport,h⟩⟩

def closing : List Event := handshake ++
  [.packet ⟨1003,clientPacket ipprotoTcp (TcpFlag.fin.mask ||| TcpFlag.ack.mask) 52,0,false⟩,
    .packet ⟨1003,serverPacket ipprotoTcp (TcpFlag.fin.mask ||| TcpFlag.ack.mask) 52,1,false⟩]

def finalAckCall : Call := ⟨1004,clientPacket ipprotoTcp TcpFlag.ack.mask 52,0,true⟩

theorem closing_final_ack_keeps_entry :
    (∃ entry, Found (World.run sampleConfig closing).map finalAckCall.packet .tx entry ∧
      ¬ entry.evictionTime.toUInt64 ≤ finalAckCall.now ∧
      ∀ e, test (entry.dir e).flagsSeen.toUInt16 TcpFlag.fin.mask = true) ∧
    ((World.run sampleConfig (closing ++ [.packet finalAckCall])).map.lookup tcpKey).isSome = true := by
  refine ⟨⟨_,⟨rfl,nofun⟩,by decide,?_⟩,by decide⟩
  intro e
  cases e <;> decide

def closingAfterReset : List Event :=
  [.packet ⟨1000,clientPacket ipprotoTcp (TcpFlag.fin.mask ||| TcpFlag.rst.mask) 40,0,true⟩,
    .packet ⟨1001,serverPacket ipprotoTcp (TcpFlag.fin.mask ||| TcpFlag.ack.mask) 52,1,true⟩]

theorem teardown_iff_closingAfterReset :
    (finalAckCall.process sampleConfig (World.run sampleConfig closingAfterReset).map).report.report = true ∧
      (finalAckCall.process sampleConfig (World.run sampleConfig closingAfterReset).map).map.lookup tcpKey =
        none := by
  refine (teardown_iff sampleConfig (World.run sampleConfig closingAfterReset).map finalAckCall .tx _ ⟨rfl,nofun⟩
    rfl (by decide) ?_ (by decide)).2.mpr (by decide)
  intro e
  cases e <;> decide

/-! ## Resets -/

/-- Packets as `parse` hands them to conntrack: TCP, or UDP with the fixed flags. -/
def Event.Parsed : Event → Prop
  | .packet c => c.packet.proto = ipprotoTcp ∨ c.packet.proto = ipprotoUdp ∧ c.packet.flags = 1
  | .remove _ => True

instance (e : Event) : Decidable e.Parsed :=
  match e with
  | .packet _ => inferInstanceAs (Decidable (_ ∨ _))
  | .remove _ => inferInstanceAs (Decidable True)

def Event.createsReset (map : CtMap) : Event → Bool
  | .packet c => (map.lookup c.packet.key).isNone && (map.lookup (ctReverseKey c.packet.key)).isNone &&
      (newConnectionDirection c.now c.packet).isSome && test c.packet.flags TcpFlag.rst.mask
  | .remove _ => false

def ResetFree (map : CtMap) : Prop :=
  ∀ key entry, map.lookup key = some entry →
    ∀ d, test (entry.dir d).flagsSeen.toUInt16 TcpFlag.rst.mask = false

theorem ResetFree.erase {map : CtMap} (h : ResetFree map) (gone : CtV4Key) : ResetFree (map.erase gone) := by
  intro key entry hl
  exact h key entry (FiniteMap.lookup_of_erase hl).2

theorem ResetFree.insert {map : CtMap} (h : ResetFree map) (new : CtV4Key) {value : CtEntry}
    (hvalue : ∀ d, test (value.dir d).flagsSeen.toUInt16 TcpFlag.rst.mask = false) :
    ResetFree (map.insert new value) := by
  intro key entry hl
  rcases FiniteMap.lookup_of_insert hl with ⟨-,rfl⟩ | ⟨-,hl⟩
  · exact hvalue
  · exact h key entry hl

theorem World.step_resetFree (cfg : Config) (w : World) (e : Event) (h : ResetFree w.map)
    (he : e.Parsed ∧ e.createsReset w.map = false) : ResetFree (w.step cfg e).map := by
  obtain ⟨hparsed,hcreates⟩ := he
  cases e with
  | remove gone => exact h.erase gone
  | packet c =>
    have heffect := c.process_effect cfg w.map
    rw [World.step_packet_map]
    generalize c.process cfg w.map = outcome at heffect
    cases heffect with
    | ignored hm hn => exact h
    | @born d entry hm hn hb =>
      have hrst : test c.packet.flags TcpFlag.rst.mask = false := by
        simpa [Event.createsReset, hm.key, hm.reverseKey, hn] using hcreates
      refine h.insert _ ?_
      intro e
      rcases Direction.eq_or_eq_other d e with rfl | rfl
      · rw [hb.dir]
        exact (test_truncated c.packet.flags (by decide)).trans hrst
      · rw [hb.other]
        rfl
    | @kept d entry kept report hf hr hreport hobserved hk =>
      have hold := h _ _ hf.lookup
      -- A TCP packet with RST would not have kept the entry.
      have hrst : test c.packet.flags TcpFlag.rst.mask = false := by
        rcases hparsed with htcp | ⟨-,hflags⟩
        · rw [removes_eq, connectionKey_proto, htcp, Bool.or_eq_false_iff] at hr
          exact (Bool.or_eq_false_iff.mp hr.2).1
        · rw [hflags]
          rfl
      refine h.insert _ ?_
      intro e
      rcases Direction.eq_or_eq_other d e with rfl | rfl
      · rw [hk.flagsSeen, countEntry_dir, UInt8.toUInt16_or, test_or, hold, Bool.or_false,
          Call.test_flags c (by decide)]
        exact hrst
      · rw [hk.other, countEntry_dir]
        exact hold _
    | removed hf hr hreport hobserved => exact h.erase _

/-- In a run that never creates an entry for a packet with RST, no entry stores a RST.
An unexpired TCP entry is then removed exactly by the packets that carry RST, and such
a packet leaves no entry for its connection. -/
theorem only_reset_removes (cfg : Config) (events : List Event)
    (h : Execution.Along (World.step cfg) (fun w e => e.Parsed ∧ e.createsReset w.map = false) {} events) :
    ResetFree (World.run cfg events).map ∧
    (∀ (c : Call) (d : Direction) (entry : CtEntry), Found (World.run cfg events).map c.packet d entry →
      c.packet.proto = ipprotoTcp → ¬ entry.evictionTime.toUInt64 ≤ c.now →
      ((c.process cfg (World.run cfg events).map).map.lookup (c.packet.connectionKey d) = none ↔
        test c.packet.flags TcpFlag.rst.mask = true)) ∧
    (∀ c : Call, (Event.packet c).Parsed → (Event.packet c).createsReset (World.run cfg events).map = false →
      test c.packet.flags TcpFlag.rst.mask = true →
      (c.process cfg (World.run cfg events).map).map.lookup c.packet.key = none ∧
        (c.process cfg (World.run cfg events).map).map.lookup (ctReverseKey c.packet.key) = none) := by
  have hfree : ResetFree (World.run cfg events).map :=
    Execution.invariant (I := fun w : World => ResetFree w.map) (World.step_resetFree cfg)
      (by intro key entry hl; cases hl) h
  refine ⟨hfree,?_,?_⟩
  · intro c d entry hf hproto halive
    rw [Call.process_lookup_eq_none_iff cfg hf, removes_eq, connectionKey_proto, hproto,
      decide_eq_false halive, hfree _ _ hf.lookup]
    simp
  · intro c hparsed hcreates hrst
    have hproto : c.packet.proto = ipprotoTcp := by
      rcases hparsed with htcp | ⟨-,hflags⟩
      · exact htcp
      · rw [hflags] at hrst
        cases hrst
    have horiented := World.run_oriented cfg events
    generalize (World.run cfg events).map = map at hcreates horiented ⊢
    have heffect := c.process_effect cfg map
    generalize c.process cfg map = outcome at heffect
    cases heffect with
    | ignored hm hn => exact ⟨hm.key,hm.reverseKey⟩
    | born hm hn hb => simp [Event.createsReset, hm.key, hm.reverseKey, hn, hrst] at hcreates
    | kept hf hr hreport hobserved hk => simp [removes_eq, hproto, hrst] at hr
    | removed hf hr hreport hobserved =>
      have hmissed := horiented.missed_erase hf
      exact ⟨hmissed.key,hmissed.reverseKey⟩

def resetting : List Event := handshake ++
  [.packet ⟨1003,clientPacket ipprotoTcp (TcpFlag.rst.mask ||| TcpFlag.ack.mask) 52,0,false⟩]

theorem only_reset_removes_handshake :
    Execution.Along (World.step sampleConfig) (fun w e => e.Parsed ∧ e.createsReset w.map = false) {} handshake ∧
      (World.run sampleConfig resetting).map.lookup tcpKey = none := by
  have h : Execution.Along (World.step sampleConfig) (fun w e => e.Parsed ∧ e.createsReset w.map = false) {}
    handshake := by decide
  have hreset := (only_reset_removes sampleConfig handshake h).2.2
    ⟨1003,clientPacket ipprotoTcp (TcpFlag.rst.mask ||| TcpFlag.ack.mask) 52,0,false⟩ (by decide) (by decide)
    (by decide)
  exact ⟨h,hreset.1⟩

/-- A RST of an unknown connection creates an entry, which the next packet without RST
removes although it has not expired. -/
theorem reset_creates_entry :
    ∃ entry, (World.run sampleConfig
        [.packet ⟨1000,clientPacket ipprotoTcp TcpFlag.rst.mask 40,0,true⟩]).map.lookup tcpKey = some entry ∧
      test (entry.dir .tx).flagsSeen.toUInt16 TcpFlag.rst.mask = true ∧
      ¬ entry.evictionTime.toUInt64 ≤ 1001 ∧
      (World.run sampleConfig
        [.packet ⟨1000,clientPacket ipprotoTcp TcpFlag.rst.mask 40,0,true⟩,
          .packet ⟨1001,clientPacket ipprotoTcp TcpFlag.psh.mask 40,0,true⟩]).map.lookup tcpKey = none := by
  exact ⟨_,rfl,by decide,by decide,by decide⟩

end Retina.Conntrack
