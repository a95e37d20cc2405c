import Retina.Conntrack.Lifetime

/-! # One orientation for each connection

An entry is created only after both lookups failed, under the packet's key on some
paths and under the reversed key on others. No interleaving with removals can put
a key and its reverse into the map, so the labels of a connection's packets do not
change while its entry lives.
-/
namespace Retina.Conntrack

def Oriented (map : CtMap) : Prop :=
  ∀ key, ctReverseKey key ≠ key → key ∈ map → ctReverseKey key ∉ map

theorem oriented_empty : Oriented ∅ := by
  intro key _ hmem
  exact absurd hmem Finmap.notMem_empty

theorem Oriented.erase {map : CtMap} (h : Oriented map) (gone : CtV4Key) : Oriented (map.erase gone) := by
  intro key hne hmem hrev
  exact h key hne (Finmap.mem_erase.mp hmem).2 (Finmap.mem_erase.mp hrev).2

/-- An insertion is safe if the key is there already or its reverse is not. -/
theorem Oriented.insert {map : CtMap} (h : Oriented map) {new : CtV4Key} (entry : CtEntry)
    (hnew : new ∈ map ∨ ctReverseKey new ∉ map) : Oriented (map.insert new entry) := by
  have hrevnew : ctReverseKey new ≠ new → ctReverseKey new ∉ map := by
    intro hne
    rcases hnew with hmem | hrev
    · exact h new hne hmem
    · exact hrev
  intro key hne hmem hrev
  rcases Finmap.mem_insert.mp hmem with rfl | hmem
  · rcases Finmap.mem_insert.mp hrev with heq | hrev
    · exact hne heq
    · exact hrevnew hne hrev
  · rcases Finmap.mem_insert.mp hrev with heq | hrev
    · have hkey : key = ctReverseKey new := (ctReverseKey_eq_iff key new).mp heq
      have hne' : ctReverseKey new ≠ new := by
        intro hself
        exact hne (heq.trans (hself ▸ hkey.symm))
      exact hrevnew hne' (hkey ▸ hmem)
    · exact h key hne hmem hrev

theorem Missed.notMem {map : CtMap} {p : Packet} (h : Missed map p) (d : Direction) :
    ctReverseKey (p.connectionKey d) ∉ map := by
  have hlookup : map.lookup (ctReverseKey (p.connectionKey d)) = none := by
    cases d with
    | tx => exact h.reverseKey
    | rx => exact h.key
  exact Finmap.lookup_eq_none.mp hlookup

theorem World.step_oriented (cfg : Config) (w : World) (e : Event) (h : Oriented w.map) :
    Oriented (w.step cfg e).map := by
  cases e with
  | remove gone => exact h.erase gone
  | packet c =>
    have heffect := c.process_effect cfg w.map
    rw [World.step_packet_map]
    generalize c.process cfg w.map = outcome at heffect
    cases heffect with
    | ignored hm hn => exact h
    | born hm hn hb => exact h.insert _ (.inr (hm.notMem _))
    | kept hf hr hreport hobserved hk => exact h.insert _ (.inl (Finmap.mem_of_lookup_eq_some hf.lookup))
    | removed hf hr hreport hobserved => exact h.erase _

theorem World.run_oriented (cfg : Config) (events : List Event) : Oriented (World.run cfg events).map :=
  Execution.invariant_of_step (I := fun w : World => Oriented w.map) (World.step_oriented cfg)
    oriented_empty events

/-- Removing the entry that a packet finds leaves none for its connection. -/
theorem Oriented.missed_erase {map : CtMap} (h : Oriented map) {p : Packet} {d : Direction} {entry : CtEntry}
    (hf : Found map p d entry) : Missed (map.erase (p.connectionKey d)) p := by
  have hmem : p.connectionKey d ∈ map := Finmap.mem_of_lookup_eq_some hf.lookup
  have herased : ∀ key, key = p.connectionKey d ∨ key = ctReverseKey (p.connectionKey d) →
      (map.erase (p.connectionKey d)).lookup key = none := by
    intro key hkey
    apply Finmap.lookup_eq_none.mpr
    intro hin
    obtain ⟨hne,hin⟩ := Finmap.mem_erase.mp hin
    rcases hkey with hkey | hkey
    · exact hne hkey
    · rw [hkey] at hne hin
      exact h _ hne hmem hin
  cases d with
  | tx => exact ⟨herased _ (.inl rfl),herased _ (.inr rfl)⟩
  | rx => exact ⟨herased _ (.inr rfl),herased _ (.inl rfl)⟩

/-! ## Labels -/

/-- The entry and every packet processed on it carry the traffic direction of the
call that created the entry, and the reply label follows from the lookup. -/
structure Labelled (key : CtV4Key) (entry : CtEntry) (log : List Visit) : Prop where
  created : ∃ first, log.getLast? = some first ∧
    entry.trafficDirection = ctGetTrafficDirection first.call.observationPoint
  visits : ∀ v ∈ log, v.call.packet.connectionKey v.dir = key ∧ v.packet.isReply = (v.dir == .rx) ∧
    v.packet.trafficDirection = entry.trafficDirection

theorem Lifetime.labelled {cfg : Config} {key : CtV4Key} {entry : Option CtEntry} {log : List Visit}
    (h : Lifetime cfg key entry log) : ∀ e ∈ entry, Labelled key e log := by
  induction h with
  | unborn => exact nofun
  | @born _ v entry hl hkey hbefore hnew hborn hreport hpacket ih =>
    rintro e ⟨⟩
    refine ⟨⟨v,rfl,hborn.trafficDirection⟩,?_⟩
    intro u hu
    obtain rfl := List.mem_singleton.mp hu
    rw [hpacket]
    exact ⟨hkey,rfl,rfl⟩
  | @kept log v entry kept hl hkey hbefore hremoves hreport hobserved hkept hpacket ih =>
    rintro e ⟨⟩
    obtain ⟨⟨first,hfirst,htraffic⟩,hvisits⟩ := ih entry rfl
    have hsame : kept.trafficDirection = entry.trafficDirection := hkept.trafficDirection
    refine ⟨⟨first,?_,hsame.trans htraffic⟩,?_⟩
    · rw [List.getLast?_cons, hfirst]
      rfl
    · intro u hu
      rcases List.mem_cons.mp hu with rfl | hu
      · rw [hpacket]
        exact ⟨hkey,rfl,hsame.symm⟩
      · rw [hsame]
        exact hvisits u hu
  | removed hl hkey hbefore hremoves hreport hobserved hpacket ih => exact nofun
  | evicted hl ih => exact nofun

/-- A connection has one orientation: the map never holds both of its keys, and
while its entry lives every packet is labelled by that orientation. -/
theorem one_orientation (cfg : Config) (events : List Event) :
    Oriented (World.run cfg events).map ∧
    ∀ key entry, (World.run cfg events).map.lookup key = some entry → ctReverseKey key ≠ key →
      (∃ first, ((World.run cfg events).log key).getLast? = some first ∧
        entry.trafficDirection = ctGetTrafficDirection first.call.observationPoint) ∧
      (∀ v ∈ (World.run cfg events).log key,
        (v.call.packet.key = key ∧ v.packet.isReply = false ∨
          v.call.packet.key = ctReverseKey key ∧ v.packet.isReply = true) ∧
        v.packet.trafficDirection = entry.trafficDirection) ∧
      ∀ c : Call,
        (c.packet.key = key → (c.process cfg (World.run cfg events).map).packet.isReply = false ∧
          (c.process cfg (World.run cfg events).map).packet.trafficDirection = entry.trafficDirection) ∧
        (c.packet.key = ctReverseKey key → (c.process cfg (World.run cfg events).map).packet.isReply = true ∧
          (c.process cfg (World.run cfg events).map).packet.trafficDirection = entry.trafficDirection) := by
  have horiented := World.run_oriented cfg events
  refine ⟨horiented,?_⟩
  intro key entry hentry hne
  obtain ⟨hcreated,hvisits⟩ := (World.run_lifetime cfg events key).labelled entry hentry
  refine ⟨hcreated,?_,?_⟩
  · intro v hv
    obtain ⟨hkey,hreply,htraffic⟩ := hvisits v hv
    refine ⟨?_,htraffic⟩
    cases hd : v.dir with
    | tx =>
      rw [hd] at hkey hreply
      exact .inl ⟨hkey,hreply⟩
    | rx =>
      rw [hd] at hkey hreply
      exact .inr ⟨(ctReverseKey_eq_iff _ _).mp hkey,hreply⟩
  · intro c
    constructor
    · intro hkey
      have hlookup : (World.run cfg events).map.lookup (c.packet.connectionKey .tx) = some entry := by
        rw [Packet.connectionKey, hkey]
        exact hentry
      have hf : Found (World.run cfg events).map c.packet .tx entry := ⟨hlookup,nofun⟩
      rw [Call.process_packet_of_found cfg hf]
      exact ⟨rfl,rfl⟩
    · intro hkey
      have hfirst : (World.run cfg events).map.lookup c.packet.key = none := by
        rw [hkey]
        exact Finmap.lookup_eq_none.mpr (horiented key hne (Finmap.mem_of_lookup_eq_some hentry))
      have hlookup : (World.run cfg events).map.lookup (c.packet.connectionKey .rx) = some entry := by
        rw [Packet.connectionKey, hkey, ctReverseKey_ctReverseKey]
        exact hentry
      have hf : Found (World.run cfg events).map c.packet .rx entry := ⟨hlookup,fun _ => hfirst⟩
      rw [Call.process_packet_of_found cfg hf]
      exact ⟨rfl,rfl⟩

theorem one_orientation_handshake :
    ctReverseKey tcpKey ≠ tcpKey ∧ ctReverseKey tcpKey ∉ (World.run sampleConfig handshake).map ∧
      ∀ v ∈ (World.run sampleConfig handshake).log tcpKey, v.packet.trafficDirection = .egress := by
  obtain ⟨horiented,h⟩ := one_orientation sampleConfig handshake
  refine ⟨by decide,horiented tcpKey (by decide) (Finmap.mem_of_lookup_eq_some rfl),?_⟩
  intro v hv
  exact ((h tcpKey _ rfl (by decide)).2.1 v hv).2

end Retina.Conntrack
