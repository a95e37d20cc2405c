import Retina.Trace.FilterScript

/-! # Which events a filter selects

A filter asks for addresses: those of its IPs and those in its CIDRs. An IP is always one of
version 4, but a CIDR may also be written with sixteen bytes. The conditions of the TCP
tracepoints pass such a CIDR over; those of the packet drops keep it if it is an IPv4-mapped one,
with an empty mask.
-/
namespace Retina.Trace
open AddressPrefix

def IPv4.zero : IPv4 := ⟨0,0,0,0⟩

/-! ## One condition -/

section Conditions
variable (src dst : IPv4)

theorem holds_skbIPCondition {ip : IP} {a : IPv4} (ha : to4 ip = some a) :
    ∃ t, skbIPCondition ip = some t ∧
      (t.holds (eventEnv src dst) = true ↔ ∃ side, sideOf src dst side = a) := by
  refine ⟨_,by rw [skbIPCondition, ha]; rfl,?_⟩
  rw [holds_eitherSide]
  simp [Test.holds, Term.eval, networkOrder, eventEnv, IPv4.bigEndian_inj]

theorem holds_tcpIPCondition {ip : IP} {a : IPv4} (ha : to4 ip = some a) :
    ∃ t, tcpIPCondition ip = some t ∧
      (t.holds (eventEnv src dst) = true ↔ ∃ side, sideOf src dst side = a) := by
  refine ⟨_,by rw [tcpIPCondition, ha]; rfl,?_⟩
  rw [holds_eitherSide]
  simp only [holds_eachByte, Test.holds, Term.eval, eventEnv, beq_iff_eq, toUInt32_inj, IPv4.ext_byte]

theorem holds_skbCIDRCondition {net : IPNet} (h : Written net) (hlen : net.mask.length = 4) :
    ∃ t, skbCIDRCondition (some net) = some t ∧
      (t.holds (eventEnv src dst) = true ↔ ∃ side, net.contains (sideOf src dst side).bytes = true) := by
  obtain ⟨a,m,rfl,hcontains⟩ := h.exists_quads hlen
  refine ⟨_,rfl,?_⟩
  rw [holds_eitherSide]
  simp only [hcontains]
  simp [Test.holds, Term.eval, networkOrder, eventEnv, nilOr, IPv4.bigEndian_and, IPv4.bigEndian_inj]

theorem holds_tcpCIDRCondition {net : IPNet} (h : Written net) (hlen : net.mask.length = 4) :
    ∃ t, tcpCIDRCondition (some net) = some t ∧
      (t.holds (eventEnv src dst) = true ↔ ∃ side, net.contains (sideOf src dst side).bytes = true) := by
  obtain ⟨a,m,rfl,hcontains⟩ := h.exists_quads hlen
  refine ⟨_,rfl,?_⟩
  rw [holds_eitherSide]
  simp only [hcontains, holds_eachByte, Test.holds, Term.eval, eventEnv, beq_iff_eq, ← UInt8.toUInt32_and,
    toUInt32_inj, ← IPv4.byte_and, IPv4.ext_byte]

/-- The mask of sixteen bytes is left out, so that the network number is compared with zero. -/
theorem holds_skbCIDRCondition_mapped {net : IPNet} (h : Written net) (hlen : net.mask.length = 16) {c : IPv4}
    (hc : to4 net.ip = some c) :
    ∃ t, skbCIDRCondition (some net) = some t ∧
      (t.holds (eventEnv src dst) = true ↔ net.contains IPv4.zero.bytes = true) := by
  obtain ⟨m,hcontains⟩ := h.exists_mapped hlen hc
  have hmask : to4 net.mask = none := by
    cases h with
    | v4 a n _ => simp at hlen
    | v6 bytes n _ _ => exact to4_mask_sixteen n
  have hzero : IPv4.zero.and m = IPv4.zero := by simp [IPv4.and, IPv4.zero]
  refine ⟨_,by rw [skbCIDRCondition, Option.bind_eq_bind, Option.bind_some, hc, hmask]; rfl,?_⟩
  rw [holds_eitherSide, hcontains, hzero, ← IPv4.bigEndian_inj]
  simp only [Test.holds, Term.eval, nilOr, Option.elim_none, ipToHex_nil, ipToHex_bytes, UInt32.and_zero, beq_iff_eq]
  constructor
  · rintro ⟨_,h⟩
    exact h
  · intro h
    exact ⟨.source,h⟩

end Conditions

theorem skbCIDRCondition_eq_none {net : IPNet} (hip : to4 net.ip = none) : skbCIDRCondition (some net) = none := by
  rw [skbCIDRCondition, Option.bind_eq_bind, Option.bind_some, hip]
  rfl

theorem tcpCIDRCondition_eq_none {net : IPNet} (hlen : net.mask.length = 16) : tcpCIDRCondition (some net) = none := by
  have hquad : quad net.mask = none := by
    cases h : quad net.mask with
    | none => rfl
    | some m =>
      rw [eq_bytes_of_quad h, IPv4.bytes_length] at hlen
      omega
  rw [tcpCIDRCondition, Option.bind_eq_bind, Option.bind_some, hquad]
  cases to4 net.ip <;> rfl

/-! ## The whole filter -/

namespace TraceConfig
variable (config : TraceConfig)

def Requested (a : IPv4) : Prop :=
  (∃ ip ∈ config.filterIPs, to4 ip = some a) ∨ ∃ net, some net ∈ config.filterCIDRs ∧ net.contains a.bytes = true

/-- The address is asked for by an IP or by a CIDR in the notation of version 4. -/
def Native (a : IPv4) : Prop :=
  (∃ ip ∈ config.filterIPs, to4 ip = some a) ∨
    ∃ net, some net ∈ config.filterCIDRs ∧ net.mask.length = 4 ∧ net.contains a.bytes = true

/-- The address is asked for by a CIDR in the notation of version 6. -/
def Mapped (a : IPv4) : Prop :=
  ∃ net, some net ∈ config.filterCIDRs ∧ net.mask.length = 16 ∧ net.contains a.bytes = true

def HasNative : Prop := config.filterIPs ≠ [] ∨ ∃ net, some net ∈ config.filterCIDRs ∧ net.mask.length = 4

structure Accepted (parseAddr : String → Option Addr) : Prop where
  ips : ∀ ip ∈ config.filterIPs, ip ≠ [] ∧ ∃ input, validateFilterIP parseAddr input = .ok ip
  cidrs : ∀ cidr ∈ config.filterCIDRs, ∃ net input, cidr = some net ∧ validateFilterCIDR parseAddr input = .ok (some net)
  nonempty : config.filterIPs ≠ [] ∨ config.filterCIDRs ≠ []

/-- Both filters let an event through exactly if one of its addresses is asked for. -/
def SelectsRequested : Prop :=
  ∀ src dst : IPv4,
    (config.skbFilter.letsThrough (eventEnv src dst) = true ↔ ∃ side, config.Requested (sideOf src dst side)) ∧
      (config.tcpFilter.letsThrough (eventEnv src dst) = true ↔ ∃ side, config.Requested (sideOf src dst side))

/-- The CIDRs in the notation of version 6 ask for nothing that the rest of the filter does not ask for; and if
there is no rest, they ask for everything. -/
def MappedCovered : Prop :=
  (config.HasNative → (∀ a, config.Mapped a → config.Native a) ∧ (config.Mapped IPv4.zero → ∀ a, config.Native a)) ∧
    (¬config.HasNative → ∀ a, config.Mapped a)

section Accepted
variable {config} {parseAddr : String → Option Addr} (h : config.Accepted parseAddr) (src dst : IPv4)
include h

theorem Accepted.written {net : IPNet} (hnet : some net ∈ config.filterCIDRs) : Written net := by
  obtain ⟨net',input,heq,hvalid⟩ := h.cidrs _ hnet
  cases heq
  exact written_of_validateFilterCIDR hvalid

theorem Accepted.to4_ip {ip : IP} (hip : ip ∈ config.filterIPs) : ∃ a, to4 ip = some a := by
  obtain ⟨hne,input,hvalid⟩ := h.ips ip hip
  exact to4_of_validateFilterIP hvalid hne

theorem Accepted.requested_iff (a : IPv4) : config.Requested a ↔ config.Native a ∨ config.Mapped a := by
  constructor
  · rintro (hip | ⟨net,hnet,hcontains⟩)
    · exact .inl (.inl hip)
    · rcases (h.written hnet).mask_length with hlen | hlen
      · exact .inl (.inr ⟨net,hnet,hlen,hcontains⟩)
      · exact .inr ⟨net,hnet,hlen,hcontains⟩
  · rintro ((hip | ⟨net,hnet,-,hcontains⟩) | ⟨net,hnet,-,hcontains⟩)
    · exact .inl hip
    · exact .inr ⟨net,hnet,hcontains⟩
    · exact .inr ⟨net,hnet,hcontains⟩

section Parts
variable {fromIP : IP → Option Test} {fromCIDR : Option IPNet → Option Test}
  (hip : ∀ ip a, to4 ip = some a → ∃ t, fromIP ip = some t ∧
    (t.holds (eventEnv src dst) = true ↔ ∃ side, sideOf src dst side = a))
  (hcidr : ∀ net, Written net → net.mask.length = 4 → ∃ t, fromCIDR (some net) = some t ∧
    (t.holds (eventEnv src dst) = true ↔ ∃ side, net.contains (sideOf src dst side).bytes = true))
include hip hcidr

/-- An event meets one of the conditions if it is asked for in the notation of version 4, or by a condition of
a CIDR in the notation of version 6. -/
theorem Accepted.exists_holds_iff :
    (∃ t ∈ config.filterIPs.filterMap fromIP ++ config.filterCIDRs.filterMap fromCIDR,
        t.holds (eventEnv src dst) = true) ↔
      (∃ side, config.Native (sideOf src dst side)) ∨
        ∃ net, some net ∈ config.filterCIDRs ∧ net.mask.length = 16 ∧
          ∃ t, fromCIDR (some net) = some t ∧ t.holds (eventEnv src dst) = true := by
  simp only [List.mem_append, List.mem_filterMap]
  constructor
  · rintro ⟨t,(⟨ip,hmem,ht⟩ | ⟨cidr,hmem,ht⟩),hholds⟩
    · obtain ⟨a,ha⟩ := h.to4_ip hmem
      obtain ⟨t',ht',hiff⟩ := hip ip a ha
      cases ht.symm.trans ht'
      obtain ⟨side,hside⟩ := hiff.mp hholds
      exact .inl ⟨side,.inl ⟨ip,hmem,hside ▸ ha⟩⟩
    · obtain ⟨net,input,rfl,-⟩ := h.cidrs _ hmem
      rcases (h.written hmem).mask_length with hlen | hlen
      · obtain ⟨t',ht',hiff⟩ := hcidr net (h.written hmem) hlen
        cases ht.symm.trans ht'
        obtain ⟨side,hside⟩ := hiff.mp hholds
        exact .inl ⟨side,.inr ⟨net,hmem,hlen,hside⟩⟩
      · exact .inr ⟨net,hmem,hlen,t,ht,hholds⟩
  · rintro (⟨side,(⟨ip,hmem,ha⟩ | ⟨net,hmem,hlen,hcontains⟩)⟩ | ⟨net,hmem,-,t,ht,hholds⟩)
    · obtain ⟨t,ht,hiff⟩ := hip ip _ ha
      exact ⟨t,.inl ⟨ip,hmem,ht⟩,hiff.mpr ⟨side,rfl⟩⟩
    · obtain ⟨t,ht,hiff⟩ := hcidr net (h.written hmem) hlen
      exact ⟨t,.inr ⟨some net,hmem,ht⟩,hiff.mpr ⟨side,hcontains⟩⟩
    · exact ⟨t,.inr ⟨some net,hmem,ht⟩,hholds⟩

theorem Accepted.conditions_ne_nil (hnative : config.HasNative) :
    config.filterIPs.filterMap fromIP ++ config.filterCIDRs.filterMap fromCIDR ≠ [] := by
  apply List.ne_nil_of_length_pos
  apply List.length_pos_iff_exists_mem.mpr
  simp only [List.mem_append, List.mem_filterMap]
  rcases hnative with hips | ⟨net,hmem,hlen⟩
  · obtain ⟨ip,hmem⟩ := List.exists_mem_of_ne_nil _ hips
    obtain ⟨a,ha⟩ := h.to4_ip hmem
    obtain ⟨t,ht,-⟩ := hip ip a ha
    exact ⟨t,.inl ⟨ip,hmem,ht⟩⟩
  · obtain ⟨t,ht,-⟩ := hcidr net (h.written hmem) hlen
    exact ⟨t,.inr ⟨some net,hmem,ht⟩⟩

end Parts

theorem Accepted.tcp_conditions_eq_nil (hnative : ¬config.HasNative) : config.tcpFilter.conditions = [] := by
  obtain ⟨hips,hcidrs⟩ := not_or.mp hnative
  rw [tcpFilter, not_not.mp hips, List.filterMap_nil, List.nil_append, List.filterMap_eq_nil_iff]
  intro cidr hmem
  obtain ⟨net,input,rfl,-⟩ := h.cidrs _ hmem
  apply tcpCIDRCondition_eq_none
  rcases (h.written hmem).mask_length with hlen | hlen
  · exact absurd ⟨net,hmem,hlen⟩ hcidrs
  · exact hlen

/-- The filter of the TCP tracepoints passes over what is written in the notation of version 6. -/
theorem Accepted.tcp_letsThrough_iff :
    config.tcpFilter.letsThrough (eventEnv src dst) = true ↔
      ¬config.HasNative ∨ ∃ side, config.Native (sideOf src dst side) := by
  have hholds := h.exists_holds_iff src dst (fun ip a => holds_tcpIPCondition src dst)
    (fun net => holds_tcpCIDRCondition src dst)
  have hmapped : ¬∃ net, some net ∈ config.filterCIDRs ∧ net.mask.length = 16 ∧
      ∃ t, tcpCIDRCondition (some net) = some t ∧ t.holds (eventEnv src dst) = true := by
    rintro ⟨net,-,hlen,t,ht,-⟩
    rw [tcpCIDRCondition_eq_none hlen] at ht
    cases ht
  rw [or_iff_left hmapped] at hholds
  rw [letsThrough_iff]
  refine or_congr ?_ hholds
  constructor
  · intro hnil hnative
    exact h.conditions_ne_nil src dst (fun ip a => holds_tcpIPCondition src dst)
      (fun net => holds_tcpCIDRCondition src dst) hnative hnil
  · exact h.tcp_conditions_eq_nil

/-- The filter of the packet drops takes a mapped CIDR for everything or for nothing, as it has zero or not. -/
theorem Accepted.exists_skb_holds_iff :
    (∃ t ∈ config.skbFilter.conditions, t.holds (eventEnv src dst) = true) ↔
      (∃ side, config.Native (sideOf src dst side)) ∨ config.Mapped IPv4.zero := by
  refine (h.exists_holds_iff src dst (fun ip a => holds_skbIPCondition src dst)
    (fun net => holds_skbCIDRCondition src dst)).trans (or_congr_right ?_)
  refine exists_congr fun net => and_congr_right fun hmem => and_congr_right fun hlen => ?_
  cases hip : to4 net.ip with
  | none =>
    rw [skbCIDRCondition_eq_none hip, (h.written hmem).contains_eq_false hlen hip]
    simp
  | some c =>
    obtain ⟨t,ht,hiff⟩ := holds_skbCIDRCondition_mapped src dst (h.written hmem) hlen hip
    rw [← hiff, ht]
    simp

theorem Accepted.skb_letsThrough_iff :
    config.skbFilter.letsThrough (eventEnv src dst) = true ↔
      config.skbFilter.conditions = [] ∨ (∃ side, config.Native (sideOf src dst side)) ∨ config.Mapped IPv4.zero := by
  rw [letsThrough_iff, h.exists_skb_holds_iff]

theorem Accepted.skb_conditions_ne_nil (hnative : config.HasNative) : config.skbFilter.conditions ≠ [] :=
  h.conditions_ne_nil IPv4.zero IPv4.zero (fun _ _ => holds_skbIPCondition _ _) (fun _ => holds_skbCIDRCondition _ _)
    hnative

end Accepted

theorem HasNative.of_native {config : TraceConfig} {a : IPv4} (ha : config.Native a) : config.HasNative := by
  rcases ha with ⟨ip,hmem,-⟩ | ⟨net,hmem,hlen,-⟩
  · exact .inl (List.ne_nil_of_mem hmem)
  · exact .inr ⟨net,hmem,hlen⟩

/-- Both filters select what is asked for, exactly if nothing is lost with the CIDRs in the notation of version 6. -/
theorem selectsRequested_iff (parseAddr : String → Option Addr) (config : TraceConfig)
    (h : config.Accepted parseAddr) : config.SelectsRequested ↔ config.MappedCovered := by
  simp only [SelectsRequested, h.requested_iff, h.skb_letsThrough_iff, h.tcp_letsThrough_iff]
  by_cases hnative : config.HasNative
  · simp only [h.skb_conditions_ne_nil hnative, hnative, not_true_eq_false, false_or, MappedCovered, true_implies,
      false_implies, and_true]
    constructor
    · intro hall
      have hcovered : ∀ a, config.Mapped a → config.Native a := by
        intro a ha
        obtain ⟨side,hside⟩ := (hall a a).2.mpr ⟨.source,.inr ha⟩
        cases side <;> exact hside
      refine ⟨hcovered,?_⟩
      intro hzero a
      obtain ⟨side,hside⟩ := (hall a a).1.mp (.inr hzero)
      cases side <;> exact hside.elim id (hcovered a)
    · rintro ⟨hcovered,hzero⟩ src dst
      have hnat : (∃ side, config.Native (sideOf src dst side)) ↔
          ∃ side, config.Native (sideOf src dst side) ∨ config.Mapped (sideOf src dst side) :=
        exists_congr fun side => (or_iff_left_of_imp (hcovered _)).symm
      rw [← hnat]
      exact ⟨or_iff_left_of_imp fun hz => ⟨.source,hzero hz _⟩,Iff.rfl⟩
  · have hnone : ∀ a, ¬config.Native a := fun a ha => hnative (.of_native ha)
    simp only [hnative, hnone, MappedCovered, not_false_eq_true, false_implies, true_implies, true_and, true_or,
      false_or, exists_false, true_iff]
    constructor
    · intro hall a
      obtain ⟨side,hside⟩ := (hall a a).2
      cases side <;> exact hside
    · intro hall src dst
      exact ⟨iff_of_true (.inr (hall _)) ⟨.source,hall _⟩,⟨.source,hall _⟩⟩

/-! ## Two filters -/

def sampleAddrs (s : String) : Option Addr :=
  if s = "10.0.0.1" then some (.v4 ⟨10,0,0,1⟩)
  else if s = "192.168.0.0" then some (.v4 ⟨192,168,0,0⟩)
  else if s = "2001:db8::" then some (.v6 ⟨[0x20,0x01,0x0d,0xb8,0,0,0,0,0,0,0,0,0,0,0,0],rfl⟩ "")
  else none

def hostAndNet : TraceConfig where
  filterIPs := [v4InV6Prefix ++ [10,0,0,1]]
  filterCIDRs := [some ⟨[192,168,0,0],[0xff,0xff,0,0]⟩]

example : hostAndNet.buildSkbIPFilterCondition =
    "    // IP/CIDR filter: skip if not matching\n    if (!(" ++
      "(bswap($saddr_raw) == 0x0a000001 || bswap($daddr_raw) == 0x0a000001) || " ++
      "((bswap($saddr_raw) & 0xffff0000) == 0xc0a80000 || (bswap($daddr_raw) & 0xffff0000) == 0xc0a80000)" ++
      ")) \x7b return; \x7d\n\n" := by
  decide +kernel

theorem hostAndNet_accepted : hostAndNet.Accepted sampleAddrs where
  ips := by
    intro ip hip
    cases List.mem_singleton.mp hip
    exact ⟨by decide,"10.0.0.1",by decide⟩
  cidrs := by
    intro cidr hcidr
    cases List.mem_singleton.mp hcidr
    exact ⟨_,"192.168.0.0/16",rfl,by decide⟩
  nonempty := .inl (by decide)

theorem hostAndNet_mappedCovered : hostAndNet.MappedCovered := by
  have hmapped : ∀ a, ¬hostAndNet.Mapped a := by
    rintro a ⟨net,hnet,hlen,-⟩
    cases List.mem_singleton.mp hnet
    exact absurd hlen (by decide)
  refine ⟨fun _ => ⟨fun a ha => absurd ha (hmapped a),fun hz => absurd hz (hmapped _)⟩,?_⟩
  exact fun h => absurd (.inl (by decide)) h

theorem hostAndNet_selectsRequested : hostAndNet.Accepted sampleAddrs ∧ hostAndNet.SelectsRequested :=
  ⟨hostAndNet_accepted,(selectsRequested_iff sampleAddrs hostAndNet hostAndNet_accepted).mpr hostAndNet_mappedCovered⟩

def documentationNet : TraceConfig where
  filterIPs := []
  filterCIDRs := [some ⟨[0x20,0x01,0x0d,0xb8,0,0,0,0,0,0,0,0,0,0,0,0],[0xff,0xff,0xff,0xff,0,0,0,0,0,0,0,0,0,0,0,0]⟩]

/-- The filter is accepted and no filter is written. -/
theorem documentationNet_no_filter :
    validateFilterCIDR sampleAddrs "2001:db8::/32" = .ok documentationNet.filterCIDRs.head! ∧
      documentationNet.buildSkbIPFilterCondition = "" ∧ documentationNet.buildTCPIPFilterCheckFromLocalVars = "" ∧
      documentationNet.skbFilter.letsThrough (eventEnv ⟨10,0,0,1⟩ ⟨10,0,0,2⟩) = true ∧
      ¬∃ side, documentationNet.Requested (sideOf ⟨10,0,0,1⟩ ⟨10,0,0,2⟩ side) := by
  refine ⟨by decide,by decide,by decide,by decide,?_⟩
  rintro ⟨side,⟨ip,hip,-⟩ | ⟨net,hnet,hcontains⟩⟩
  · cases hip
  · cases List.mem_singleton.mp hnet
    cases side <;> exact absurd hcontains (by decide)

end TraceConfig
end Retina.Trace
