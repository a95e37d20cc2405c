import Retina.Dns.Filter

/-! # The header chain of a packet

The offsets that the filter works out are compared with the chain of headers that the packet
has: the IPv4 header with its length field, or the IPv6 header with the extension headers
behind it. Offsets of the chain are natural numbers, so an equation with an offset of the
filter also says that sixteen bits were enough for it.
-/
namespace Retina.Dns

section
variable (skb : Skb)

def etherType : UInt16 := skb.memory.be16 12

/-- A header of the given type stands at the given offset, with so many extension headers of
IPv6 before it. -/
inductive ExtensionChain : ℕ → UInt8 → ℕ → Prop
  | ipv6Header : ExtensionChain 0 (skb.memory 20) 54
  | fragment {n off : ℕ} (h : ExtensionChain n nexthdrFragment off) :
      ExtensionChain (n + 1) (skb.memory off) (off + 8)
  | authentication {n off : ℕ} (h : ExtensionChain n nexthdrAuth off) :
      ExtensionChain (n + 1) (skb.memory off) (off + 4 * ((skb.memory (off + 1)).toNat + 2))
  | options {n off : ℕ} {proto : UInt8} (h : ExtensionChain n proto off)
      (hproto : proto = nexthdrHop ∨ proto = nexthdrRouting ∨ proto = nexthdrDest) :
      ExtensionChain (n + 1) (skb.memory off) (off + 8 * ((skb.memory (off + 1)).toNat + 1))

inductive NetworkHeaders : UInt8 → ℕ → Prop
  | ipv4 (h : etherType skb = ethPIp) :
      NetworkHeaders (skb.memory 23) (14 + 4 * (skb.memory 14 &&& 0x0F).toNat)
  | ipv6 {n off : ℕ} {proto : UInt8} (h : etherType skb = ethPIpv6) (hn : n ≤ 6)
      (hchain : ExtensionChain skb n proto off) : NetworkHeaders proto off

inductive LaterFragment : Prop
  | ipv4 (h : etherType skb = ethPIp) (hoffset : skb.memory.be16 20 &&& 0x1FFF ≠ 0)
  | ipv6 {n off : ℕ} (h : etherType skb = ethPIpv6) (hchain : ExtensionChain skb n nexthdrFragment off)
      (hoffset : skb.memory.be16 (off + 2) >>> 3 ≠ 0)

/-- The DNS header behind a transport header: behind the UDP header, or behind the TCP header
and the length of the message. -/
def dnsHeader (proto : UInt8) (off : ℕ) : ℕ :=
  if proto = ipprotoUdp then off + 8 else off + 4 * (skb.memory (off + 12) >>> 4).toNat + 2

/-- The bytes behind the headers of the network layer, read as a transport header, have a DNS port. -/
structure SpellsDns (proto : UInt8) (off : ℕ) : Prop where
  headers : NetworkHeaders skb proto off
  transport : proto = ipprotoUdp ∨ proto = ipprotoTcp
  port : isDnsPort (skb.memory.be16 off) = true ∨ isDnsPort (skb.memory.be16 (off + 2)) = true

structure DnsTransport (proto : UInt8) (off : ℕ) : Prop extends SpellsDns skb proto off where
  first : ¬LaterFragment skb

def DnsHeaderFits (proto : UInt8) (off : ℕ) : Prop := dnsHeader skb proto off + sizeofDnshdr ≤ skb.len.toNat

end

section
variable {skb : Skb}

theorem toNat_add_ofNat {off : UInt16} {n : ℕ} (h : off.toNat + n < 65536) :
    (off + UInt16.ofNat n).toNat = off.toNat + n := by
  rw [UInt16.toNat_add, UInt16.toNat_ofNat', Nat.add_mod_mod]
  exact Nat.mod_eq_of_lt h

theorem ExtensionChain.le {n off : ℕ} {proto : UInt8} (h : ExtensionChain skb n proto off) :
    54 ≤ off ∧ off ≤ 54 + 2048 * n := by
  induction h with
  | ipv6Header => omega
  | fragment _ ih => omega
  | @authentication n off _ ih =>
    have := (skb.memory (off + 1)).toNat_lt
    omega
  | @options n off _ _ _ ih =>
    have := (skb.memory (off + 1)).toNat_lt
    omega

theorem NetworkHeaders.le {off : ℕ} {proto : UInt8} (h : NetworkHeaders skb proto off) :
    14 ≤ off ∧ off ≤ 12342 := by
  cases h with
  | ipv4 =>
    have hihl : (skb.memory 14 &&& 0x0F).toNat ≤ 15 := by
      rw [UInt8.toNat_and]
      exact Nat.and_le_right
    omega
  | ipv6 _ hn hchain =>
    have := hchain.le
    omega

theorem dnsHeader_le (skb : Skb) (proto : UInt8) (off : ℕ) :
    off + 2 ≤ dnsHeader skb proto off ∧ dnsHeader skb proto off ≤ off + 62 := by
  have hdoff : (skb.memory (off + 12) >>> 4).toNat ≤ 15 := by
    have hbyte := (skb.memory (off + 12)).toNat_lt
    have hshift : (skb.memory (off + 12) >>> 4).toNat = (skb.memory (off + 12)).toNat / 2 ^ 4 := by
      rw [UInt8.toNat_shiftRight, Nat.shiftRight_eq_div_pow]
      rfl
    omega
  unfold dnsHeader
  split_ifs <;> omega

theorem loadByte_of_lt {off : ℕ} (h : off < skb.len.toNat) : skb.loadByte off = some (skb.memory off) :=
  if_pos h

theorem loadByte_eq_some {off : ℕ} {b : UInt8} (h : skb.loadByte off = some b) :
    off < skb.len.toNat ∧ skb.memory off = b := by
  unfold Skb.loadByte at h
  split_ifs at h with hlt
  exact ⟨hlt,Option.some_inj.mp h⟩

theorem loadHalf_of_le {off : ℕ} (h : off + 2 ≤ skb.len.toNat) :
    skb.loadHalf off = some (skb.memory.be16 off) := by
  rw [Skb.loadHalf, if_pos h, Memory.swap16_le16]

theorem loadHalf_eq_some {off : ℕ} {w : UInt16} (h : skb.loadHalf off = some w) :
    off + 2 ≤ skb.len.toNat ∧ skb.memory.be16 off = w := by
  unfold Skb.loadHalf at h
  split_ifs at h with hle
  exact ⟨hle,by simpa using h⟩

/-- A header that is passed over is the next one of the chain. -/
theorem skipExtension_sound {k : ℕ} {proto p : UInt8} {l4Off o : UInt16} (hk : k < 6)
    (hchain : ExtensionChain skb k proto l4Off.toNat) (h : skipExtension skb proto l4Off = some (p,o)) :
    ExtensionChain skb (k + 1) p o.toNat := by
  have hle := hchain.le
  have hlen := (skb.memory (l4Off.toNat + 1)).toNat_lt
  obtain ⟨nextproto,hnext,h⟩ := Option.bind_eq_some_iff.mp h
  obtain ⟨_,rfl⟩ := loadByte_eq_some hnext
  split_ifs at h with hfragment hauth hoptions
  · cases h
    subst hfragment
    rw [toNat_add_ofNat (by omega)]
    exact hchain.fragment
  · obtain ⟨extLen,hext,h⟩ := Option.bind_eq_some_iff.mp h
    obtain ⟨_,rfl⟩ := loadByte_eq_some hext
    cases h
    subst hauth
    rw [toNat_add_ofNat (by omega)]
    exact hchain.authentication
  · obtain ⟨extLen,hext,h⟩ := Option.bind_eq_some_iff.mp h
    obtain ⟨_,rfl⟩ := loadByte_eq_some hext
    cases h
    rw [toNat_add_ofNat (by omega)]
    exact hchain.options hoptions

theorem skipExtensions_sound {i k : ℕ} {proto p : UInt8} {l4Off o : UInt16} (hrounds : k + i ≤ 6)
    (hchain : ExtensionChain skb k proto l4Off.toNat) (h : skipExtensions skb i proto l4Off = some (p,o)) :
    ∃ n ≤ 6, ExtensionChain skb n p o.toNat := by
  induction i generalizing k proto l4Off with
  | zero =>
    cases h
    exact ⟨k,by omega,hchain⟩
  | succ i ih =>
    rw [skipExtensions] at h
    split_ifs at h with hdone
    · cases h
      exact ⟨k,by omega,hchain⟩
    · cases hstep : skipExtension skb proto l4Off with
      | none => simp [hstep] at h
      | some next =>
        simp only [hstep] at h
        exact ih (by omega) (skipExtension_sound (by omega) hchain hstep) h

theorem ofNat_toNat {off : ℕ} (h : off < 65536) : (UInt16.ofNat off).toNat = off := by
  rw [UInt16.toNat_ofNat']
  exact Nat.mod_eq_of_lt h

/-- One round of the loop, in front of a header that it knows how to pass over. -/
theorem skipExtensions_step {proto : UInt8} {off size : ℕ} (i : ℕ)
    (hne : ¬(proto = ipprotoTcp ∨ proto = ipprotoUdp))
    (hstep : skipExtension skb proto (UInt16.ofNat off) =
      some (skb.memory off,UInt16.ofNat off + UInt16.ofNat size)) :
    skipExtensions skb (i + 1) proto (UInt16.ofNat off) =
      skipExtensions skb i (skb.memory off) (UInt16.ofNat (off + size)) := by
  rw [skipExtensions, if_neg hne, hstep, UInt16.ofNat_add]

/-- The loop comes to every header of the chain that lies in the packet. -/
theorem skipExtensions_complete {n off : ℕ} {proto : UInt8} (hchain : ExtensionChain skb n proto off)
    (hn : n ≤ 6) (hlen : off ≤ skb.len.toNat) (i : ℕ) :
    skipExtensions skb (n + i) (skb.memory 20) (UInt16.ofNat 54) =
      skipExtensions skb i proto (UInt16.ofNat off) := by
  induction hchain generalizing i with
  | ipv6Header => rw [Nat.zero_add]
  | @fragment n off h ih =>
    have hle := h.le
    have hoff : (UInt16.ofNat off).toNat = off := ofNat_toNat (by omega)
    have hnext : skb.loadByte off = some (skb.memory off) := loadByte_of_lt (by omega)
    rw [Nat.add_assoc, Nat.add_comm 1 i, ih (by omega) (by omega)]
    apply skipExtensions_step i (by decide)
    simp [skipExtension, hoff, hnext]
  | @authentication n off h ih =>
    have hle := h.le
    have hoff : (UInt16.ofNat off).toNat = off := ofNat_toNat (by omega)
    have hnext : skb.loadByte off = some (skb.memory off) := loadByte_of_lt (by omega)
    have hext : skb.loadByte (off + 1) = some (skb.memory (off + 1)) := loadByte_of_lt (by omega)
    rw [Nat.add_assoc, Nat.add_comm 1 i, ih (by omega) (by omega)]
    apply skipExtensions_step i (by decide)
    simp [skipExtension, hoff, hnext, hext, nexthdrAuth, nexthdrFragment]
  | @options n off proto h hproto ih =>
    have hle := h.le
    have hoff : (UInt16.ofNat off).toNat = off := ofNat_toNat (by omega)
    have hnext : skb.loadByte off = some (skb.memory off) := loadByte_of_lt (by omega)
    have hext : skb.loadByte (off + 1) = some (skb.memory (off + 1)) := loadByte_of_lt (by omega)
    rw [Nat.add_assoc, Nat.add_comm 1 i, ih (by omega) (by omega)]
    rcases hproto with rfl | rfl | rfl
    all_goals
      apply skipExtensions_step i (by decide)
      simp [skipExtension, hoff, hnext, hext, nexthdrAuth, nexthdrFragment, nexthdrHop, nexthdrRouting, nexthdrDest]

theorem skipExtensions_transport {proto : UInt8} (h : proto = ipprotoUdp ∨ proto = ipprotoTcp) (i : ℕ)
    (l4Off : UInt16) : skipExtensions skb i proto l4Off = some (proto,l4Off) := by
  cases i with
  | zero => rfl
  | succ i => rw [skipExtensions, if_pos h.symm]

theorem toNat_ihl_mul (b : UInt8) : ((b &&& 0x0F) * 4).toNat = 4 * (b &&& 0x0F).toNat := by
  have hle : (b &&& 0x0F).toNat ≤ 15 := by
    rw [UInt8.toNat_and]
    exact Nat.and_le_right
  have hmul : ((b &&& 0x0F) * 4).toNat = (b &&& 0x0F).toNat * 4 % 2 ^ 8 := UInt8.toNat_mul _ _
  omega

theorem locateTransport_sound {proto : UInt8} {l4Off : UInt16}
    (h : locateTransport skb (etherType skb) = some (proto,l4Off)) : NetworkHeaders skb proto l4Off.toNat := by
  unfold locateTransport at h
  split_ifs at h with hip hip6
  · obtain ⟨p,hp,h⟩ := Option.bind_eq_some_iff.mp h
    obtain ⟨b,hb,h⟩ := Option.bind_eq_some_iff.mp h
    obtain ⟨_,rfl⟩ := loadByte_eq_some hp
    obtain ⟨_,rfl⟩ := loadByte_eq_some hb
    cases h
    rw [toNat_ihl_mul]
    have hoff := (NetworkHeaders.ipv4 hip).le
    rw [ofNat_toNat (by simp only [ethHlen]; omega)]
    exact .ipv4 hip
  · obtain ⟨p,hp,h⟩ := Option.bind_eq_some_iff.mp h
    obtain ⟨_,rfl⟩ := loadByte_eq_some hp
    obtain ⟨n,hn,hchain⟩ := skipExtensions_sound (by omega) .ipv6Header h
    exact .ipv6 hip6 hn hchain

theorem locateTransport_complete {proto : UInt8} {off : ℕ} (h : NetworkHeaders skb proto off)
    (htransport : proto = ipprotoUdp ∨ proto = ipprotoTcp) (hlen : off + 14 ≤ skb.len.toNat) :
    locateTransport skb (etherType skb) = some (proto,UInt16.ofNat off) := by
  have hle := h.le
  cases h with
  | ipv4 hip =>
    rw [locateTransport, if_pos hip, loadByte_of_lt (by simp only [ethHlen]; omega),
      loadByte_of_lt (by simp only [ethHlen]; omega)]
    simp only [Option.bind_eq_bind, Option.bind_some, toNat_ihl_mul, ethHlen]
  | @ipv6 n _ _ hip6 hn hchain =>
    have hle := hchain.le
    obtain ⟨i,hi⟩ := Nat.exists_eq_add_of_le hn
    rw [locateTransport, if_neg (by rw [hip6]; decide), if_pos hip6, loadByte_of_lt (by simp only [ethHlen]; omega)]
    have hcomplete := skipExtensions_complete hchain hn (by omega) i
    rw [← hi, skipExtensions_transport htransport] at hcomplete
    exact hcomplete

theorem toNat_doff_mul (b : UInt8) : (((b >>> 4) &&& 0x0F) * 4).toNat = 4 * (b >>> 4).toNat := by
  have hmask : (b >>> 4) &&& (0x0F : UInt8) = b >>> 4 := by
    have hbyte : ∀ v : BitVec 8, (UInt8.ofBitVec v >>> 4) &&& (0x0F : UInt8) = UInt8.ofBitVec v >>> 4 := by
      decide +kernel
    exact hbyte b.toBitVec
  rw [toNat_ihl_mul, hmask]

/-- The offset behind a transport header, before it is known whether the packet is that long. -/
theorem toNat_tcpData {l4Off : UInt16} (hle : l4Off.toNat ≤ 12342) (b : UInt8) :
    (l4Off + (((b >>> 4) &&& 0x0F) * 4).toUInt16).toNat = l4Off.toNat + 4 * (b >>> 4).toNat := by
  have hdoff := toNat_doff_mul b
  have hbyte := (((b >>> 4) &&& 0x0F) * 4).toNat_lt
  rw [UInt16.toNat_add, UInt8.toNat_toUInt16, hdoff]
  omega

theorem locateDns_sound {proto : UInt8} {l4Off dnsOff : UInt16} (hle : l4Off.toNat ≤ 12342)
    (h : locateDns skb proto l4Off = some dnsOff) : dnsOff.toNat = dnsHeader skb proto l4Off.toNat := by
  have hbound := (dnsHeader_le skb proto l4Off.toNat).2
  unfold locateDns at h
  split_ifs at h with hudp htcp
  · cases h
    rw [dnsHeader, if_pos hudp]
    exact toNat_add_ofNat (by simp only [sizeofUdphdr]; omega)
  · obtain ⟨doffByte,hbyte,h⟩ := Option.bind_eq_some_iff.mp h
    obtain ⟨_,rfl⟩ := loadByte_eq_some hbyte
    rw [dnsHeader, if_neg hudp] at hbound ⊢
    dsimp only at h
    split_ifs at h
    cases h
    have hdata := toNat_tcpData hle (skb.memory (l4Off.toNat + 12))
    rw [UInt16.toNat_add, hdata]
    exact Nat.mod_eq_of_lt (by simp only [UInt16.reduceToNat]; omega)

theorem locateDns_complete {proto : UInt8} {l4Off : UInt16} (hle : l4Off.toNat ≤ 12342)
    (htransport : proto = ipprotoUdp ∨ proto = ipprotoTcp)
    (hfits : dnsHeader skb proto l4Off.toNat + sizeofDnshdr ≤ skb.len.toNat) :
    ∃ dnsOff, locateDns skb proto l4Off = some dnsOff := by
  rw [sizeofDnshdr] at hfits
  unfold locateDns
  split_ifs with hudp htcp
  · exact ⟨_,rfl⟩
  · rw [dnsHeader, if_neg hudp] at hfits
    have hdata := toNat_tcpData hle (skb.memory (l4Off.toNat + 12))
    rw [loadByte_of_lt (by omega)]
    simp only [Option.bind_eq_bind, Option.bind_some]
    rw [if_neg (by omega)]
    exact ⟨_,rfl⟩
  · exact absurd htransport (by simp [hudp, htcp])

structure DnsEvent.Describes (e : DnsEvent) (skb : Skb) (transport : UInt8) (off : ℕ) : Prop where
  proto : e.proto = transport
  srcPort : e.srcPort = skb.memory.be16 off
  dstPort : e.dstPort = skb.memory.be16 (off + 2)
  dnsOff : e.dnsOff.toNat = dnsHeader skb transport off

theorem fillAddresses_header (skb : Skb) (hProto : UInt16) (e : DnsEvent) :
    (fillAddresses skb hProto e).proto = e.proto ∧ (fillAddresses skb hProto e).srcPort = e.srcPort ∧
      (fillAddresses skb hProto e).dstPort = e.dstPort ∧ (fillAddresses skb hProto e).dnsOff = e.dnsOff := by
  unfold fillAddresses
  split_ifs <;> exact ⟨rfl,rfl,rfl,rfl⟩

theorem fillDnsHeader_header (skb : Skb) (dnsOff : UInt16) (e : DnsEvent) :
    (fillDnsHeader skb dnsOff e).proto = e.proto ∧ (fillDnsHeader skb dnsOff e).srcPort = e.srcPort ∧
      (fillDnsHeader skb dnsOff e).dstPort = e.dstPort ∧ (fillDnsHeader skb dnsOff e).dnsOff = e.dnsOff := by
  unfold fillDnsHeader
  split <;> exact ⟨rfl,rfl,rfl,rfl⟩

theorem fillEvent_describes (bootNs : UInt64) (hProto : UInt16) {proto : UInt8} {dnsOff : UInt16} {off : ℕ}
    (h : dnsOff.toNat = dnsHeader skb proto off) :
    (fillEvent bootNs skb hProto proto (skb.memory.be16 off) (skb.memory.be16 (off + 2)) dnsOff).Describes
      skb proto off := by
  obtain ⟨hproto,hsrc,hdst,hoff⟩ := fillDnsHeader_header skb dnsOff (fillAddresses skb hProto _)
  obtain ⟨hproto',hsrc',hdst',hoff'⟩ := fillAddresses_header skb hProto _
  refine ⟨hproto.trans hproto',hsrc.trans hsrc',hdst.trans hdst',?_⟩
  exact (congrArg UInt16.toNat (hoff.trans hoff')).trans h

/-- The steps that an event has gone through. -/
theorem retinaDnsFilter_inv {bootNs : UInt64} {e : DnsEvent} (h : retinaDnsFilter bootNs skb = some e) :
    skb.pktType ≠ packetOutgoing ∧ ∃ proto l4Off dnsOff,
      locateTransport skb (etherType skb) = some (proto,l4Off) ∧ (proto = ipprotoUdp ∨ proto = ipprotoTcp) ∧
      (isDnsPort (skb.memory.be16 l4Off.toNat) = true ∨ isDnsPort (skb.memory.be16 (l4Off.toNat + 2)) = true) ∧
      locateDns skb proto l4Off = some dnsOff ∧ dnsOff.toNat + sizeofDnshdr ≤ skb.len.toNat ∧
      e = fillEvent bootNs skb (etherType skb) proto (skb.memory.be16 l4Off.toNat)
        (skb.memory.be16 (l4Off.toNat + 2)) dnsOff := by
  unfold retinaDnsFilter at h
  split_ifs at h with hout
  refine ⟨hout,?_⟩
  obtain ⟨hProto,hhalf,h⟩ := Option.bind_eq_some_iff.mp h
  obtain ⟨_,rfl⟩ := loadHalf_eq_some hhalf
  obtain ⟨⟨proto,l4Off⟩,hlocate,h⟩ := Option.bind_eq_some_iff.mp h
  dsimp only at h
  split_ifs at h with hproto
  obtain ⟨sport,hsport,h⟩ := Option.bind_eq_some_iff.mp h
  obtain ⟨dport,hdport,h⟩ := Option.bind_eq_some_iff.mp h
  obtain ⟨_,rfl⟩ := loadHalf_eq_some hsport
  obtain ⟨_,rfl⟩ := loadHalf_eq_some hdport
  split_ifs at h with hport
  obtain ⟨dnsOff,hdns,h⟩ := Option.bind_eq_some_iff.mp h
  split_ifs at h with hfits
  refine ⟨proto,l4Off,dnsOff,hlocate,?_,?_,hdns,not_lt.mp hfits,(Option.some_inj.mp h).symm⟩
  · exact or_iff_not_and_not.mpr hproto
  · simpa [or_iff_not_imp_left] using hport

theorem retinaDnsFilter_sound {bootNs : UInt64} {e : DnsEvent} (h : retinaDnsFilter bootNs skb = some e) :
    skb.pktType ≠ packetOutgoing ∧ ∃ off, SpellsDns skb e.proto off ∧ DnsHeaderFits skb e.proto off ∧
      e.Describes skb e.proto off := by
  obtain ⟨hout,proto,l4Off,dnsOff,hlocate,htransport,hport,hdns,hfits,rfl⟩ := retinaDnsFilter_inv h
  have hheaders := locateTransport_sound hlocate
  have hoff := locateDns_sound hheaders.le.2 hdns
  have hdescribes := fillEvent_describes bootNs (etherType skb) hoff
  rw [hoff] at hfits
  rw [hdescribes.proto]
  exact ⟨hout,l4Off.toNat,⟨hheaders,htransport,hport⟩,hfits,hdescribes⟩

theorem retinaDnsFilter_complete (bootNs : UInt64) {proto : UInt8} {off : ℕ} (hin : skb.pktType ≠ packetOutgoing)
    (h : SpellsDns skb proto off) (hfits : DnsHeaderFits skb proto off) :
    ∃ e, retinaDnsFilter bootNs skb = some e ∧ e.Describes skb proto off := by
  have hle := h.headers.le
  have hdnsLe := (dnsHeader_le skb proto off).1
  rw [DnsHeaderFits, sizeofDnshdr] at hfits
  have htoNat : (UInt16.ofNat off).toNat = off := ofNat_toNat (by omega)
  have hlocate := locateTransport_complete h.headers h.transport (by omega)
  obtain ⟨dnsOff,hdns⟩ := locateDns_complete (by omega : (UInt16.ofNat off).toNat ≤ 12342) h.transport
    (by rw [htoNat]; exact hfits)
  have hoff := locateDns_sound (by omega) hdns
  rw [htoNat] at hoff
  refine ⟨_,?_,fillEvent_describes bootNs (etherType skb) hoff⟩
  have hport : ¬(!isDnsPort (skb.memory.be16 off) && !isDnsPort (skb.memory.be16 (off + 2))) = true := by
    simpa [or_iff_not_imp_left] using h.port
  have hether : skb.loadHalf 12 = some (etherType skb) := loadHalf_of_le (by omega)
  rw [retinaDnsFilter, if_neg hin, hether]
  simp only [Option.bind_eq_bind, Option.bind_some, hlocate, htoNat, hdns]
  rw [if_neg (fun hne => h.transport.elim hne.1 hne.2), loadHalf_of_le (by omega), loadHalf_of_le (by omega)]
  simp only [Option.bind_some]
  rw [if_neg hport, if_neg (by rw [hoff, sizeofDnshdr]; omega)]

end

/-- The filter does not look at the offset of a fragment, so it takes the bytes of a later
fragment for a transport header. For all other packets it is right. -/
theorem retinaDnsFilter_finds_header_iff (bootNs : UInt64) (skb : Skb) :
    ((∀ proto off, DnsTransport skb proto off → DnsHeaderFits skb proto off → skb.pktType ≠ packetOutgoing →
        ∃ e, retinaDnsFilter bootNs skb = some e ∧ e.Describes skb proto off) ∧
      ((∀ proto off, ¬DnsTransport skb proto off) → retinaDnsFilter bootNs skb = none)) ↔
    (LaterFragment skb → skb.pktType ≠ packetOutgoing →
      ∀ proto off, SpellsDns skb proto off → ¬DnsHeaderFits skb proto off) := by
  constructor
  · rintro ⟨_,hsilent⟩ hlater hin proto off hspells hfits
    obtain ⟨e,he,_⟩ := retinaDnsFilter_complete bootNs hin hspells hfits
    have hnone := hsilent fun _ _ htransport => htransport.first hlater
    exact absurd (he.symm.trans hnone) (by simp)
  · intro hcond
    refine ⟨fun proto off h hfits hin => retinaDnsFilter_complete bootNs hin h.toSpellsDns hfits,fun hchain => ?_⟩
    cases he : retinaDnsFilter bootNs skb with
    | none => rfl
    | some e =>
      obtain ⟨hin,off,hspells,hfits,_⟩ := retinaDnsFilter_sound he
      have hfirst : ¬LaterFragment skb := fun hlater => hcond hlater hin e.proto off hspells hfits
      exact absurd ⟨hspells,hfirst⟩ (hchain e.proto off)

def laterFragmentFrame : List UInt8 :=
  [2,0,0,0,0,1,2,0,0,0,0,2,8,0,
   0x45,0,0,40,0x1C,0x46,0x01,0x72,64,17,0x49,0x0B,10,0,0,1,10,0,0,2,
   0,53,1,2,3,4,5,6,7,8,9,10,11,12,13,14,15,16,17,18]

def frameSkb (frame : List UInt8) (pktType : UInt32) : Skb where
  memory a := frame.getD a 0
  len := frame.length.toUInt32
  pktType := pktType

theorem retinaDnsFilter_laterFragment : LaterFragment (frameSkb laterFragmentFrame 0) ∧
    (∀ proto off, ¬DnsTransport (frameSkb laterFragmentFrame 0) proto off) ∧
    ∃ e, retinaDnsFilter 0 (frameSkb laterFragmentFrame 0) = some e ∧ e.srcPort = 53 ∧ e.dnsOff = 42 := by
  have hlater : LaterFragment (frameSkb laterFragmentFrame 0) := .ipv4 (by decide) (by decide)
  exact ⟨hlater,fun _ _ h => h.first hlater,_,rfl,by decide,by decide⟩

end Retina.Dns
