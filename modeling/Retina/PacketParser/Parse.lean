import Retina.Conntrack.Types
import Retina.PacketParser.TcpOptions

/-! # The headers of a packet

`parse` of `pkg/plugin/packetparser/_cprog/packetparser.c`, up to the call of
`ct_process_packet`. The transport header is read behind an IPv4 header of twenty bytes,
whatever the length field of that header says. Addresses, ports and sequence numbers keep the
byte order of the network. The map of the addresses of interest is a parameter.
-/
namespace Retina.PacketParser
open Conntrack (ipprotoTcp ipprotoUdp)

structure TcpMetadata where
  seq : UInt32 := 0
  ackNum : UInt32 := 0
  tsval : UInt32 := 0
  tsecr : UInt32 := 0
deriving DecidableEq

structure Packet extends Conntrack.Packet where
  tNsec : UInt64
  tcpMetadata : TcpMetadata := {}
deriving DecidableEq

structure Skb where
  memory : Memory
  data : ℕ
  dataEnd : ℕ
  len : UInt32

def ethPIp : UInt16 := 0x0800
def sizeofEthhdr : ℕ := 14
def sizeofIphdr : ℕ := 20
def sizeofTcphdr : ℕ := 20
def sizeofUdphdr : ℕ := 8

/-- The single-bit fields of `struct tcphdr` behind the data offset, and the value put together
from them. -/
def tcpFlag (m : Memory) (tcp : ℕ) (bit : UInt8) : UInt16 := ((m (tcp + 13) >>> bit) &&& 1).toUInt16

def tcpFlags (m : Memory) (tcp : ℕ) : UInt16 :=
  tcpFlag m tcp 0 <<< 0 ||| tcpFlag m tcp 1 <<< 1 ||| tcpFlag m tcp 2 <<< 2 ||| tcpFlag m tcp 3 <<< 3 |||
    tcpFlag m tcp 4 <<< 4 ||| tcpFlag m tcp 5 <<< 5 ||| tcpFlag m tcp 6 <<< 6 ||| tcpFlag m tcp 7 <<< 7

/-- The sequence numbers are stored before the options are looked at, so they stay if the
options have no time stamps. -/
def tcpMetadataOf (m : Memory) (tcp dataEnd : ℕ) : TcpMetadata :=
  let metadata : TcpMetadata := { seq := m.le32 (tcp + 4), ackNum := m.le32 (tcp + 8) }
  let ts := parseTcpTs m tcp dataEnd metadata.tsval metadata.tsecr
  if ts.ret = 0 then { metadata with tsval := ts.tsval, tsecr := ts.tsecr } else metadata

def parse (bypassLookupIPOfInterest : Bool) (lookup : UInt32 → Bool) (bootNs : UInt64) (skb : Skb)
    (obs : UInt8) : Option Packet :=
  let m := skb.memory
  let ip := skb.data + sizeofEthhdr
  let transport := skb.data + sizeofEthhdr + sizeofIphdr
  let p : Packet :=
    { tNsec := bootNs, observationPoint := obs, bytes := skb.len, srcIp := m.le32 (ip + 12),
      dstIp := m.le32 (ip + 16), proto := m (ip + 9), srcPort := 0, dstPort := 0, flags := 0 }
  if skb.dataEnd < skb.data + sizeofEthhdr then none
  else if swap16 (m.le16 (skb.data + 12)) ≠ ethPIp then none
  else if skb.dataEnd < skb.data + sizeofEthhdr + sizeofIphdr then none
  else if bypassLookupIPOfInterest = false ∧ lookup p.srcIp = false ∧ lookup p.dstIp = false then none
  else if m (ip + 9) = ipprotoTcp then
    if skb.dataEnd < skb.data + sizeofEthhdr + sizeofIphdr + sizeofTcphdr then none
    else some { p with
      srcPort := m.le16 transport
      dstPort := m.le16 (transport + 2)
      flags := tcpFlags m transport
      tcpMetadata := tcpMetadataOf m transport skb.dataEnd }
  else if m (ip + 9) = ipprotoUdp then
    if skb.dataEnd < skb.data + sizeofEthhdr + sizeofIphdr + sizeofUdphdr then none
    else some { p with
      srcPort := m.le16 transport
      dstPort := m.le16 (transport + 2)
      flags := 1 }
  else none

/-- The flags are the byte of the header that holds them. -/
theorem tcpFlags_eq (m : Memory) (tcp : ℕ) : tcpFlags m tcp = (m (tcp + 13)).toUInt16 := by
  have hbyte : ∀ b : BitVec 8,
      ((UInt8.ofBitVec b >>> 0) &&& 1).toUInt16 <<< 0 ||| ((UInt8.ofBitVec b >>> 1) &&& 1).toUInt16 <<< 1 |||
      ((UInt8.ofBitVec b >>> 2) &&& 1).toUInt16 <<< 2 ||| ((UInt8.ofBitVec b >>> 3) &&& 1).toUInt16 <<< 3 |||
      ((UInt8.ofBitVec b >>> 4) &&& 1).toUInt16 <<< 4 ||| ((UInt8.ofBitVec b >>> 5) &&& 1).toUInt16 <<< 5 |||
      ((UInt8.ofBitVec b >>> 6) &&& 1).toUInt16 <<< 6 ||| ((UInt8.ofBitVec b >>> 7) &&& 1).toUInt16 <<< 7 =
      (UInt8.ofBitVec b).toUInt16 := by decide +kernel
  exact hbyte (m (tcp + 13)).toBitVec

theorem tcpMetadataOf_seq (m : Memory) (tcp dataEnd : ℕ) :
    (tcpMetadataOf m tcp dataEnd).seq = m.le32 (tcp + 4) ∧
      (tcpMetadataOf m tcp dataEnd).ackNum = m.le32 (tcp + 8) := by
  simp only [tcpMetadataOf]
  split_ifs <;> exact ⟨rfl,rfl⟩

abbrev HeaderTimestamps (m : Memory) (tcp dataEnd : ℕ) (ts : UInt32 × UInt32) : Prop :=
  CarriesTimestamps m (tcpOptionsEnd m tcp dataEnd) (tcp + sizeofTcphdr) ts

theorem tcpMetadataOf_ts (m : Memory) (tcp dataEnd : ℕ) (ts : UInt32 × UInt32) :
    ((tcpMetadataOf m tcp dataEnd).tsval,(tcpMetadataOf m tcp dataEnd).tsecr) = ts ↔
      HeaderTimestamps m tcp dataEnd ts ∨ (ts = (0,0) ∧ ∀ ts', ¬HeaderTimestamps m tcp dataEnd ts') := by
  simp only [tcpMetadataOf]
  rcases parseTcpTs_eq m tcp dataEnd 0 0 with ⟨ts',hts,hret,hval,hecr⟩ | ⟨hnone,hret,_,_⟩
  · rw [if_pos hret]
    simp only [hval, hecr]
    constructor
    · rintro rfl
      exact Or.inl hts
    · rintro (h | ⟨_,h⟩)
      · exact hts.unique h
      · exact absurd hts (h ts')
  · rw [if_neg (by rw [hret]; decide)]
    constructor
    · rintro rfl
      exact Or.inr ⟨rfl,hnone⟩
    · rintro (h | ⟨rfl,_⟩)
      · exact absurd h (hnone ts)
      · rfl

/-! ## The true headers -/

namespace Skb
variable (skb : Skb)

def version : UInt8 := skb.memory (skb.data + 14) >>> 4

def ihl : ℕ := (skb.memory (skb.data + 14) &&& 0x0F).toNat

def protocol : UInt8 := skb.memory (skb.data + 23)

/-- Where the transport header begins, by the length field of the IPv4 header. -/
def transportHeader : ℕ := skb.data + sizeofEthhdr + 4 * skb.ihl

def fixedTransportHeader : ℕ := skb.data + sizeofEthhdr + sizeofIphdr

/-- An Ethernet frame with an IPv4 packet that is not fragmented, with its TCP or UDP header in
the linear part. -/
structure CarriesTransport : Prop where
  ethertype : skb.memory.be16 (skb.data + 12) = ethPIp
  version : skb.version = 4
  ihl : 5 ≤ skb.ihl
  unfragmented : skb.memory.be16 (skb.data + 20) &&& 0x3FFF = 0
  transport : (skb.protocol = ipprotoTcp ∧ 5 ≤ (tcpDoff skb.memory skb.transportHeader).toNat ∧
      skb.transportHeader + 4 * (tcpDoff skb.memory skb.transportHeader).toNat ≤ skb.dataEnd) ∨
    (skb.protocol = ipprotoUdp ∧ skb.transportHeader + sizeofUdphdr ≤ skb.dataEnd)

structure HasTrueHeaders (p : Packet) : Prop where
  srcIp : p.srcIp = skb.memory.le32 (skb.data + 26)
  dstIp : p.dstIp = skb.memory.le32 (skb.data + 30)
  proto : p.proto = skb.protocol
  srcPort : p.srcPort = skb.memory.le16 skb.transportHeader
  dstPort : p.dstPort = skb.memory.le16 (skb.transportHeader + 2)
  tcp : skb.protocol = ipprotoTcp →
    p.flags = (skb.memory (skb.transportHeader + 13)).toUInt16 ∧
    p.tcpMetadata.seq = skb.memory.le32 (skb.transportHeader + 4) ∧
    p.tcpMetadata.ackNum = skb.memory.le32 (skb.transportHeader + 8) ∧
    ∀ ts, HeaderTimestamps skb.memory skb.transportHeader skb.dataEnd ts →
      (p.tcpMetadata.tsval,p.tcpMetadata.tsecr) = ts

/-- The bytes at the fixed offset spell what those of the transport header do: the ports, and
for TCP the sequence numbers, the flags and the time stamps. -/
structure RepeatsHeader : Prop where
  ports : ∀ i < 4, skb.memory (skb.fixedTransportHeader + i) = skb.memory (skb.transportHeader + i)
  tcp : skb.protocol = ipprotoTcp →
    (∀ i < 8, skb.memory (skb.fixedTransportHeader + 4 + i) = skb.memory (skb.transportHeader + 4 + i)) ∧
    skb.memory (skb.fixedTransportHeader + 13) = skb.memory (skb.transportHeader + 13) ∧
    ∀ ts, HeaderTimestamps skb.memory skb.transportHeader skb.dataEnd ts →
      HeaderTimestamps skb.memory skb.fixedTransportHeader skb.dataEnd ts ∨
        (ts = (0,0) ∧ ∀ ts', ¬HeaderTimestamps skb.memory skb.fixedTransportHeader skb.dataEnd ts')

variable {skb}

theorem fixedTransportHeader_eq (h : skb.ihl = 5) : skb.fixedTransportHeader = skb.transportHeader := by
  simp [fixedTransportHeader, transportHeader, h, sizeofIphdr]

theorem repeatsHeader_of_ihl (h : skb.ihl = 5) : skb.RepeatsHeader := by
  constructor
  · intro i _
    rw [fixedTransportHeader_eq h]
  · intro _
    rw [fixedTransportHeader_eq h]
    exact ⟨fun _ _ => rfl,rfl,fun ts hts => Or.inl hts⟩

/-- What `parse` stores: the addresses of the frame, and a transport header at the fixed offset. -/
structure ReadsFixedOffset (skb : Skb) (p : Packet) : Prop where
  srcIp : p.srcIp = skb.memory.le32 (skb.data + 26)
  dstIp : p.dstIp = skb.memory.le32 (skb.data + 30)
  proto : p.proto = skb.protocol
  srcPort : p.srcPort = skb.memory.le16 skb.fixedTransportHeader
  dstPort : p.dstPort = skb.memory.le16 (skb.fixedTransportHeader + 2)
  tcp : skb.protocol = ipprotoTcp → p.flags = tcpFlags skb.memory skb.fixedTransportHeader ∧
    p.tcpMetadata = tcpMetadataOf skb.memory skb.fixedTransportHeader skb.dataEnd

theorem CarriesTransport.linear (h : skb.CarriesTransport) :
    skb.data + 34 ≤ skb.transportHeader ∧ (skb.protocol = ipprotoTcp → skb.transportHeader + 20 ≤ skb.dataEnd) ∧
      skb.transportHeader + 8 ≤ skb.dataEnd := by
  have hihl := h.ihl
  refine ⟨by simp only [transportHeader, sizeofEthhdr]; omega,fun htcp => ?_,?_⟩
  · rcases h.transport with ⟨_,hdoff,hend⟩ | ⟨hudp,_⟩
    · omega
    · exact absurd (htcp.symm.trans hudp) (by decide)
  · rcases h.transport with ⟨_,hdoff,hend⟩ | ⟨_,hend⟩
    · omega
    · exact hend

/-- A frame of interest is never turned away, but its transport header is taken from the fixed offset. -/
theorem parse_eq_some {bypass : Bool} {lookup : UInt32 → Bool} (bootNs : UInt64) (obs : UInt8)
    (h : skb.CarriesTransport)
    (hinterest : bypass = true ∨ lookup (skb.memory.le32 (skb.data + 26)) = true ∨
      lookup (skb.memory.le32 (skb.data + 30)) = true) :
    ∃ p, parse bypass lookup bootNs skb obs = some p ∧ skb.ReadsFixedOffset p := by
  obtain ⟨hoffset,htcp,hudp⟩ := h.linear
  have hproto : skb.memory (skb.data + 14 + 9) = skb.protocol := rfl
  have hinterest' : ¬(bypass = false ∧ lookup (skb.memory.le32 (skb.data + 14 + 12)) = false ∧
      lookup (skb.memory.le32 (skb.data + 14 + 16)) = false) := by
    rintro ⟨hbypass,hsrc,hdst⟩
    simp [hbypass, hsrc, hdst] at hinterest
  simp only [parse, Memory.swap16_le16, h.ethertype, sizeofEthhdr, sizeofIphdr, sizeofTcphdr, sizeofUdphdr,
    ne_eq, not_true_eq_false, if_false, if_neg hinterest', hproto]
  rw [if_neg (by omega), if_neg (by omega)]
  rcases h.transport with ⟨hp,_⟩ | ⟨hp,_⟩
  · rw [if_pos hp, if_neg (by have := htcp hp; omega)]
    exact ⟨_,rfl,rfl,rfl,rfl,rfl,rfl,fun _ => ⟨rfl,rfl⟩⟩
  · have hne : skb.protocol ≠ ipprotoTcp := by rw [hp]; decide
    rw [if_neg hne, if_pos hp, if_neg (by omega)]
    exact ⟨_,rfl,rfl,rfl,rfl,rfl,rfl,fun h => absurd h hne⟩

theorem ports_eq_iff {a b : ℕ} (m : Memory) :
    (m.le16 a = m.le16 b ∧ m.le16 (a + 2) = m.le16 (b + 2)) ↔ ∀ i < 4, m (a + i) = m (b + i) := by
  rw [← Memory.le32_eq_iff, Memory.le32, Memory.le32, join32_inj, and_comm]

theorem sequence_eq_iff {a b : ℕ} (m : Memory) :
    (m.le32 (a + 4) = m.le32 (b + 4) ∧ m.le32 (a + 8) = m.le32 (b + 8)) ↔
      ∀ i < 8, m (a + 4 + i) = m (b + 4 + i) := by
  rw [Memory.le32_eq_iff, Memory.le32_eq_iff, Memory.agree_append m (a + 4) (b + 4) 4 4]

theorem ReadsFixedOffset.hasTrueHeaders_iff {p : Packet} (h : skb.ReadsFixedOffset p) :
    skb.HasTrueHeaders p ↔ skb.RepeatsHeader := by
  constructor
  · intro htrue
    refine ⟨(ports_eq_iff _).mp ⟨h.srcPort.symm.trans htrue.srcPort,h.dstPort.symm.trans htrue.dstPort⟩,
      fun hp => ?_⟩
    obtain ⟨hflags,hseq,hack,hts⟩ := htrue.tcp hp
    obtain ⟨hflags',hmeta⟩ := h.tcp hp
    obtain ⟨hseq',hack'⟩ := tcpMetadataOf_seq skb.memory skb.fixedTransportHeader skb.dataEnd
    rw [hmeta] at hseq hack hts
    rw [hflags', tcpFlags_eq] at hflags
    exact ⟨(sequence_eq_iff _).mp ⟨hseq'.symm.trans hseq,hack'.symm.trans hack⟩,
      UInt8.toUInt16_inj.mp hflags,fun ts hcarries => (tcpMetadataOf_ts _ _ _ ts).mp (hts ts hcarries)⟩
  · intro hrepeats
    obtain ⟨hsrc,hdst⟩ := (ports_eq_iff _).mpr hrepeats.ports
    refine ⟨h.srcIp,h.dstIp,h.proto,h.srcPort.trans hsrc,h.dstPort.trans hdst,fun hp => ?_⟩
    obtain ⟨hwords,hflags,hts⟩ := hrepeats.tcp hp
    obtain ⟨hseq,hack⟩ := (sequence_eq_iff _).mpr hwords
    obtain ⟨hflags',hmeta⟩ := h.tcp hp
    obtain ⟨hseq',hack'⟩ := tcpMetadataOf_seq skb.memory skb.fixedTransportHeader skb.dataEnd
    rw [hflags', tcpFlags_eq, hmeta, hflags]
    exact ⟨rfl,hseq'.trans hseq,hack'.trans hack,
      fun ts hcarries => (tcpMetadataOf_ts _ _ _ ts).mpr (hts ts hcarries)⟩

end Skb

/-- The headers are the true ones if the IPv4 header has no options, or if the bytes that are
read in place of the transport header happen to agree with it. -/
theorem parse_true_headers_iff (bypass : Bool) (lookup : UInt32 → Bool) (bootNs : UInt64) (skb : Skb)
    (obs : UInt8) (hframe : skb.CarriesTransport)
    (hinterest : bypass = true ∨ lookup (skb.memory.le32 (skb.data + 26)) = true ∨
      lookup (skb.memory.le32 (skb.data + 30)) = true) :
    (∃ p, parse bypass lookup bootNs skb obs = some p ∧ skb.HasTrueHeaders p) ↔
      skb.ihl = 5 ∨ skb.RepeatsHeader := by
  obtain ⟨p,hp,hreads⟩ := Skb.parse_eq_some bootNs obs hframe hinterest
  rw [hp]
  simp only [Option.some.injEq, exists_eq_left', hreads.hasTrueHeaders_iff]
  exact ⟨Or.inr,fun h => h.elim Skb.repeatsHeader_of_ihl id⟩

def optionsFrame : List UInt8 :=
  [2,0,0,0,0,1,2,0,0,0,0,2,8,0,
   0x46,0,0,32,0,0,0,0,64,17,0x63,0xCA,10,0,0,1,10,0,0,2,1,1,1,0,
   0x12,0x34,0,53,0,8,0,0]

def frameSkb (frame : List UInt8) : Skb where
  memory a := frame.getD a 0
  data := 0
  dataEnd := frame.length
  len := frame.length.toUInt32

/-- The options are taken for the ports. -/
theorem parse_optionsFrame : (frameSkb optionsFrame).CarriesTransport ∧
    ∃ p, parse true (fun _ => false) 0 (frameSkb optionsFrame) 0 = some p ∧
      swap16 p.srcPort = 257 ∧ swap16 p.dstPort = 256 ∧ ¬(frameSkb optionsFrame).HasTrueHeaders p := by
  refine ⟨⟨by decide,by decide,by decide,by decide,Or.inr (by decide)⟩,_,rfl,by decide,by decide,?_⟩
  intro h
  exact absurd h.srcPort (by decide)

def plainFrame : List UInt8 :=
  [2,0,0,0,0,1,2,0,0,0,0,2,8,0,
   0x45,0,0,28,0,0,0,0,64,17,0x66,0xCF,10,0,0,1,10,0,0,2,
   0x12,0x34,0,53,0,8,0,0]

theorem parse_plainFrame : ∃ p, parse true (fun _ => false) 0 (frameSkb plainFrame) 0 = some p ∧
    (frameSkb plainFrame).HasTrueHeaders p :=
  (parse_true_headers_iff true (fun _ => false) 0 (frameSkb plainFrame) 0
    ⟨by decide,by decide,by decide,by decide,Or.inr (by decide)⟩ (Or.inl rfl)).mpr (Or.inl (by decide))

end Retina.PacketParser
