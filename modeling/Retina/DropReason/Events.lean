import Retina.PacketParser.Parse

/-! # Events of dropped packets

`pkg/plugin/dropreason/_cprog/drop_reason.c` and `processRecord` of `dropreason_linux.go`, with
`ADVANCED_METRICS` as a parameter. The kernel part takes the ports from the transport header of
a packet or from a socket and changes their byte order. The Go part changes it once more, as
that of packetparser does with ports that nobody has changed before. The host is little-endian.
-/
namespace Retina.DropReason
open Conntrack (ipprotoTcp ipprotoUdp)

/-- What is read of `struct sk_buff`. Headers are found by their distance from `head`. -/
structure SkBuff where
  memory : Memory
  head : ℕ
  networkHeader : UInt16
  transportHeader : UInt16
  len : UInt32

/-- What is read of `struct sock`. The local port is a number of the host, the remote one is as
in a header. -/
structure Sock where
  skcRcvSaddr : UInt32
  skcDaddr : UInt32
  skcDport : UInt16
  skcNum : UInt16

structure Packet where
  srcIp : UInt32 := 0
  dstIp : UInt32 := 0
  srcPort : UInt16 := 0
  dstPort : UInt16 := 0
  skbLen : UInt32 := 0
  returnVal : UInt32 := 0
  dropType : UInt16 := 0
  proto : UInt8 := 0
  inFiltermap : Bool := false
  ts : UInt64 := 0

structure Config where
  advancedMetrics : Bool
  bypassLookupIPOfInterest : Bool
  lookup : UInt32 → Bool

def Config.ofInterest (cfg : Config) (saddr daddr : UInt32) : Bool :=
  cfg.bypassLookupIPOfInterest || cfg.lookup saddr || cfg.lookup daddr

def SkBuff.ipHeaderAddress (skb : SkBuff) : ℕ := skb.head + skb.networkHeader.toNat

def SkBuff.transportHeaderAddress (skb : SkBuff) : ℕ := skb.head + skb.transportHeader.toNat

def SkBuff.protocol (skb : SkBuff) : UInt8 := skb.memory (skb.ipHeaderAddress + 9)

def getPacketFromSkb (cfg : Config) (bootNs : UInt64) (p : Packet) (skb : SkBuff) : Packet :=
  let p := { p with skbLen := skb.len }
  let saddr := skb.memory.le32 (skb.ipHeaderAddress + 12)
  let daddr := skb.memory.le32 (skb.ipHeaderAddress + 16)
  if cfg.advancedMetrics = false then p
  else if cfg.ofInterest saddr daddr = false then p
  else
    let p := { p with inFiltermap := true, srcIp := saddr, dstIp := daddr, ts := bootNs }
    if skb.protocol = ipprotoTcp ∨ skb.protocol = ipprotoUdp then
      { p with
        srcPort := swap16 (skb.memory.le16 skb.transportHeaderAddress)
        dstPort := swap16 (skb.memory.le16 (skb.transportHeaderAddress + 2))
        proto := skb.protocol }
    else p

/-- The protocol stays as it was. -/
def getPacketFromSock (cfg : Config) (bootNs : UInt64) (p : Packet) (sk : Sock) : Packet :=
  if cfg.ofInterest sk.skcRcvSaddr sk.skcDaddr = false then p
  else
    { p with
      ts := bootNs
      inFiltermap := true
      srcIp := sk.skcRcvSaddr
      dstIp := sk.skcDaddr
      dstPort := swap16 sk.skcDport
      srcPort := swap16 sk.skcNum }

/-- The event that `update_metrics_map` sends. Its counters are those of `MetricsMap`. -/
def dropEvent (cfg : Config) (dropType : UInt16) (retVal : UInt32) (p : Packet) : Option Packet :=
  if cfg.advancedMetrics && p.inFiltermap then some { p with dropType := dropType, returnVal := retVal } else none

/-! ## Flows -/

def hostToNetShort (i : UInt16) : UInt16 := join16 (lowByte i) (highByte i)

inductive Layer4
  | tcp (sourcePort destinationPort : UInt32)
  | udp (sourcePort destinationPort : UInt32)
deriving DecidableEq

def layer4 (proto : UInt8) (sourcePort destPort : UInt32) : Option Layer4 :=
  if proto = 6 then some (.tcp sourcePort destPort)
  else if proto = 17 then some (.udp sourcePort destPort)
  else none

structure Flow where
  sourceIP : UInt32
  destIP : UInt32
  l4 : Option Layer4
  ts : UInt64
  dropType : UInt16
  packetSize : UInt32

def processRecord (bpfEvent : Packet) : Flow where
  sourceIP := bpfEvent.srcIp
  destIP := bpfEvent.dstIp
  l4 := layer4 bpfEvent.proto (hostToNetShort bpfEvent.srcPort).toUInt32 (hostToNetShort bpfEvent.dstPort).toUInt32
  ts := bpfEvent.ts
  dropType := bpfEvent.dropType
  packetSize := bpfEvent.skbLen

/-- The same part of `processRecord` of packetparser. -/
def packetparserLayer4 (bpfEvent : PacketParser.Packet) : Option Layer4 :=
  layer4 bpfEvent.proto (hostToNetShort bpfEvent.srcPort).toUInt32 (hostToNetShort bpfEvent.dstPort).toUInt32

/-! ## The ports on the way -/

theorem hostToNetShort_eq (i : UInt16) : hostToNetShort i = swap16 i := rfl

inductive Source
  | skb (skb : SkBuff)
  | sock (sk : Sock)

namespace Source

def getPacket (cfg : Config) (bootNs : UInt64) : Source → Packet
  | skb b => getPacketFromSkb cfg bootNs {} b
  | sock sk => getPacketFromSock cfg bootNs {} sk

/-- Only TCP sockets are looked at. -/
def protocol : Source → UInt8
  | skb b => b.protocol
  | sock _ => ipprotoTcp

def addresses : Source → UInt32 × UInt32
  | skb b => (b.memory.le32 (b.ipHeaderAddress + 12),b.memory.le32 (b.ipHeaderAddress + 16))
  | sock sk => (sk.skcRcvSaddr,sk.skcDaddr)

def sourcePort : Source → UInt16
  | skb b => b.memory.be16 b.transportHeaderAddress
  | sock sk => sk.skcNum

def destinationPort : Source → UInt16
  | skb b => b.memory.be16 (b.transportHeaderAddress + 2)
  | sock sk => swap16 sk.skcDport

def trueLayer4 (source : Source) : Option Layer4 :=
  layer4 source.protocol source.sourcePort.toUInt32 source.destinationPort.toUInt32

def flow (cfg : Config) (bootNs : UInt64) (dropType : UInt16) (retVal : UInt32) (source : Source) : Option Flow :=
  (dropEvent cfg dropType retVal (source.getPacket cfg bootNs)).map processRecord

end Source

theorem layer4_inj {proto : UInt8} {a b c d : UInt32} (hproto : proto = ipprotoTcp ∨ proto = ipprotoUdp) :
    layer4 proto a b = layer4 proto c d ↔ a = c ∧ b = d := by
  rcases hproto with rfl | rfl <;> simp [layer4, ipprotoTcp, ipprotoUdp]

theorem flow_skb {cfg : Config} (bootNs : UInt64) (dropType : UInt16) (retVal : UInt32) {b : SkBuff}
    (hadvanced : cfg.advancedMetrics = true) (hproto : b.protocol = ipprotoTcp ∨ b.protocol = ipprotoUdp)
    (hinterest : cfg.ofInterest (Source.skb b).addresses.1 (Source.skb b).addresses.2 = true) :
    ∃ fl, (Source.skb b).flow cfg bootNs dropType retVal = some fl ∧
      fl.l4 = layer4 b.protocol (swap16 (Source.skb b).sourcePort).toUInt32
        (swap16 (Source.skb b).destinationPort).toUInt32 := by
  simp only [Source.addresses] at hinterest
  refine ⟨_,by simp [Source.flow, Source.getPacket, getPacketFromSkb, dropEvent, hadvanced, hinterest, hproto]; rfl,?_⟩
  simp [processRecord, hostToNetShort_eq, Source.sourcePort, Source.destinationPort]

/-- The flow of a socket has no transport layer at all. -/
theorem flow_sock {cfg : Config} (bootNs : UInt64) (dropType : UInt16) (retVal : UInt32) {sk : Sock} {fl : Flow}
    (h : (Source.sock sk).flow cfg bootNs dropType retVal = some fl) : fl.l4 = none := by
  obtain ⟨event,hevent,rfl⟩ := Option.map_eq_some_iff.mp h
  unfold dropEvent at hevent
  split_ifs at hevent
  cases hevent
  simp only [Source.getPacket, getPacketFromSock]
  split_ifs <;> rfl

namespace Source

def IsPacketOf : Source → PacketParser.Skb → Prop
  | skb b, frame => frame.memory = b.memory ∧ frame.transportHeader = b.transportHeaderAddress ∧
      frame.protocol = b.protocol
  | sock _, _ => False

def ReportsPorts (cfg : Config) (bootNs : UInt64) (dropType : UInt16) (retVal : UInt32) (source : Source) : Prop :=
  ∃ fl, source.flow cfg bootNs dropType retVal = some fl ∧ fl.l4 = source.trueLayer4 ∧
    ∀ frame p, source.IsPacketOf frame → frame.HasTrueHeaders p → packetparserLayer4 p = fl.l4

theorem packetparserLayer4_eq {source : Source} {frame : PacketParser.Skb} {p : PacketParser.Packet}
    (hsame : source.IsPacketOf frame) (hp : frame.HasTrueHeaders p) : packetparserLayer4 p = source.trueLayer4 := by
  cases source with
  | skb b =>
    obtain ⟨hmemory,hheader,hproto⟩ := hsame
    simp only [packetparserLayer4, hp.proto, hp.srcPort, hp.dstPort, hostToNetShort_eq, Memory.swap16_le16,
      hmemory, hheader, hproto]
    rfl
  | sock sk => exact hsame.elim

end Source

/-- The byte order is changed twice. Ports are right if their bytes are equal. -/
theorem dropped_ports_reported_iff (cfg : Config) (bootNs : UInt64) (dropType : UInt16) (retVal : UInt32)
    (source : Source) (hadvanced : cfg.advancedMetrics = true)
    (hproto : source.protocol = ipprotoTcp ∨ source.protocol = ipprotoUdp)
    (hinterest : cfg.ofInterest source.addresses.1 source.addresses.2 = true) :
    source.ReportsPorts cfg bootNs dropType retVal ↔
      (∃ b, source = .skb b) ∧ highByte source.sourcePort = lowByte source.sourcePort ∧
        highByte source.destinationPort = lowByte source.destinationPort := by
  cases source with
  | skb b =>
    obtain ⟨fl,hfl,hl4⟩ := flow_skb bootNs dropType retVal hadvanced hproto hinterest
    have hports : fl.l4 = (Source.skb b).trueLayer4 ↔
        highByte (Source.skb b).sourcePort = lowByte (Source.skb b).sourcePort ∧
          highByte (Source.skb b).destinationPort = lowByte (Source.skb b).destinationPort := by
      rw [hl4, ← swap16_eq_self, ← swap16_eq_self]
      refine (layer4_inj hproto).trans ?_
      rw [UInt16.toUInt32_inj, UInt16.toUInt32_inj]
    constructor
    · rintro ⟨fl',hfl',hl4',_⟩
      cases hfl.symm.trans hfl'
      exact ⟨⟨b,rfl⟩,hports.mp hl4'⟩
    · rintro ⟨_,hbytes⟩
      refine ⟨fl,hfl,hports.mpr hbytes,fun frame p hsame hp => ?_⟩
      exact (Source.packetparserLayer4_eq hsame hp).trans (hports.mpr hbytes).symm
  | sock sk =>
    constructor
    · rintro ⟨fl,hfl,hl4,_⟩
      rw [flow_sock bootNs dropType retVal hfl] at hl4
      exact absurd hl4 (by simp [Source.trueLayer4, Source.protocol, layer4, ipprotoTcp])
    · rintro ⟨⟨b,hb⟩,_⟩
      cases hb

def droppedSegment (sport dport : UInt16) : SkBuff where
  memory a := ([0x45,0,0,40,0,0,0,0,64,6,0,0,10,0,0,1,10,0,0,2,
    highByte sport,lowByte sport,highByte dport,lowByte dport] : List UInt8).getD a 0
  head := 0
  networkHeader := 0
  transportHeader := 20
  len := 40

def reportAll : Config where
  advancedMetrics := true
  bypassLookupIPOfInterest := true
  lookup _ := false

theorem https_reported_as_47873 : (Source.skb (droppedSegment 443 40000)).sourcePort = 443 ∧
    (Source.skb (droppedSegment 443 40000)).destinationPort = 40000 ∧
    ((Source.skb (droppedSegment 443 40000)).flow reportAll 0 0 0).map Flow.l4 = some (some (.tcp 47873 16540)) := by
  decide

theorem equal_bytes_reported : (Source.skb (droppedSegment 257 514)).ReportsPorts reportAll 0 0 0 :=
  (dropped_ports_reported_iff reportAll 0 0 0 (.skb (droppedSegment 257 514)) rfl (Or.inl (by decide)) rfl).mpr
    ⟨⟨_,rfl⟩,by decide,by decide⟩

end Retina.DropReason
