import Retina.Library.Bytes

/-! # The DNS filter in the kernel

`retina_dns_filter` of `pkg/plugin/dns/_cprog/dns.c`. Offsets are sixteen bits wide and wrap
around. A packet for which the filter returns before the event is sent gives `none`. The
scratch buffer of the event is the single entry of a per-CPU array, and its lookup does not fail.
-/
namespace Retina.Dns

structure Skb where
  memory : Memory
  len : UInt32
  pktType : UInt32

structure DnsEvent where
  timestamp : UInt64
  srcIp : UInt32 := 0
  dstIp : UInt32 := 0
  srcIp6 : List UInt8 := List.replicate 16 0
  dstIp6 : List UInt8 := List.replicate 16 0
  srcPort : UInt16
  dstPort : UInt16
  id : UInt16 := 0
  qtype : UInt16 := 0
  ancount : UInt16 := 0
  dnsOff : UInt16
  dataLen : UInt16
  af : UInt8 := 0
  proto : UInt8
  pktType : UInt8
  qr : UInt8 := 0
  rcode : UInt8 := 0

def ethPIp : UInt16 := 0x0800
def ethPIpv6 : UInt16 := 0x86DD
def ethHlen : ℕ := 14
def sizeofIpv6hdr : ℕ := 40
def sizeofUdphdr : ℕ := 8
def sizeofDnshdr : ℕ := 12

def ipprotoTcp : UInt8 := 6
def ipprotoUdp : UInt8 := 17

def nexthdrHop : UInt8 := 0
def nexthdrRouting : UInt8 := 43
def nexthdrFragment : UInt8 := 44
def nexthdrAuth : UInt8 := 51
def nexthdrDest : UInt8 := 60

def packetOutgoing : UInt32 := 4

def dnsPort : UInt16 := 53
def dnsMdnsPort : UInt16 := 5353

namespace Skb
variable (skb : Skb)

/-- `bpf_skb_load_bytes`, which fails if the bytes are not all in the packet. -/
def loadBytes (off n : ℕ) : Option (List UInt8) :=
  if off + n ≤ skb.len.toNat then some ((List.range n).map fun i => skb.memory (off + i)) else none

def loadByte (off : ℕ) : Option UInt8 :=
  if off + 1 ≤ skb.len.toNat then some (skb.memory off) else none

def loadHalf (off : ℕ) : Option UInt16 :=
  if off + 2 ≤ skb.len.toNat then some (swap16 (skb.memory.le16 off)) else none

/-- The four bytes of an address, without a change of their order. -/
def loadWord (off : ℕ) : Option UInt32 :=
  if off + 4 ≤ skb.len.toNat then some (skb.memory.le32 off) else none

end Skb

def isDnsPort (port : UInt16) : Bool := port == dnsPort || port == dnsMdnsPort

/-- The body of the loop over the extension headers of IPv6, behind its test for TCP and UDP. -/
def skipExtension (skb : Skb) (proto : UInt8) (l4Off : UInt16) : Option (UInt8 × UInt16) := do
  let nextproto ← skb.loadByte l4Off.toNat
  if proto = nexthdrFragment then some (nextproto,l4Off + UInt16.ofNat 8)
  else if proto = nexthdrAuth then
    let extLen ← skb.loadByte (l4Off.toNat + 1)
    some (nextproto,l4Off + UInt16.ofNat (4 * (extLen.toNat + 2)))
  else if proto = nexthdrHop ∨ proto = nexthdrRouting ∨ proto = nexthdrDest then
    let extLen ← skb.loadByte (l4Off.toNat + 1)
    some (nextproto,l4Off + UInt16.ofNat (8 * (extLen.toNat + 1)))
  else none

def skipExtensions (skb : Skb) : ℕ → UInt8 → UInt16 → Option (UInt8 × UInt16)
  | 0, proto, l4Off => some (proto,l4Off)
  | i + 1, proto, l4Off =>
    if proto = ipprotoTcp ∨ proto = ipprotoUdp then some (proto,l4Off)
    else
      match skipExtension skb proto l4Off with
      | none => none
      | some (nextproto,nextOff) => skipExtensions skb i nextproto nextOff

/-- The protocol and the offset behind the headers of the network layer. -/
def locateTransport (skb : Skb) (hProto : UInt16) : Option (UInt8 × UInt16) :=
  if hProto = ethPIp then do
    let proto ← skb.loadByte (ethHlen + 9)
    let ihlByte ← skb.loadByte ethHlen
    let ipHeaderLen : UInt8 := (ihlByte &&& 0x0F) * 4
    some (proto,UInt16.ofNat (ethHlen + ipHeaderLen.toNat))
  else if hProto = ethPIpv6 then do
    let proto ← skb.loadByte (ethHlen + 6)
    skipExtensions skb 6 proto (UInt16.ofNat (ethHlen + sizeofIpv6hdr))
  else none

def locateDns (skb : Skb) (proto : UInt8) (l4Off : UInt16) : Option UInt16 :=
  if proto = ipprotoUdp then some (l4Off + UInt16.ofNat sizeofUdphdr)
  else if proto = ipprotoTcp then do
    let doffByte ← skb.loadByte (l4Off.toNat + 12)
    let tcpHeaderLen : UInt8 := ((doffByte >>> 4) &&& 0x0F) * 4
    let dnsOff := l4Off + tcpHeaderLen.toUInt16
    if skb.len.toNat ≤ dnsOff.toNat then none else some (dnsOff + 2)
  else none

/-- The labels of a name, with the rounds that are left. The result is the offset that the
loop stops at, which is the end of the name only if the loop found it. -/
def skipLabels (skb : Skb) : ℕ → UInt16 → Option UInt16
  | 0, qoff => some qoff
  | i + 1, qoff =>
    if skb.len.toNat ≤ qoff.toNat then none
    else
      match skb.loadByte qoff.toNat with
      | none => none
      | some labelLen => if labelLen = 0 then some (qoff + 1) else skipLabels skb i (qoff + (1 + labelLen.toUInt16))

def questionType (skb : Skb) (dnsOff : UInt16) : UInt16 :=
  match skipLabels skb 64 (dnsOff + UInt16.ofNat sizeofDnshdr) with
  | none => 0
  | some qoff => if qoff.toNat + 2 ≤ skb.len.toNat then (skb.loadHalf qoff.toNat).getD 0 else 0

def fillAddresses (skb : Skb) (hProto : UInt16) (event : DnsEvent) : DnsEvent :=
  if hProto = ethPIp then
    { event with
      af := 4
      srcIp := (skb.loadWord (ethHlen + 12)).getD event.srcIp
      dstIp := (skb.loadWord (ethHlen + 16)).getD event.dstIp }
  else if hProto = ethPIpv6 then
    { event with
      af := 6
      srcIp6 := (skb.loadBytes (ethHlen + 8) 16).getD event.srcIp6
      dstIp6 := (skb.loadBytes (ethHlen + 24) 16).getD event.dstIp6 }
  else event

/-- The fields of the DNS header. The event is sent without them if the flags cannot be read. -/
def fillDnsHeader (skb : Skb) (dnsOff : UInt16) (event : DnsEvent) : DnsEvent :=
  match skb.loadByte (dnsOff.toNat + 2), skb.loadByte (dnsOff.toNat + 3) with
  | some flags0, some flags1 =>
    { event with
      qr := (flags0 >>> 7) &&& 1
      rcode := flags1 &&& 0x0F
      id := (skb.loadHalf dnsOff.toNat).getD event.id
      ancount := (skb.loadHalf (dnsOff.toNat + 6)).getD event.ancount
      qtype := questionType skb dnsOff }
  | _, _ => event

def fillEvent (bootNs : UInt64) (skb : Skb) (hProto : UInt16) (proto : UInt8) (sport dport dnsOff : UInt16) :
    DnsEvent :=
  fillDnsHeader skb dnsOff (fillAddresses skb hProto
    { timestamp := bootNs, dataLen := skb.len.toUInt16, dnsOff := dnsOff, pktType := skb.pktType.toUInt8,
      proto := proto, srcPort := sport, dstPort := dport })

def retinaDnsFilter (bootNs : UInt64) (skb : Skb) : Option DnsEvent :=
  if skb.pktType = packetOutgoing then none
  else do
    let hProto ← skb.loadHalf 12
    let (proto,l4Off) ← locateTransport skb hProto
    if proto ≠ ipprotoUdp ∧ proto ≠ ipprotoTcp then none
    else
      let sport ← skb.loadHalf l4Off.toNat
      let dport ← skb.loadHalf (l4Off.toNat + 2)
      if !isDnsPort sport && !isDnsPort dport then none
      else
        let dnsOff ← locateDns skb proto l4Off
        if skb.len.toNat < dnsOff.toNat + sizeofDnshdr then none
        else some (fillEvent bootNs skb hProto proto sport dport dnsOff)

end Retina.Dns
