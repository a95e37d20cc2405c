import Retina.Conntrack.Types

/-! # The conntrack functions of the data path

Every function takes the time that `bpf_mono_now` returns during the call, and
map pointers become explicit map values. The null checks of the source have no
counterpart: no caller passes a null pointer.
-/
namespace Retina.Conntrack

/-- One of the nine blocks of `_ct_record_tcp_flags`. -/
def recordTcpFlag (flags : UInt8) (f : TcpFlag) (count : UInt32) : UInt32 :=
  if test flags.toUInt16 f.mask then (if count < uint32Max then count + 1 else count) else count

def ctRecordTcpFlags (flags : UInt8) (count : TcpFlagsCount) : TcpFlagsCount where
  syn := recordTcpFlag flags .syn count.syn
  ack := recordTcpFlag flags .ack count.ack
  fin := recordTcpFlag flags .fin count.fin
  rst := recordTcpFlag flags .rst count.rst
  psh := recordTcpFlag flags .psh count.psh
  urg := recordTcpFlag flags .urg count.urg
  ece := recordTcpFlag flags .ece count.ece
  cwr := recordTcpFlag flags .cwr count.cwr
  ns := recordTcpFlag flags .ns count.ns

def ctReverseKey (key : CtV4Key) : CtV4Key where
  srcIp := key.dstIp
  dstIp := key.srcIp
  srcPort := key.dstPort
  dstPort := key.srcPort
  proto := key.proto

def ctGetTrafficDirection (observationPoint : UInt8) : TrafficDirection :=
  if observationPoint == observationPointFromEndpoint || observationPoint == observationPointToNetwork then
    .egress
  else if observationPoint == observationPointToEndpoint || observationPoint == observationPointFromNetwork then
    .ingress
  else .unknown

/-- The fields that every creation path sets for the direction of the first packet.
Only the TCP paths count the flags of an unsampled packet. -/
def newDirection (now : UInt64) (p : Packet) (sampled countFlags : Bool) : CtDirection where
  flagsSeen := p.flags.toUInt8
  lastReport := if sampled then now.toUInt32 else 0
  bytesSeenSinceLastReport := if !sampled then p.bytes else 0
  packetsSeenSinceLastReport := if !sampled then 1 else 0
  flagsSeenSinceLastReport := if !sampled && countFlags then ctRecordTcpFlags p.flags.toUInt8 {} else {}

def newMetadata (cfg : Config) (d : Direction) (bytes : UInt32) : ConntrackMetadata :=
  if cfg.enableConntrackMetrics then
    match d with
    | .tx => { packetsTxCount := 1, bytesTxCount := bytes.toUInt64 }
    | .rx => { packetsRxCount := 1, bytesRxCount := bytes.toUInt64 }
  else {}

/-- What the creation paths and the lookup hits write back to the packet. -/
def labelPacket (cfg : Config) (p : Packet) (isReply : Bool) (entry : CtEntry) : Packet :=
  { p with
    isReply := isReply
    trafficDirection := entry.trafficDirection
    conntrackMetadata := if cfg.enableConntrackMetrics then entry.conntrackMetadata else p.conntrackMetadata }

def ctCreateNewTcpConnection (cfg : Config) (now : UInt64) (map : CtMap) (p : Packet) (key : CtV4Key)
    (observationPoint : UInt8) (isReply sampled : Bool) : CtMap × Packet × Bool :=
  if ctSynTimeout > uint32Max.toUInt64 - now then (map,p,false)
  else
    let d : Direction := if isReply then .rx else .tx
    let newValue := CtEntry.setDir
      { evictionTime := (now + ctSynTimeout).toUInt32
        isDirectionUnknown := false
        trafficDirection := ctGetTrafficDirection observationPoint
        conntrackMetadata := newMetadata cfg d p.bytes } d (newDirection now p sampled true)
    (map.insert key newValue,labelPacket cfg p isReply newValue,sampled)

def ctHandleUdpConnection (cfg : Config) (now : UInt64) (map : CtMap) (p : Packet) (key : CtV4Key)
    (observationPoint : UInt8) (sampled : Bool) : CtMap × Packet × Bool :=
  if ctConnectionLifetimeNontcp > uint32Max.toUInt64 - now then (map,p,false)
  else
    let newValue := CtEntry.setDir
      { evictionTime := (now + ctConnectionLifetimeNontcp).toUInt32
        trafficDirection := ctGetTrafficDirection observationPoint
        conntrackMetadata := newMetadata cfg .tx p.bytes } .tx (newDirection now p sampled false)
    (map.insert key newValue,labelPacket cfg p false newValue,sampled)

def ctHandleTcpConnection (cfg : Config) (now : UInt64) (map : CtMap) (p : Packet)
    (key reverseKey : CtV4Key) (observationPoint : UInt8) (sampled : Bool) : CtMap × Packet × Bool :=
  let tcpHandshake : UInt8 := (p.flags &&& (TcpFlag.syn.mask ||| TcpFlag.ack.mask)).toUInt8
  if tcpHandshake.toUInt16 == TcpFlag.syn.mask then
    ctCreateNewTcpConnection cfg now map p key observationPoint false sampled
  else if tcpHandshake.toUInt16 == TcpFlag.syn.mask ||| TcpFlag.ack.mask then
    ctCreateNewTcpConnection cfg now map p reverseKey observationPoint true sampled
  else if ctConnectionLifetimeTcp > uint32Max.toUInt64 - now then (map,p,false)
  else
    -- The SYN was missed: a packet with ACK is taken for a reply.
    let isReply := test p.flags TcpFlag.ack.mask
    let d : Direction := if isReply then .rx else .tx
    let newValue := CtEntry.setDir
      { evictionTime := (now + ctConnectionLifetimeTcp).toUInt32
        isDirectionUnknown := true
        trafficDirection := ctGetTrafficDirection observationPoint
        conntrackMetadata := newMetadata cfg d p.bytes } d (newDirection now p sampled true)
    (map.insert (if isReply then reverseKey else key) newValue,labelPacket cfg p isReply newValue,sampled)

/-- The source tests the protocol with `&`, not with `==`. -/
def ctHandleNewConnection (cfg : Config) (now : UInt64) (map : CtMap) (p : Packet)
    (key reverseKey : CtV4Key) (observationPoint : UInt8) (sampled : Bool) : CtMap × Packet × Bool :=
  if key.proto &&& ipprotoTcp != 0 then
    ctHandleTcpConnection cfg now map p key reverseKey observationPoint sampled
  else if key.proto &&& ipprotoUdp != 0 then
    ctHandleUdpConnection cfg now map p key observationPoint sampled
  else (map,p,false)

/-! ## Packets of a known connection -/

/-- The check for the final ACK of a teardown. `flags` are the packet's flags
merged with those the direction has seen before. -/
def finalAck (entry : CtEntry) (flags : UInt8) : Bool :=
  test flags.toUInt16 TcpFlag.ack.mask &&
    !test flags.toUInt16 (TcpFlag.fin.mask ||| TcpFlag.syn.mask ||| TcpFlag.rst.mask) &&
    test entry.txDir.flagsSeen.toUInt16 TcpFlag.fin.mask &&
    test entry.rxDir.flagsSeen.toUInt16 TcpFlag.fin.mask

def finSeen (entry : CtEntry) : Bool :=
  test entry.txDir.flagsSeen.toUInt16 TcpFlag.fin.mask && test entry.rxDir.flagsSeen.toUInt16 TcpFlag.fin.mask

def setFlagsSeen (entry : CtEntry) (d : Direction) (flags : UInt8) : CtEntry :=
  entry.setDir d { entry.dir d with flagsSeen := flags }

def updateTcpState (now : UInt64) (entry : CtEntry) (packetFlags : UInt8) (d : Direction) : CtEntry × Bool :=
  let fin := test packetFlags.toUInt16 TcpFlag.fin.mask
  let entry := if fin then
    setFlagsSeen entry d ((entry.dir d).flagsSeen ||| TcpFlag.fin.mask.toUInt8) else entry
  let control := test packetFlags.toUInt16
    (TcpFlag.syn.mask ||| TcpFlag.urg.mask ||| TcpFlag.ece.mask ||| TcpFlag.cwr.mask)
  if finSeen entry then
    ({ entry with evictionTime := (now + ctTimeWaitTimeoutTcp).toUInt32 },true)
  else ({ entry with evictionTime := (now + ctConnectionLifetimeTcp).toUInt32 },fin || control)

def updateState (now : UInt64) (protocol : UInt8) (entry : CtEntry) (packetFlags : UInt8)
    (d : Direction) : CtEntry × Bool :=
  if protocol == ipprotoTcp then updateTcpState now entry packetFlags d
  else if protocol == ipprotoUdp then
    ({ entry with evictionTime := (now + ctConnectionLifetimeNontcp).toUInt32 },false)
  else (entry,false)

/-- Check if a packet should be reported, and update its entry. The result has no
entry when the source deletes it from the map. -/
def ctShouldReportPacket (cfg : Config) (now : UInt64) (key : CtV4Key) (entry : CtEntry) (flags : UInt8)
    (d : Direction) (bytes : UInt32) (sampled : Bool) : Option CtEntry × PacketReport :=
  let seen := entry.dir d
  let report : PacketReport :=
    { previouslyObservedPackets := seen.packetsSeenSinceLastReport
      previouslyObservedBytes := seen.bytesSeenSinceLastReport
      previouslyObservedFlags := seen.flagsSeenSinceLastReport
      report := false }
  let bytesSeen := if seen.bytesSeenSinceLastReport ≤ uint32Max - bytes then
    seen.bytesSeenSinceLastReport + bytes else seen.bytesSeenSinceLastReport
  let packetsSeen := if seen.packetsSeenSinceLastReport ≤ uint32Max - 1 then
    seen.packetsSeenSinceLastReport + 1 else seen.packetsSeenSinceLastReport
  if entry.evictionTime.toUInt64 ≤ now then (none,{ report with report := true })
  else
    -- From here on `flags` are the merged flags, as in the source.
    let packetFlags := flags
    let flags := flags ||| seen.flagsSeen
    if key.proto == ipprotoTcp && finalAck entry flags then (none,{ report with report := true })
    else if key.proto == ipprotoTcp && test flags.toUInt16 TcpFlag.rst.mask then
      (none,{ report with report := true })
    else
      let (entry,shouldReport) := updateState now key.proto entry packetFlags d
      let entry := if flags != seen.flagsSeen then setFlagsSeen entry d flags else entry
      if shouldReport || (sampled && flags != seen.flagsSeen) ||
          now - seen.lastReport.toUInt64 ≥ cfg.ctReportInterval.toUInt64 then
        (some (entry.setDir d
          { entry.dir d with
            lastReport := now.toUInt32
            bytesSeenSinceLastReport := 0
            packetsSeenSinceLastReport := 0
            flagsSeenSinceLastReport := {} }),{ report with report := true })
      else
        (some (entry.setDir d
          { entry.dir d with
            bytesSeenSinceLastReport := bytesSeen
            packetsSeenSinceLastReport := packetsSeen
            flagsSeenSinceLastReport := ctRecordTcpFlags packetFlags report.previouslyObservedFlags }),report)

def countPacket (cfg : Config) (metadata : ConntrackMetadata) (d : Direction) (bytes : UInt32) : ConntrackMetadata :=
  if cfg.enableConntrackMetrics then
    match d with
    | .tx => { metadata with
        packetsTxCount := metadata.packetsTxCount + 1, bytesTxCount := metadata.bytesTxCount + bytes.toUInt64 }
    | .rx => { metadata with
        packetsRxCount := metadata.packetsRxCount + 1, bytesRxCount := metadata.bytesRxCount + bytes.toUInt64 }
  else metadata

def countEntry (cfg : Config) (entry : CtEntry) (d : Direction) (bytes : UInt32) : CtEntry :=
  { entry with conntrackMetadata := countPacket cfg entry.conntrackMetadata d bytes }

structure Outcome where
  map : CtMap
  packet : Packet
  report : PacketReport

def Packet.key (p : Packet) : CtV4Key where
  srcIp := p.srcIp
  dstIp := p.dstIp
  srcPort := p.srcPort
  dstPort := p.dstPort
  proto := p.proto

/-- The branch of `ct_process_packet` taken when a lookup finds an entry. -/
def processFound (cfg : Config) (now : UInt64) (map : CtMap) (p : Packet) (key : CtV4Key) (entry : CtEntry)
    (d : Direction) (sampled : Bool) : Outcome :=
  let entry := countEntry cfg entry d p.bytes
  let packet := labelPacket cfg p (d == .rx) entry
  let (kept,report) := ctShouldReportPacket cfg now key entry p.flags.toUInt8 d p.bytes sampled
  match kept with
  | some entry => ⟨map.insert key entry,packet,report⟩
  | none => ⟨map.erase key,packet,report⟩

def ctProcessPacket (cfg : Config) (now : UInt64) (map : CtMap) (p : Packet) (observationPoint : UInt8)
    (sampled : Bool) : Outcome :=
  let key := p.key
  match map.lookup key with
  | some entry => processFound cfg now map p key entry .tx sampled
  | none =>
    let reverseKey := ctReverseKey key
    match map.lookup reverseKey with
    | some entry => processFound cfg now map p reverseKey entry .rx sampled
    | none =>
      let (map,packet,report) := ctHandleNewConnection cfg now map p key reverseKey observationPoint sampled
      ⟨map,packet,{ report := report }⟩

end Retina.Conntrack
