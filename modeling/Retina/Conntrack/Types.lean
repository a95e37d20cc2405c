import Mathlib

/-! # Data model of the conntrack map

The records follow the structures of `conntrack.c`. Machine integers keep the
widths of the source, and a default field value of zero plays the part of
`__builtin_memset`. The twin fields `*_tx_dir` and `*_rx_dir` of `ct_entry` are
stored as one `CtDirection` record for each direction.
-/
namespace Retina.Conntrack

def uint32Max : UInt32 := 4294967295

/-! Time units are seconds, as returned by `bpf_mono_now`. -/

def ctConnectionLifetimeTcp : UInt64 := 360
def ctTimeWaitTimeoutTcp : UInt64 := 30
def ctConnectionLifetimeNontcp : UInt64 := 60
def ctSynTimeout : UInt64 := 60

def ipprotoTcp : UInt8 := 6
def ipprotoUdp : UInt8 := 17

def observationPointFromEndpoint : UInt8 := 0x00
def observationPointToEndpoint : UInt8 := 0x01
def observationPointFromNetwork : UInt8 := 0x02
def observationPointToNetwork : UInt8 := 0x03

inductive TcpFlag where
  | syn | ack | fin | rst | psh | urg | ece | cwr | ns
deriving DecidableEq

/-- The bit of the flag. Flags are compared after promotion, hence sixteen bits:
`TCP_NS` does not fit in the `__u8` the conntrack functions pass around. -/
def TcpFlag.mask : TcpFlag → UInt16
  | .fin => 0x01
  | .syn => 0x02
  | .rst => 0x04
  | .psh => 0x08
  | .ack => 0x10
  | .urg => 0x20
  | .ece => 0x40
  | .cwr => 0x80
  | .ns => 0x100

def test (flags mask : UInt16) : Bool := (flags &&& mask) != 0

inductive Direction where
  | tx | rx
deriving DecidableEq

def Direction.other : Direction → Direction
  | .tx => .rx
  | .rx => .tx

inductive TrafficDirection where
  | unknown | ingress | egress
deriving DecidableEq

structure ConntrackMetadata where
  bytesTxCount : UInt64 := 0
  bytesRxCount : UInt64 := 0
  packetsTxCount : UInt32 := 0
  packetsRxCount : UInt32 := 0
deriving DecidableEq

structure TcpFlagsCount where
  syn : UInt32 := 0
  ack : UInt32 := 0
  fin : UInt32 := 0
  rst : UInt32 := 0
  psh : UInt32 := 0
  urg : UInt32 := 0
  ece : UInt32 := 0
  cwr : UInt32 := 0
  ns : UInt32 := 0
deriving DecidableEq

def TcpFlagsCount.get (count : TcpFlagsCount) : TcpFlag → UInt32
  | .syn => count.syn
  | .ack => count.ack
  | .fin => count.fin
  | .rst => count.rst
  | .psh => count.psh
  | .urg => count.urg
  | .ece => count.ece
  | .cwr => count.cwr
  | .ns => count.ns

structure Packet where
  bytes : UInt32
  srcIp : UInt32
  dstIp : UInt32
  srcPort : UInt16
  dstPort : UInt16
  observationPoint : UInt8 := 0
  trafficDirection : TrafficDirection := .unknown
  proto : UInt8
  flags : UInt16
  isReply : Bool := false
  previouslyObservedPackets : UInt32 := 0
  previouslyObservedBytes : UInt32 := 0
  previouslyObservedFlags : TcpFlagsCount := {}
  conntrackMetadata : ConntrackMetadata := {}
deriving DecidableEq

structure PacketReport where
  previouslyObservedPackets : UInt32 := 0
  previouslyObservedBytes : UInt32 := 0
  previouslyObservedFlags : TcpFlagsCount := {}
  report : Bool := false
deriving DecidableEq

structure CtV4Key where
  srcIp : UInt32
  dstIp : UInt32
  srcPort : UInt16
  dstPort : UInt16
  proto : UInt8
deriving DecidableEq

/-- The fields of `ct_entry` that exist once for each direction. -/
structure CtDirection where
  lastReport : UInt32 := 0
  bytesSeenSinceLastReport : UInt32 := 0
  packetsSeenSinceLastReport : UInt32 := 0
  flagsSeenSinceLastReport : TcpFlagsCount := {}
  flagsSeen : UInt8 := 0
deriving DecidableEq

structure CtEntry where
  evictionTime : UInt32 := 0
  txDir : CtDirection := {}
  rxDir : CtDirection := {}
  trafficDirection : TrafficDirection := .unknown
  isDirectionUnknown : Bool := false
  conntrackMetadata : ConntrackMetadata := {}
deriving DecidableEq

/-- `retina_conntrack`. Evictions of the LRU map are separate events of a run. -/
abbrev CtMap := Finmap (fun _ : CtV4Key => CtEntry)

/-- The dynamic header: whether `ENABLE_CONNTRACK_METRICS` is defined, and
`CT_REPORT_INTERVAL` in seconds. -/
structure Config where
  enableConntrackMetrics : Bool
  ctReportInterval : UInt32

namespace CtEntry

def dir (entry : CtEntry) : Direction → CtDirection
  | .tx => entry.txDir
  | .rx => entry.rxDir

def setDir (entry : CtEntry) (d : Direction) (value : CtDirection) : CtEntry :=
  match d with
  | .tx => { entry with txDir := value }
  | .rx => { entry with rxDir := value }

@[simp] theorem dir_setDir_self (entry : CtEntry) (d : Direction) (value : CtDirection) :
    (entry.setDir d value).dir d = value := by cases d <;> rfl

end CtEntry

@[simp] theorem Direction.other_ne (d : Direction) : d.other ≠ d := by cases d <;> decide
theorem Direction.eq_or_eq_other (d e : Direction) : e = d ∨ e = d.other := by
  cases d <;> cases e <;> decide
theorem Direction.forall {P : Direction → Prop} : (∀ d, P d) ↔ P .tx ∧ P .rx :=
  ⟨fun h => ⟨h .tx,h .rx⟩,fun h d => by cases d; exacts [h.1,h.2]⟩

/-! ## Flag tests -/

theorem test_eq_true (flags mask : UInt16) : test flags mask = true ↔ flags &&& mask ≠ 0 := by
  simp [test]

@[simp] theorem test_or (a b mask : UInt16) : test (a ||| b) mask = (test a mask || test b mask) := by
  have h : (a ||| b) &&& mask = (a &&& mask) ||| (b &&& mask) := by
    apply UInt16.toBitVec_inj.mp
    simp only [UInt16.toBitVec_and, UInt16.toBitVec_or, BitVec.and_or_distrib_right]
  rw [Bool.eq_iff_iff, Bool.or_eq_true, test_eq_true, test_eq_true, test_eq_true, h, Ne,
    UInt16.or_eq_zero_iff, not_and_or]

theorem test_comm (flags mask : UInt16) : test flags mask = test mask flags := by
  rw [test, test, UInt16.and_comm]

@[simp] theorem test_mask_or (flags a b : UInt16) :
    test flags (a ||| b) = (test flags a || test flags b) := by
  rw [test_comm, test_or, test_comm a, test_comm b]

/-- Truncation to `__u8` keeps every flag but `TCP_NS`. -/
theorem test_truncated (flags : UInt16) {f : TcpFlag} (hf : f ≠ .ns) :
    test flags.toUInt8.toUInt16 f.mask = test flags f.mask := by
  have hm : f.mask.toUInt8.toUInt16 = f.mask := by cases f <;> first | decide | exact absurd rfl hf
  have h : flags.toUInt8.toUInt16 &&& f.mask = flags &&& f.mask := by
    rw [← hm]
    apply UInt16.toBitVec_inj.mp
    apply BitVec.eq_of_getLsbD_eq
    intro i hi
    simp only [UInt16.toBitVec_and, UInt8.toBitVec_toUInt16, UInt16.toBitVec_toUInt8,
      BitVec.getLsbD_and, BitVec.getLsbD_setWidth]
    cases decide (i < 16) <;> cases decide (i < 8) <;> simp
  rw [test, test, h]

end Retina.Conntrack
