import Retina.Conntrack.Accounting

/-! # From packets to flows

The tail of `parse` decides which packets leave the kernel, and `processRecord` turns
each of them into a flow. The extensions of a flow hold numbers as `float64`. Every
`uint32` survives the conversion and back, so the model stores it as it is. Fields
of a flow that no metric below reads are left out.
-/
namespace Retina.Metrics
open Conntrack

inductive DataAggregationLevel where
  | low | high
deriving DecidableEq

def carry (p : Packet) (report : PacketReport) : Packet := { p with
  previouslyObservedPackets := report.previouslyObservedPackets
  previouslyObservedBytes := report.previouslyObservedBytes
  previouslyObservedFlags := report.previouslyObservedFlags }

def emit (level : DataAggregationLevel) (p : Packet) (report : PacketReport) : Option Packet :=
  match level with
  | .low => some (carry p {})
  | .high => if report.report then some (carry p report) else none

inductive Verdict where
  | unknown | forwarded | dropped | error | audit | redirected | traced | translated
deriving DecidableEq

abbrev TcpFlags := TcpFlag → Bool

inductive Layer4 where
  | tcp (flags : Option TcpFlags)
  | udp

inductive ExtKey where
  | bytes | prevObservedBytes | prevObservedPackets
deriving DecidableEq

structure Extensions where
  numbers : ExtKey → Option UInt32 := fun _ => none
  prevObservedTcpFlags : Option TcpFlagsCount := none

structure Flow where
  verdict : Verdict
  l4 : Option Layer4
  isReply : Bool := false
  trafficDirection : TrafficDirection := .unknown
  extensions : Option Extensions := none

def toFlow (proto : UInt8) (verdict : Verdict) : Flow where
  l4 := if proto == 6 then some (.tcp none) else if proto == 17 then some .udp else none
  verdict := if verdict = .unknown then .forwarded else verdict

/-- One of the nine arguments of `AddTCPFlags` and its comparison with one. -/
def tcpFlagSet (flags : UInt16) (f : TcpFlag) : Bool :=
  let offset : UInt16 := match f with
    | .fin => 0
    | .syn => 1
    | .rst => 2
    | .psh => 3
    | .ack => 4
    | .urg => 5
    | .ece => 6
    | .cwr => 7
    | .ns => 8
  (flags &&& f.mask) >>> offset == 1

def addTcpFlags (f : Flow) (flags : UInt16) : Flow :=
  match f.l4 with
  | some (.tcp _) => { f with l4 := some (.tcp (some (tcpFlagSet flags))) }
  | _ => f

/-- A number is stored only if it is not zero. -/
def addNumber (s : Extensions) (key : ExtKey) (n : UInt32) : Extensions :=
  if n == 0 then s else { s with numbers := Function.update s.numbers key (some n) }

def addPacketSize (s : Extensions) (packetSize : UInt32) : Extensions := addNumber s .bytes packetSize
def addPreviouslyObservedBytes (s : Extensions) (bytes : UInt32) : Extensions :=
  addNumber s .prevObservedBytes bytes
def addPreviouslyObservedPackets (s : Extensions) (packets : UInt32) : Extensions :=
  addNumber s .prevObservedPackets packets

/-- The flag counts are stored only if one of them is not zero. -/
def addPreviouslyObservedTcpFlags (s : Extensions) (count : TcpFlagsCount) : Extensions :=
  if count = {} then s else { s with prevObservedTcpFlags := some count }

def Extensions.isEmpty (s : Extensions) : Bool :=
  (s.numbers .bytes).isNone && (s.numbers .prevObservedBytes).isNone &&
    (s.numbers .prevObservedPackets).isNone && s.prevObservedTcpFlags.isNone

def setExtensions (f : Flow) (s : Extensions) : Flow :=
  if s.isEmpty then f else { f with extensions := some s }

def getNumber (f : Flow) (key : ExtKey) : UInt32 :=
  match f.extensions with
  | none => 0
  | some s => (s.numbers key).getD 0

def packetSize (f : Flow) : UInt32 := getNumber f .bytes
def previouslyObservedBytes (f : Flow) : UInt32 := getNumber f .prevObservedBytes
def previouslyObservedPackets (f : Flow) : UInt32 := getNumber f .prevObservedPackets

def previouslyObservedTcpFlags (f : Flow) : Option TcpFlagsCount := f.extensions.bind Extensions.prevObservedTcpFlags

def processRecord (bpfEvent : Packet) : Flow :=
  let fl : Flow := { toFlow bpfEvent.proto .forwarded with
    isReply := bpfEvent.isReply
    trafficDirection := bpfEvent.trafficDirection }
  let ext := addPacketSize {} bpfEvent.bytes
  let ext := addPreviouslyObservedBytes ext bpfEvent.previouslyObservedBytes
  let ext := addPreviouslyObservedPackets ext bpfEvent.previouslyObservedPackets
  let fl := addTcpFlags fl bpfEvent.flags
  let ext := addPreviouslyObservedTcpFlags ext bpfEvent.previouslyObservedFlags
  setExtensions fl ext

/-! ## What a flow tells about its packet -/

theorem addNumber_numbers (s : Extensions) (key : ExtKey) (n : UInt32) (k : ExtKey) :
    ((addNumber s key n).numbers k).getD 0 = if k = key ∧ n ≠ 0 then n else (s.numbers k).getD 0 := by
  unfold addNumber
  by_cases hn : n = 0
  · simp [hn]
  · by_cases hk : k = key
    · subst hk
      simp [hn]
    · simp [hn, hk]

theorem addNumber_prevObservedTcpFlags (s : Extensions) (key : ExtKey) (n : UInt32) :
    (addNumber s key n).prevObservedTcpFlags = s.prevObservedTcpFlags := by
  unfold addNumber
  split <;> rfl

theorem addPreviouslyObservedTcpFlags_numbers (s : Extensions) (count : TcpFlagsCount) :
    (addPreviouslyObservedTcpFlags s count).numbers = s.numbers := by
  unfold addPreviouslyObservedTcpFlags
  split <;> rfl

/-- Dropping empty extensions hides nothing from the readers. -/
theorem getNumber_setExtensions {f : Flow} (hf : f.extensions = none) (s : Extensions) (key : ExtKey) :
    getNumber (setExtensions f s) key = (s.numbers key).getD 0 := by
  unfold setExtensions
  by_cases he : s.isEmpty = true
  · rw [if_pos he, getNumber, hf]
    simp only [Extensions.isEmpty, Bool.and_eq_true, Option.isNone_iff_eq_none] at he
    cases key <;> simp [he]
  · rw [if_neg he]
    rfl

theorem previouslyObservedTcpFlags_setExtensions {f : Flow} (hf : f.extensions = none) (s : Extensions) :
    previouslyObservedTcpFlags (setExtensions f s) = s.prevObservedTcpFlags := by
  unfold setExtensions
  by_cases he : s.isEmpty = true
  · rw [if_pos he, previouslyObservedTcpFlags, hf]
    simp only [Extensions.isEmpty, Bool.and_eq_true, Option.isNone_iff_eq_none] at he
    simp [he]
  · rw [if_neg he]
    rfl

@[simp] theorem setExtensions_verdict (f : Flow) (s : Extensions) : (setExtensions f s).verdict = f.verdict := by
  unfold setExtensions
  split <;> rfl
@[simp] theorem setExtensions_l4 (f : Flow) (s : Extensions) : (setExtensions f s).l4 = f.l4 := by
  unfold setExtensions
  split <;> rfl

theorem addTcpFlags_extensions (f : Flow) (flags : UInt16) : (addTcpFlags f flags).extensions = f.extensions := by
  unfold addTcpFlags
  split <;> rfl

section ProcessRecord
variable (p : Packet)

theorem getNumber_processRecord (key : ExtKey) : getNumber (processRecord p) key = match key with
    | .bytes => p.bytes
    | .prevObservedBytes => p.previouslyObservedBytes
    | .prevObservedPackets => p.previouslyObservedPackets := by
  have hzero : ∀ n : UInt32, (if n ≠ 0 then n else 0) = n := by
    intro n
    by_cases hn : n = 0 <;> simp [hn]
  unfold processRecord addPacketSize addPreviouslyObservedBytes addPreviouslyObservedPackets
  dsimp only
  rw [getNumber_setExtensions (addTcpFlags_extensions _ _), addPreviouslyObservedTcpFlags_numbers]
  cases key <;> simp only [addNumber_numbers, reduceCtorEq, false_and, true_and, ↓reduceIte] <;> exact hzero _

@[simp] theorem packetSize_processRecord : packetSize (processRecord p) = p.bytes := getNumber_processRecord p .bytes
@[simp] theorem previouslyObservedBytes_processRecord :
    previouslyObservedBytes (processRecord p) = p.previouslyObservedBytes :=
  getNumber_processRecord p .prevObservedBytes
@[simp] theorem previouslyObservedPackets_processRecord :
    previouslyObservedPackets (processRecord p) = p.previouslyObservedPackets :=
  getNumber_processRecord p .prevObservedPackets

end ProcessRecord

/-- A sum in `uint32` arithmetic is exact if and only if it fits. -/
theorem mod_eq_self_iff (n : ℕ) : n % (counterLimit + 1) = n ↔ n ≤ counterLimit :=
  (Nat.mod_eq_iff_lt (by decide)).trans Nat.lt_succ_iff

/-! ## The flows of an entry -/

def flowsOf (level : DataAggregationLevel) (visits : List Visit) : List Flow :=
  visits.reverse.filterMap fun v => (emit level v.packet v.report).map processRecord

theorem sum_flowsOf (level : DataAggregationLevel) (visits : List Visit) (value : Flow → ℕ) :
    ((flowsOf level visits).map value).sum =
      (visits.map fun v => ((emit level v.packet v.report).map (value ∘ processRecord)).getD 0).sum := by
  rw [flowsOf, List.filterMap_reverse, List.map_reverse, List.sum_reverse]
  induction visits with
  | nil => rfl
  | cons v visits ih =>
    cases he : emit level v.packet v.report with
    | none => simp [he, ih]
    | some p => simp [he, ih]

theorem sum_flowsOf_high (visits : List Visit) (value : Flow → ℕ) :
    ((flowsOf .high visits).map value).sum =
      ((visits.filter fun v => v.report.report).map fun v => value (processRecord (carry v.packet v.report))).sum := by
  rw [sum_flowsOf]
  induction visits with
  | nil => rfl
  | cons v visits ih =>
    rw [List.map_cons, List.sum_cons, ih, List.filter_cons]
    cases hr : v.report.report with
    | true => simp [emit, hr]
    | false => simp [emit, hr]

end Retina.Metrics
