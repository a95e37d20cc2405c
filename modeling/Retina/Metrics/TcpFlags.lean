import Retina.Metrics.Flow

/-! # The TCP flag metrics

The kernel counts the flags of held back packets one by one, while `getFlagValues`
knows a packet with SYN and ACK as SYNACK, and `ProcessFlow` returns early for a packet
without flags. The totals of the two aggregation levels therefore agree only if none
of these cases, and no limit of `uint32`, gets in the way.
-/
namespace Retina.Metrics
open Conntrack

inductive FlagName where
  | flag (f : TcpFlag) | synack
deriving DecidableEq

def getFlagValues (flags : Option TcpFlags) : List FlagName :=
  match flags with
  | none => []
  | some flags =>
    (if flags .fin then [.flag .fin] else []) ++
    (if flags .syn && flags .ack then [.synack]
      else (if flags .syn then [.flag .syn] else []) ++ (if flags .ack then [.flag .ack] else [])) ++
    (if flags .rst then [.flag .rst] else []) ++
    (if flags .psh then [.flag .psh] else []) ++
    (if flags .urg then [.flag .urg] else []) ++
    (if flags .ece then [.flag .ece] else []) ++
    (if flags .cwr then [.flag .cwr] else []) ++
    (if flags .ns then [.flag .ns] else [])

abbrev FlagCounts := FlagName → Option UInt32

def previousCounts (count : TcpFlagsCount) : FlagCounts
  | .flag f => some (count.get f)
  | .synack => none

def bumpFlag (counts : FlagCounts) (flag : FlagName) : FlagCounts :=
  Function.update counts flag (some (match counts flag with
    | none => 1
    | some n => n + 1))

def combineFlagsWithPrevious (flags : List FlagName) (fl : Flow) : FlagCounts :=
  flags.foldl bumpFlag (match previouslyObservedTcpFlags fl with
    | some previous => previousCounts previous
    | none => fun _ => none)

/-- The totals of each flag over all contexts: the labels of the source and the
destination do not depend on the aggregation level. -/
def processFlow (totals : FlagName → ℕ) (flow : Flow) : FlagName → ℕ :=
  if flow.verdict ≠ .forwarded then totals
  else match flow.l4 with
    | some (.tcp tcpFlags) =>
      let flags := getFlagValues tcpFlags
      if flags.isEmpty then totals
      else fun flag => totals flag + (combineFlagsWithPrevious flags flow flag).elim 0 UInt32.toNat
    | _ => totals

def tcpTotals (flows : List Flow) : FlagName → ℕ := flows.foldl processFlow fun _ => 0

/-! ## Classification of one packet -/

theorem and_mask (flags : UInt16) (f : TcpFlag) : flags &&& f.mask = 0 ∨ flags &&& f.mask = f.mask := by
  have hbit : ∃ i, f.mask.toBitVec = BitVec.twoPow 16 i := by
    cases f
    · exact ⟨1,by decide⟩
    · exact ⟨4,by decide⟩
    · exact ⟨0,by decide⟩
    · exact ⟨2,by decide⟩
    · exact ⟨3,by decide⟩
    · exact ⟨5,by decide⟩
    · exact ⟨6,by decide⟩
    · exact ⟨7,by decide⟩
    · exact ⟨8,by decide⟩
  obtain ⟨i,hi⟩ := hbit
  simp only [← UInt16.toBitVec_inj, UInt16.toBitVec_and, hi, BitVec.and_twoPow]
  cases flags.toBitVec.getLsbD i with
  | true => exact .inr rfl
  | false => exact .inl rfl

theorem tcpFlagSet_eq (flags : UInt16) (f : TcpFlag) : tcpFlagSet flags f = test flags f.mask := by
  unfold tcpFlagSet test
  rcases and_mask flags f with h | h <;> rw [h] <;> cases f <;> decide

theorem getFlagValues_nodup (flags : TcpFlags) : (getFlagValues (some flags)).Nodup := by
  have hone : ∀ (b : Bool) (name : FlagName), (if b then [name] else []).Sublist [name] := by
    intro b name
    cases b
    · exact List.nil_sublist _
    · exact List.Sublist.refl _
  have hack : (if flags .syn && flags .ack then [FlagName.synack]
      else (if flags .syn then [.flag .syn] else []) ++ (if flags .ack then [.flag .ack] else [])).Sublist
      [.synack,.flag .syn,.flag .ack] := by
    split
    · exact (List.nil_sublist _).cons_cons _
    · exact ((hone _ _).append (hone _ _)).cons _
  have hsub := (hone (flags .fin) (.flag .fin)).append hack
  have hsub := hsub.append (hone (flags .rst) (.flag .rst))
  have hsub := hsub.append (hone (flags .psh) (.flag .psh))
  have hsub := hsub.append (hone (flags .urg) (.flag .urg))
  have hsub := hsub.append (hone (flags .ece) (.flag .ece))
  have hsub := hsub.append (hone (flags .cwr) (.flag .cwr))
  have hsub := hsub.append (hone (flags .ns) (.flag .ns))
  exact hsub.nodup (by decide)

theorem mem_getFlagValues_synack (flags : TcpFlags) :
    .synack ∈ getFlagValues (some flags) ↔ flags .syn = true ∧ flags .ack = true := by
  unfold getFlagValues
  cases hs : flags .syn <;> cases ha : flags .ack <;> simp [hs, ha]

/-- A packet without both SYN and ACK is classified by its flags, one by one. -/
theorem mem_getFlagValues (flags : TcpFlags) (h : .synack ∉ getFlagValues (some flags)) (f : TcpFlag) :
    .flag f ∈ getFlagValues (some flags) ↔ flags f = true := by
  rw [mem_getFlagValues_synack, not_and] at h
  unfold getFlagValues
  cases hs : flags .syn <;> cases ha : flags .ack <;> cases f <;> simp_all

def ownFlags (p : Packet) : List FlagName := getFlagValues (some (tcpFlagSet p.flags))

def ownCount (p : Packet) (name : FlagName) : ℕ := if name ∈ ownFlags p then 1 else 0

def previousCount (p : Packet) : FlagName → ℕ
  | .flag f => (p.previouslyObservedFlags.get f).toNat
  | .synack => 0

/-! ## What one flow adds -/

theorem foldl_bumpFlag {flags : List FlagName} (h : flags.Nodup) (counts : FlagCounts) (name : FlagName) :
    flags.foldl bumpFlag counts name = if name ∈ flags then bumpFlag counts name name else counts name := by
  induction flags generalizing counts with
  | nil => rfl
  | cons flag flags ih =>
    obtain ⟨hnot,hnodup⟩ := List.nodup_cons.mp h
    rw [List.foldl_cons, ih hnodup]
    by_cases hn : name = flag
    · subst hn
      rw [if_neg hnot, if_pos List.mem_cons_self]
    · have hold : bumpFlag counts flag name = counts name := Function.update_of_ne hn _ _
      simp only [List.mem_cons, hn, false_or, hold]
      simp only [bumpFlag, Function.update_self, Function.update_of_ne hn]

theorem bumpFlag_self (counts : FlagCounts) (name : FlagName) :
    (bumpFlag counts name name).elim 0 UInt32.toNat =
      ((counts name).elim 0 UInt32.toNat + 1) % (counterLimit + 1) := by
  rw [bumpFlag, Function.update_self]
  cases counts name with
  | none => rfl
  | some n => exact UInt32.toNat_add n 1

theorem previouslyObservedTcpFlags_processRecord (p : Packet) :
    previouslyObservedTcpFlags (processRecord p) =
      if p.previouslyObservedFlags = {} then none else some p.previouslyObservedFlags := by
  unfold processRecord addPacketSize addPreviouslyObservedBytes addPreviouslyObservedPackets
    addPreviouslyObservedTcpFlags
  dsimp only
  rw [previouslyObservedTcpFlags_setExtensions (addTcpFlags_extensions _ _)]
  split
  · simp only [addNumber_prevObservedTcpFlags]
  · rfl

theorem combineFlagsWithPrevious_processRecord (p : Packet) (name : FlagName) :
    (combineFlagsWithPrevious (ownFlags p) (processRecord p) name).elim 0 UInt32.toNat =
      (previousCount p name + ownCount p name) % (counterLimit + 1) := by
  have hnodup : (ownFlags p).Nodup := getFlagValues_nodup _
  rw [combineFlagsWithPrevious, foldl_bumpFlag hnodup, previouslyObservedTcpFlags_processRecord]
  generalize hcounts : (match (if p.previouslyObservedFlags = {} then none else some p.previouslyObservedFlags) with
    | some previous => previousCounts previous
    | none => fun _ => none : FlagCounts) = counts
  have hprevious : (counts name).elim 0 UInt32.toNat = previousCount p name := by
    subst hcounts
    by_cases hz : p.previouslyObservedFlags = {}
    · rw [if_pos hz]
      cases name with
      | synack => rfl
      | flag f =>
        rw [previousCount, hz]
        cases f <;> rfl
    · rw [if_neg hz]
      cases name <;> rfl
  have hlt : previousCount p name < counterLimit + 1 := by
    cases name with
    | synack => exact Nat.succ_pos _
    | flag f => exact (p.previouslyObservedFlags.get f).toNat_lt
  unfold ownCount
  split
  · rw [bumpFlag_self, hprevious]
  · rw [hprevious, Nat.add_zero, Nat.mod_eq_of_lt hlt]

def flowValue (flow : Flow) (name : FlagName) : ℕ := processFlow (fun _ => 0) flow name

theorem processFlow_eq (totals : FlagName → ℕ) (flow : Flow) (name : FlagName) :
    processFlow totals flow name = totals name + flowValue flow name := by
  unfold flowValue processFlow
  split
  · rfl
  · cases flow.l4 with
    | none => rfl
    | some l4 => cases l4 with
      | udp => rfl
      | tcp flags =>
        dsimp only
        split
        · rfl
        · exact congrArg (totals name + ·) (Nat.zero_add _).symm

theorem tcpTotals_eq (flows : List Flow) (name : FlagName) :
    tcpTotals flows name = (flows.map fun flow => flowValue flow name).sum := by
  have hfold : ∀ totals : FlagName → ℕ,
      flows.foldl processFlow totals name = totals name + (flows.map fun flow => flowValue flow name).sum := by
    induction flows with
    | nil => exact fun _ => rfl
    | cons flow flows ih =>
      intro totals
      rw [List.foldl_cons, ih, processFlow_eq, List.map_cons, List.sum_cons, Nat.add_assoc]
  rw [tcpTotals, hfold, Nat.zero_add]

/-- What the metric makes of a packet and the held back count that it carries. -/
def consumeFlag (name : FlagName) (previous : ℕ) (p : Packet) : ℕ :=
  if ownFlags p = [] then 0 else (previous + ownCount p name) % (counterLimit + 1)

theorem flowValue_processRecord {p : Packet} (hp : p.proto = ipprotoTcp) (name : FlagName) :
    flowValue (processRecord p) name = consumeFlag name (previousCount p name) p := by
  have hverdict : (processRecord p).verdict = .forwarded := by
    simp [processRecord, addTcpFlags, toFlow, hp, ipprotoTcp]
  have hl4 : (processRecord p).l4 = some (.tcp (some (tcpFlagSet p.flags))) := by
    simp [processRecord, addTcpFlags, toFlow, hp, ipprotoTcp]
  have hcombine := combineFlagsWithPrevious_processRecord p name
  rw [flowValue, processFlow, hverdict, hl4]
  simp only [ne_eq, not_true_eq_false, ↓reduceIte, List.isEmpty_iff]
  change (if ownFlags p = [] then fun _ => 0 else _ : FlagName → ℕ) name = _
  rw [consumeFlag]
  split
  · rfl
  · rw [← hcombine]
    exact Nat.zero_add _

theorem ownCount_le (p : Packet) (name : FlagName) : ownCount p name ≤ 1 := by
  unfold ownCount
  split <;> decide

theorem consumeFlag_le (name : FlagName) (previous : ℕ) (p : Packet) :
    consumeFlag name previous p ≤ previous + ownCount p name := by
  unfold consumeFlag
  split
  · exact Nat.zero_le _
  · exact Nat.mod_le _ _

theorem consumeFlag_zero (name : FlagName) (p : Packet) : consumeFlag name 0 p = ownCount p name := by
  have hle := ownCount_le p name
  unfold consumeFlag
  split
  · rename_i hnone
    rw [ownCount, hnone, if_neg List.not_mem_nil]
  · rw [Nat.zero_add, Nat.mod_eq_of_lt (Nat.lt_of_le_of_lt hle (by decide))]

theorem consumeFlag_eq_iff (name : FlagName) (previous : ℕ) (p : Packet) :
    consumeFlag name previous p = previous + ownCount p name ↔
      (ownFlags p = [] → previous = 0) ∧ previous + ownCount p name ≤ counterLimit := by
  unfold consumeFlag
  split
  · rename_i hnone
    have hown : ownCount p name = 0 := by rw [ownCount, hnone, if_neg List.not_mem_nil]
    rw [hown]
    simp only [hnone, forall_const]
    omega
  · rename_i hsome
    simp only [hsome, false_implies, true_and]
    exact mod_eq_self_iff _

/-! ## The two aggregation levels -/

/-- The flags that the kernel counts: `TCP_NS` does not reach the conntrack functions. -/
def countedFlags : List TcpFlag := [.fin,.syn,.rst,.psh,.ack,.urg,.ece,.cwr]

/-- A visit keeps the totals of the two levels equal. A packet with SYN and ACK is reported,
a reported packet without flags has nothing to carry, and no count passes `UINT32_MAX`. -/
abbrev FlagsSurvive (cfg : Config) (key : CtV4Key) (v : Visit) : Prop :=
  (v.delivers cfg key = false → .synack ∉ ownFlags v.call.packet) ∧
  (v.delivers cfg key = true → ownFlags v.call.packet = [] →
    ∀ f ∈ countedFlags, v.pendingBefore (.flag f) = 0) ∧
  ∀ f ∈ countedFlags, v.pendingBefore (.flag f) + ownCount v.call.packet (.flag f) ≤ counterLimit

def classified (f : TcpFlag) : DeferredCounter Visit where
  limit := counterLimit
  amount v := ownCount v.call.packet (.flag f)
  delivered v := v.report.report

@[simp] theorem classified_limit (f : TcpFlag) : (classified f).limit = counterLimit := rfl
@[simp] theorem classified_amount (f : TcpFlag) (v : Visit) :
    (classified f).amount v = ownCount v.call.packet (.flag f) := by
  simp only [classified]
@[simp] theorem classified_delivered (f : TcpFlag) (v : Visit) : (classified f).delivered v = v.report.report := rfl

theorem ownCount_eq_amount {c : Call} (hc : .synack ∉ ownFlags c.packet) {f : TcpFlag} (hf : f ∈ countedFlags) :
    ownCount c.packet (.flag f) = amount c.flags c.packet.bytes (.flag f) := by
  have hns : f ≠ .ns := by
    rintro rfl
    exact absurd hf (by decide)
  have hmem : .flag f ∈ ownFlags c.packet ↔ test c.flags.toUInt16 f.mask = true := by
    rw [c.test_flags hns, ← tcpFlagSet_eq]
    exact mem_getFlagValues _ hc f
  simp only [ownCount, amount, hmem]

def consumeVisit (f : TcpFlag) (pending : ℕ) (v : Visit) : ℕ := consumeFlag (.flag f) pending v.call.packet

/-- Without a SYNACK that is held back, kernel and user space count the same pending flags. -/
theorem amount_classified {log : List Visit} {f : TcpFlag} (hf : f ∈ countedFlags)
    (hsyn : ∀ v ∈ log, v.report.report = false → .synack ∉ ownFlags v.call.packet) :
    ∀ v ∈ log, (deferred (.flag f)).delivered v = false →
      (classified f).amount v = (deferred (.flag f)).amount v := by
  intro v hv hheld
  rw [classified_amount, ownCount_eq_amount (hsyn v hv hheld) hf]
  rfl

theorem classified_exact_iff {log : List Visit} {f : TcpFlag} {seen : Visit → ℕ}
    (h : Tracks (classified f) seen log) (d : Direction) :
    (classified f).Exact (consumeVisit f) (visitsOf d log) ↔ ∀ v ∈ log, v.dir = d →
      (v.report.report = true → ownFlags v.call.packet = [] → seen v = 0) ∧
        seen v + ownCount v.call.packet (.flag f) ≤ counterLimit := by
  rw [exact_iff h]
  refine forall_congr' fun v => forall_congr' fun _ => forall_congr' fun _ => ?_
  rw [classified_delivered, classified_limit, classified_amount, consumeVisit, consumeFlag_eq_iff]
  cases v.report.report with
  | true => simp only [reduceCtorEq, false_implies, true_and, forall_const]
  | false => simp only [reduceCtorEq, false_implies, true_and, and_true, forall_const]

section Levels
variable {cfg : Config} {key : CtV4Key} (hkey : key.proto = ipprotoTcp) {log : List Visit}
  (hlogged : ∀ v ∈ log, Logged cfg key v)
include hkey hlogged

theorem flowValue_carry {v : Visit} (hv : v ∈ log) (report : PacketReport) (name : FlagName) :
    flowValue (processRecord (carry v.packet report)) name =
      consumeFlag name (previousCount (carry v.packet report) name) v.call.packet := by
  have hproto : v.call.packet.proto = ipprotoTcp := by
    rw [← hkey, ← (hlogged v hv).connectionKey, connectionKey_proto]
  obtain ⟨isReply,entry,hpacket⟩ := (hlogged v hv).packet
  rw [flowValue_processRecord (by rw [hpacket]; exact hproto)]
  unfold consumeFlag ownCount
  rw [hpacket]
  rfl

theorem tcpTotals_low (name : FlagName) :
    tcpTotals (flowsOf .low log) name = (log.map fun v => ownCount v.call.packet name).sum := by
  rw [tcpTotals_eq, sum_flowsOf]
  refine congrArg List.sum (List.map_congr_left fun v hv => ?_)
  have hnone : previousCount (carry v.packet {}) name = 0 := by
    cases name with
    | synack => rfl
    | flag f => cases f <;> rfl
  change flowValue (processRecord (carry v.packet {})) name = _
  rw [flowValue_carry hkey hlogged hv, hnone, consumeFlag_zero]

theorem tcpTotals_high (name : FlagName) :
    tcpTotals (flowsOf .high log) name =
      ((log.filter fun v => v.report.report).map fun v =>
        consumeFlag name (previousCount (carry v.packet v.report) name) v.call.packet).sum := by
  rw [tcpTotals_eq, sum_flowsOf_high]
  refine congrArg List.sum (List.map_congr_left fun v hv => ?_)
  exact flowValue_carry hkey hlogged (List.mem_filter.mp hv).1 v.report name

/-- No report carries a SYNACK, so that every one of them has to be reported itself. -/
theorem synack_agrees_iff :
    tcpTotals (flowsOf .high log) .synack = tcpTotals (flowsOf .low log) .synack ↔
      ∀ v ∈ log, v.report.report = false → .synack ∉ ownFlags v.call.packet := by
  have hhigh : tcpTotals (flowsOf .high log) .synack =
      ((log.filter fun v => v.report.report).map fun v => ownCount v.call.packet .synack).sum := by
    rw [tcpTotals_high hkey hlogged]
    simp only [previousCount, consumeFlag_zero]
  have hsplit := List.sum_map_filter_add_sum_map_filter_not (fun v : Visit => v.report.report = true)
    (fun v => ownCount v.call.packet .synack) log
  simp only [Bool.decide_eq_true] at hsplit
  rw [hhigh, tcpTotals_low hkey hlogged, ← hsplit, Nat.left_eq_add, List.sum_eq_zero_iff_forall_eq_nat,
    List.forall_mem_map]
  simp [ownCount]

theorem tcpTotals_high_flag {f : TcpFlag}
    (h : Tracks (classified f) (fun v => v.report.observed (.flag f)) log) :
    tcpTotals (flowsOf .high log) (.flag f) =
      (classified f).received (consumeVisit f) (visitsOf .tx log) +
        (classified f).received (consumeVisit f) (visitsOf .rx log) := by
  rw [tcpTotals_high hkey hlogged, received_eq_sum _ h, received_eq_sum _ h, sum_visitsOf, visitsOf_filter,
    visitsOf_filter]
  rfl

theorem tcpTotals_low_flag (f : TcpFlag) :
    tcpTotals (flowsOf .low log) (.flag f) =
      (classified f).total (visitsOf .tx log) + (classified f).total (visitsOf .rx log) := by
  rw [tcpTotals_low hkey hlogged, sum_visitsOf]
  simp only [DeferredCounter.total, classified]

/-- With nothing pending, the levels agree on a flag unless a visit loses some of it. -/
theorem flag_agrees_iff {f : TcpFlag} (hf : f ∈ countedFlags) (ho : Observes (.flag f) log)
    (hsyn : ∀ v ∈ log, v.report.report = false → .synack ∉ ownFlags v.call.packet)
    (hzero : ∀ d, (deferred (.flag f)).pending (visitsOf d log) = 0) :
    tcpTotals (flowsOf .high log) (.flag f) = tcpTotals (flowsOf .low log) (.flag f) ↔
      ∀ v ∈ log, (v.report.report = true → ownFlags v.call.packet = [] → v.report.observed (.flag f) = 0) ∧
        v.report.observed (.flag f) + ownCount v.call.packet (.flag f) ≤ counterLimit := by
  have hamount := amount_classified hf hsyn
  have htracks := ho.congr (b := classified f) rfl rfl hamount
  have hpending : ∀ d, (classified f).pending (visitsOf d log) = 0 := by
    intro d
    have hsame := (deferred (.flag f)).pending_congr (b := classified f) rfl rfl
      fun v (hv : v ∈ visitsOf d log) => hamount v (List.mem_filter.mp hv).1
    exact hsame.trans (hzero d)
  have hle : ∀ pending v, consumeVisit f pending v ≤ pending + (classified f).amount v := by
    intro pending v
    rw [classified_amount]
    exact consumeFlag_le (.flag f) pending v.call.packet
  have hexact : ∀ d, (classified f).total (visitsOf d log) =
      (classified f).received (consumeVisit f) (visitsOf d log) ↔
        (classified f).Exact (consumeVisit f) (visitsOf d log) := by
    intro d
    rw [← (classified f).total_eq_received_iff hle, hpending d, Nat.add_zero]
  have hboth : tcpTotals (flowsOf .high log) (.flag f) = tcpTotals (flowsOf .low log) (.flag f) ↔
      ∀ d, (classified f).total (visitsOf d log) =
        (classified f).received (consumeVisit f) (visitsOf d log) := by
    -- Neither direction gains value, so equal sums mean that each of them is exact.
    have htx := (classified f).received_le hle (visitsOf .tx log)
    have hrx := (classified f).received_le hle (visitsOf .rx log)
    rw [Direction.forall, tcpTotals_high_flag hkey hlogged htracks, tcpTotals_low_flag hkey hlogged]
    omega
  simp only [hboth, hexact, classified_exact_iff htracks]
  constructor
  · intro h v hv
    exact h v.dir v hv rfl
  · intro h d v hv _
    exact h v hv

end Levels

def comparedFlags : List FlagName := .synack :: countedFlags.map .flag

/-- A living TCP entry with no flag pending has the same flag totals at both aggregation
levels if and only if every visit keeps them equal. -/
theorem tcp_flags_agree_iff (cfg : Config) (events : List Event) (key : CtV4Key) (entry : CtEntry)
    (hproto : key.proto = ipprotoTcp) (hentry : (World.run cfg events).map.lookup key = some entry)
    (hzero : ∀ d, ∀ f ∈ countedFlags, (entry.dir d).pending (.flag f) = 0) :
    (∀ name ∈ comparedFlags,
      tcpTotals (flowsOf .high ((World.run cfg events).log key)) name =
        tcpTotals (flowsOf .low ((World.run cfg events).log key)) name) ↔
      ∀ v ∈ (World.run cfg events).log key, FlagsSurvive cfg key v := by
  have hlife := World.run_lifetime cfg events key
  have hlogged := hlife.logged
  have hrefines : ∀ f : TcpFlag, _ := fun f => hlife.refines
    (show Counter.counted key.proto (.flag f) = true by rw [hproto]; rfl)
  generalize (World.run cfg events).log key = log at *
  have hpending : ∀ d, ∀ f ∈ countedFlags, (deferred (.flag f)).pending (visitsOf d log) = 0 := by
    intro d f hf
    rw [← (hrefines f).2 entry hentry d, hzero d f hf]
  rw [comparedFlags, List.forall_mem_cons, List.forall_mem_map, synack_agrees_iff hproto hlogged]
  constructor
  · rintro ⟨hsyn,hflags⟩ v hv
    have hv' := hlogged v hv
    have hflag : ∀ f ∈ countedFlags, _ := fun f hf =>
      (flag_agrees_iff hproto hlogged hf (hrefines f).1 hsyn fun d => hpending d f hf).mp (hflags f hf) v hv
    simp only [hv'.observed, hv'.delivers] at hflag
    exact ⟨fun hr => hsyn v hv (hv'.delivers.trans hr),fun hr hnone f hf => (hflag f hf).1 hr hnone,
      fun f hf => (hflag f hf).2⟩
  · intro h
    have hsyn : ∀ v ∈ log, v.report.report = false → .synack ∉ ownFlags v.call.packet :=
      fun v hv hr => (h v hv).1 ((hlogged v hv).delivers.symm.trans hr)
    refine ⟨hsyn,?_⟩
    intro f hf
    refine (flag_agrees_iff hproto hlogged hf (hrefines f).1 hsyn fun d => hpending d f hf).mpr ?_
    intro v hv
    obtain ⟨-,hflagless,hlimit⟩ := h v hv
    rw [(hlogged v hv).observed, (hlogged v hv).delivers]
    exact ⟨fun hr hnone => hflagless hr hnone f hf,hlimit f hf⟩

def sampledHandshake : List Event :=
  [.packet ⟨1000,clientPacket ipprotoTcp TcpFlag.syn.mask 60,0,true⟩,
    .packet ⟨1000,serverPacket ipprotoTcp (TcpFlag.syn.mask ||| TcpFlag.ack.mask) 60,1,true⟩,
    .packet ⟨1001,clientPacket ipprotoTcp TcpFlag.ack.mask 52,0,false⟩,
    .packet ⟨1002,clientPacket ipprotoTcp (TcpFlag.ack.mask ||| TcpFlag.psh.mask) 100,0,true⟩]

theorem tcp_flags_agree_iff_sampledHandshake :
    comparedFlags.map (tcpTotals (flowsOf .high ((World.run sampleConfig sampledHandshake).log tcpKey))) =
      comparedFlags.map (tcpTotals (flowsOf .low ((World.run sampleConfig sampledHandshake).log tcpKey))) := by
  apply List.map_congr_left
  refine (tcp_flags_agree_iff sampleConfig sampledHandshake tcpKey _ rfl rfl ?_).mpr (by decide)
  exact Direction.forall.mpr (by decide)

def unsampledSynAck : List Event :=
  [.packet ⟨1000,serverPacket ipprotoTcp (TcpFlag.syn.mask ||| TcpFlag.ack.mask) 60,1,false⟩,
    .packet ⟨1030,serverPacket ipprotoTcp TcpFlag.ack.mask 52,1,false⟩]

theorem level_changes_synack :
    ((World.run sampleConfig unsampledSynAck).map.lookup tcpKey).map (fun e =>
        (e.dir .tx,(e.dir .rx).pending .packets,(e.dir .rx).pending .bytes,(e.dir .rx).flagsSeenSinceLastReport)) =
      some ({},0,0,{}) ∧
    [FlagName.synack,.flag .syn,.flag .ack].map
        (tcpTotals (flowsOf .high ((World.run sampleConfig unsampledSynAck).log tcpKey))) = [0,1,2] ∧
    [FlagName.synack,.flag .syn,.flag .ack].map
        (tcpTotals (flowsOf .low ((World.run sampleConfig unsampledSynAck).log tcpKey))) = [1,0,1] := by
  decide

end Retina.Metrics
