import Retina.DropReason.Probes

/-! # Two flavours of the probes

For basic metrics the plugin attaches a program to the exit of a function (`fexit`) and, where the kernel has no such
programs, a pair to its entry and its return (`kprobe` and `kretprobe`). Both count in `retina_dropreason_metrics`. The
calls of a trace come one after the other, each on a CPU and in a process of its own. What the function itself does to
a packet is not known: the pair reads the length at the entry, the program at the exit.
-/
namespace Retina.DropReason

def tcpConnectBasic : UInt16 := 2
def tcpAcceptBasic : UInt16 := 3

namespace Maps

def updateMetricsMapBasic (cpu : ℕ) (dropType : UInt16) (retVal : Int32) (skbLen : UInt32) (m : Maps) : Maps where
  pids := m.pids
  metrics :=
    match m.metrics.lookup ⟨dropType,retVal⟩ with
    | some entry => m.metrics.insert ⟨dropType,retVal⟩ (Function.update entry cpu
        ⟨(entry cpu).count + 1,(entry cpu).bytes + skbLen.toUInt64⟩)
    | none => bpfMapUpdateElem metricsMaxEntries m.metrics ⟨dropType,retVal⟩
        (Function.update (fun _ => ⟨0,0⟩) cpu ⟨1,skbLen.toUInt64⟩)
  events := m.events

theorem metrics_updateMetricsMap (cfg : Config) (cpu : ℕ) (dropType : UInt16) (retVal : Int32) (p : Packet) (m : Maps) :
    (m.updateMetricsMap cfg cpu dropType retVal p).metrics =
      (m.updateMetricsMapBasic cpu dropType retVal p.skbLen).metrics := rfl

end Maps

/-! ## The programs -/

/-- The three programs at the exit of a function of packets, with their reason and their verdict of a drop. The length
stays 0 if it cannot be read. -/
def exitProgram (reason : UInt16) (drops : Int32 → Bool) (cpu : ℕ) (skbLen : Option UInt32) (retVal : Int32)
    (m : Maps) : Maps :=
  if drops retVal = true then m.updateMetricsMapBasic cpu reason retVal (skbLen.getD 0) else m

def nfHookSlowFexit : ℕ → Option UInt32 → Int32 → Maps → Maps :=
  exitProgram iptableRuleDrop fun retVal => decide (retVal < 0)

def nfNatInetFnFexit : ℕ → Option UInt32 → Int32 → Maps → Maps :=
  exitProgram iptableNatDrop fun retVal => decide (retVal = nfDrop)

def nfConntrackConfirmFexit : ℕ → Option UInt32 → Int32 → Maps → Maps :=
  exitProgram conntrackAddDrop fun retVal => decide (retVal = nfDrop)

def tcpV4ConnectRet (cfg : Config) (cpu : ℕ) (retVal : Int32) (m : Maps) : Maps :=
  if retVal = 0 then m else m.updateMetricsMap cfg cpu tcpConnectBasic retVal {}

def tcpV4ConnectFexit (cpu : ℕ) (retVal : Int32) (m : Maps) : Maps :=
  if retVal = 0 then m else m.updateMetricsMapBasic cpu tcpConnectBasic retVal 0

/-- A call of `inet_csk_accept`: the registers of its parameters, the socket that it returns, and what can be read of
the kernel's memory at its return. -/
structure AcceptCall where
  parm1 : UInt64
  parm2 : UInt64
  parm3 : UInt64
  parm4 : UInt64
  retsk : UInt64
  probeReadKernel : UInt64 → Option Int32

/-- The address of the error. With `proto_accept_arg` it is a field of the second parameter, and otherwise the third
parameter itself. -/
def AcceptCall.errPtr (protoAcceptArgExists : Bool) (c : AcceptCall) : UInt64 :=
  if protoAcceptArgExists then c.parm2 + 4 else c.parm3

/-- The context of a program at the exit: the parameters of the function and then what it returns. -/
def AcceptCall.ctx (protoAcceptArgExists : Bool) (c : AcceptCall) : List UInt64 :=
  if protoAcceptArgExists then [c.parm1,c.parm2,c.retsk] else [c.parm1,c.parm2,c.parm3,c.parm4,c.retsk]

/-- The maps of the probes, with `retina_dropreason_accept_pids`. -/
structure ProbeMaps where
  maps : Maps
  acceptPids : Finmap fun _ : UInt32 => UInt64

def inetCskAccept (protoAcceptArgExists : Bool) (pidTgid : UInt64) (c : AcceptCall) (m : ProbeMaps) : ProbeMaps :=
  { m with
    acceptPids :=
      bpfMapUpdateElem pidsMaxEntries m.acceptPids (currentPid pidTgid) (c.errPtr protoAcceptArgExists) }

def nullSock : Sock where
  skcRcvSaddr := 0
  skcDaddr := 0
  skcDport := 0
  skcNum := 0

def inetCskAcceptRet (cfg : Config) (cpu : ℕ) (bootNs pidTgid : UInt64) (c : AcceptCall) (m : ProbeMaps) : ProbeMaps :=
  let deleted := { m with acceptPids := m.acceptPids.erase (currentPid pidTgid) }
  match m.acceptPids.lookup (currentPid pidTgid) with
  | none => deleted
  | some errPtr =>
    if c.retsk ≠ 0 then deleted
    else
      match c.probeReadKernel errPtr with
      | none => deleted
      | some err =>
        if 0 ≤ err then deleted
        else
          let p := if cfg.advancedMetrics then getPacketFromSock cfg bootNs {} nullSock else {}
          { deleted with maps := deleted.maps.updateMetricsMap cfg cpu tcpAcceptBasic err p }

def inetCskAcceptFexit (protoAcceptArgExists : Bool) (cpu : ℕ) (c : AcceptCall) (m : Maps) : Maps :=
  if protoAcceptArgExists then
    if (c.ctx protoAcceptArgExists)[2]? = some 0 then m.updateMetricsMapBasic cpu tcpAcceptBasic 0 0 else m
  else
    if (c.ctx protoAcceptArgExists)[4]? = some 0 then m.updateMetricsMapBasic cpu tcpAcceptBasic 0 0 else m

/-! ## Traces -/

/-- What can be read of a packet: its protocol and its headers at the entry of a function, and its length at the exit.
The function may have changed the packet, or freed it. -/
structure SkbReads where
  protocol : UInt16
  entry : SkBuff
  exitLen : Option UInt32

def SkbReads.atEntry (skb : SkbReads) : UInt16 × SkBuff := (skb.protocol,skb.entry)

/-- A call of one of the five functions, with what it returns. Nothing can be read through a null pointer. -/
inductive Invocation
  | packet (fn : Probed) (skb : Option SkbReads) (retVal : Int32)
  | connect (retVal : Int32)
  | accept (c : AcceptCall)

structure TracedCall (n : ℕ) where
  invocation : Invocation
  cpu : Fin n
  pidTgid : UInt64
  bootNs : UInt64

structure Flavours where
  kprobe : ProbeMaps
  fexit : Maps

def Probed.fexit : Probed → ℕ → Option UInt32 → Int32 → Maps → Maps
  | nfHookSlow => nfHookSlowFexit
  | nfNatInetFn => nfNatInetFnFexit
  | nfConntrackConfirm => nfConntrackConfirmFexit

theorem Probed.fexit_eq (f : Probed) : f.fexit = exitProgram f.reason f.drops := by
  cases f <;> rfl

namespace TracedCall
variable {n : ℕ} (cfg : Config) (protoAcceptArgExists : Bool)

def kprobe (c : TracedCall n) (m : ProbeMaps) : ProbeMaps :=
  match c.invocation with
  | .packet fn skb retVal =>
    let entered := fn.entry cfg c.bootNs c.pidTgid (skb.map SkbReads.atEntry) m.maps
    { m with maps := fn.exit cfg c.cpu c.pidTgid retVal entered }
  | .connect retVal => { m with maps := tcpV4ConnectRet cfg c.cpu retVal m.maps }
  | .accept a =>
    inetCskAcceptRet cfg c.cpu c.bootNs c.pidTgid a (inetCskAccept protoAcceptArgExists c.pidTgid a m)

def fexit (c : TracedCall n) (m : Maps) : Maps :=
  match c.invocation with
  | .packet fn skb retVal => fn.fexit c.cpu (skb.bind SkbReads.exitLen) retVal m
  | .connect retVal => tcpV4ConnectFexit c.cpu retVal m
  | .accept a => inetCskAcceptFexit protoAcceptArgExists c.cpu a m

end TracedCall

namespace Flavours

def step {n : ℕ} (cfg : Config) (protoAcceptArgExists : Bool) (s : Flavours) (c : TracedCall n) : Flavours where
  kprobe := c.kprobe cfg protoAcceptArgExists s.kprobe
  fexit := c.fexit protoAcceptArgExists s.fexit

def initial : Flavours where
  kprobe := ⟨Kernel.emptyMaps,∅⟩
  fexit := Kernel.emptyMaps

def after {n : ℕ} (cfg : Config) (protoAcceptArgExists : Bool) (calls : List (TracedCall n)) : Flavours :=
  Execution.run (step cfg protoAcceptArgExists) initial calls

end Flavours

namespace Maps
variable (n : ℕ)

def sumOf (part : MetricsMapValue → UInt64) (m : Maps) (dropType : UInt16) : UInt64 :=
  ∑ key ∈ m.metrics.keys with key.dropType = dropType, ∑ cpu : Fin n, part (m.metric key cpu)

def total (m : Maps) (dropType : UInt16) : MetricsMapValue where
  count := m.sumOf n MetricsMapValue.count dropType
  bytes := m.sumOf n MetricsMapValue.bytes dropType

/-! ## What a drop adds -/

variable {n} {m m' : Maps}

theorem metric_of_notMem {key : MetricsMapKey} (h : key ∉ m.metrics.keys) (cpu : ℕ) : m.metric key cpu = ⟨0,0⟩ := by
  rw [metric, Finmap.lookup_eq_none.mpr (mt Finmap.mem_keys.mpr h)]
  rfl

variable (part : MetricsMapValue → UInt64) (hzero : part ⟨0,0⟩ = 0)
include hzero

theorem sumOf_of_subset {keys : Finset MetricsMapKey} (h : m.metrics.keys ⊆ keys) (dropType : UInt16) :
    m.sumOf n part dropType =
      ∑ key ∈ keys with key.dropType = dropType, ∑ cpu : Fin n, part (m.metric key cpu) := by
  refine Finset.sum_subset (Finset.filter_subset_filter _ h) fun key hkey hnot => Finset.sum_eq_zero fun cpu _ => ?_
  have hout : key ∉ m.metrics.keys := fun hin => hnot (Finset.mem_filter.mpr ⟨hin,(Finset.mem_filter.mp hkey).2⟩)
  rw [metric_of_notMem hout, hzero]

/-- One counter of one CPU is changed. -/
theorem sumOf_change {key : MetricsMapKey} {cpu : Fin n} {v : MetricsMapValue}
    (h : ∀ k (i : ℕ), m'.metric k i = if k = key ∧ i = cpu then v else m.metric k i) (dropType : UInt16) :
    m'.sumOf n part dropType = m.sumOf n part dropType +
      if key.dropType = dropType then part v - part (m.metric key cpu) else 0 := by
  have hk : m.metrics.keys ⊆ m.metrics.keys ∪ m'.metrics.keys ∪ {key} :=
    Finset.subset_union_left.trans Finset.subset_union_left
  have hk' : m'.metrics.keys ⊆ m.metrics.keys ∪ m'.metrics.keys ∪ {key} :=
    Finset.subset_union_right.trans Finset.subset_union_left
  have hpart : ∀ k (i : Fin n), part (m'.metric k i) =
      part (m.metric k i) + if k = key then if i = cpu then part v - part (m.metric key cpu) else 0 else 0 := by
    intro k i
    rw [h]
    by_cases hkey : k = key
    · subst hkey
      by_cases hi : i = cpu
      · subst hi
        simp
      · simp [hi, Fin.val_inj]
    · simp [hkey]
  rw [sumOf_of_subset part hzero hk, sumOf_of_subset part hzero hk']
  simp only [hpart, Finset.sum_add_distrib]
  congr 1
  rw [Finset.sum_comm]
  simp

omit hzero

theorem total_congr (h : m'.metrics = m.metrics) (dropType : UInt16) : m'.total n dropType = m.total n dropType := by
  simp only [total, sumOf, metric, h]

theorem total_updateMetricsMapBasic (cpu : Fin n) {reason : UInt16} {retVal : Int32} (len : UInt32)
    (hroom : HasRoom metricsMaxEntries m.metrics ⟨reason,retVal⟩) (dropType : UInt16) :
    (m.updateMetricsMapBasic cpu reason retVal len).total n dropType =
      if reason = dropType then ⟨(m.total n dropType).count + 1,(m.total n dropType).bytes + len.toUInt64⟩
      else m.total n dropType := by
  have h : ∀ key (i : ℕ), (m.updateMetricsMapBasic cpu reason retVal len).metric key i =
      if key = ⟨reason,retVal⟩ ∧ i = cpu then
        ⟨(m.metric ⟨reason,retVal⟩ cpu).count + 1,(m.metric ⟨reason,retVal⟩ cpu).bytes + len.toUInt64⟩
      else m.metric key i := by
    intro key i
    refine (metric_updateMetricsMap ⟨false,true,fun _ => false⟩ cpu { skbLen := len } hroom key i).trans ?_
    by_cases hk : key = ⟨reason,retVal⟩ ∧ i = cpu
    · rw [if_pos hk, if_pos hk, hk.1, hk.2]
    · rw [if_neg hk, if_neg hk]
  have hcount := sumOf_change MetricsMapValue.count rfl h dropType
  have hbytes := sumOf_change MetricsMapValue.bytes rfl h dropType
  simp only [add_sub_cancel_left] at hcount hbytes
  simp only [total, hcount, hbytes]
  by_cases ht : reason = dropType
  · simp only [if_pos ht]
  · simp only [if_neg ht, add_zero]

/-- A map that is full ignores new keys. -/
theorem metrics_updateMetricsMapBasic_of_full (cpu : ℕ) {reason : UInt16} {retVal : Int32} (len : UInt32)
    (hfull : ¬HasRoom metricsMaxEntries m.metrics ⟨reason,retVal⟩) :
    (m.updateMetricsMapBasic cpu reason retVal len).metrics = m.metrics := by
  have hl : m.metrics.lookup ⟨reason,retVal⟩ = none := Finmap.lookup_eq_none.mpr fun hmem => hfull (.inl hmem)
  simp only [updateMetricsMapBasic, hl, bpfMapUpdateElem, if_neg hfull]

/-- A drop is counted if it is found and there is room for its key. -/
theorem total_of_drop (found : Prop) [Decidable found] (cpu : Fin n) (reason : UInt16) (retVal : Int32) (len : UInt32)
    (dropType : UInt16) :
    (if found then m.updateMetricsMapBasic cpu reason retVal len else m).total n dropType =
      if (found ∧ HasRoom metricsMaxEntries m.metrics ⟨reason,retVal⟩) ∧ reason = dropType then
        ⟨(m.total n dropType).count + 1,(m.total n dropType).bytes + len.toUInt64⟩
      else m.total n dropType := by
  by_cases hf : found
  · by_cases hroom : HasRoom metricsMaxEntries m.metrics ⟨reason,retVal⟩
    · simp only [hf, hroom, if_true, true_and, total_updateMetricsMapBasic cpu len hroom]
    · simp only [hf, hroom, if_true, and_false, false_and, if_false,
        total_congr (metrics_updateMetricsMapBasic_of_full cpu len hroom)]
  · simp only [hf, false_and, if_false]

end Maps

/-! ## What the programs take for a drop -/

namespace Invocation

def reason : Invocation → UInt16
  | packet fn _ _ => fn.reason
  | connect _ => tcpConnectBasic
  | accept _ => tcpAcceptBasic

def kprobeLen : Invocation → UInt32
  | packet _ skb _ => (skb.map fun b => b.entry.len).getD 0
  | connect _ => 0
  | accept _ => 0

def fexitLen : Invocation → UInt32
  | packet _ skb _ => (skb.bind SkbReads.exitLen).getD 0
  | connect _ => 0
  | accept _ => 0

def Failed : Invocation → Prop
  | packet fn _ retVal => fn.drops retVal = true
  | connect retVal => retVal ≠ 0
  | accept c => c.retsk = 0

/-- A packet is an IPv4 packet, and `accept` has left an error where the probe looks for it. -/
def Seen (protoAcceptArgExists : Bool) : Invocation → Prop
  | packet _ skb _ => skb.map SkbReads.protocol = some (swap16 ethPIp)
  | connect _ => True
  | accept c => ∃ err ∈ c.probeReadKernel (c.errPtr protoAcceptArgExists), err < 0

def kprobeReturnVal (protoAcceptArgExists : Bool) : Invocation → Int32
  | packet _ _ retVal => retVal
  | connect retVal => retVal
  | accept c => (c.probeReadKernel (c.errPtr protoAcceptArgExists)).getD 0

def fexitReturnVal : Invocation → Int32
  | packet _ _ retVal => retVal
  | connect retVal => retVal
  | accept _ => 0

instance : DecidablePred Failed
  | packet _ _ _ => inferInstanceAs (Decidable (_ = _))
  | connect _ => inferInstanceAs (Decidable (_ ≠ _))
  | accept _ => inferInstanceAs (Decidable (_ = _))

instance (protoAcceptArgExists : Bool) : DecidablePred (Seen protoAcceptArgExists)
  | packet _ _ _ => inferInstanceAs (Decidable (_ = _))
  | connect _ => inferInstanceAs (Decidable True)
  | accept c =>
    match h : c.probeReadKernel (c.errPtr protoAcceptArgExists) with
    | none => .isFalse (by simp [Seen, h])
    | some err => decidable_of_iff (err < 0) (by simp [Seen, h])

end Invocation

/-- Between two calls nothing is left in the maps of the processes. -/
def ProbeMaps.Idle (m : ProbeMaps) : Prop := m.maps.pids = (fun _ => ∅) ∧ m.acceptPids = ∅

theorem bpfMapUpdateElem_empty {α β : Type*} [DecidableEq α] {maxEntries : ℕ} (h : 0 < maxEntries) (k : α) (v : β) :
    bpfMapUpdateElem maxEntries ∅ k v = (∅ : Finmap fun _ : α => β).insert k v := by
  refine if_pos (.inr ?_)
  rwa [Finmap.keys_empty, Finset.card_empty]

@[simp] theorem getPacketFromSock_skbLen (cfg : Config) (bootNs : UInt64) (p : Packet) (sk : Sock) :
    (getPacketFromSock cfg bootNs p sk).skbLen = p.skbLen := by
  unfold getPacketFromSock
  split_ifs <;> rfl

namespace TracedCall
variable {n : ℕ} (cfg : Config) (protoAcceptArgExists : Bool)

theorem fexit_eq (c : TracedCall n) (m : Maps) : c.fexit protoAcceptArgExists m =
    if c.invocation.Failed then
      m.updateMetricsMapBasic c.cpu c.invocation.reason c.invocation.fexitReturnVal c.invocation.fexitLen
    else m := by
  unfold fexit
  cases c.invocation with
  | packet fn skb retVal =>
    dsimp only
    rw [Probed.fexit_eq]
    rfl
  | connect retVal => exact (ite_not _ _ _).symm
  | accept a =>
    have hctx : inetCskAcceptFexit protoAcceptArgExists c.cpu a m =
        if a.retsk = 0 then m.updateMetricsMapBasic c.cpu tcpAcceptBasic 0 0 else m := by
      cases protoAcceptArgExists <;> simp [inetCskAcceptFexit, AcceptCall.ctx]
    refine hctx.trans ?_
    by_cases hsk : a.retsk = 0
    · rw [if_pos hsk, if_pos (show (Invocation.accept a).Failed from hsk)]
      rfl
    · rw [if_neg hsk, if_neg (show ¬(Invocation.accept a).Failed from hsk)]

theorem exit_of_idle (fn : Probed) (retVal : Int32) (cpu : ℕ) (pidTgid : UInt64) {m : Maps} (h : m.pids = fun _ => ∅) :
    (fn.exit cfg cpu pidTgid retVal m).pids = (fun _ => ∅) ∧
      (fn.exit cfg cpu pidTgid retVal m).metrics = m.metrics := by
  rw [Probed.exit_eq]
  cases hd : fn.drops retVal with
  | true => simp [returnProbe, hd, h]
  | false => simp [returnProbe, hd, h, Maps.setPids]

/-- The two probes of a packet, with nothing left in their map. -/
theorem probes_of_idle (fn : Probed) (skb : Option (UInt16 × SkBuff)) (retVal : Int32) (cpu : ℕ)
    (bootNs pidTgid : UInt64) {m : Maps} (h : m.pids = fun _ => ∅) :
    (fn.exit cfg cpu pidTgid retVal (fn.entry cfg bootNs pidTgid skb m)).pids = (fun _ => ∅) ∧
    (fn.exit cfg cpu pidTgid retVal (fn.entry cfg bootNs pidTgid skb m)).metrics =
      (if fn.drops retVal = true ∧ skb.map Prod.fst = some (swap16 ethPIp) then
        m.updateMetricsMapBasic cpu fn.reason retVal ((skb.map fun b => b.2.len).getD 0)
      else m).metrics := by
  have hunseen := exit_of_idle cfg fn retVal cpu pidTgid h
  rw [Probed.entry_eq]
  rcases skb with _ | ⟨ethProto,b⟩
  · simpa [entryProbe] using hunseen
  by_cases hproto : ethProto = swap16 ethPIp
  · have hentry : entryProbe fn.map cfg bootNs pidTgid (some (ethProto,b)) m =
        m.setPids fn.map ((∅ : Finmap fun _ : UInt32 => Packet).insert (currentPid pidTgid)
          (getPacketFromSkb cfg bootNs {} b)) := by
      simp only [entryProbe, hproto, ne_eq, not_true_eq_false, if_false, h]
      rw [bpfMapUpdateElem_empty (by decide)]
    have herase : ((∅ : Finmap fun _ : UInt32 => Packet).insert (currentPid pidTgid)
        (getPacketFromSkb cfg bootNs {} b)).erase (currentPid pidTgid) = ∅ := FiniteMap.erase_insert Finmap.notMem_empty _
    rw [hentry, Probed.exit_eq]
    cases hd : fn.drops retVal with
    | true =>
      simp only [returnProbe, hd, Maps.setPids, Function.update_self, Finmap.lookup_insert, herase]
      refine ⟨by simp [Maps.updateMetricsMap, h],?_⟩
      simp only [Bool.true_eq_false, if_false, Option.map_some, hproto, and_self, if_true,
        Maps.metrics_updateMetricsMap, getPacketFromSkb_skbLen]
      rfl
    | false => simp [returnProbe, hd, h, Maps.setPids, herase]
  · simpa [entryProbe, hproto] using hunseen

/-- The two probes of `inet_csk_accept`, with nothing left in their map. -/
theorem acceptProbes_of_idle (a : AcceptCall) (cpu : ℕ) (bootNs pidTgid : UInt64) {m : ProbeMaps}
    (h : m.acceptPids = ∅) :
    let m' := inetCskAcceptRet cfg cpu bootNs pidTgid a (inetCskAccept protoAcceptArgExists pidTgid a m)
    m'.acceptPids = ∅ ∧ m'.maps.pids = m.maps.pids ∧
      (a.retsk = 0 → ∀ err ∈ a.probeReadKernel (a.errPtr protoAcceptArgExists), err < 0 →
        m'.maps.metrics = (m.maps.updateMetricsMapBasic cpu tcpAcceptBasic err 0).metrics) ∧
      (¬(a.retsk = 0 ∧ ∃ err ∈ a.probeReadKernel (a.errPtr protoAcceptArgExists), err < 0) →
        m'.maps.metrics = m.maps.metrics) := by
  have hentry : inetCskAccept protoAcceptArgExists pidTgid a m =
      ⟨m.maps,(∅ : Finmap fun _ : UInt32 => UInt64).insert (currentPid pidTgid) (a.errPtr protoAcceptArgExists)⟩ := by
    rw [inetCskAccept, h, bpfMapUpdateElem_empty (by decide)]
  have herase : ((∅ : Finmap fun _ : UInt32 => UInt64).insert (currentPid pidTgid)
      (a.errPtr protoAcceptArgExists)).erase (currentPid pidTgid) = ∅ := FiniteMap.erase_insert Finmap.notMem_empty _
  intro m'
  have hm' : m' = inetCskAcceptRet cfg cpu bootNs pidTgid a (inetCskAccept protoAcceptArgExists pidTgid a m) := rfl
  simp only [hentry, inetCskAcceptRet, Finmap.lookup_insert, herase] at hm'
  by_cases hsk : a.retsk = 0
  · cases hread : a.probeReadKernel (a.errPtr protoAcceptArgExists) with
    | none => simp [hm', hsk, hread]
    | some err =>
      by_cases herr : err < 0
      · have hlen : (if cfg.advancedMetrics then getPacketFromSock cfg bootNs {} nullSock else {}).skbLen = 0 := by
          split_ifs <;> simp
        simp only [hsk, hread, ne_eq, not_true_eq_false, if_false, Int32.not_le.mpr herr] at hm'
        rw [hm']
        refine ⟨rfl,rfl,?_,fun hno => absurd ⟨hsk,err,rfl,herr⟩ hno⟩
        rintro - _ ⟨⟩ -
        rw [Maps.metrics_updateMetricsMap, hlen]
      · simp [hm', hsk, hread, herr, Int32.not_lt.mp herr]
  · simp [hm', hsk]

theorem kprobe_of_idle (c : TracedCall n) {m : ProbeMaps} (h : m.Idle) :
    (c.kprobe cfg protoAcceptArgExists m).Idle ∧
    (c.kprobe cfg protoAcceptArgExists m).maps.metrics =
      (if c.invocation.Failed ∧ c.invocation.Seen protoAcceptArgExists then
        m.maps.updateMetricsMapBasic c.cpu c.invocation.reason (c.invocation.kprobeReturnVal protoAcceptArgExists)
          c.invocation.kprobeLen
      else m.maps).metrics := by
  obtain ⟨invocation,cpu,pidTgid,bootNs⟩ := c
  cases invocation with
  | packet fn skb retVal =>
    obtain ⟨hpids,hmetrics⟩ :=
      probes_of_idle cfg fn (skb.map SkbReads.atEntry) retVal cpu bootNs pidTgid h.1
    rw [Option.map_map, Option.map_map] at hmetrics
    exact ⟨⟨hpids,h.2⟩,hmetrics⟩
  | connect retVal =>
    unfold kprobe tcpV4ConnectRet
    dsimp only
    by_cases hr : retVal = 0
    · rw [if_pos hr, if_neg fun hc => hc.1 hr]
      exact ⟨h,rfl⟩
    · rw [if_neg hr, if_pos ⟨hr,trivial⟩]
      exact ⟨h,rfl⟩
  | accept a =>
    obtain ⟨haccept,hpids,hcount,hskip⟩ := acceptProbes_of_idle cfg protoAcceptArgExists a cpu bootNs pidTgid h.2
    refine ⟨⟨hpids.trans h.1,haccept⟩,?_⟩
    split_ifs with hc
    · obtain ⟨hsk,err,hread,herr⟩ := hc
      have hval : (Invocation.accept a).kprobeReturnVal protoAcceptArgExists = err := by
        simp [Invocation.kprobeReturnVal, Option.mem_def.mp hread]
      rw [hval]
      exact hcount hsk err hread herr
    · exact hskip hc

end TracedCall

/-! ## Equal totals -/

namespace Flavours
section Runs
variable {n : ℕ} (cfg : Config) (protoAcceptArgExists : Bool)

def Agrees (n : ℕ) (s : Flavours) : Prop := ∀ dropType, s.kprobe.maps.total n dropType = s.fexit.total n dropType

/-- The program at the exit counts a call that fails if it has room for it, -/
def FexitCounts (s : Flavours) (c : TracedCall n) : Prop :=
  HasRoom metricsMaxEntries s.fexit.metrics ⟨c.invocation.reason,c.invocation.fexitReturnVal⟩

/-- and the probes do if they see the call and have room for it. -/
def KprobeCounts (s : Flavours) (c : TracedCall n) : Prop :=
  c.invocation.Seen protoAcceptArgExists ∧ HasRoom metricsMaxEntries s.kprobe.maps.metrics
    ⟨c.invocation.reason,c.invocation.kprobeReturnVal protoAcceptArgExists⟩

/-- Both count a call that fails, with the same length, or none of them does. -/
def Matched (s : Flavours) (c : TracedCall n) : Prop :=
  c.invocation.Failed →
    (s.FexitCounts c ↔ s.KprobeCounts protoAcceptArgExists c) ∧
      (s.FexitCounts c → c.invocation.fexitLen = c.invocation.kprobeLen)

variable {protoAcceptArgExists}

/-- Two counters that were equal go up together, or one of them stays behind. -/
theorem increments_eq_iff (total : UInt16 → MetricsMapValue) (reason : UInt16) (len len' : UInt32) (p q : Prop)
    [Decidable p] [Decidable q] :
    (∀ dropType,
      (if p ∧ reason = dropType then ⟨(total dropType).count + 1,(total dropType).bytes + len.toUInt64⟩
        else total dropType) =
      if q ∧ reason = dropType then ⟨(total dropType).count + 1,(total dropType).bytes + len'.toUInt64⟩
        else total dropType) ↔ (q ↔ p) ∧ (q → len' = len) := by
  have hone : ∀ x : UInt64, x + 1 ≠ x := fun x hx => absurd (add_eq_left.mp hx) (by decide)
  constructor
  · intro hall
    have htotal := hall reason
    by_cases hp : p <;> by_cases hq : q <;> simp only [hp, hq, true_and, false_and, if_true, if_false] at htotal
    · have hbytes := add_left_cancel (congrArg MetricsMapValue.bytes htotal)
      exact ⟨iff_of_true hq hp,fun _ => (UInt32.toUInt64_inj.mp hbytes).symm⟩
    · exact absurd (congrArg MetricsMapValue.count htotal) (hone _)
    · exact absurd (congrArg MetricsMapValue.count htotal).symm (hone _)
    · exact ⟨iff_of_false hq hp,fun h => absurd h hq⟩
  · rintro ⟨hiff,hlen⟩ dropType
    by_cases hq : q
    · simp only [hiff.mp hq, hq, hlen hq]
    · simp only [mt hiff.mpr hq, hq, false_and, if_false]

theorem agrees_step_iff {s : Flavours} (hidle : s.kprobe.Idle) (h : s.Agrees n) (c : TracedCall n) :
    (s.step cfg protoAcceptArgExists c).Agrees n ↔ s.Matched protoAcceptArgExists c := by
  have hk : ∀ dropType, (s.step cfg protoAcceptArgExists c).kprobe.maps.total n dropType = _ := fun dropType =>
    (Maps.total_congr (c.kprobe_of_idle cfg protoAcceptArgExists hidle).2 dropType).trans
      (Maps.total_of_drop _ c.cpu _ _ _ dropType)
  have hf : ∀ dropType, (s.step cfg protoAcceptArgExists c).fexit.total n dropType = _ := fun dropType =>
    (congrArg (Maps.total n · dropType) (c.fexit_eq protoAcceptArgExists s.fexit)).trans
      (Maps.total_of_drop _ c.cpu _ _ _ dropType)
  unfold Agrees at h ⊢
  simp only [hk, hf, h]
  rw [increments_eq_iff]
  unfold Matched FexitCounts KprobeCounts
  by_cases hfailed : c.invocation.Failed
  · simp only [hfailed, true_and, true_imp_iff]
  · simp only [hfailed, false_and, false_imp_iff, and_self]

theorem initial_idle : initial.kprobe.Idle := ⟨rfl,rfl⟩

theorem initial_agrees : initial.Agrees n := fun _ => rfl

/-- The flavours have equal totals all along a trace if and only if each call is matched. -/
theorem flavours_agree_iff (protoAcceptArgExists : Bool) (calls : List (TracedCall n)) :
    (∀ earlier, earlier <+: calls → (after cfg protoAcceptArgExists earlier).Agrees n) ↔
      Execution.Along (step cfg protoAcceptArgExists) (Matched protoAcceptArgExists) initial calls := by
  have hidle : ∀ earlier : List (TracedCall n), (after cfg protoAcceptArgExists earlier).kprobe.Idle := fun earlier =>
    Execution.invariant_of_step (I := fun s : Flavours => s.kprobe.Idle)
      (fun s c hs => (c.kprobe_of_idle cfg protoAcceptArgExists hs).1) initial_idle earlier
  have hgood : ∀ earlier : List (TracedCall n),
      Execution.Along (step cfg protoAcceptArgExists) (Matched protoAcceptArgExists) initial earlier →
      (after cfg protoAcceptArgExists earlier).Agrees n := by
    intro earlier hm
    refine (Execution.invariant (I := fun s : Flavours => s.kprobe.Idle ∧ s.Agrees n) ?_
      ⟨initial_idle,initial_agrees⟩ hm).2
    rintro s c ⟨hs,hagree⟩ hc
    exact ⟨(c.kprobe_of_idle cfg protoAcceptArgExists hs).1,(agrees_step_iff cfg hs hagree c).mpr hc⟩
  refine Execution.forall_prefix_iff_along (D := fun _ _ => True) (fun earlier _ => hgood earlier) ?_
    (Execution.along_of_forall (fun _ _ _ => trivial) _)
  intro earlier c _ hm _ hc hnext
  have hstep : ((after cfg protoAcceptArgExists earlier).step cfg protoAcceptArgExists c).Agrees n := by
    rwa [after, Execution.run_append] at hnext
  exact hc ((agrees_step_iff cfg (hidle earlier) (hgood earlier hm) c).mp hstep)

end Runs

def ethPIpv6 : UInt16 := 0x86DD

def ipv6Drop : TracedCall 1 where
  invocation := .packet .nfHookSlow
    (some ⟨swap16 ethPIpv6,droppedSegment 443 40000,some (droppedSegment 443 40000).len⟩) (-1)
  cpu := 0
  pidTgid := 42 * 2 ^ 32
  bootNs := 1

/-- The probes do not look at an IPv6 packet, and the program at the exit counts it. -/
theorem ipv6_drop_counted_by_fexit_only :
    (((after reportAll true [ipv6Drop]).kprobe.maps.total 1 iptableRuleDrop).count = 0) ∧
    (((after reportAll true [ipv6Drop]).fexit.total 1 iptableRuleDrop).count = 1) := by
  decide +kernel

end Flavours
end Retina.DropReason
