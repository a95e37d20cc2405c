import Retina.DropReason.Events
import Retina.DropReason.Gauges
import Retina.Library.Execution
import Retina.Library.FiniteMap
import Retina.Library.Handover

/-! # From the entry of a function to its return

The probes of `nf_hook_slow`, `nf_nat_inet_fn` and `__nf_conntrack_confirm` in
`pkg/plugin/dropreason/_cprog/drop_reason.c`. The probe at the entry leaves the packet in a map
under the process, and the probe at the return takes it from there if the verdict is a drop. Two
of the functions use one map. A probe runs as one step; the threads of the host take theirs in any
order.
-/
namespace Retina.DropReason

inductive PidMap
  | natdropPids
  | dropPids
deriving DecidableEq

/-- The maps of the program and the events that it has sent. A counter has a value for each CPU. -/
structure Maps where
  pids : PidMap → Finmap fun _ : UInt32 => Packet
  metrics : Finmap fun _ : MetricsMapKey => ℕ → MetricsMapValue
  events : List Packet

def pidsMaxEntries : ℕ := 16384

def metricsMaxEntries : ℕ := 512

def HasRoom {α β : Type*} [DecidableEq α] (maxEntries : ℕ) (m : Finmap fun _ : α => β) (k : α) : Prop :=
  k ∈ m ∨ m.keys.card < maxEntries

instance {α β : Type*} [DecidableEq α] (maxEntries : ℕ) (m : Finmap fun _ : α => β) (k : α) :
    Decidable (HasRoom maxEntries m k) := inferInstanceAs (Decidable (_ ∨ _))

def bpfMapUpdateElem {α β : Type*} [DecidableEq α] (maxEntries : ℕ) (m : Finmap fun _ : α => β) (k : α) (v : β) :
    Finmap fun _ : α => β :=
  if HasRoom maxEntries m k then m.insert k v else m

def ethPIp : UInt16 := 0x0800

/-- The upper half of `bpf_get_current_pid_tgid`, which is the same for all threads of a process. -/
def currentPid (pidTgid : UInt64) : UInt32 := (pidTgid >>> 32).toUInt32

@[simp] theorem getPacketFromSkb_skbLen (cfg : Config) (bootNs : UInt64) (p : Packet) (skb : SkBuff) :
    (getPacketFromSkb cfg bootNs p skb).skbLen = skb.len := by
  unfold getPacketFromSkb
  dsimp only
  split_ifs <;> rfl

namespace Maps

def setPids (m : Maps) (map : PidMap) (pids : Finmap fun _ : UInt32 => Packet) : Maps :=
  { m with pids := Function.update m.pids map pids }

/-- The counter of the current CPU. An entry is made with zeros for the others. -/
def updateMetricsMap (cfg : Config) (cpu : ℕ) (dropType : UInt16) (retVal : Int32) (p : Packet) (m : Maps) : Maps where
  pids := m.pids
  metrics :=
    match m.metrics.lookup ⟨dropType,retVal⟩ with
    | some entry => m.metrics.insert ⟨dropType,retVal⟩ (Function.update entry cpu
        ⟨(entry cpu).count + 1,(entry cpu).bytes + p.skbLen.toUInt64⟩)
    | none => bpfMapUpdateElem metricsMaxEntries m.metrics ⟨dropType,retVal⟩
        (Function.update (fun _ => ⟨0,0⟩) cpu ⟨1,p.skbLen.toUInt64⟩)
  events := m.events ++ (dropEvent cfg dropType retVal.toUInt32 p).toList

def metric (m : Maps) (key : MetricsMapKey) (cpu : ℕ) : MetricsMapValue :=
  ((m.metrics.lookup key).map fun entry => entry cpu).getD ⟨0,0⟩

theorem metric_updateMetricsMap (cfg : Config) (cpu : ℕ) {dropType : UInt16} {retVal : Int32} (p : Packet) {m : Maps}
    (hroom : HasRoom metricsMaxEntries m.metrics ⟨dropType,retVal⟩) (key : MetricsMapKey) (i : ℕ) :
    (m.updateMetricsMap cfg cpu dropType retVal p).metric key i =
      if key = ⟨dropType,retVal⟩ ∧ i = cpu then ⟨(m.metric key i).count + 1,(m.metric key i).bytes + p.skbLen.toUInt64⟩
      else m.metric key i := by
  -- both branches insert the entry with one CPU's value changed, from what the map has or from zeros
  have hentry : (m.updateMetricsMap cfg cpu dropType retVal p).metrics = m.metrics.insert ⟨dropType,retVal⟩
      (Function.update (m.metric ⟨dropType,retVal⟩) cpu ⟨(m.metric ⟨dropType,retVal⟩ cpu).count + 1,
        (m.metric ⟨dropType,retVal⟩ cpu).bytes + p.skbLen.toUInt64⟩) := by
    cases hl : m.metrics.lookup ⟨dropType,retVal⟩ with
    | some entry =>
      have hmetric : m.metric ⟨dropType,retVal⟩ = entry := by
        funext i
        simp [metric, hl]
      simp only [updateMetricsMap, hl, hmetric]
    | none =>
      have hmetric : m.metric ⟨dropType,retVal⟩ = fun _ => ⟨0,0⟩ := by
        funext i
        simp [metric, hl]
      simp only [updateMetricsMap, hl, hmetric, bpfMapUpdateElem, if_pos hroom]
      simp
  rw [metric, hentry, FiniteMap.lookup_insert_eq_ite]
  by_cases hk : key = ⟨dropType,retVal⟩
  · subst hk
    by_cases hi : i = cpu
    · subst hi
      simp
    · simp [hi]
  · simp [hk, metric]

end Maps

/-- The three probes at an entry, with the map that they write to. -/
def entryProbe (map : PidMap) (cfg : Config) (bootNs pidTgid : UInt64) (skb : Option (UInt16 × SkBuff)) (m : Maps) :
    Maps :=
  match skb with
  | none => m
  | some (ethProto,skb) =>
    if ethProto ≠ swap16 ethPIp then m
    else m.setPids map
      (bpfMapUpdateElem pidsMaxEntries (m.pids map) (currentPid pidTgid) (getPacketFromSkb cfg bootNs {} skb))

/-- The three probes at a return, with their map, their reason and their verdict of a drop. -/
def returnProbe (map : PidMap) (reason : UInt16) (drops : Int32 → Bool) (cfg : Config) (cpu : ℕ) (pidTgid : UInt64)
    (retVal : Int32) (m : Maps) : Maps :=
  let deleted := m.setPids map ((m.pids map).erase (currentPid pidTgid))
  if drops retVal = false then deleted
  else
    match (m.pids map).lookup (currentPid pidTgid) with
    | none => m
    | some p => deleted.updateMetricsMap cfg cpu reason retVal p

def iptableRuleDrop : UInt16 := 0
def iptableNatDrop : UInt16 := 1
def conntrackAddDrop : UInt16 := 5

def nfDrop : Int32 := 0

def nfHookSlow : Config → UInt64 → UInt64 → Option (UInt16 × SkBuff) → Maps → Maps := entryProbe .dropPids

def nfHookSlowRet : Config → ℕ → UInt64 → Int32 → Maps → Maps :=
  returnProbe .dropPids iptableRuleDrop fun retVal => decide (retVal < 0)

def nfNatInetFn : Config → UInt64 → UInt64 → Option (UInt16 × SkBuff) → Maps → Maps := entryProbe .natdropPids

def nfNatInetFnRet : Config → ℕ → UInt64 → Int32 → Maps → Maps :=
  returnProbe .natdropPids iptableNatDrop fun retVal => decide (retVal = nfDrop)

def nfConntrackConfirm : Config → UInt64 → UInt64 → Option (UInt16 × SkBuff) → Maps → Maps := entryProbe .natdropPids

def nfConntrackConfirmRet : Config → ℕ → UInt64 → Int32 → Maps → Maps :=
  returnProbe .natdropPids conntrackAddDrop fun retVal => decide (retVal = nfDrop)

inductive Probed
  | nfHookSlow
  | nfNatInetFn
  | nfConntrackConfirm
deriving DecidableEq

namespace Probed

def entry : Probed → Config → UInt64 → UInt64 → Option (UInt16 × SkBuff) → Maps → Maps
  | nfHookSlow => DropReason.nfHookSlow
  | nfNatInetFn => DropReason.nfNatInetFn
  | nfConntrackConfirm => DropReason.nfConntrackConfirm

def exit : Probed → Config → ℕ → UInt64 → Int32 → Maps → Maps
  | nfHookSlow => nfHookSlowRet
  | nfNatInetFn => nfNatInetFnRet
  | nfConntrackConfirm => nfConntrackConfirmRet

def map : Probed → PidMap
  | nfHookSlow => .dropPids
  | nfNatInetFn | nfConntrackConfirm => .natdropPids

def reason : Probed → UInt16
  | nfHookSlow => iptableRuleDrop
  | nfNatInetFn => iptableNatDrop
  | nfConntrackConfirm => conntrackAddDrop

def drops : Probed → Int32 → Bool
  | nfHookSlow => fun retVal => decide (retVal < 0)
  | nfNatInetFn | nfConntrackConfirm => fun retVal => decide (retVal = nfDrop)

theorem entry_eq (f : Probed) : f.entry = entryProbe f.map := by
  cases f <;> rfl

theorem exit_eq (f : Probed) : f.exit = returnProbe f.map f.reason f.drops := by
  cases f <;> rfl

end Probed

/-! ## Runs of the threads -/

structure Call (τ : Type*) where
  thread : τ
  fn : Probed
  skb : SkBuff
  bootNs : UInt64

inductive ProbeOp (τ : Type*)
  | enter (c : Call τ)
  | leave (thread : τ) (fn : Probed) (retVal : Int32) (cpu : ℕ)

/-- The maps, and the calls under way with the latest one first. -/
structure Kernel (τ : Type*) where
  maps : Maps
  calls : List (Call τ)

def Call.packet {τ : Type*} (cfg : Config) (c : Call τ) : Packet := getPacketFromSkb cfg c.bootNs {} c.skb

namespace Kernel
section Runs
variable {τ : Type*} [DecidableEq τ] (cfg : Config) (pidTgid : τ → UInt64)

/-- The calls of a thread nest: the one that returns is its latest. -/
def current (w : Kernel τ) (thread : τ) : Option (Call τ) := w.calls.find? fun c => decide (c.thread = thread)

def step (w : Kernel τ) : ProbeOp τ → Kernel τ
  | .enter c =>
    { maps := c.fn.entry cfg c.bootNs (pidTgid c.thread) (some (swap16 ethPIp,c.skb)) w.maps
      calls := c :: w.calls }
  | .leave thread fn retVal cpu =>
    { maps := fn.exit cfg cpu (pidTgid thread) retVal w.maps
      calls := w.calls.eraseP fun c => decide (c.thread = thread) }

/-- A function does not enter itself again in one thread, and what returns is what the thread is in. -/
def Executes (w : Kernel τ) : ProbeOp τ → Prop
  | .enter c => ∀ d ∈ w.calls, d.thread = c.thread → d.fn ≠ c.fn
  | .leave thread fn _ _ => ((w.current thread).map Call.fn) = some fn

def slot (c : Call τ) : PidMap × UInt32 := (c.fn.map,currentPid (pidTgid c.thread))

def slots (w : Kernel τ) (place : PidMap × UInt32) : Option Packet := (w.maps.pids place.1).lookup place.2

/-- A drop adds one to the counter of the function's reason, with the length of the packet of the
call that returns, and sends the event of this packet. Without a drop the counters, the events and
the packets of the other calls stay. -/
def Attributed (w : Kernel τ) : ProbeOp τ → Prop
  | .enter _ => True
  | .leave thread fn retVal cpu => ∀ c ∈ w.current thread,
    let w' := w.step cfg pidTgid (.leave thread fn retVal cpu)
    if fn.drops retVal = true then
      (∀ key i, w'.maps.metric key i =
        if key = ⟨fn.reason,retVal⟩ ∧ i = cpu then
          ⟨(w.maps.metric key i).count + 1,(w.maps.metric key i).bytes + c.skb.len.toUInt64⟩
        else w.maps.metric key i) ∧
      w'.maps.events = w.maps.events ++ (dropEvent cfg fn.reason retVal.toUInt32 (c.packet cfg)).toList
    else
      w'.maps.metrics = w.maps.metrics ∧ w'.maps.events = w.maps.events ∧
        ∀ d ∈ w'.calls, w'.slots (slot pidTgid d) = w.slots (slot pidTgid d)

/-- A process enters a function only while none of its threads is in a function with the same map, and
there is room for what a probe inserts. -/
def Separate (w : Kernel τ) : ProbeOp τ → Prop
  | .enter c => (∀ d ∈ w.calls, currentPid (pidTgid d.thread) = currentPid (pidTgid c.thread) → d.fn.map ≠ c.fn.map) ∧
      HasRoom pidsMaxEntries (w.maps.pids c.fn.map) (currentPid (pidTgid c.thread))
  | .leave _ fn retVal _ => fn.drops retVal = true → HasRoom metricsMaxEntries w.maps.metrics ⟨fn.reason,retVal⟩

instance (w : Kernel τ) : ∀ op, Decidable (w.Executes op)
  | .enter _ => by unfold Executes; infer_instance
  | .leave _ _ _ _ => by unfold Executes; infer_instance

instance (w : Kernel τ) : ∀ op, Decidable (w.Separate pidTgid op)
  | .enter _ => by unfold Separate; infer_instance
  | .leave _ _ _ _ => by unfold Separate; infer_instance

variable {cfg pidTgid} {w : Kernel τ}

omit [DecidableEq τ] in
/-- One slot is changed by a change of one map under one key. -/
theorem update_slots {map : PidMap} {pid : UInt32} {pids : Finmap fun _ : UInt32 => Packet} {v : Option Packet}
    (h : ∀ k, pids.lookup k = if k = pid then v else (w.maps.pids map).lookup k) :
    slots { w with maps := w.maps.setPids map pids } = Function.update w.slots (map,pid) v := by
  funext place
  obtain ⟨other,k⟩ := place
  simp only [slots, Maps.setPids, Function.update_apply, Prod.mk.injEq]
  by_cases hm : other = map
  · subst hm
    simp only [if_true, true_and]
    exact h k
  · simp only [hm, if_false, false_and]

theorem slots_enter {c : Call τ}
    (hroom : HasRoom pidsMaxEntries (w.maps.pids c.fn.map) (currentPid (pidTgid c.thread))) :
    (w.step cfg pidTgid (.enter c)).slots = Function.update w.slots (slot pidTgid c) (some (c.packet cfg)) := by
  rw [slot, ← update_slots (FiniteMap.lookup_insert_eq_ite (w.maps.pids c.fn.map) _ · _)]
  funext place
  simp only [step, slots, Probed.entry_eq, entryProbe, ne_eq, not_true_eq_false, if_false, bpfMapUpdateElem,
    if_pos hroom]
  rfl

/-- Both branches of a return remove the packet that is there. -/
theorem slots_leave {thread : τ} {fn : Probed} {p : Packet} (retVal : Int32) (cpu : ℕ)
    (hp : w.slots (fn.map,currentPid (pidTgid thread)) = some p) :
    (w.step cfg pidTgid (.leave thread fn retVal cpu)).slots =
      Function.update w.slots (fn.map,currentPid (pidTgid thread)) none := by
  rw [← update_slots (FiniteMap.lookup_erase_eq_ite (w.maps.pids fn.map) _)]
  funext place
  unfold slots at hp ⊢
  simp only [step, Probed.exit_eq, returnProbe, hp]
  cases fn.drops retVal <;> rfl

theorem paired_enter {c : Call τ} (h : Handover.Paired (slot pidTgid) (Call.packet cfg) w.slots w.calls)
    (hs : w.Separate pidTgid (.enter c)) :
    Handover.Paired (slot pidTgid) (Call.packet cfg) (w.step cfg pidTgid (.enter c)).slots
      (w.step cfg pidTgid (.enter c)).calls := by
  rw [slots_enter hs.2]
  refine h.enter fun d hd he => ?_
  obtain ⟨hm,hpid⟩ := Prod.mk.inj he
  exact hs.1 d hd hpid hm

/-- The call that returns, among those under way. -/
theorem calls_of_current {thread : τ} {c : Call τ} (hc : w.current thread = some c) :
    c.thread = thread ∧ ∃ later earlier, w.calls = later ++ c :: earlier ∧
      (w.calls.eraseP fun d => decide (d.thread = thread)) = later ++ earlier := by
  obtain ⟨ht,later,earlier,hcalls,hlater⟩ := List.find?_eq_some_iff_append.mp hc
  refine ⟨of_decide_eq_true ht,later,earlier,hcalls,?_⟩
  rw [hcalls, List.eraseP_append_right _ (fun d hd => by simpa using hlater d hd)]
  exact congrArg (later ++ ·) (List.eraseP_cons_of_pos (p := fun d : Call τ => decide (d.thread = thread)) ht)

section Leave
variable {thread : τ} {fn : Probed} {retVal : Int32} {cpu : ℕ}
variable (h : Handover.Paired (slot pidTgid) (Call.packet cfg) w.slots w.calls)
variable (hx : w.Executes (.leave thread fn retVal cpu))
include h hx

/-- What a call that returns finds in the map is its own packet. -/
theorem exists_own_packet : ∃ c, w.current thread = some c ∧
    slot pidTgid c = (fn.map,currentPid (pidTgid thread)) ∧
    w.slots (fn.map,currentPid (pidTgid thread)) = some (c.packet cfg) := by
  obtain ⟨c,hc,rfl⟩ := Option.map_eq_some_iff.mp hx
  obtain ⟨rfl,later,earlier,hcalls,_⟩ := calls_of_current hc
  have hm : c ∈ w.calls := by
    rw [hcalls]
    exact List.mem_append_right _ List.mem_cons_self
  exact ⟨c,hc,rfl,h.holds c hm⟩

theorem paired_leave : Handover.Paired (slot pidTgid) (Call.packet cfg)
    (w.step cfg pidTgid (.leave thread fn retVal cpu)).slots
    (w.step cfg pidTgid (.leave thread fn retVal cpu)).calls := by
  obtain ⟨c,hc,hslot,hp⟩ := exists_own_packet h hx
  obtain ⟨_,later,earlier,hcalls,herase⟩ := calls_of_current hc
  rw [slots_leave retVal cpu hp, ← hslot]
  change Handover.Paired _ _ _ (w.calls.eraseP fun d => decide (d.thread = thread))
  rw [hcalls] at h
  rw [herase]
  exact h.leave

theorem attributed_leave (hs : w.Separate pidTgid (.leave thread fn retVal cpu)) :
    w.Attributed cfg pidTgid (.leave thread fn retVal cpu) := by
  obtain ⟨own,hown,hslot,hp⟩ := exists_own_packet h hx
  intro c hc
  obtain rfl : own = c := Option.some.inj (hown.symm.trans hc)
  cases hd : fn.drops retVal with
  | true =>
    have hmaps : (w.step cfg pidTgid (.leave thread fn retVal cpu)).maps =
        (w.maps.setPids fn.map ((w.maps.pids fn.map).erase (currentPid (pidTgid thread)))).updateMetricsMap cfg cpu
          fn.reason retVal (own.packet cfg) := by
      unfold slots at hp
      simp only [step, Probed.exit_eq, returnProbe, hd, hp, Bool.true_eq_false, if_false]
    simp only [if_true, hmaps]
    refine ⟨fun key i => ?_,rfl⟩
    refine (Maps.metric_updateMetricsMap cfg cpu (own.packet cfg) (hs hd) key i).trans ?_
    rw [Call.packet, getPacketFromSkb_skbLen]
  | false =>
    have hmaps : (w.step cfg pidTgid (.leave thread fn retVal cpu)).maps =
        w.maps.setPids fn.map ((w.maps.pids fn.map).erase (currentPid (pidTgid thread))) := by
      simp only [step, Probed.exit_eq, returnProbe, hd, if_true]
    simp only [Bool.false_eq_true, if_false]
    refine ⟨by rw [hmaps]; rfl,by rw [hmaps]; rfl,fun d hmem => ?_⟩
    obtain ⟨_,later,earlier,hcalls,herase⟩ := calls_of_current hown
    have hne : slot pidTgid d ≠ slot pidTgid own := by
      rw [hcalls] at h
      refine h.ne_of_mem ?_
      rw [← herase]
      exact hmem
    rw [slots_leave retVal cpu hp, ← hslot, Function.update_of_ne hne]

end Leave
end Runs

/-- In every run in which the calls are separate, each return is attributed to the packet of its own call. -/
theorem drops_attributed {τ : Type*} [DecidableEq τ] (cfg : Config) (pidTgid : τ → UInt64) (maps : Maps)
    (ops : List (ProbeOp τ)) (hx : Execution.Along (step cfg pidTgid) Executes ⟨maps,[]⟩ ops)
    (hs : Execution.Along (step cfg pidTgid) (Separate pidTgid) ⟨maps,[]⟩ ops) :
    Execution.Along (step cfg pidTgid) (Attributed cfg pidTgid) ⟨maps,[]⟩ ops := by
  refine Execution.Along.of_invariant
    (I := fun w : Kernel τ => Handover.Paired (slot pidTgid) (Call.packet cfg) w.slots w.calls)
    (fun w op h ho => ?_) (fun w op h ho => ?_) (Handover.paired_nil _) (hx.and hs)
  · cases op with
    | enter c => exact paired_enter h ho.2
    | leave thread fn retVal cpu => exact paired_leave h ho.1
  · cases op with
    | enter c => trivial
    | leave thread fn retVal cpu => exact attributed_leave h ho.1 ho.2

def emptyMaps : Maps where
  pids _ := ∅
  metrics := ∅
  events := []

def sameProcess (thread : Fin 2) : UInt64 := 42 * 2 ^ 32 + thread.val.toUInt64

def shortCall (thread : Fin 2) (fn : Probed) : Call (Fin 2) := ⟨thread,fn,droppedSegment 443 40000,1⟩

def longCall (thread : Fin 2) (fn : Probed) : Call (Fin 2) := ⟨thread,fn,{ droppedSegment 80 50000 with len := 60 },2⟩

def differentMaps : List (ProbeOp (Fin 2)) :=
  [.enter (shortCall 0 .nfHookSlow),.enter (longCall 1 .nfNatInetFn),
    .leave 0 .nfHookSlow (-1) 0,.leave 1 .nfNatInetFn 0 1]

theorem differentMaps_attributed :
    Execution.Along (step reportAll sameProcess) Executes ⟨emptyMaps,[]⟩ differentMaps ∧
    Execution.Along (step reportAll sameProcess) (Separate sameProcess) ⟨emptyMaps,[]⟩ differentMaps ∧
    Execution.Along (step reportAll sameProcess) (Attributed reportAll sameProcess) ⟨emptyMaps,[]⟩ differentMaps :=
  have hx : Execution.Along (step reportAll sameProcess) Executes ⟨emptyMaps,[]⟩ differentMaps := by decide +kernel
  have hs : Execution.Along (step reportAll sameProcess) (Separate sameProcess) ⟨emptyMaps,[]⟩ differentMaps := by
    decide +kernel
  ⟨hx,hs,drops_attributed reportAll sameProcess emptyMaps differentMaps hx hs⟩

def sameFunction : List (ProbeOp (Fin 2)) :=
  [.enter (shortCall 0 .nfHookSlow),.enter (longCall 1 .nfHookSlow),
    .leave 0 .nfHookSlow (-1) 0,.leave 1 .nfHookSlow (-1) 1]

def afterSameFunction : Kernel (Fin 2) := Execution.run (step reportAll sameProcess) ⟨emptyMaps,[]⟩ sameFunction

/-- The first return counts the packet of the second call, and the second return counts nothing. -/
theorem sameFunction_not_attributed :
    Execution.Along (step reportAll sameProcess) Executes ⟨emptyMaps,[]⟩ sameFunction ∧
    (afterSameFunction.maps.metric ⟨iptableRuleDrop,-1⟩ 0).bytes = 60 ∧
    (afterSameFunction.maps.metric ⟨iptableRuleDrop,-1⟩ 1).count = 0 ∧
    ¬Execution.Along (step reportAll sameProcess) (Attributed reportAll sameProcess) ⟨emptyMaps,[]⟩ sameFunction := by
  refine ⟨by decide +kernel,by decide +kernel,by decide +kernel,?_⟩
  rintro ⟨_,_,h,_⟩
  have hbytes := congrArg MetricsMapValue.bytes ((h (shortCall 0 .nfHookSlow) rfl).1 ⟨iptableRuleDrop,-1⟩ 0)
  exact absurd hbytes (by decide +kernel)

end Kernel
end Retina.DropReason
