import Mathlib
import Retina.Library.Execution
import Retina.Library.LockTable
import Retina.PacketParser.Attach

/-! # Events of endpoints

`endpointWatcherCallbackFn` of `pkg/plugin/packetparser/packetparser_linux.go`, called for
several events at once. A call goes through `LoadOrStore`, `Lock`, the work of its event, for a
deleted endpoint the removal of the lock, and `Unlock`; between any two of these steps the other
calls may take theirs. The lock is removed while it is held, and a call that waits for it does
not notice.
-/
namespace Retina.PacketParser

inductive EventType
  | endpointCreated
  | endpointDeleted
  | unknown
deriving DecidableEq

structure EndpointEvent where
  type : EventType
  obj : LinkAttrs
  failures : Failures

namespace Host

def detach (h : Host) (iface : LinkAttrs) : Host :=
  match h.attachmentMap.lookup (ifaceToKey iface) with
  | none => h
  | some (.tcx ingressLink egressLink) =>
    { h.cleanTCX ingressLink egressLink with attachmentMap := h.attachmentMap.erase (ifaceToKey iface) }
  | some (.tc rtnl qdisc) =>
    { h.clean rtnl qdisc with attachmentMap := h.attachmentMap.erase (ifaceToKey iface) }

def handle (h : Host) (tcxSupported : Bool) (event : EndpointEvent) : Host :=
  match event.type with
  | .endpointCreated => h.createQdiscAndAttach tcxSupported event.obj .veth event.failures
  | .endpointDeleted => h.detach event.obj
  | .unknown => h

theorem WellFormed.forget {h : Host} (hw : h.WellFormed) (key : AttachmentKey) :
    { h with attachmentMap := h.attachmentMap.erase key }.WellFormed :=
  hw.of_le le_rfl (fun _ => .inl) (fun _ => .inl) (fun _ _ hl => .inl (FiniteMap.lookup_of_erase hl).2)

theorem WellFormed.handle {h : Host} (hw : h.WellFormed) (tcxSupported : Bool) (event : EndpointEvent) :
    (h.handle tcxSupported event).WellFormed := by
  unfold Host.handle
  cases event.type with
  | endpointCreated => exact hw.createQdiscAndAttach tcxSupported event.obj .veth event.failures
  | unknown => exact hw
  | endpointDeleted =>
    change (h.detach event.obj).WellFormed
    unfold detach
    split
    · exact hw
    · exact ((hw.closeLink _).closeLink _).forget _
    · exact (hw.clean _ _).forget _

end Host

/-- The host, `interfaceLockMap` with its mutexes, and the calls that have done the work of their event. -/
structure Callbacks (τ : Type*) where
  host : Host
  interfaceLockMap : LockTable AttachmentKey τ
  handled : τ → Bool

namespace Callbacks
section Steps
variable {τ : Type*} [DecidableEq τ] (tcxSupported : Bool) (event : τ → EndpointEvent)

def key (t : τ) : AttachmentKey := ifaceToKey (event t).obj

def step (w : Callbacks τ) (t : τ) : Callbacks τ :=
  match w.interfaceLockMap.phase t with
  | .out => { w with interfaceLockMap := w.interfaceLockMap.loadOrStore (key event t) t }
  | .waiting mu => { w with interfaceLockMap := w.interfaceLockMap.lock t mu }
  | .holding mu =>
    if w.handled t then
      if (event t).type = .endpointDeleted then
        { w with interfaceLockMap := w.interfaceLockMap.remove (key event t) t mu }
      else { w with interfaceLockMap := w.interfaceLockMap.unlock t mu }
    else { w with host := w.host.handle tcxSupported (event t), handled := Function.update w.handled t true }
  | .detached mu => { w with interfaceLockMap := w.interfaceLockMap.unlock t mu }
  | .gone => w

/-- The call is between its `mu.Lock` and its `mu.Unlock`. -/
def Inside (w : Callbacks τ) (t : τ) : Prop := (w.interfaceLockMap.phase t).owned.isSome = true

/-- A call does not look its lock up while another one of the interface has removed it and not
unlocked it yet, and does not remove it while another one waits for it. -/
def Unshared (w : Callbacks τ) (t : τ) : Prop :=
  match w.interfaceLockMap.phase t with
  | .out => ∀ u, key event u = key event t → (w.interfaceLockMap.phase u).isDetached = false
  | .holding _ => w.handled t = true → (event t).type = .endpointDeleted →
      ∀ u, key event u = key event t → (w.interfaceLockMap.phase u).isWaiting = false
  | _ => True

instance [Fintype τ] (w : Callbacks τ) (t : τ) : Decidable (w.Unshared event t) := by
  unfold Unshared
  split <;> infer_instance

variable {tcxSupported event}

theorem step_consistent {w : Callbacks τ} {t : τ} (h : w.interfaceLockMap.Consistent (key event))
    (hu : w.Unshared event t) : (w.step tcxSupported event t).interfaceLockMap.Consistent (key event) := by
  unfold step Unshared at *
  cases hp : w.interfaceLockMap.phase t with
  | out =>
    rw [hp] at hu
    exact h.loadOrStore hu
  | waiting mu => exact h.lock hp
  | detached mu => exact h.unlock (by rw [hp]; rfl)
  | gone => exact h
  | holding mu =>
    rw [hp] at hu
    dsimp only
    split_ifs with hh hd
    · exact h.remove hp (hu hh hd)
    · exact h.unlock (by rw [hp]; rfl)
    · exact h

theorem host_step (w : Callbacks τ) (t : τ) : (w.step tcxSupported event t).host = w.host ∨
    (w.step tcxSupported event t).host = w.host.handle tcxSupported (event t) := by
  unfold step
  split
  · exact .inl rfl
  · exact .inl rfl
  · split_ifs
    · exact .inl rfl
    · exact .inl rfl
    · exact .inr rfl
  · exact .inl rfl
  · exact .inl rfl

theorem run_wellFormed {w : Callbacks τ} (h : w.host.WellFormed) (schedule : List τ) :
    (Execution.run (step tcxSupported event) w schedule).host.WellFormed := by
  refine Execution.invariant_of_step (I := fun w : Callbacks τ => w.host.WellFormed) (fun w t hw => ?_) h schedule
  rcases host_step w t with hh | hh <;> rw [hh]
  · exact hw
  · exact hw.handle tcxSupported (event t)

/-- In every interleaving a call that attaches over links leaves both of them or none behind. -/
theorem run_allOrNothingTCX {w : Callbacks τ} (h : w.host.WellFormed) (schedule : List τ) {t : τ}
    (ht : (event t).type = .endpointCreated) :
    let before := Execution.run (step true event) w schedule
    before.host.AllOrNothingTCX (before.step true event t).host (event t).obj := by
  intro before
  have hstep : (before.step true event t).host = before.host ∨
      (before.step true event t).host = before.host.handle true (event t) := host_step before t
  rcases hstep with hh | hh <;> rw [hh]
  · exact .inr ⟨rfl,rfl⟩
  · rw [Host.handle, ht]
    exact Host.attachViaTCX_allOrNothing (run_wellFormed h schedule) (event t).obj .veth (event t).failures

end Steps

/-- The calls of one interface exclude one another in every interleaving whose steps are unshared. -/
theorem inside_unique {τ : Type*} [DecidableEq τ] (tcxSupported : Bool) (event : τ → EndpointEvent) (w : Callbacks τ)
    (hw : w.interfaceLockMap.Untouched) (schedule : List τ)
    (hs : Execution.Along (step tcxSupported event) (Unshared event) w schedule) (t u : τ)
    (hk : ifaceToKey (event t).obj = ifaceToKey (event u).obj)
    (ht : (Execution.run (step tcxSupported event) w schedule).Inside t)
    (hu : (Execution.run (step tcxSupported event) w schedule).Inside u) : t = u := by
  have hc : (Execution.run (step tcxSupported event) w schedule).interfaceLockMap.Consistent (key event) :=
    Execution.invariant (I := fun w => w.interfaceLockMap.Consistent (key event))
      (fun _ _ h hu => step_consistent h hu) hw.consistent hs
  exact hc.exclusive t u hk ht hu

def start (n : ℕ) : Callbacks (Fin n) where
  host := emptyHost
  interfaceLockMap :=
    { table := ∅
      next := 0
      holder := fun _ => none
      phase := fun _ => .out }
  handled _ := false

theorem start_untouched (n : ℕ) : (start n).interfaceLockMap.Untouched := ⟨fun _ => rfl,fun _ => rfl⟩

def createdThenDeleted : Fin 3 → EndpointEvent :=
  ![⟨.endpointCreated,podIface,noFailures⟩,⟨.endpointCreated,podIface,noFailures⟩,
    ⟨.endpointDeleted,podIface,noFailures⟩]

def inTurn : List (Fin 3) := [0,0,1,1,0,0,1,1,1,2,2]

theorem inTurn_unique : Execution.Along (step false createdThenDeleted) (Unshared createdThenDeleted) (start 3) inTurn ∧
    ∀ t, (Execution.run (step false createdThenDeleted) (start 3) inTurn).Inside t → t = 2 :=
  have hs : Execution.Along (step false createdThenDeleted) (Unshared createdThenDeleted) (start 3) inTurn := by
    decide +kernel
  ⟨hs,fun t ht => inside_unique false createdThenDeleted (start 3) (start_untouched 3) inTurn hs t 2
    (by fin_cases t <;> rfl) ht (by unfold Inside; decide +kernel)⟩

def deletedThenCreated : Fin 3 → EndpointEvent :=
  ![⟨.endpointDeleted,podIface,noFailures⟩,⟨.endpointCreated,podIface,noFailures⟩,
    ⟨.endpointCreated,podIface,noFailures⟩]

def overlapping : List (Fin 3) := [0,0,1,0,0,0,2,2,1]

theorem overlapping_both_inside :
    ifaceToKey (deletedThenCreated 1).obj = ifaceToKey (deletedThenCreated 2).obj ∧
    (Execution.run (step false deletedThenCreated) (start 3) overlapping).Inside 1 ∧
    (Execution.run (step false deletedThenCreated) (start 3) overlapping).Inside 2 := by
  unfold Inside
  decide +kernel

end Callbacks

end Retina.PacketParser
