import Retina.Library.Execution
import Retina.Library.Ring

/-! # The event loop of the metrics module

Each run of the module opens a reader on the ring to which the enricher exports its
flows, and hands what it reads to every metric object of the registry. A new
specification ends the loop and starts another one, while the objects stay as long as
the context options do. The new reader begins with the oldest flow that the ring retains.
How the ring works is a parameter.
-/
namespace Retina.Metrics
variable {α : Type*}

inductive LoopPhase
  | idle
  | starting
  | running (reader : ℕ)
  /-- The context of the loop is cancelled, but the loop may get another event before it notices. -/
  | stopping (reader : ℕ)
deriving DecidableEq

/-- The flag `isRunning` is set while there is a reader. -/
def LoopPhase.reader? : LoopPhase → Option ℕ
  | .running reader => some reader
  | .stopping reader => some reader
  | _ => none

/-- For each metric object of the registry the numbers of the flows that it was given. -/
structure EventLoop (α : Type*) where
  outputRing : Ring α
  registry : Finset String
  phase : LoopPhase := .idle
  processed : String → List ℕ := fun _ => []
  lostEvents : ℕ := 0

inductive LoopOp (α : Type*)
  | exportFlow (flow : α)
  | reconcile
  | next
  | exit
  | openReader

namespace EventLoop
variable (b : Ring.Behaviour)

def processFlow (s : EventLoop α) (i : ℕ) : EventLoop α :=
  { s with processed := fun name => if name ∈ s.registry then s.processed name ++ [i] else s.processed name }

def handle (s : EventLoop α) (reader : ℕ) : Ring.Read α → EventLoop α
  | .event _ => s.processFlow reader
  | .lost _ numEventsLost => { s with lostEvents := s.lostEvents + numEventsLost }
  | .wait => s

def handleNext (s : EventLoop α) : EventLoop α :=
  match s.phase with
  | .running reader =>
    { s.handle reader (s.outputRing.readFrom b reader) with
      phase := .running (reader + (s.outputRing.readFrom b reader).advance) }
  | .stopping reader =>
    { s.handle reader (s.outputRing.readFrom b reader) with
      phase := .stopping (reader + (s.outputRing.readFrom b reader).advance) }
  | _ => s

/-- A call of `Reconcile` that has to wait for another one changes nothing. The loop that it ends is
followed by a call of `run`, and the new loop opens its reader some time later. -/
def step (s : EventLoop α) : LoopOp α → EventLoop α
  | .exportFlow flow => { s with outputRing := s.outputRing.write flow }
  | .reconcile =>
    match s.phase with
    | .idle => { s with phase := .starting }
    | .running reader => { s with phase := .stopping reader }
    | _ => s
  | .next => s.handleNext b
  | .exit =>
    match s.phase with
    | .stopping _ => { s with phase := .starting }
    | _ => s
  | .openReader =>
    match s.phase with
    | .starting => { s with phase := .running (s.outputRing.oldestWrite b) }
    | _ => s

/-- A reader is opened only after the ring has dropped every flow that an object was given. -/
def Fresh (s : EventLoop α) : LoopOp α → Prop
  | .openReader => ∀ name, ∀ i ∈ s.processed name, i < s.outputRing.oldestWrite b
  | _ => True

structure Ordered (s : EventLoop α) : Prop where
  ascending : ∀ name, (s.processed name).Pairwise (· < ·)
  passed : ∀ reader, s.phase.reader? = some reader → ∀ name, Ring.Passed (s.processed name) reader

variable {b} {s : EventLoop α}

/-- A change of the phase that opens no reader. -/
theorem Ordered.with_phase (hs : s.Ordered) {phase : LoopPhase}
    (h : ∀ reader, phase.reader? = some reader → s.phase.reader? = some reader) :
    ({ s with phase := phase } : EventLoop α).Ordered :=
  ⟨hs.ascending,fun reader hreader => hs.passed reader (h reader hreader)⟩

theorem processed_handle (s : EventLoop α) (reader : ℕ) (read : Ring.Read α) (name : String) :
    (s.handle reader read).processed name =
      if name ∈ s.registry then read.log (s.processed name) reader else s.processed name := by
  cases read <;> simp [handle, processFlow, Ring.Read.log]

theorem passed_handle {reader : ℕ} {name : String} (h : Ring.Passed (s.processed name) reader) (read : Ring.Read α) :
    Ring.Passed ((s.handle reader read).processed name) (reader + read.advance) := by
  rw [processed_handle]
  split
  · exact h.log read
  · exact h.mono (by omega)

theorem Ordered.of_passed {reader : ℕ} (hphase : s.phase.reader? = some reader)
    (h : ∀ name, Ring.Passed (s.processed name) reader) : s.Ordered := by
  refine ⟨fun name => (h name).ascending,?_⟩
  intro reader' hreader
  cases hphase.symm.trans hreader
  exact h

theorem Ordered.handleNext (hs : s.Ordered) : (s.handleNext b).Ordered := by
  unfold EventLoop.handleNext
  cases hphase : s.phase with
  | idle => exact hs
  | starting => exact hs
  | running reader =>
    refine .of_passed rfl fun name => ?_
    exact passed_handle (hs.passed reader (by simp [hphase, LoopPhase.reader?]) name) _
  | stopping reader =>
    refine .of_passed rfl fun name => ?_
    exact passed_handle (hs.passed reader (by simp [hphase, LoopPhase.reader?]) name) _

theorem Ordered.step (hs : s.Ordered) {op : LoopOp α} (hop : s.Fresh b op) : (s.step b op).Ordered := by
  cases op with
  | exportFlow flow => exact ⟨hs.ascending,hs.passed⟩
  | next => exact hs.handleNext
  | reconcile =>
    cases hphase : s.phase <;> simp only [EventLoop.step, hphase]
    · exact hs.with_phase (by simp [LoopPhase.reader?])
    · exact hs
    · exact hs.with_phase (by simp [LoopPhase.reader?, hphase])
    · exact hs
  | exit =>
    cases hphase : s.phase <;> simp only [EventLoop.step, hphase]
    · exact hs
    · exact hs
    · exact hs
    · exact hs.with_phase (by simp [LoopPhase.reader?])
  | openReader =>
    cases hphase : s.phase <;> simp only [EventLoop.step, hphase]
    · exact hs
    · exact .of_passed rfl fun name => ⟨hs.ascending name,hop name⟩
    · exact hs
    · exact hs

end EventLoop

/-- No flow is counted twice if each reader is opened only after the ring has dropped what was counted before. -/
theorem flows_counted_once (b : Ring.Behaviour) (ring : Ring α) (registry : Finset String) (ops : List (LoopOp α))
    (h : Execution.Along (EventLoop.step b) (EventLoop.Fresh b) { outputRing := ring, registry := registry } ops)
    (name : String) (i : ℕ) :
    ((Execution.run (EventLoop.step b) { outputRing := ring, registry := registry } ops).processed name).count i ≤ 1 := by
  have hstart : ({ outputRing := ring, registry := registry } : EventLoop α).Ordered :=
    ⟨fun _ => List.Pairwise.nil,fun _ h => by cases h⟩
  have hordered : (Execution.run (EventLoop.step b) { outputRing := ring, registry := registry } ops).Ordered :=
    Execution.invariant (fun _ _ hs hop => hs.step hop) hstart h
  have hnodup :
      ((Execution.run (EventLoop.step b) { outputRing := ring, registry := registry } ops).processed name).Nodup :=
    (hordered.ascending name).imp fun hlt => hlt.ne
  exact List.nodup_iff_count_le_one.mp hnodup i

section Sample

/-- A ring that holds back the event that was written last. -/
def lastHeldBack : Ring.Behaviour where
  oldestWrite capacity written := written - capacity
  next capacity written reader :=
    if reader < written - capacity then .lost (written - capacity - reader) (written - capacity - reader)
    else if reader + 1 < written then .event ()
    else .wait
  oldestWrite_le _ _ := Nat.sub_le _ _
  event_lt h := by
    split_ifs at h
    omega
  lost_le h := by
    split_ifs at h
    cases h
    omega

def enricherRing : Ring α := { capacity := 1023 }

def firstLoop : List (LoopOp String) :=
  [.reconcile,.openReader,.exportFlow "first",.exportFlow "second",.next]

def secondLoop : List (LoopOp String) := [.reconcile,.exit,.openReader,.next]

end Sample

/-- The second loop counts the first flow again. -/
theorem flow_counted_twice :
    ((Execution.run (EventLoop.step lastHeldBack) { outputRing := enricherRing, registry := {"forward"} }
      (firstLoop ++ secondLoop)).processed "forward").count 0 = 2 := by decide

theorem flows_counted_once_first_loop :
    ((Execution.run (EventLoop.step lastHeldBack) { outputRing := enricherRing, registry := {"forward"} }
      firstLoop).processed "forward").count 0 = 1 := by
  have hle := flows_counted_once lastHeldBack enricherRing {"forward"} firstLoop ?_ "forward" 0
  have hpos : 0 < ((Execution.run (EventLoop.step lastHeldBack) { outputRing := enricherRing, registry := {"forward"} }
      firstLoop).processed "forward").count 0 := by decide
  · omega
  · refine ⟨trivial,?_,trivial,trivial,trivial,trivial⟩
    intro name i hi
    exact absurd hi List.not_mem_nil

end Retina.Metrics
