import Retina.Library.Execution

/-! # Restarts of the metrics module

`Reconcile` and `run` of `pkg/module/metrics/metrics_module.go`, with the goroutines that `run` starts: one reads events,
the other one has the ticker and unsubscribes in the end. A step of a goroutine, or of the caller of `Reconcile`, is one
access to what they share. The flag `isRunning` is set by the first goroutine, and `Reconcile` looks at it without the
lock to find out whether there is a run to cancel and to wait for.
-/
namespace Retina.Metrics
variable {Spec : Type*}

inductive ReaderPhase
  | unborn
  | started
  /-- In the loop, with the flag set. -/
  | reading
  /-- The loop has ended and the reader is closed. -/
  | closed
  /-- The flag is reset. -/
  | stopped
  | ended
deriving DecidableEq

inductive TickerPhase
  | unborn
  | ticking
  /-- Calling `Unsubscribe` with what `pubsubPodSub` was. -/
  | leaving (sub : Option ℕ)
  | left
  | ended
deriving DecidableEq

/-- Where the caller of `Reconcile` is. Contexts and subscriptions are numbered. -/
inductive CallerPhase (Spec : Type*)
  | idle
  /-- The flag was set. -/
  | cancelling (spec : Spec)
  | waiting (spec : Spec)
  | locking (spec : Spec)
  | locked (spec : Spec)
  /-- Calling `run`. -/
  | starting (ctx : ℕ)
  /-- The call of `Subscribe` has returned. -/
  | subscribed (ctx sub : ℕ)
  | spawning (ctx : ℕ)
  /-- The first goroutine is started. -/
  | halfway (ctx : ℕ)

def TickerPhase.subscribed : TickerPhase → Bool
  | ticking | leaving _ => true
  | _ => false

def CallerPhase.holdsLock : CallerPhase Spec → Bool
  | locked _ | starting _ | subscribed _ _ | spawning _ | halfway _ => true
  | _ => false

/-- The fields of `Module` that the goroutines share, the subscriptions of `PodCallBackFn`, the contexts and the threads.
Goroutines go by the number of their context. -/
structure Lifecycle (Spec : Type*) where
  currentSpec : Option Spec := none
  isRunning : Bool := false
  /-- The context that `ctxCancel` cancels. -/
  ctxCancel : Option ℕ := none
  pubsubPodSub : Option ℕ := none
  subscriptions : Finset ℕ := ∅
  nextSub : ℕ := 0
  contexts : ℕ := 0
  cancelled : Finset ℕ := ∅
  moduleCancelled : Bool := false
  caller : CallerPhase Spec := .idle
  reader : ℕ → ReaderPhase := fun _ => .unborn
  ticker : ℕ → TickerPhase := fun _ => .unborn

inductive LifecycleThread
  | caller
  | reader (ctx : ℕ)
  | ticker (ctx : ℕ)

inductive LifecycleEvent (Spec : Type*)
  /-- The caller calls `Reconcile`. -/
  | reconcile (spec : Spec)
  | move (thread : LifecycleThread)
  /-- The context of the module is cancelled. -/
  | cancelModule

def LifecycleEvent.isMove : LifecycleEvent Spec → Bool
  | .move _ => true
  | _ => false

namespace Lifecycle

def done (s : Lifecycle Spec) (ctx : ℕ) : Bool := s.moduleCancelled || decide (ctx ∈ s.cancelled)

def wgIsZero (s : Lifecycle Spec) : Bool :=
  decide (∀ ctx < s.contexts, (s.reader ctx = .unborn ∨ s.reader ctx = .ended) ∧
    (s.ticker ctx = .unborn ∨ s.ticker ctx = .ended))

/-- The beginning of `Reconcile`. There is one caller, who does not call before the last call has returned. -/
def reconcile [DecidableEq Spec] (s : Lifecycle Spec) (spec : Spec) : Lifecycle Spec :=
  match s.caller with
  | .idle =>
    if s.currentSpec = some spec then s
    else if s.isRunning then { s with caller := .cancelling spec }
    else { s with caller := .locking spec }
  | _ => s

/-- The rest of `Reconcile`, with `run`. The lists of namespaces and the registry are updated under the lock; they are
not used by the threads. -/
def moveCaller (s : Lifecycle Spec) : Lifecycle Spec :=
  match s.caller with
  | .idle => s
  | .cancelling spec => { s with cancelled := s.cancelled ∪ s.ctxCancel.toFinset, caller := .waiting spec }
  | .waiting spec => if s.wgIsZero then { s with caller := .locking spec } else s
  | .locking spec => { s with caller := .locked spec }
  | .locked spec =>
    { s with
      currentSpec := some spec
      ctxCancel := some s.contexts
      contexts := s.contexts + 1
      caller := .starting s.contexts }
  | .starting ctx =>
    if s.isRunning then { s with caller := .idle }
    else
      { s with
        subscriptions := insert s.nextSub s.subscriptions
        nextSub := s.nextSub + 1
        caller := .subscribed ctx s.nextSub }
  | .subscribed ctx sub => { s with pubsubPodSub := some sub, caller := .spawning ctx }
  | .spawning ctx => { s with reader := Function.update s.reader ctx .started, caller := .halfway ctx }
  | .halfway ctx => { s with ticker := Function.update s.ticker ctx .ticking, caller := .idle }

/-- The loop ends when its context is cancelled; until then each flow that it processes leaves everything as it is. -/
def moveReader (s : Lifecycle Spec) (ctx : ℕ) : Lifecycle Spec :=
  match s.reader ctx with
  | .started =>
    if s.caller.holdsLock then s
    else { s with isRunning := true, reader := Function.update s.reader ctx .reading }
  | .reading => if s.done ctx then { s with reader := Function.update s.reader ctx .closed } else s
  | .closed =>
    if s.caller.holdsLock then s
    else { s with isRunning := false, reader := Function.update s.reader ctx .stopped }
  | .stopped => { s with reader := Function.update s.reader ctx .ended }
  | _ => s

/-- `Unsubscribe` ignores a number that is not registered. -/
def moveTicker (s : Lifecycle Spec) (ctx : ℕ) : Lifecycle Spec :=
  match s.ticker ctx with
  | .ticking =>
    if s.done ctx then { s with ticker := Function.update s.ticker ctx (.leaving s.pubsubPodSub) } else s
  | .leaving sub =>
    { s with
      subscriptions := s.subscriptions \ sub.toFinset
      ticker := Function.update s.ticker ctx .left }
  | .left => { s with ticker := Function.update s.ticker ctx .ended }
  | _ => s

def step [DecidableEq Spec] (s : Lifecycle Spec) : LifecycleEvent Spec → Lifecycle Spec
  | .reconcile spec => s.reconcile spec
  | .move .caller => s.moveCaller
  | .move (.reader ctx) => s.moveReader ctx
  | .move (.ticker ctx) => s.moveTicker ctx
  | .cancelModule => { s with moduleCancelled := true }

/-! ## One loop and one subscription -/

/-- The loop exists from the start of its goroutine on, and its context is not cancelled. -/
def Active (s : Lifecycle Spec) (ctx : ℕ) : Prop :=
  (s.reader ctx = .started ∨ s.reader ctx = .reading) ∧ s.done ctx = false

instance (s : Lifecycle Spec) (ctx : ℕ) : Decidable (s.Active ctx) :=
  inferInstanceAs (Decidable ((s.reader ctx = .started ∨ s.reader ctx = .reading) ∧ s.done ctx = false))

structure AtMostOne (s : Lifecycle Spec) : Prop where
  loops : ∀ ctx ctx', s.Active ctx → s.Active ctx' → ctx = ctx'
  subscriptions : s.subscriptions.card ≤ 1

/-- A call with a new spec that finds the flag unset comes after the goroutines of all earlier runs have unsubscribed. -/
def CalledInTime (s : Lifecycle Spec) : LifecycleEvent Spec → Prop
  | .reconcile spec => s.caller = .idle → s.currentSpec ≠ some spec → s.isRunning = false →
      ∀ ctx, (s.ticker ctx).subscribed = false
  | _ => True

end Lifecycle
end Retina.Metrics
