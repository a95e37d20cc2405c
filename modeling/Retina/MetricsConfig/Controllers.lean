import Retina.Library.Execution
import Retina.Library.FiniteMap
import Retina.MetricsConfig.Spec

/-! # The two controllers of metrics configurations

`pkg/controllers/operator/metricsconfiguration` accepts at most one resource, the first that it sees,
and `pkg/controllers/daemon/metricsconfiguration` applies the accepted resource to the metrics module
of its node. Both keep the resource in a map of their own. A change of a resource puts its name
into the queues of both controllers, and all requests to the API server succeed.
-/
namespace Retina.MetricsConfig
open Execution

inductive MetricsState
  | initialized
  | accepted
  | errored
  | warning
deriving DecidableEq

structure MetricsStatus where
  state : MetricsState
  reason : String
deriving DecidableEq

structure MetricsConfiguration where
  name : String
  spec : MetricsSpec
  status : MetricsStatus
deriving DecidableEq

def compareMetricsConfig (old new : Option MetricsConfiguration) : Bool :=
  match old, new with
  | none, none => true
  | some old, some new => old.name == new.name && metricsSpecCompare old.spec new.spec
  | _, _ => false

abbrev MetricsCache := Finmap (fun _ : String => MetricsConfiguration)

/-- The resources, the queues and caches of the controllers, and the spec that the metrics module was last
reconciled with. -/
structure World where
  cluster : MetricsCache
  operatorQueue : Finset String
  operatorCache : MetricsCache
  daemonQueue : Finset String
  daemonCache : MetricsCache
  applied : Option MetricsSpec

namespace World

def start : World := ⟨∅,∅,∅,∅,∅,none⟩

def write (w : World) (cluster : MetricsCache) (name : String) : World :=
  { w with
    cluster := cluster
    operatorQueue := insert name w.operatorQueue
    daemonQueue := insert name w.daemonQueue }

def Admits (cache : MetricsCache) (name : String) : Prop := cache = ∅ ∨ cache.lookup name ≠ none

instance (cache : MetricsCache) (name : String) : Decidable (Admits cache name) := inferInstanceAs (Decidable (_ ∨ _))

section Operator
variable (parseDuration : String → Except String ℤ)

def operatorVerdict (cache : MetricsCache) (name : String) (mcc : MetricsConfiguration) : MetricsStatus × MetricsCache :=
  if Admits cache name then
    match metricsCRD parseDuration mcc.name mcc.spec with
    | some err => (⟨.errored,"Validation of CRD failed with: " ++ err⟩,cache)
    | none =>
      let status : MetricsStatus := ⟨.accepted,"CRD is Accepted"⟩
      (status,cache.insert name { mcc with status })
  else
    (⟨.errored,"Metrics Configuration is already configured on this cluster, cannot reconcile this new config."⟩,cache)

/-- `Reconcile` of the operator. A status that stays the same is no change of the resource. -/
def operatorReconcile (w : World) (name : String) : World :=
  match w.cluster.lookup name with
  | none => { w with operatorCache := w.operatorCache.erase name }
  | some mcc =>
    let verdict := operatorVerdict parseDuration w.operatorCache name mcc
    let w := { w with operatorCache := verdict.2 }
    if verdict.1 = mcc.status then w else w.write (w.cluster.insert name { mcc with status := verdict.1 }) name

end Operator

def daemonReconcile (w : World) (name : String) : World :=
  match w.cluster.lookup name with
  | none => { w with daemonCache := w.daemonCache.erase name }
  | some mcc =>
    if Admits w.daemonCache name then
      if mcc.status.state ≠ .accepted then w
      else if compareMetricsConfig (w.daemonCache.lookup name) (some mcc) then w
      else { w with daemonCache := w.daemonCache.insert name mcc, applied := some mcc.spec }
    else w

/-- The daemon changes nothing but its cache and the metrics module. -/
theorem daemonReconcile_eq (w : World) (name : String) :
    ∃ cache applied, daemonReconcile w name = { w with daemonCache := cache, applied := applied } := by
  unfold daemonReconcile
  split
  · exact ⟨_,w.applied,rfl⟩
  · split_ifs
    · exact ⟨w.daemonCache,w.applied,rfl⟩
    · exact ⟨w.daemonCache,w.applied,rfl⟩
    · exact ⟨_,_,rfl⟩
    · exact ⟨w.daemonCache,w.applied,rfl⟩

inductive Change
  | create (name : String) (spec : MetricsSpec)
  | update (name : String) (spec : MetricsSpec)
  | delete (name : String)

/-- A new resource has the default status. -/
def change (w : World) : Change → World
  | .create name spec =>
    match w.cluster.lookup name with
    | none => w.write (w.cluster.insert name ⟨name,spec,⟨.initialized,""⟩⟩) name
    | some _ => w
  | .update name spec =>
    match w.cluster.lookup name with
    | none => w
    | some mcc => w.write (w.cluster.insert name { mcc with spec }) name
  | .delete name =>
    match w.cluster.lookup name with
    | none => w
    | some _ => w.write (w.cluster.erase name) name

inductive Op
  | change (c : Change)
  | restartOperator
  | reconcileOperator (name : String)
  | reconcileDaemon (name : String)

/-- The operator starts with an empty cache and sees all resources. -/
def step (parseDuration : String → Except String ℤ) (w : World) : Op → World
  | .change c => w.change c
  | .restartOperator => { w with operatorCache := ∅, operatorQueue := w.cluster.keys }
  | .reconcileOperator name =>
    if name ∈ w.operatorQueue then
      operatorReconcile parseDuration { w with operatorQueue := w.operatorQueue.erase name } name
    else w
  | .reconcileDaemon name =>
    if name ∈ w.daemonQueue then daemonReconcile { w with daemonQueue := w.daemonQueue.erase name } name else w

/-- A change is a write of one resource. -/
theorem change_cases (w : World) (c : Change) :
    w.change c = w ∨ ∃ cluster name, (∀ n, n ≠ name → cluster.lookup n = w.cluster.lookup n) ∧
      w.change c = w.write cluster name := by
  cases c with
  | create name spec =>
    rw [change]
    split
    · exact .inr ⟨_,name,fun n hn => Finmap.lookup_insert_of_ne _ hn,rfl⟩
    · exact .inl rfl
  | update name spec =>
    rw [change]
    split
    · exact .inl rfl
    · exact .inr ⟨_,name,fun n hn => Finmap.lookup_insert_of_ne _ hn,rfl⟩
  | delete name =>
    rw [change]
    split
    · exact .inl rfl
    · exact .inr ⟨_,name,fun n hn => Finmap.lookup_erase_ne hn,rfl⟩

def Settled (w : World) : Prop := w.operatorQueue = ∅ ∧ w.daemonQueue = ∅

instance (w : World) : Decidable w.Settled := inferInstanceAs (Decidable (_ ∧ _))

def Accepted (w : World) (name : String) (mcc : MetricsConfiguration) : Prop :=
  w.cluster.lookup name = some mcc ∧ mcc.status.state = .accepted

instance (w : World) (name : String) (mcc : MetricsConfiguration) : Decidable (w.Accepted name mcc) :=
  inferInstanceAs (Decidable (_ ∧ _))

def Agreed (w : World) : Prop :=
  (∀ m n a b, w.Accepted m a → w.Accepted n b → m = n) ∧ ∀ n mcc, w.Accepted n mcc → w.applied = some mcc.spec

/-- A daemon that comes to an accepted resource has room for it, and tells its spec from the spec that it has. -/
def Unhindered (w : World) : Op → Prop
  | .reconcileDaemon name =>
    ∀ mcc ∈ w.cluster.lookup name, mcc.status.state = .accepted →
      Admits w.daemonCache name ∧
        ∀ cached ∈ w.daemonCache.lookup name, compareMetricsConfig (some cached) (some mcc) = true →
          cached.spec = mcc.spec
  | _ => True

instance (w : World) : (op : Op) → Decidable (w.Unhindered op)
  | .change _ => inferInstanceAs (Decidable True)
  | .restartOperator => inferInstanceAs (Decidable True)
  | .reconcileOperator _ => inferInstanceAs (Decidable True)
  | .reconcileDaemon _ => by unfold Unhindered; infer_instance

end World
end Retina.MetricsConfig
