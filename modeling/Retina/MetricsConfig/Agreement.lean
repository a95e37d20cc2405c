import Retina.MetricsConfig.Controllers

/-! # Agreement of operator and daemon

The operator accepts at most one resource in every run. The daemon holds the spec of the accepted
resource, if it had room for that resource whenever it came to it.
-/
namespace Retina.MetricsConfig.World
open Execution FiniteMap

def Single (cache : MetricsCache) : Prop := ∀ m n, cache.lookup m ≠ none → cache.lookup n ≠ none → m = n

theorem single_empty : Single ∅ := by
  intro m n hm
  exact absurd (Finmap.lookup_empty m) hm

theorem Single.erase {cache : MetricsCache} (h : Single cache) (name : String) : Single (cache.erase name) := by
  intro m n hm hn
  rw [lookup_erase_eq_ite] at hm hn
  split at hm
  · exact absurd rfl hm
  · split at hn
    · exact absurd rfl hn
    · exact h m n hm hn

/-- The only resource of a cache that admits a name has that name. -/
theorem Single.eq_of_admits {cache : MetricsCache} (h : Single cache) {name : String} (hadmits : Admits cache name)
    {n : String} (hn : cache.lookup n ≠ none) : n = name := by
  rcases hadmits with hempty | hname
  · rw [hempty, Finmap.lookup_empty] at hn
    exact absurd rfl hn
  · exact h n name hn hname

theorem Single.insert {cache : MetricsCache} (h : Single cache) {name : String} (hadmits : Admits cache name)
    (mcc : MetricsConfiguration) : Single (cache.insert name mcc) := by
  have heq : ∀ n, (cache.insert name mcc).lookup n ≠ none → n = name := by
    intro n hn
    by_cases hname : n = name
    · exact hname
    · rw [Finmap.lookup_insert_of_ne _ hname] at hn
      exact h.eq_of_admits hadmits hn
  intro m n hm hn
  rw [heq m hm, heq n hn]

/-! ## The operator -/

/-- Resources that the operator has accepted are in its cache, until it has to look at them again. -/
structure OperatorHolds (w : World) : Prop where
  single : Single w.operatorCache
  seen : ∀ n mcc, w.Accepted n mcc → n ∉ w.operatorQueue → w.operatorCache.lookup n ≠ none

theorem OperatorHolds.write {w : World} (h : w.OperatorHolds) {cluster : MetricsCache} {name : String}
    (hother : ∀ n, n ≠ name → cluster.lookup n = w.cluster.lookup n) : (w.write cluster name).OperatorHolds where
  single := h.single
  seen := by
    rintro n mcc ⟨hlookup,hstate⟩ hqueue
    obtain ⟨hne,hqueue⟩ : n ≠ name ∧ n ∉ w.operatorQueue := by simpa [World.write] using hqueue
    exact h.seen n mcc ⟨(hother n hne).symm.trans hlookup,hstate⟩ hqueue

section Operator
variable {parseDuration : String → Except String ℤ}

/-- The operator accepts a resource and keeps it, or it refuses it. -/
theorem operatorVerdict_cases (cache : MetricsCache) (name : String) (mcc : MetricsConfiguration) :
    (operatorVerdict parseDuration cache name mcc).1.state = .errored ∧
        (operatorVerdict parseDuration cache name mcc).2 = cache ∨
      Admits cache name ∧ ∃ kept, (operatorVerdict parseDuration cache name mcc).2 = cache.insert name kept := by
  unfold operatorVerdict
  split
  · rename_i hadmits
    split
    · exact .inl ⟨rfl,rfl⟩
    · exact .inr ⟨hadmits,_,rfl⟩
  · exact .inl ⟨rfl,rfl⟩

theorem single_operatorVerdict {cache : MetricsCache} (h : Single cache) (name : String) (mcc : MetricsConfiguration) :
    Single (operatorVerdict parseDuration cache name mcc).2 := by
  rcases operatorVerdict_cases cache name mcc with ⟨-,heq⟩ | ⟨hadmits,kept,heq⟩
  · rw [heq]
    exact h
  · rw [heq]
    exact h.insert hadmits kept

theorem lookup_operatorVerdict {cache : MetricsCache} {name : String} {mcc : MetricsConfiguration}
    (h : (operatorVerdict parseDuration cache name mcc).1.state = .accepted) :
    (operatorVerdict parseDuration cache name mcc).2.lookup name ≠ none := by
  rcases operatorVerdict_cases cache name mcc with ⟨hstate,-⟩ | ⟨-,kept,heq⟩
  · rw [hstate] at h
    cases h
  · rw [heq, Finmap.lookup_insert]
    exact Option.some_ne_none _

theorem lookup_operatorVerdict_of_ne_none {cache : MetricsCache} {n : String} (hn : cache.lookup n ≠ none) (name : String)
    (mcc : MetricsConfiguration) : (operatorVerdict parseDuration cache name mcc).2.lookup n ≠ none := by
  rcases operatorVerdict_cases cache name mcc with ⟨-,heq⟩ | ⟨-,kept,heq⟩
  · rw [heq]
    exact hn
  · rw [heq, lookup_insert_eq_ite]
    split
    · exact Option.some_ne_none _
    · exact hn

theorem OperatorHolds.reconcile {w : World} (h : w.OperatorHolds) (name : String) :
    (operatorReconcile parseDuration { w with operatorQueue := w.operatorQueue.erase name } name).OperatorHolds := by
  unfold operatorReconcile
  cases hlookup : w.cluster.lookup name with
  | none =>
    refine ⟨h.single.erase name,?_⟩
    rintro n mcc ⟨hn,hstate⟩ hqueue
    have hne : n ≠ name := by
      rintro rfl
      rw [hlookup] at hn
      cases hn
    rw [Finmap.lookup_erase_ne hne]
    exact h.seen n mcc ⟨hn,hstate⟩ (by simpa [hne] using hqueue)
  | some mcc =>
    dsimp only
    split
    · rename_i hstatus
      refine ⟨single_operatorVerdict h.single name mcc,?_⟩
      rintro n mcc' ⟨hn,hstate⟩ hqueue
      by_cases hne : n = name
      · subst hne
        cases hlookup.symm.trans hn
        exact lookup_operatorVerdict (hstatus ▸ hstate)
      · exact lookup_operatorVerdict_of_ne_none (h.seen n mcc' ⟨hn,hstate⟩ (by simpa [hne] using hqueue)) name mcc
    · refine ⟨single_operatorVerdict h.single name mcc,?_⟩
      rintro n mcc' ⟨hn,hstate⟩ hqueue
      obtain ⟨hne,hqueue⟩ : n ≠ name ∧ n ∉ w.operatorQueue := by
        have hmem : ¬(n = name ∨ n ≠ name ∧ n ∈ w.operatorQueue) := by simpa [World.write] using hqueue
        tauto
      refine lookup_operatorVerdict_of_ne_none (h.seen n mcc' ⟨?_,hstate⟩ hqueue) name mcc
      rw [← hn]
      exact (Finmap.lookup_insert_of_ne _ hne).symm

theorem OperatorHolds.step {w : World} (h : w.OperatorHolds) (op : Op) :
    (w.step parseDuration op).OperatorHolds := by
  cases op with
  | change c =>
    rw [World.step]
    rcases w.change_cases c with heq | ⟨cluster,name,hother,heq⟩
    · rw [heq]
      exact h
    · rw [heq]
      exact h.write hother
  | restartOperator =>
    refine ⟨single_empty,?_⟩
    rintro n mcc ⟨hn,-⟩ hqueue
    exact absurd (Finmap.mem_keys.mpr (Finmap.mem_of_lookup_eq_some hn)) hqueue
  | reconcileOperator name =>
    rw [World.step]
    split
    · exact h.reconcile name
    · exact h
  | reconcileDaemon name =>
    rw [World.step]
    split
    · obtain ⟨cache,applied,heq⟩ := daemonReconcile_eq { w with daemonQueue := w.daemonQueue.erase name } name
      rw [heq]
      exact ⟨h.single,h.seen⟩
    · exact h

/-! ## The daemon -/

/-- The daemon holds what it has applied last, and accepted resources that it need not look at again. -/
structure DaemonHolds (w : World) : Prop where
  single : Single w.daemonCache
  applied : ∀ n cached, w.daemonCache.lookup n = some cached → w.applied = some cached.spec
  seen : ∀ n mcc, w.Accepted n mcc → n ∉ w.daemonQueue →
    ∃ cached, w.daemonCache.lookup n = some cached ∧ cached.spec = mcc.spec

theorem DaemonHolds.write {w : World} (h : w.DaemonHolds) {cluster : MetricsCache} {name : String}
    (hother : ∀ n, n ≠ name → cluster.lookup n = w.cluster.lookup n) : (w.write cluster name).DaemonHolds where
  single := h.single
  applied := h.applied
  seen := by
    rintro n mcc ⟨hlookup,hstate⟩ hqueue
    obtain ⟨hne,hqueue⟩ : n ≠ name ∧ n ∉ w.daemonQueue := by simpa [World.write] using hqueue
    exact h.seen n mcc ⟨(hother n hne).symm.trans hlookup,hstate⟩ hqueue

/-- The operator touches nothing of the daemon but its queue. -/
theorem DaemonHolds.operatorReconcile {w : World} (h : w.DaemonHolds) (name : String) :
    (operatorReconcile parseDuration w name).DaemonHolds := by
  unfold World.operatorReconcile
  split
  · exact ⟨h.single,h.applied,h.seen⟩
  · rename_i mcc _
    dsimp only
    have hcache : { w with operatorCache := (operatorVerdict parseDuration w.operatorCache name mcc).2 }.DaemonHolds :=
      ⟨h.single,h.applied,h.seen⟩
    split
    · exact hcache
    · exact hcache.write fun n hn => Finmap.lookup_insert_of_ne _ hn

/-- A resource that is gone, is not accepted or is held already leaves the daemon as it is. -/
theorem DaemonHolds.skip {w : World} (h : w.DaemonHolds) (name : String)
    (hname : ∀ mcc, w.Accepted name mcc → ∃ cached, w.daemonCache.lookup name = some cached ∧ cached.spec = mcc.spec) :
    { w with daemonQueue := w.daemonQueue.erase name }.DaemonHolds where
  single := h.single
  applied := h.applied
  seen := by
    intro n mcc hn hqueue
    by_cases hne : n = name
    · subst hne
      exact hname mcc hn
    · exact h.seen n mcc hn (by simpa [hne] using hqueue)

theorem DaemonHolds.apply {w : World} (h : w.DaemonHolds) {name : String} {mcc : MetricsConfiguration}
    (hlookup : w.cluster.lookup name = some mcc) (hadmits : Admits w.daemonCache name) :
    { w with
      daemonQueue := w.daemonQueue.erase name
      daemonCache := w.daemonCache.insert name mcc
      applied := some mcc.spec }.DaemonHolds where
  single := h.single.insert hadmits mcc
  applied := by
    intro n cached hn
    rcases lookup_of_insert hn with ⟨-,rfl⟩ | ⟨hne,hold⟩
    · rfl
    · exact absurd (h.single.eq_of_admits hadmits (hold ▸ Option.some_ne_none cached)) hne
  seen := by
    rintro n mcc' ⟨hn,hstate⟩ hqueue
    by_cases hne : n = name
    · subst hne
      cases hlookup.symm.trans hn
      exact ⟨mcc,Finmap.lookup_insert _,rfl⟩
    · obtain ⟨cached,hcached,-⟩ := h.seen n mcc' ⟨hn,hstate⟩ (by simpa [hne] using hqueue)
      exact absurd (h.single.eq_of_admits hadmits (hcached ▸ Option.some_ne_none cached)) hne

theorem DaemonHolds.reconcile {w : World} (h : w.DaemonHolds) {name : String}
    (hunhindered : w.Unhindered (.reconcileDaemon name)) :
    (daemonReconcile { w with daemonQueue := w.daemonQueue.erase name } name).DaemonHolds := by
  unfold daemonReconcile
  cases hlookup : w.cluster.lookup name with
  | none =>
    have hskip := h.skip name fun mcc hmcc => absurd (hlookup.symm.trans hmcc.1) nofun
    refine ⟨h.single.erase name,?_,?_⟩
    · intro n cached hn
      exact h.applied n cached (lookup_of_erase hn).2
    · rintro n mcc ⟨hn,hstate⟩ hqueue
      obtain ⟨cached,hcached,hspec⟩ := hskip.seen n mcc ⟨hn,hstate⟩ hqueue
      have hne : n ≠ name := by
        rintro rfl
        cases hlookup.symm.trans hn
      exact ⟨cached,(Finmap.lookup_erase_ne hne).trans hcached,hspec⟩
  | some mcc =>
    dsimp only
    by_cases hstate : mcc.status.state = .accepted
    · obtain ⟨hadmits,hcompare⟩ := hunhindered mcc hlookup hstate
      rw [if_pos hadmits, if_neg (not_not.mpr hstate)]
      split
      · rename_i hsame
        refine h.skip name fun mcc' hmcc' => ?_
        cases hlookup.symm.trans hmcc'.1
        cases hcached : w.daemonCache.lookup name with
        | none =>
          rw [hcached] at hsame
          cases hsame
        | some cached =>
          rw [hcached] at hsame
          exact ⟨cached,rfl,hcompare cached hcached hsame⟩
      · exact h.apply hlookup hadmits
    · have hskip := h.skip name fun mcc' hmcc' => by
        cases hlookup.symm.trans hmcc'.1
        exact absurd hmcc'.2 hstate
      rw [if_pos hstate, ite_self]
      exact hskip

theorem DaemonHolds.step {w : World} (h : w.DaemonHolds) {op : Op} (hunhindered : w.Unhindered op) :
    (w.step parseDuration op).DaemonHolds := by
  cases op with
  | change c =>
    rw [World.step]
    rcases w.change_cases c with heq | ⟨cluster,name,hother,heq⟩
    · rw [heq]
      exact h
    · rw [heq]
      exact h.write hother
  | restartOperator => exact ⟨h.single,h.applied,h.seen⟩
  | reconcileOperator name =>
    rw [World.step]
    split
    · have hqueue : { w with operatorQueue := w.operatorQueue.erase name }.DaemonHolds := ⟨h.single,h.applied,h.seen⟩
      exact hqueue.operatorReconcile name
    · exact h
  | reconcileDaemon name =>
    rw [World.step]
    split
    · exact h.reconcile hunhindered
    · exact h

/-- The operator alone: in every run, when it has seen all changes, at most one resource is accepted. -/
theorem accepted_unique (ops : List Op) (hsettled : (run (step parseDuration) start ops).operatorQueue = ∅)
    {m n : String} {a b : MetricsConfiguration} (ha : (run (step parseDuration) start ops).Accepted m a)
    (hb : (run (step parseDuration) start ops).Accepted n b) : m = n := by
  have hstart : start.OperatorHolds := ⟨single_empty,fun n mcc hn => absurd hn.1 (by simp [start])⟩
  have hstep (w : World) (op : Op) (h : w.OperatorHolds) : (w.step parseDuration op).OperatorHolds := h.step op
  have hholds := invariant_of_step (I := OperatorHolds) hstep hstart ops
  refine hholds.single m n (hholds.seen m a ha ?_) (hholds.seen n b hb ?_)
  · rw [hsettled]
    exact Finset.notMem_empty m
  · rw [hsettled]
    exact Finset.notMem_empty n

end Operator

/-- Operator and daemon agree when they have seen all changes, if the daemon was never hindered. -/
theorem settled_agreed (parseDuration : String → Except String ℤ) (ops : List Op)
    (hunhindered : Along (step parseDuration) Unhindered start ops)
    (hsettled : (run (step parseDuration) start ops).Settled) : (run (step parseDuration) start ops).Agreed := by
  have hstart : start.DaemonHolds :=
    ⟨single_empty,fun n cached hn => absurd hn (by simp [start]),fun n mcc hn => absurd hn.1 (by simp [start])⟩
  have hholds := invariant (I := DaemonHolds) (fun _ _ h hop => h.step hop) hstart hunhindered
  refine ⟨fun m n a b => accepted_unique ops hsettled.1,?_⟩
  intro n mcc hn
  obtain ⟨cached,hcached,hspec⟩ := hholds.seen n mcc hn (by rw [hsettled.2]; exact Finset.notMem_empty n)
  rw [hholds.applied n cached hcached, hspec]

/-! ## Two histories -/

def noDurations (_ : String) : Except String ℤ := .error "time: invalid duration"

def changedSpec : List Op :=
  [.change (.create "a" (dropSpec ["ip"])),.reconcileOperator "a",.reconcileOperator "a",.reconcileDaemon "a",
    .change (.update "a" (dropSpec ["pod"])),.reconcileDaemon "a",.reconcileOperator "a"]

theorem changedSpec_agreed :
    (run (step noDurations) start changedSpec).Settled ∧ (run (step noDurations) start changedSpec).Agreed :=
  ⟨by decide +kernel,settled_agreed noDurations changedSpec (by decide +kernel) (by decide +kernel)⟩

def restartedOperator : List Op :=
  [.change (.create "a" (dropSpec ["ip"])),.reconcileOperator "a",.reconcileDaemon "a",.reconcileOperator "a",
    .change (.create "b" (dropSpec ["pod"])),.reconcileOperator "b",.reconcileOperator "b",.restartOperator,
    .reconcileOperator "b",.reconcileOperator "a",.reconcileOperator "b",.reconcileOperator "a",
    .reconcileDaemon "b",.reconcileDaemon "a"]

/-- The second resource is accepted, and the spec of the first one is still applied. -/
theorem restartedOperator_not_agreed :
    (run (step noDurations) start restartedOperator).Settled ∧
      (run (step noDurations) start restartedOperator).Accepted "b" ⟨"b",dropSpec ["pod"],⟨.accepted,"CRD is Accepted"⟩⟩ ∧
      (run (step noDurations) start restartedOperator).applied = some (dropSpec ["ip"]) ∧
      ¬(run (step noDurations) start restartedOperator).Agreed := by
  have haccepted : (run (step noDurations) start restartedOperator).Accepted "b"
      ⟨"b",dropSpec ["pod"],⟨.accepted,"CRD is Accepted"⟩⟩ := by decide +kernel
  have happlied : (run (step noDurations) start restartedOperator).applied = some (dropSpec ["ip"]) := by decide +kernel
  refine ⟨by decide +kernel,haccepted,happlied,?_⟩
  intro hagreed
  have hspec := hagreed.2 _ _ haccepted
  rw [happlied] at hspec
  exact absurd hspec (by decide +kernel)

end Retina.MetricsConfig.World
