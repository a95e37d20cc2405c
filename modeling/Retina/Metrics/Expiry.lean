import Retina.Library.Execution
import Retina.Library.UsageTable

/-! # Expiry of series

`pkg/module/metrics/basemetricsobject.go`. A metric object with a time to live notes when each tuple of labels was
last updated, under the concatenation of the labels, and hands the tuples that are too old to its expiry
function. The clock stands still during a call, and the order in which a map is visited is part of the call.
-/
namespace Retina.Metrics.Expiry
open UsageTable

structure BaseMetricObject where
  expireFn : Option (List String → Bool)
  lastUpdated : Table String (List String) := ∅

def seriesKey (lbs : List String) : String := String.join lbs

def BaseMetricObject.updated (b : BaseMetricObject) (lbs : List String) (now : ℤ) : BaseMetricObject :=
  match b.expireFn with
  | none => b
  | some _ => { b with lastUpdated := record seriesKey b.lastUpdated lbs now }

/-- What a call of `expire` does: the new object, the tuples handed to the expiry function, and the number returned. -/
structure Expired where
  object : BaseMetricObject
  calls : List (List String) := []
  expired : ℕ := 0

def BaseMetricObject.expire (b : BaseMetricObject) (ttl now : ℤ) (order : FiniteMap.Order String) : Expired :=
  match b.expireFn with
  | none => { object := b }
  | some expireFn => {
      object := { b with lastUpdated := sweep b.lastUpdated ttl now order }
      calls := swept b.lastUpdated ttl now order
      expired := (swept b.lastUpdated ttl now order).countP expireFn }

def BaseMetricObject.trackedMetricLabels (b : BaseMetricObject) (order : FiniteMap.Order String) : List (List String) :=
  match b.expireFn with
  | none => []
  | some _ => (order.list b.lastUpdated.keys).filterMap fun k => (b.lastUpdated.lookup k).map Use.item

inductive SeriesOp where
  | updated (lbs : List String) (now : ℤ)
  | expire (ttl now : ℤ) (order : FiniteMap.Order String)

def step (b : BaseMetricObject) : SeriesOp → BaseMetricObject
  | .updated lbs now => b.updated lbs now
  | .expire ttl now order => (b.expire ttl now order).object

def after (expireFn : List String → Bool) (ops : List SeriesOp) : BaseMetricObject :=
  Execution.run step { expireFn := some expireFn } ops

/-! ## What should be tracked -/

/-- The time of the last update of each tuple, until a call of `expire` removes it. -/
def note (last : List String → Option ℤ) : SeriesOp → List String → Option ℤ
  | .updated lbs now => Function.update last lbs (some now)
  | .expire ttl now _ => fun lbs => (last lbs).filter fun time => ¬Due ttl now time

def lastUpdate (ops : List SeriesOp) : List String → Option ℤ := Execution.run note (fun _ => none) ops

/-- The tuples that were updated and not removed are tracked, and the last call of `expire` was about those of them
that were due, each of them once. -/
structure TracksSeries (expireFn : List String → Bool) (ops : List SeriesOp) : Prop where
  tracked : ∀ order lbs, lbs ∈ (after expireFn ops).trackedMetricLabels order ↔ lastUpdate ops lbs ≠ none
  expires : ∀ earlier ttl now order, ops = earlier ++ [.expire ttl now order] →
    ((after expireFn earlier).expire ttl now order).calls.Nodup ∧
      ∀ lbs, lbs ∈ ((after expireFn earlier).expire ttl now order).calls ↔ ∃ time ∈ lastUpdate earlier lbs, Due ttl now time

/-- A tuple is updated while no other one is tracked under the same concatenation. -/
def KeyUnclaimed (b : BaseMetricObject) : SeriesOp → Prop
  | .updated lbs _ => Unclaimed seriesKey b.lastUpdated lbs
  | .expire _ _ _ => True

/-! ## Calls -/

variable {b : BaseMetricObject} {expireFn : List String → Bool} {last : List String → Option ℤ}

theorem expireFn_step (b : BaseMetricObject) (op : SeriesOp) : (step b op).expireFn = b.expireFn := by
  cases op with
  | updated lbs now =>
    simp only [step, BaseMetricObject.updated]
    split <;> rfl
  | expire ttl now order =>
    simp only [step, BaseMetricObject.expire]
    split <;> rfl

theorem expireFn_after (ops : List SeriesOp) : (after expireFn ops).expireFn = some expireFn :=
  Execution.invariant_of_step (I := fun b : BaseMetricObject => b.expireFn = some expireFn)
    (fun b op h => (expireFn_step b op).trans h) rfl ops

theorem after_append_singleton (ops : List SeriesOp) (op : SeriesOp) :
    after expireFn (ops ++ [op]) = step (after expireFn ops) op := Execution.run_append _ _ _

theorem lastUpdate_append_singleton (ops : List SeriesOp) (op : SeriesOp) :
    lastUpdate (ops ++ [op]) = note (lastUpdate ops) op := Execution.run_append _ _ _

theorem mem_trackedMetricLabels (hb : b.expireFn = some expireFn) (order : FiniteMap.Order String)
    (lbs : List String) : lbs ∈ b.trackedMetricLabels order ↔ Tracks b.lastUpdated lbs := by
  simp only [BaseMetricObject.trackedMetricLabels, hb, List.mem_filterMap, order.mem_list, Finmap.mem_keys,
    Option.map_eq_some_iff]
  constructor
  · rintro ⟨k,-,u,hu,rfl⟩
    exact ⟨k,u,hu,rfl⟩
  · rintro ⟨k,u,hu,rfl⟩
    exact ⟨k,Finmap.mem_of_lookup_eq_some hu,u,hu,rfl⟩

theorem represents_step (hb : b.expireFn = some expireFn) (h : Represents seriesKey b.lastUpdated last) {op : SeriesOp}
    (hop : KeyUnclaimed b op) : Represents seriesKey (step b op).lastUpdated (note last op) := by
  cases op with
  | updated lbs now =>
    simp only [step, BaseMetricObject.updated, hb, note]
    exact h.record hop now
  | expire ttl now order =>
    simp only [step, BaseMetricObject.expire, hb, note]
    exact h.sweep ttl now order

theorem represents_run (hb : b.expireFn = some expireFn) (h : Represents seriesKey b.lastUpdated last)
    {ops : List SeriesOp} (hops : Execution.Along step KeyUnclaimed b ops) :
    Represents seriesKey (Execution.run step b ops).lastUpdated (Execution.run note last ops) := by
  induction ops generalizing b last with
  | nil => exact h
  | cons op ops ih => exact ih ((expireFn_step b op).trans hb) (represents_step hb h hops.1) hops.2

theorem represents_after {ops : List SeriesOp}
    (hops : Execution.Along step KeyUnclaimed { expireFn := some expireFn } ops) :
    Represents seriesKey (after expireFn ops).lastUpdated (lastUpdate ops) := represents_run rfl represents_empty hops

theorem tracksSeries_of_along {ops : List SeriesOp}
    (hops : Execution.Along step KeyUnclaimed { expireFn := some expireFn } ops) : TracksSeries expireFn ops where
  tracked order lbs := by
    rw [mem_trackedMetricLabels (expireFn_after ops), (represents_after hops).tracks_iff]
  expires := by
    rintro earlier ttl now order rfl
    have h := represents_after ((Execution.along_append _ _ _ _).mp hops).1
    simp only [BaseMetricObject.expire, expireFn_after earlier]
    exact h.swept ttl now order

/-- Every series is tracked and expires in time exactly if no tuple is updated while another one with the same
concatenation is tracked. -/
theorem series_tracked_iff (expireFn : List String → Bool) (ops : List SeriesOp) :
    (∀ earlier, earlier <+: ops → TracksSeries expireFn earlier) ↔
      Execution.Along step KeyUnclaimed { expireFn := some expireFn } ops := by
  have hall : Execution.Along step (fun _ _ => True) { expireFn := some expireFn } ops :=
    Execution.along_of_forall (fun _ _ _ => trivial) _
  refine Execution.forall_prefix_iff_along (fun ops _ hC => tracksSeries_of_along hC) ?_ hall
  intro ops op _ hC _ hop htracks
  have hrep := represents_after hC
  cases op with
  | expire ttl now order => exact hop trivial
  | updated lbs now =>
    obtain ⟨u,hu,hne⟩ : ∃ u ∈ (after expireFn ops).lastUpdated.lookup (seriesKey lbs), u.item ≠ lbs := by
      by_contra hnone
      exact hop fun u hu => by_contra fun hne => hnone ⟨u,hu,hne⟩
    obtain ⟨hlast,hgone⟩ := hrep.not_tracks_of_claimed hu hne now
    have htracked := (htracks.tracked (FiniteMap.Order.arbitrary String) u.item).mpr (by
      rwa [lastUpdate_append_singleton, note, Function.update_of_ne hne])
    rw [mem_trackedMetricLabels (expireFn_after _), after_append_singleton] at htracked
    apply hgone
    simpa only [step, BaseMetricObject.updated, expireFn_after ops] using htracked

def sharedKey : List SeriesOp := [.updated ["a","bc"] 0,.updated ["ab","c"] 1]

theorem series_never_expires :
    lastUpdate sharedKey ["a","bc"] = some 0 ∧ Due 10 100 0 ∧
      ∀ order, ((after (fun _ => true) sharedKey).expire 10 100 order).calls = [["ab","c"]] := by
  refine ⟨by decide,by decide,?_⟩
  intro order
  have hkeys : (after (fun _ => true) sharedKey).lastUpdated.keys = {"abc"} := by decide +kernel
  have hcalls : ((after (fun _ => true) sharedKey).expire 10 100 order).calls =
      swept (after (fun _ => true) sharedKey).lastUpdated 10 100 order := rfl
  rw [hcalls, swept, hkeys, order.list_singleton]
  decide +kernel

end Retina.Metrics.Expiry
