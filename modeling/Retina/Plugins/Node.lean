import Retina.Enricher.Run
import Retina.Plugins.EventPipeline

/-! # The plugins and the enricher together

The four plugins write their flows to one enricher, in the order in which their workers come to it. A step of the node
is a step of one goroutine of a plugin, or a round of the loop of the enricher. The history of the node says for each
flow in the ring which plugin wrote it and from which record. What a plugin makes of a record and how a ring works are
parameters.
-/
namespace Retina.Plugins
open Enricher (Lookup CacheInterface enrich Enriched)

inductive Name where
  | packetparser | dropreason | dns | tcpretrans
deriving DecidableEq

def Name.buffer : Name → ℕ
  | packetparser => 10000
  | dropreason => 10000
  | dns => 1000
  | tcpretrans => 500

def Name.closesChannel : Name → Bool
  | tcpretrans => false
  | _ => true

structure Config (Record Rest : Type) where
  handle : Name → Record → Option (Enricher.Flow Rest)
  /-- The enricher is initialized. -/
  enricher : Bool
  externalChannel : Bool
  ring : Ring.Behaviour

variable {Record Rest : Type}

def Config.plugin (cfg : Config Record Rest) (n : Name) : Plugin Record (Enricher.Flow Rest) where
  buffer := n.buffer
  handle := cfg.handle n
  enricher := cfg.enricher
  externalChannel := cfg.externalChannel
  closesChannel := n.closesChannel

/-- For each flow in the ring of the enricher the last field has the plugin and the record that it comes from. -/
structure Node (Record Rest : Type) where
  pipelines : Name → Pipeline Record (Enricher.Flow Rest)
  enricher : Enricher Rest
  origins : List (Name × Record) := []

inductive NodeOp (Record : Type) where
  | plugin (n : Name) (op : PipelineOp Record)
  | enrich (cache : Lookup → CacheInterface)

namespace Node
variable (cfg : Config Record Rest)

def start : Node Record Rest where
  pipelines n := .start (cfg.plugin n)
  enricher := Enricher.newEnricher cfg.ring

def writeFlow (s : Node Record Rest) (n : Name) (r : Record) : Node Record Rest :=
  if cfg.enricher then
    match cfg.handle n r with
    | some f => { s with enricher := s.enricher.write f, origins := s.origins ++ [(n,r)] }
    | none => s
  else s

def step (s : Node Record Rest) : NodeOp Record → Node Record Rest
  | .plugin n op =>
    let s' := { s with pipelines := Function.update s.pipelines n ((s.pipelines n).step (cfg.plugin n) op) }
    match (s.pipelines n).handles op with
    | some r => s'.writeFlow cfg n r
    | none => s'
  | .enrich cache => { s with enricher := s.enricher.next cfg.ring cache }

/-- The records of one plugin in the ring of the enricher are those that it has handled, as far as they gave a flow. -/
structure Consistent (s : Node Record Rest) : Prop where
  accounted : ∀ n, Accounted (cfg.plugin n) (s.pipelines n)
  inOrder : s.enricher.InOrder
  flows : s.enricher.inputRing.written.map some = s.origins.map fun x => cfg.handle x.1 x.2
  origins : ∀ n, (s.origins.filter fun x => x.1 = n).map Prod.snd =
    if cfg.enricher then (s.pipelines n).handled.filter fun r => (cfg.handle n r).isSome else []

variable {cfg} {s : Node Record Rest}

theorem consistent_start : (start cfg).Consistent cfg where
  accounted n := accounted_start (cfg.plugin n)
  inOrder := Enricher.inOrder_newEnricher
  flows := rfl
  origins n := by simp [start, Pipeline.start]

theorem Consistent.enrich (hs : s.Consistent cfg) (cache : Lookup → CacheInterface) :
    (s.step cfg (.enrich cache)).Consistent cfg where
  accounted := hs.accounted
  inOrder := hs.inOrder.next cache
  flows := (congrArg (fun r => r.written.map some) (s.enricher.inputRing_next cache)).trans hs.flows
  origins := hs.origins

section Plugin
variable {pipelines : Name → Pipeline Record (Enricher.Flow Rest)} (hs : s.Consistent cfg)
  (haccounted : ∀ n, Accounted (cfg.plugin n) (pipelines n))
include hs haccounted

/-- Nothing is written for a step in which no plugin has handled a record that gives a flow. -/
theorem Consistent.with_pipelines
    (hfilter : ∀ n, ((pipelines n).handled.filter fun r => (cfg.handle n r).isSome) =
      (s.pipelines n).handled.filter fun r => (cfg.handle n r).isSome) :
    ({ s with pipelines := pipelines } : Node Record Rest).Consistent cfg where
  accounted := haccounted
  inOrder := hs.inOrder
  flows := hs.flows
  origins n := by rw [hfilter]; exact hs.origins n

/-- What a record that was handled adds to the ring. -/
theorem Consistent.writeFlow {n : Name} {r : Record} (hn : (pipelines n).handled = (s.pipelines n).handled ++ [r])
    (hother : ∀ n', n' ≠ n → (pipelines n').handled = (s.pipelines n').handled) :
    (({ s with pipelines := pipelines } : Node Record Rest).writeFlow cfg n r).Consistent cfg := by
  unfold Node.writeFlow
  split_ifs with henricher
  · cases hhandle : cfg.handle n r with
    | none =>
      refine hs.with_pipelines haccounted fun n' => ?_
      by_cases h : n' = n
      · rw [h, hn, List.filter_append]
        simp [hhandle]
      · rw [hother n' h]
    | some f =>
      refine ⟨haccounted,hs.inOrder.write f,?_,fun n' => ?_⟩
      · simp only [Enricher.write, Ring.write, List.map_append, hs.flows, List.map_cons, List.map_nil, hhandle]
      · have horigins := hs.origins n'
        rw [if_pos henricher] at horigins ⊢
        simp only [List.filter_append, List.map_append, horigins]
        by_cases h : n' = n
        · rw [h, hn, List.filter_append]
          simp [hhandle]
        · rw [hother n' h]
          simp [Ne.symm h]
  · refine ⟨haccounted,hs.inOrder,hs.flows,fun n' => ?_⟩
    have horigins := hs.origins n'
    rw [if_neg henricher] at horigins ⊢
    exact horigins

end Plugin

theorem Consistent.plugin (hs : s.Consistent cfg) (n : Name) (op : PipelineOp Record) :
    (s.step cfg (.plugin n op)).Consistent cfg := by
  have haccounted : ∀ n', Accounted (cfg.plugin n')
      (Function.update s.pipelines n ((s.pipelines n).step (cfg.plugin n) op) n') := by
    intro n'
    by_cases h : n' = n
    · subst h
      rw [Function.update_self]
      exact (hs.accounted n').step op
    · rw [Function.update_of_ne h]
      exact hs.accounted n'
  have hhandled := handled_step (cfg.plugin n) (s.pipelines n) op
  simp only [Node.step]
  cases hop : (s.pipelines n).handles op with
  | none =>
    refine hs.with_pipelines haccounted fun n' => ?_
    by_cases h : n' = n
    · subst h
      rw [Function.update_self, hhandled, hop]
      simp
    · rw [Function.update_of_ne h]
  | some r =>
    refine hs.writeFlow haccounted ?_ fun n' h => by rw [Function.update_of_ne h]
    rw [Function.update_self, hhandled, hop]
    rfl

def after (cfg : Config Record Rest) (ops : List (NodeOp Record)) : Node Record Rest :=
  Execution.run (step cfg) (start cfg) ops

theorem consistent_after (cfg : Config Record Rest) (ops : List (NodeOp Record)) : (after cfg ops).Consistent cfg := by
  refine Execution.invariant_of_step (I := fun s : Node Record Rest => s.Consistent cfg) (fun s op hs => ?_)
    consistent_start ops
  cases op with
  | plugin n op => exact hs.plugin n op
  | enrich cache => exact hs.enrich cache

/-- What the metrics module can find in the output ring, by the rounds in which the enricher has read a flow. -/
structure Exports (cfg : Config Record Rest) (s : Node Record Rest) : Prop where
  ascending : (s.enricher.read.map Prod.fst).Pairwise (· < ·)
  output : s.enricher.outputRing.written = s.enricher.read.filterMap fun x =>
    s.origins[x.1]?.bind fun o => (cfg.handle o.1 o.2).bind (enrich x.2)
  enriched : ∀ f ∈ s.enricher.outputRing.written, ∃ x ∈ s.enricher.read, ∃ n r f₀,
    s.origins[x.1]? = some (n,r) ∧ cfg.handle n r = some f₀ ∧ Enriched x.2 f₀ f
  missed : s.enricher.read.length + s.enricher.missed ≤ s.origins.length
  origins : ∀ n, (s.origins.filter fun x => x.1 = n).map Prod.snd =
    if cfg.enricher then (s.pipelines n).handled.filter fun r => (cfg.handle n r).isSome else []

/-- The flow with a number in the ring is the one that its origin gives. -/
theorem Consistent.written (hs : s.Consistent cfg) (i : ℕ) :
    s.enricher.inputRing.written[i]? = s.origins[i]?.bind fun o => cfg.handle o.1 o.2 := by
  have hflows := congrArg (fun l => l[i]?) hs.flows
  simp only [List.getElem?_map] at hflows
  cases hw : s.enricher.inputRing.written[i]? <;> cases ho : s.origins[i]? <;> simp_all

/-- Whatever the goroutines of the plugins, the enricher and the cache do and in which order: the flows in the output
ring come from records of their own, in the order in which the plugins wrote them, and tell what the flow of the record
did, with the endpoints and zones that the cache gave for its addresses. -/
theorem exported_flows (cfg : Config Record Rest) (ops : List (NodeOp Record)) : Exports cfg (after cfg ops) := by
  have hs := consistent_after cfg ops
  have houtput : (after cfg ops).enricher.outputRing.written = (after cfg ops).enricher.read.filterMap fun x =>
      (after cfg ops).origins[x.1]?.bind fun o => (cfg.handle o.1 o.2).bind (enrich x.2) := by
    rw [hs.inOrder.output]
    refine List.filterMap_congr fun x _ => ?_
    rw [Enricher.exported, hs.written, Option.bind_assoc]
  refine ⟨hs.inOrder.passed.ascending,houtput,?_,?_,hs.origins⟩
  · intro f hf
    rw [houtput, List.mem_filterMap] at hf
    obtain ⟨x,hx,hf⟩ := hf
    obtain ⟨⟨n,r⟩,horigin,hf⟩ := Option.bind_eq_some_iff.mp hf
    obtain ⟨f₀,hhandle,henrich⟩ := Option.bind_eq_some_iff.mp hf
    exact ⟨x,hx,n,r,f₀,horigin,hhandle,Enricher.enriched_of_enrich x.2 henrich⟩
  · have hlength := congrArg List.length hs.flows
    simp only [List.length_map] at hlength
    rw [← hs.inOrder.complete, ← hlength]
    exact hs.inOrder.written

end Node

end Retina.Plugins
