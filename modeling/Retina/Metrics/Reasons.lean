import Retina.Metrics.Reconfigure

/-! # The two reasons for a request

A pod is of interest for its annotation or for its namespace, and the requests of the
module name the reason. An event adds the requests for the reasons that its pod has. It
withdraws requests only if its pod has no reason left, and then it withdraws both.
-/
namespace Retina.Metrics
open Cache (NetIP RetinaEndpoint isIPV4)
open Retina.Filter

structure Observation where
  pod : RetinaEndpoint
  c : Cache
  env : Surroundings

def Module.observe (m : Module) (o : Observation) : Module :=
  (m.podCallBackFn o.c ⟨.podAdded,.endpoint o.pod⟩).applyDirtyPods o.env

def Module.recent (m : Module) (pods : List RetinaEndpoint) : List RetinaEndpoint := pods.takeWhile m.ofInterest

def Module.hasReason (m : Module) (pod : RetinaEndpoint) (md : RequestMetadata) : Prop :=
  md = modulePodReqMetadata ∧ m.podAnnotated pod.annotations = true ∨
    md = moduleReqMetadata ∧ m.nsOfInterest pod.ns = true

namespace Module
variable {m m₀ : Module} {pod : RetinaEndpoint} {ip : NetIP}

theorem observe_frame (m : Module) (o : Observation) : m.observe o =
    { m with
      filterManager := (m.observe o).filterManager
      dirtyPods := (m.observe o).dirtyPods } := by
  rw [observe, applyDirtyPods_frame, podCallBackFn_frame]

structure Reasoned (m₀ : Module) (ip : NetIP) (m : Module) (pods : List RetinaEndpoint) : Prop where
  orderly : m.Orderly
  dirty : m.dirtyPods = {}
  same : m.podAnnotated = m₀.podAnnotated ∧ m.nsOfInterest = m₀.nsOfInterest
  requested : ∀ md, m.Requested ip md ↔ ∃ pod ∈ m₀.recent pods, m₀.hasReason pod md

theorem recent_cons (pods : List RetinaEndpoint) :
    m₀.recent (pod :: pods) = if m₀.ofInterest pod = true then pod :: m₀.recent pods else [] := by
  simp only [recent, List.takeWhile_cons]

theorem observe_of_interest {o : Observation} (hm : m.Orderly) (hpod : IPv4Pod o.pod ip) (henv : Accepts o.env.answers)
    (hof : m.ofInterest o.pod = true) :
    (m.observe o).Orderly ∧ (m.observe o).dirtyPods = {} ∧
      ∀ md, (m.observe o).Requested ip md ↔ m.Requested ip md ∨ m.hasReason o.pod md := by
  have heq : m.podCallBackFn o.c ⟨.podAdded,.endpoint o.pod⟩ =
      { m with dirtyPods := m.dirtyPods.markToAdd ip (m.podCacheEntry o.pod ip) } := by
    rw [podCallBackFn_added_eq hpod.primary hpod.notAPIServer, if_pos hof]
  have hmarked : Orderly { m with dirtyPods := m.dirtyPods.markToAdd ip (m.podCacheEntry o.pod ip) } :=
    hm.markToAdd rfl hpod.v4 (by simpa [ofInterest, podCacheEntry] using hof)
  obtain ⟨horderly,hclean,-⟩ := applyDirtyPods_spec hmarked henv
  obtain ⟨-,-,hreq⟩ := applyDirtyPods_requested hmarked.working henv hmarked.wellFormed hmarked.dueIPv4
  rw [observe, heq]
  refine ⟨horderly,hclean,?_⟩
  intro md
  have hlookup : (m.dirtyPods.markToAdd ip (m.podCacheEntry o.pod ip)).toAdd.lookup ip =
    some (m.podCacheEntry o.pod ip) := Finmap.lookup_insert _
  have hnot : ip ∉ (m.dirtyPods.markToAdd ip (m.podCacheEntry o.pod ip)).toDelete := by
    simp [DirtyCache.markToAdd, Finmap.mem_erase]
  rw [hreq, hlookup]
  simp only [Option.some.injEq, exists_eq_left', hnot, false_and, not_false_eq_true, and_true]
  exact Iff.rfl

theorem observe_of_no_interest {o : Observation} (hm : m.Orderly) (hdirty : m.dirtyPods = {})
    (hpod : IPv4Pod o.pod ip) (henv : Accepts o.env.answers) (hof : ¬m.ofInterest o.pod = true) :
    (m.observe o).Orderly ∧ (m.observe o).dirtyPods = {} ∧ ∀ md, ¬(m.observe o).Requested ip md := by
  obtain ⟨hmarked,-,-,hnot⟩ :=
    podCallBackFn_added (c := o.c) hm hpod.primary hpod.notAPIServer hpod.v4
  obtain ⟨horderly,hclean,hheld⟩ := applyDirtyPods_spec hmarked henv
  refine ⟨horderly,hclean,?_⟩
  intro md h
  refine hnot (Bool.not_eq_true _ ▸ hof) (.inr ?_) ((hheld ip).mp ⟨md,h⟩)
  rw [hdirty]
  exact Finmap.notMem_empty

theorem Reasoned.observe {pods : List RetinaEndpoint} (h : Reasoned m₀ ip m pods) {o : Observation}
    (hpod : IPv4Pod o.pod ip) (henv : Accepts o.env.answers) : Reasoned m₀ ip (m.observe o) (o.pod :: pods) := by
  have hsame : (m.observe o).podAnnotated = m₀.podAnnotated ∧ (m.observe o).nsOfInterest = m₀.nsOfInterest := by
    rw [observe_frame]
    exact h.same
  have hinterest : m.ofInterest o.pod = m₀.ofInterest o.pod := by
    rw [ofInterest, ofInterest, h.same.1, h.same.2]
  by_cases hof : m.ofInterest o.pod = true
  · obtain ⟨horderly,hclean,hreq⟩ := observe_of_interest h.orderly hpod henv hof
    refine ⟨horderly,hclean,hsame,?_⟩
    intro md
    rw [hreq, h.requested, recent_cons, ← hinterest, if_pos hof, List.exists_mem_cons_iff, or_comm, hasReason, hasReason,
      h.same.1, h.same.2]
  · obtain ⟨horderly,hclean,hnone⟩ := observe_of_no_interest h.orderly h.dirty hpod henv hof
    refine ⟨horderly,hclean,hsame,?_⟩
    intro md
    rw [recent_cons, ← hinterest, if_neg hof]
    simp [hnone md]

theorem reasoned_run (hm : m.Orderly) (hdirty : m.dirtyPods = {}) (hnone : ∀ md, ¬m.Requested ip md)
    {os : List Observation} (hos : ∀ o ∈ os, IPv4Pod o.pod ip ∧ Accepts o.env.answers) :
    Reasoned m ip (Execution.run observe m os) (os.map Observation.pod).reverse := by
  induction os using List.reverseRecOn with
  | nil =>
    refine ⟨hm,hdirty,⟨rfl,rfl⟩,?_⟩
    intro md
    exact iff_of_false (hnone md) (by simp [recent])
  | append_singleton os o ih =>
    have hlast := hos o (by simp)
    rw [Execution.run_append, List.map_append, List.reverse_append]
    exact (ih fun o' ho' => hos o' (List.mem_append_left _ ho')).observe hlast.1 hlast.2

end Module

/-- Each reason has its request exactly if no recent pod had a reason that the last pod lacks. -/
theorem reasons_tracked_iff (m : Module) (hm : m.Orderly) (hdirty : m.dirtyPods = {}) (ip : NetIP)
    (hnone : ∀ md, ¬m.Requested ip md) (earlier : List Observation) (last : Observation)
    (hos : ∀ o ∈ earlier ++ [last], IPv4Pod o.pod ip ∧ Accepts o.env.answers) :
    (((Execution.run Module.observe m (earlier ++ [last])).Requested ip modulePodReqMetadata ↔
        m.podAnnotated last.pod.annotations = true) ∧
      ((Execution.run Module.observe m (earlier ++ [last])).Requested ip moduleReqMetadata ↔
        m.nsOfInterest last.pod.ns = true)) ↔
    ∀ pod ∈ m.recent (last.pod :: (earlier.map Observation.pod).reverse),
      (m.podAnnotated pod.annotations = true → m.podAnnotated last.pod.annotations = true) ∧
      (m.nsOfInterest pod.ns = true → m.nsOfInterest last.pod.ns = true) := by
  have hrun := (Module.reasoned_run hm hdirty hnone hos).requested
  rw [List.map_append, List.reverse_append] at hrun
  -- A reason of the last pod makes the last pod a recent one.
  have hlast : m.ofInterest last.pod = true →
      last.pod ∈ m.recent (last.pod :: (earlier.map Observation.pod).reverse) := by
    intro hof
    rw [Module.recent_cons, if_pos hof]
    exact List.mem_cons_self
  rw [hrun, hrun]
  simp only [Module.hasReason, show modulePodReqMetadata ≠ moduleReqMetadata by decide,
    show moduleReqMetadata ≠ modulePodReqMetadata by decide, true_and, false_and, or_false, false_or, List.map_cons,
    List.map_nil, List.reverse_cons, List.reverse_nil, List.nil_append, List.cons_append]
  constructor
  · rintro ⟨hannotated,hns⟩ pod hpod
    exact ⟨fun h => hannotated.mp ⟨pod,hpod,h⟩,fun h => hns.mp ⟨pod,hpod,h⟩⟩
  · intro hall
    refine ⟨⟨?_,fun h => ⟨last.pod,hlast ?_,h⟩⟩,⟨?_,fun h => ⟨last.pod,hlast ?_,h⟩⟩⟩
    · rintro ⟨pod,hpod,h⟩
      exact (hall pod hpod).1 h
    · rw [Module.ofInterest, h, Bool.true_or]
    · rintro ⟨pod,hpod,h⟩
      exact (hall pod hpod).2 h
    · rw [Module.ofInterest, h, Bool.or_true]

section Sample

def annotatedPod : RetinaEndpoint :=
  { samplePod "ns1" sampleIP with
    annotations := Finmap.singleton Cache.retinaPodAnnotation Cache.retinaPodAnnotationValue }

def annotatingModule : Module := { includingModule with enableAnnotations := true }

theorem orderly_annotatingModule : annotatingModule.Orderly where
  working := idle_includingModule.working
  toAdd := by simp [annotatingModule, idle_includingModule.dirty]
  toDelete := by simp [annotatingModule, idle_includingModule.dirty]
  apart ip hip := absurd hip Finmap.notMem_empty
  kinds ip md h := absurd h (idle_includingModule.requests ip md)

theorem ipv4Pod_samplePod : IPv4Pod (samplePod "ns1" sampleIP) sampleIP := ⟨rfl,rfl,fun h => absurd h.2 (by decide)⟩

theorem ipv4Pod_annotatedPod : IPv4Pod annotatedPod sampleIP := ⟨rfl,rfl,fun h => absurd h.2 (by decide)⟩

noncomputable def observed (pod : RetinaEndpoint) : Observation := ⟨pod,{},sampleEnv⟩

end Sample

/-- The annotation is removed, and the request for it stays. -/
theorem annotation_request_stays :
    (Execution.run Module.observe annotatingModule
      [observed annotatedPod,observed (samplePod "ns1" sampleIP)]).Requested sampleIP modulePodReqMetadata ∧
    annotatingModule.podAnnotated (samplePod "ns1" sampleIP).annotations = false := by
  refine ⟨?_,by decide⟩
  have hos : ∀ o ∈ [observed annotatedPod,observed (samplePod "ns1" sampleIP)],
      IPv4Pod o.pod sampleIP ∧ Accepts o.env.answers := by
    intro o ho
    simp only [List.mem_cons, List.not_mem_nil, or_false] at ho
    rcases ho with rfl | rfl
    · exact ⟨ipv4Pod_annotatedPod,accepts_sampleEnv⟩
    · exact ⟨ipv4Pod_samplePod,accepts_sampleEnv⟩
  have hrun := Module.reasoned_run orderly_annotatingModule rfl (idle_includingModule.requests sampleIP) hos
  refine (hrun.requested _).mpr ⟨annotatedPod,?_,.inl ⟨rfl,by decide⟩⟩
  have hrecent : annotatingModule.recent [samplePod "ns1" sampleIP,annotatedPod] =
    [samplePod "ns1" sampleIP,annotatedPod] := by decide
  exact hrecent ▸ List.mem_cons_of_mem _ List.mem_cons_self

theorem reasons_tracked_annotating :
    (Execution.run Module.observe annotatingModule [observed (samplePod "ns1" sampleIP),observed annotatedPod]).Requested
      sampleIP modulePodReqMetadata := by
  refine ((reasons_tracked_iff annotatingModule orderly_annotatingModule rfl sampleIP
    (idle_includingModule.requests sampleIP) [observed (samplePod "ns1" sampleIP)] (observed annotatedPod) ?_).mpr
      ?_).1.mpr (by decide)
  · intro o ho
    simp only [List.cons_append, List.nil_append, List.mem_cons, List.not_mem_nil, or_false] at ho
    rcases ho with rfl | rfl
    · exact ⟨ipv4Pod_samplePod,accepts_sampleEnv⟩
    · exact ⟨ipv4Pod_annotatedPod,accepts_sampleEnv⟩
  · intro pod _
    exact ⟨fun _ => by decide,fun _ => by decide⟩

end Retina.Metrics
