import Retina.Metrics.Namespaces
import Retina.Metrics.Tracking

/-! # Reconfiguring while pods arrive

`Reconcile` cancels the loops of the module, and with them its subscription to pod
events, then adjusts the requests to the new lists of namespaces, and subscribes again
when it starts new loops. Pods may arrive at any time. Their events reach the
subscription that exists when they are published, in order, and are handled after any
delay, except while `Reconcile` holds the lock of the module.
-/
namespace Retina.Metrics
open Cache (NetIP RetinaEndpoint CacheEvent isIPV4)
open Retina.Filter

inductive Phase where
  | running
  | stopped (spec : MetricsSpec)
  | adjusted

structure Reconfiguring where
  c : Cache := {}
  m : Module
  currentSpec : MetricsSpec
  phase : Phase := .running
  queue : List CacheEvent := []

inductive ReconfigureOp where
  | addPod (ep : RetinaEndpoint)
  | handle
  | tick (env : Surroundings)
  | cancel (spec : MetricsSpec)
  | adjust (env : Surroundings)
  | run

namespace Reconfiguring

/-- Events that are published while nobody is subscribed are lost. The lists of the new spec may be those of the
current one, which it then differs from in its contexts. Nothing happens between the lookups of `PodCallBackFn` and its
mark. -/
def step (s : Reconfiguring) : ReconfigureOp → Reconfiguring
  | .addPod ep => { s with
      c := { (s.c.updateEndpoint ep).1 with published := [] }
      queue := match s.phase with
        | .running => s.queue ++ (s.c.updateEndpoint ep).1.published
        | _ => s.queue }
  | .handle =>
    match s.phase,s.queue with
    | .adjusted,_ => s
    | _,[] => s
    | _,e :: rest => { s with m := s.m.podCallBackFn s.c e, queue := rest }
  | .tick env =>
    match s.phase with
    | .running => { s with m := s.m.applyDirtyPods env }
    | _ => s
  | .cancel spec =>
    match s.phase with
    | .running => { s with phase := .stopped spec }
    | _ => s
  | .adjust env =>
    match s.phase with
    | .stopped spec => { s with
        m := s.m.updateNamespaceLists env s.c spec
        currentSpec := spec
        phase := .adjusted }
    | _ => s
  | .run =>
    match s.phase with
    | .adjusted => { s with phase := .running }
    | _ => s

end Reconfiguring

/-! ## The requests across an adjustment -/

namespace Module
variable {m : Module} {env : Surroundings} {c : Cache} {spec : MetricsSpec}

theorem updateNamespaceLists_frame (hspec : spec.OneList) : m.updateNamespaceLists env c spec =
    { m with
      includedNamespaces := spec.nsInclude.toFinset
      excludedNamespaces := spec.nsExclude.toFinset
      filterManager := (m.updateNamespaceLists env c spec).filterManager } := by
  rcases updateNamespaceLists_eq hspec with ⟨hexclude,heq⟩ | ⟨hinclude,heq⟩
  · rw [heq, hexclude]
    exact (appendIncludeList_frame _).trans (by rw [appendExcludeList_frame])
  · rw [heq, hinclude]
    exact (appendExcludeList_frame _).trans (by rw [appendIncludeList_frame])

section
variable (hm : m.filterManager.Working) (henv : Accepts env.answers) (hc : AllIPv4 c) (hspec : spec.OneList)
include hm henv hc hspec

theorem updateNamespaceLists_other :
    (m.updateNamespaceLists env c spec).filterManager.Working ∧ ∀ ip md, md ≠ moduleReqMetadata →
      ((m.updateNamespaceLists env c spec).Requested ip md ↔ m.Requested ip md) := by
  rcases updateNamespaceLists_eq hspec with ⟨-,heq⟩ | ⟨-,heq⟩
  · obtain ⟨hworking₁,hreq₁⟩ := appendExcludeList_spec hm henv hc []
    obtain ⟨hworking₂,hreq₂⟩ := appendIncludeList_spec hworking₁ henv hc spec.nsInclude
    rw [heq]
    refine ⟨hworking₂,?_⟩
    intro ip md hmd
    rw [hreq₂, hreq₁]
    simp [hmd]
  · obtain ⟨hworking₁,hreq₁⟩ := appendIncludeList_spec hm henv hc []
    obtain ⟨hworking₂,hreq₂⟩ := appendExcludeList_spec hworking₁ henv hc spec.nsExclude
    rw [heq]
    refine ⟨hworking₂,?_⟩
    intro ip md hmd
    rw [hreq₂, hreq₁]
    simp [hmd]

/-- A pod of interest under the new spec keeps its request, and it gets one if it was of no interest before. -/
theorem updateNamespaceLists_covers (hlists : m.includedNamespaces = ∅ ∨ m.excludedNamespaces = ∅)
    (hdistinct : DistinctIPs c) {ep : RetinaEndpoint} {ip : NetIP} (hpod : c.PodAt ep ip)
    (hint : spec.nsOfInterest ep.ns = true)
    (h : m.Requested ip moduleReqMetadata ∨ m.nsOfInterest ep.ns = false) :
    (m.updateNamespaceLists env c spec).Requested ip moduleReqMetadata := by
  rw [hspec.nsOfInterest_iff] at hint
  rw [← Bool.not_eq_true, nsOfInterest, interesting_iff hlists] at h
  rcases updateNamespaceLists_eq hspec with ⟨hexclude,heq⟩ | ⟨hinclude,heq⟩
  · have hinc : (m.appendExcludeList env c []).includedNamespaces = m.includedNamespaces := by
      rw [appendExcludeList_frame]
    rw [heq, appendIncludeList_pod (appendExcludeList_spec hm henv hc []).1 henv hc hdistinct hpod,
      appendExcludeList_pod hm henv hc hdistinct hpod, hinc]
    simp only [hexclude, ne_eq, not_true_eq_false, false_and, or_false] at hint
    simp only [hint, List.not_mem_nil, not_false_eq_true, false_and, and_true, true_and]
    tauto
  · have hexc : (m.appendIncludeList env c []).excludedNamespaces = m.excludedNamespaces := by
      rw [appendIncludeList_frame]
    rw [heq, appendExcludeList_pod (appendIncludeList_spec hm henv hc []).1 henv hc hdistinct hpod,
      appendIncludeList_pod hm henv hc hdistinct hpod, hexc]
    simp only [hinclude, List.not_mem_nil, false_or] at hint
    simp only [hint.1, hint.2, List.not_mem_nil, not_false_eq_true, false_and, and_true, or_false, true_and, ne_eq]
    by_cases hnone : m.excludedNamespaces = ∅
    · exact .inr (.inr hnone)
    · have hempty := hlists.resolve_right hnone
      simp only [hempty, Finset.notMem_empty, hnone] at h ⊢
      tauto

end

theorem addNamespaces_absent (hretry : 0 < m.filterManager.retry) {namespaces : List String}
    (hnone : ∀ ns ∈ namespaces, c.getIPsByNamespace env.order ns = []) : m.addNamespaces env c namespaces = m := by
  induction namespaces with
  | nil => rfl
  | cons ns namespaces ih =>
    have hskip : m.addIPs env (c.getIPsByNamespace env.order ns) moduleReqMetadata = m := by
      rw [hnone ns List.mem_cons_self, addIPs, FilterManager.addIPs_nil hretry]
    rw [addNamespaces, List.foldl_cons, hskip]
    exact ih fun ns' hns' => hnone ns' (List.mem_cons_of_mem ns hns')

theorem appendExcludeList_nil (h : m.excludedNamespaces = ∅) : m.appendExcludeList env c [] = m := by
  simp only [appendExcludeList, addNamespaces, deleteNamespaces, h, FiniteMap.Order.list_empty, List.filter_nil,
    List.foldl_nil, List.toFinset_nil, List.length_nil, lt_irrefl, false_and, if_false]
  rw [← h]

/-- Only the pods of newly included namespaces are asked for. -/
theorem updateNamespaceLists_extends (hretry : 0 < m.filterManager.retry) (hexcluded : m.excludedNamespaces = ∅)
    {namespaces : List String} (hne : namespaces ≠ []) (hsub : m.includedNamespaces ⊆ namespaces.toFinset)
    (hno : ∀ ns ∈ namespaces, ns ∉ m.includedNamespaces → c.getIPsByNamespace env.order ns = []) :
    (m.updateNamespaceLists env c { nsInclude := namespaces }).filterManager = m.filterManager := by
  have hremove : (env.order.list m.includedNamespaces).filter (· ∉ namespaces.toFinset) = [] := by
    simp only [List.filter_eq_nil_iff, decide_eq_true_eq, not_not]
    intro ns hns
    exact hsub ((env.order.mem_list _ ns).mp hns)
  have hadd : ∀ ns ∈ namespaces.filter (· ∉ m.includedNamespaces), c.getIPsByNamespace env.order ns = [] := by
    intro ns hns
    rw [List.mem_filter, decide_eq_true_eq] at hns
    exact hno ns hns.1 hns.2
  have hlength : 0 < namespaces.length := List.length_pos_of_ne_nil hne
  simp only [updateNamespaceLists, hlength, List.length_nil, lt_irrefl, and_false, if_false, if_true,
    appendExcludeList_nil hexcluded, appendIncludeList, hremove, deleteNamespaces, List.foldl_nil]
  rw [addNamespaces_absent ?_ hadd]
  exact hretry

end Module

/-! ## Events that are still to be handled -/

structure IPv4Pod (ep : RetinaEndpoint) (ip : NetIP) : Prop where
  primary : ep.primaryNetIP = .ok ip
  v4 : isIPV4 ip = true
  notAPIServer : NotAPIServer ep

def addedNs (ip : NetIP) : CacheEvent → Option String
  | ⟨.podAdded,.endpoint ep⟩ => if ep.primaryNetIP.toOption = some ip then some ep.ns else none
  | _ => none

def pendingNs (ip : NetIP) : List CacheEvent → Option String
  | [] => none
  | e :: rest => (pendingNs ip rest).or (addedNs ip e)

theorem pendingNs_append (ip : NetIP) (queue later : List CacheEvent) :
    pendingNs ip (queue ++ later) = (pendingNs ip later).or (pendingNs ip queue) := by
  induction queue with
  | nil => simp [pendingNs]
  | cons e queue ih => rw [List.cons_append, pendingNs, pendingNs, ih, Option.or_assoc]

theorem pendingNs_eq_none {ip : NetIP} {queue : List CacheEvent} :
    pendingNs ip queue = none ↔ ∀ e ∈ queue, addedNs ip e = none := by
  induction queue with
  | nil => simp [pendingNs]
  | cons e queue ih => simp [pendingNs, Option.or_eq_none_iff, ih, and_comm]

theorem addedNs_added {ep : RetinaEndpoint} {ip : NetIP} (hep : ep.primaryNetIP = .ok ip) (ip' : NetIP) :
    addedNs ip' ⟨.podAdded,.endpoint ep⟩ = if ip' = ip then some ep.ns else none := by
  simp [addedNs, hep, Except.toOption, eq_comm]

theorem addedNs_deleted (ip : NetIP) {e : CacheEvent} (he : e.type = .podDeleted) : addedNs ip e = none := by
  obtain ⟨type,obj⟩ := e
  cases he
  rfl

theorem pendingNs_arrival {ep : RetinaEndpoint} {ip : NetIP} (hep : ep.primaryNetIP = .ok ip) (queue : List CacheEvent)
    {gone : List CacheEvent} (hgone : ∀ e ∈ gone, e.type = .podDeleted) (ip' : NetIP) :
    pendingNs ip' (queue ++ (gone ++ [⟨.podAdded,.endpoint ep⟩])) =
      if ip' = ip then some ep.ns else pendingNs ip' queue := by
  have hnone : pendingNs ip' gone = none := pendingNs_eq_none.mpr fun e he => addedNs_deleted ip' (hgone e he)
  rw [pendingNs_append, pendingNs_append, hnone, pendingNs, pendingNs, addedNs_added hep]
  by_cases hip : ip' = ip <;> simp [hip]

/-! ## The condition and what it secures -/

namespace Reconfiguring

/-- A pod that arrives while nobody is subscribed follows one of its namespace, or it is of no interest and no event
about its address is on the way. A pod that the new spec makes interesting is not about to be deleted. -/
def Covered (s : Reconfiguring) : ReconfigureOp → Prop
  | .addPod ep => ∃ ip, IPv4Pod ep ip ∧ (s.phase = .running ∨ (∃ q, s.c.PodAt q ip ∧ q.ns = ep.ns) ∨
      s.m.nsOfInterest ep.ns = false ∧ ∀ e ∈ s.queue, addedNs ip e = none)
  | .tick env => Accepts env.answers
  | .adjust env => Accepts env.answers ∧ ∀ spec, s.phase = .stopped spec → spec.OneList ∧
      ∀ ep ip, s.c.PodAt ep ip → s.m.nsOfInterest ep.ns = false → spec.nsOfInterest ep.ns = true →
        ip ∉ s.m.dirtyPods.toDelete ∨ ∃ e ∈ s.queue, addedNs ip e ≠ none
  | _ => True

/-- Each pod of interest is about to be held, or the last event about its address adds a pod of its namespace. -/
structure Covers (s : Reconfiguring) : Prop where
  indexed : s.c.PodsIndexed
  published : s.c.published = []
  pods : ∀ key ep, s.c.epMap.lookup key = some ep → ∃ ip, IPv4Pod ep ip
  events : ∀ e ∈ s.queue, (e.type = .podAdded ∨ e.type = .podDeleted) ∧ ∃ ep ip, e.obj = .endpoint ep ∧ IPv4Pod ep ip
  orderly : s.m.Orderly
  oneList : s.currentSpec.OneList
  included : s.m.includedNamespaces = s.currentSpec.nsInclude.toFinset
  excluded : s.m.excludedNamespaces = s.currentSpec.nsExclude.toFinset
  pending : ∀ ep ip, s.c.PodAt ep ip → ∀ ns, pendingNs ip s.queue = some ns → ns = ep.ns
  held : ∀ ep ip, s.c.PodAt ep ip → pendingNs ip s.queue = none → s.m.nsOfInterest ep.ns = true → s.m.WillHold ip

namespace Covers
variable {s : Reconfiguring} (hs : s.Covers)
include hs

/-- A pod is stored, and its events are queued or not. -/
theorem arrive {c' : Cache} {ep : RetinaEndpoint} {ip : NetIP} (hep : IPv4Pod ep ip)
    (hclear : s.c.Cleared ep.key ep.ipList c') {queue : List CacheEvent}
    (hevents : ∀ e ∈ queue, (e.type = .podAdded ∨ e.type = .podDeleted) ∧ ∃ q a, e.obj = .endpoint q ∧ IPv4Pod q a)
    (hothers : ∀ a, a ≠ ip → pendingNs a queue = pendingNs a s.queue)
    (hpending : ∀ ns, pendingNs ip queue = some ns → ns = ep.ns)
    (hheld : pendingNs ip queue = none → s.m.nsOfInterest ep.ns = true → s.m.WillHold ip) :
    Covers { s with c := { c'.store (.endpoint ep) with published := [] }, queue := queue } := by
  have hin := RetinaEndpoint.mem_ipList_of_primaryNetIP hep.primary
  have hpods : ∀ q a, Cache.PodAt { c'.store (.endpoint ep) with published := [] } q a →
      q = ep ∧ a = ip ∨ s.c.PodAt q a ∧ a ≠ ip := by
    rintro q a ⟨⟨key,hkey⟩,hprimary⟩
    rcases hclear.epMap_store hkey with rfl | ⟨hkey,hfree⟩
    · exact .inl ⟨rfl,Except.ok.inj (hprimary.symm.trans hep.primary)⟩
    · refine .inr ⟨⟨⟨key,hkey⟩,hprimary⟩,?_⟩
      rintro rfl
      exact hfree a hin (RetinaEndpoint.mem_ipList_of_primaryNetIP hprimary)
  refine ⟨(hclear.podsIndexed_store (List.ne_nil_of_mem hin)).withPublished [],rfl,?_,hevents,hs.orderly,hs.oneList,
    hs.included,hs.excluded,?_,?_⟩
  · intro key q hq
    rcases hclear.epMap_store hq with rfl | ⟨hq,-⟩
    · exact ⟨ip,hep⟩
    · exact hs.pods key q hq
  · intro q a hpod ns hns
    rcases hpods q a hpod with ⟨rfl,rfl⟩ | ⟨hpod,hne⟩
    · exact hpending ns hns
    · exact hs.pending q a hpod ns ((hothers a hne).symm.trans hns)
  · intro q a hpod hnone hint
    rcases hpods q a hpod with ⟨rfl,rfl⟩ | ⟨hpod,hne⟩
    · exact hheld hnone hint
    · exact hs.held q a hpod ((hothers a hne).symm.trans hnone) hint

theorem addPod {ep : RetinaEndpoint} (h : s.Covered (.addPod ep)) : (s.step (.addPod ep)).Covers := by
  obtain ⟨ip,hep,hwhen⟩ := h
  have hin := RetinaEndpoint.mem_ipList_of_primaryNetIP hep.primary
  obtain ⟨c',heq,hclear⟩ := hs.indexed.updateEndpoint (List.ne_nil_of_mem hin)
  obtain ⟨gone,hpub,hgone⟩ := hclear.published_store
  rw [hs.published, List.nil_append] at hpub
  by_cases hphase : s.phase = .running
  · have hpending := pendingNs_arrival hep.primary s.queue fun e he => (hgone e he).1
    have hstep : s.step (.addPod ep) = { s with
        c := { c'.store (.endpoint ep) with published := [] }
        queue := s.queue ++ (gone ++ [⟨.podAdded,.endpoint ep⟩]) } := by
      simp only [Reconfiguring.step, hphase, heq, hpub]
    rw [hstep]
    refine hs.arrive hep hclear ?_ ?_ ?_ ?_
    · intro e he
      rw [List.mem_append, List.mem_append, List.mem_singleton] at he
      rcases he with he | he | rfl
      · exact hs.events e he
      · obtain ⟨htype,key,q,hq,hobj⟩ := hgone e he
        obtain ⟨a,hplain⟩ := hs.pods key q hq
        exact ⟨.inr htype,q,a,hobj,hplain⟩
      · exact ⟨.inl rfl,ep,ip,rfl,hep⟩
    · intro a hne
      rw [hpending, if_neg hne]
    · intro ns hns
      rw [hpending, if_pos rfl] at hns
      exact (Option.some.inj hns).symm
    · intro hnone
      rw [hpending, if_pos rfl] at hnone
      cases hnone
  · have hstep : s.step (.addPod ep) = { s with c := { c'.store (.endpoint ep) with published := [] } } := by
      cases hp : s.phase with
      | running => exact absurd hp hphase
      | stopped spec => simp only [Reconfiguring.step, hp, heq]
      | adjusted => simp only [Reconfiguring.step, hp, heq]
    rw [hstep]
    refine hs.arrive hep hclear hs.events (fun _ _ => rfl) ?_ ?_
    · intro ns hns
      rcases hwhen.resolve_left hphase with ⟨old,hold,hsame⟩ | ⟨-,hnone⟩
      · rw [← hsame]
        exact hs.pending old ip hold ns hns
      · rw [pendingNs_eq_none.mpr hnone] at hns
        cases hns
    · intro hnone hint
      rcases hwhen.resolve_left hphase with ⟨old,hold,hsame⟩ | ⟨hboring,-⟩
      · exact hs.held old ip hold hnone (hsame ▸ hint)
      · rw [hboring] at hint
        cases hint

theorem handleAdded {ep : RetinaEndpoint} {ip : NetIP} (hep : IPv4Pod ep ip) {rest : List CacheEvent}
    (hqueue : s.queue = ⟨.podAdded,.endpoint ep⟩ :: rest) {q : RetinaEndpoint} {a : NetIP} (hpod : s.c.PodAt q a)
    (hrest : pendingNs a rest = none) (hint : s.m.nsOfInterest q.ns = true) :
    (s.m.podCallBackFn s.c ⟨.podAdded,.endpoint ep⟩).WillHold a := by
  obtain ⟨-,hsame,hadd,-⟩ := Module.podCallBackFn_added (c := s.c) hs.orderly hep.primary hep.notAPIServer hep.v4
  have hthis : pendingNs a s.queue = if a = ip then some ep.ns else none := by
    rw [hqueue, pendingNs, hrest, Option.none_or, addedNs_added hep.primary]
  by_cases ha : a = ip
  · subst ha
    rw [if_pos rfl] at hthis
    refine hadd ?_
    rw [Module.ofInterest, hs.pending q a hpod ep.ns hthis, hint, Bool.or_true]
  · rw [if_neg ha] at hthis
    exact (hsame a ha).mpr (hs.held q a hpod hthis hint)

theorem handleDeleted {ep : RetinaEndpoint} {ip : NetIP} (hep : IPv4Pod ep ip) {rest : List CacheEvent}
    (hqueue : s.queue = ⟨.podDeleted,.endpoint ep⟩ :: rest) {q : RetinaEndpoint} {a : NetIP} (hpod : s.c.PodAt q a)
    (hrest : pendingNs a rest = none) (hint : s.m.nsOfInterest q.ns = true) :
    (s.m.podCallBackFn s.c ⟨.podDeleted,.endpoint ep⟩).WillHold a := by
  obtain ⟨-,hsame,-,hreused⟩ := Module.podCallBackFn_deleted (c := s.c) hs.orderly hep.primary hep.notAPIServer
  have hthis : pendingNs a s.queue = none := by
    rw [hqueue, pendingNs, hrest, Option.none_or, addedNs_deleted a rfl]
  have hold := hs.held q a hpod hthis hint
  by_cases ha : a = ip
  · subst ha
    obtain ⟨⟨key,hkey⟩,hprimary⟩ := hpod
    have hget := hs.indexed.getPodByIP hkey (RetinaEndpoint.mem_ipList_of_primaryNetIP hprimary)
    rw [hreused (by simp [hget])]
    exact hold
  · exact (hsame a ha).mpr hold

theorem handleHead {e : CacheEvent} {rest : List CacheEvent} (hqueue : s.queue = e :: rest) :
    Covers { s with m := s.m.podCallBackFn s.c e, queue := rest } := by
  obtain ⟨htype,ep,ip,hobj,hep⟩ := hs.events e (by simp [hqueue])
  obtain ⟨type,obj⟩ := e
  simp only at htype hobj
  subst hobj
  have hframe := s.m.podCallBackFn_frame s.c ⟨type,.endpoint ep⟩
  have horderly : (s.m.podCallBackFn s.c ⟨type,.endpoint ep⟩).Orderly := by
    rcases htype with rfl | rfl
    · exact (Module.podCallBackFn_added hs.orderly hep.primary hep.notAPIServer hep.v4).1
    · exact (Module.podCallBackFn_deleted hs.orderly hep.primary hep.notAPIServer).1
  refine ⟨hs.indexed,hs.published,hs.pods,fun e he => hs.events e (hqueue ▸ List.mem_cons_of_mem _ he),horderly,
    hs.oneList,(congrArg Module.includedNamespaces hframe).trans hs.included,
    (congrArg Module.excludedNamespaces hframe).trans hs.excluded,?_,?_⟩
  · intro q a hpod ns hrest
    refine hs.pending q a hpod ns ?_
    rw [hqueue, pendingNs, hrest, Option.some_or]
  · intro q a hpod hrest hafter
    have hint : s.m.nsOfInterest q.ns = true := by
      rw [hframe] at hafter
      exact hafter
    rcases htype with rfl | rfl
    · exact hs.handleAdded hep hqueue hpod hrest hint
    · exact hs.handleDeleted hep hqueue hpod hrest hint

theorem distinctIPs : DistinctIPs s.c := by
  intro key key' ep ep' ip hkey hkey' hip hip'
  exact hs.indexed.eq_of_mem hkey (RetinaEndpoint.mem_ipList_of_primaryNetIP hip) hkey'
    (RetinaEndpoint.mem_ipList_of_primaryNetIP hip')

theorem allIPv4 : AllIPv4 s.c := by
  rintro ep ip ⟨⟨key,hkey⟩,hprimary⟩
  obtain ⟨ip',hep⟩ := hs.pods key ep hkey
  have heq : ip = ip' := Except.ok.inj (hprimary.symm.trans hep.primary)
  rw [heq]
  exact hep.v4

/-- What is asked for before the adjustment is asked for after it, and what becomes interesting is asked for anew. -/
theorem adjusted {env : Surroundings} {spec : MetricsSpec} (henv : Accepts env.answers) (hspec : spec.OneList)
    (hready : ∀ ep ip, s.c.PodAt ep ip → s.m.nsOfInterest ep.ns = false → spec.nsOfInterest ep.ns = true →
      ip ∉ s.m.dirtyPods.toDelete ∨ ∃ e ∈ s.queue, addedNs ip e ≠ none) :
    Covers { s with m := s.m.updateNamespaceLists env s.c spec, currentSpec := spec, phase := .adjusted } := by
  obtain ⟨hworking,hother⟩ := Module.updateNamespaceLists_other hs.orderly.working henv hs.allIPv4 hspec
  have hlists : s.m.includedNamespaces = ∅ ∨ s.m.excludedNamespaces = ∅ := by
    simp only [hs.included, hs.excluded, List.toFinset_eq_empty_iff]
    exact hs.oneList
  have hdirty : (s.m.updateNamespaceLists env s.c spec).dirtyPods = s.m.dirtyPods := by
    rw [Module.updateNamespaceLists_frame hspec]
  have hinterest : ∀ ns, (s.m.updateNamespaceLists env s.c spec).nsOfInterest ns = spec.nsOfInterest ns := by
    intro ns
    rw [Module.updateNamespaceLists_frame hspec]
    rfl
  have horderly : (s.m.updateNamespaceLists env s.c spec).Orderly := by
    refine ⟨hworking,hdirty ▸ hs.orderly.toAdd,hdirty ▸ hs.orderly.toDelete,hdirty ▸ hs.orderly.apart,?_⟩
    intro ip md h
    by_cases hmd : md = moduleReqMetadata
    · exact .inr hmd
    · exact hs.orderly.kinds ip md ((hother ip md hmd).mp h)
  refine ⟨hs.indexed,hs.published,hs.pods,hs.events,horderly,hspec,?_,?_,hs.pending,?_⟩
  · exact congrArg Module.includedNamespaces (Module.updateNamespaceLists_frame hspec)
  · exact congrArg Module.excludedNamespaces (Module.updateNamespaceLists_frame hspec)
  · intro ep ip hpod hnone hint
    have hint : spec.nsOfInterest ep.ns = true := (hinterest ep.ns).symm.trans hint
    have hcovers := Module.updateNamespaceLists_covers hs.orderly.working henv hs.allIPv4 hspec hlists hs.distinctIPs
      hpod hint
    rw [Module.WillHold, hdirty]
    by_cases hold : s.m.nsOfInterest ep.ns = true
    · rcases hs.held ep ip hpod hnone hold with hadd | ⟨hnot,md,hmd⟩
      · exact .inl hadd
      · by_cases hns : md = moduleReqMetadata
        · subst hns
          exact .inr ⟨hnot,moduleReqMetadata,hcovers (.inl hmd)⟩
        · exact .inr ⟨hnot,md,(hother ip md hns).mpr hmd⟩
    · rw [Bool.not_eq_true] at hold
      rcases hready ep ip hpod hold hint with hnot | ⟨e,he,hadds⟩
      · exact .inr ⟨hnot,moduleReqMetadata,hcovers (.inr hold)⟩
      · exact absurd (pendingNs_eq_none.mp hnone e he) hadds

theorem ticked {env : Surroundings} (henv : Accepts env.answers) :
    Covers { s with m := s.m.applyDirtyPods env } := by
  obtain ⟨horderly,hdirty,hheld⟩ := Module.applyDirtyPods_spec hs.orderly henv
  have hframe := s.m.applyDirtyPods_frame env
  refine ⟨hs.indexed,hs.published,hs.pods,hs.events,horderly,hs.oneList,
    (congrArg Module.includedNamespaces hframe).trans hs.included,
    (congrArg Module.excludedNamespaces hframe).trans hs.excluded,hs.pending,?_⟩
  intro ep ip hpod hnone hint
  have hint : s.m.nsOfInterest ep.ns = true := by
    rw [hframe] at hint
    exact hint
  refine .inr ⟨?_,(hheld ip).mpr (hs.held ep ip hpod hnone hint)⟩
  rw [hdirty]
  exact Finmap.notMem_empty

theorem withPhase (phase : Phase) : Covers { s with phase := phase } :=
  ⟨hs.indexed,hs.published,hs.pods,hs.events,hs.orderly,hs.oneList,hs.included,hs.excluded,hs.pending,hs.held⟩

theorem step {op : ReconfigureOp} (h : s.Covered op) : (s.step op).Covers := by
  cases op with
  | addPod ep => exact hs.addPod h
  | handle =>
    cases hp : s.phase with
    | adjusted => simpa only [Reconfiguring.step, hp] using hs
    | running =>
      cases hq : s.queue with
      | nil => simpa only [Reconfiguring.step, hp, hq] using hs
      | cons e rest => simpa only [Reconfiguring.step, hp, hq] using hs.handleHead hq
    | stopped spec =>
      cases hq : s.queue with
      | nil => simpa only [Reconfiguring.step, hp, hq] using hs
      | cons e rest => simpa only [Reconfiguring.step, hp, hq] using hs.handleHead hq
  | tick env =>
    cases hp : s.phase with
    | running => simpa only [Reconfiguring.step, hp] using hs.ticked h
    | stopped spec => simpa only [Reconfiguring.step, hp] using hs
    | adjusted => simpa only [Reconfiguring.step, hp] using hs
  | cancel spec =>
    cases hp : s.phase with
    | running => simpa only [Reconfiguring.step, hp] using hs.withPhase (.stopped spec)
    | stopped spec' => simpa only [Reconfiguring.step, hp] using hs
    | adjusted => simpa only [Reconfiguring.step, hp] using hs
  | adjust env =>
    cases hp : s.phase with
    | stopped spec =>
      obtain ⟨hone,hready⟩ := h.2 spec hp
      simpa only [Reconfiguring.step, hp] using hs.adjusted h.1 hone hready
    | running => simpa only [Reconfiguring.step, hp] using hs
    | adjusted => simpa only [Reconfiguring.step, hp] using hs
  | run =>
    cases hp : s.phase with
    | adjusted => simpa only [Reconfiguring.step, hp] using hs.withPhase .running
    | running => simpa only [Reconfiguring.step, hp] using hs
    | stopped spec => simpa only [Reconfiguring.step, hp] using hs

end Covers

theorem covers_init {m : Module} (hm : m.Idle) {spec : MetricsSpec} (hspec : spec.OneList)
    (hincluded : m.includedNamespaces = spec.nsInclude.toFinset)
    (hexcluded : m.excludedNamespaces = spec.nsExclude.toFinset) :
    Covers { m := m, currentSpec := spec } where
  indexed := Cache.podsIndexed_empty
  published := rfl
  pods := by simp
  events := by simp
  orderly := hm.orderly
  oneList := hspec
  included := hincluded
  excluded := hexcluded
  pending ep ip _ ns h := by cases h
  held := by
    rintro ep ip ⟨⟨key,hkey⟩,-⟩
    cases hkey

end Reconfiguring

/-- Once all events are handled and the loops run, a tick leaves every pod of interest in the filter manager. -/
theorem no_pod_missed (m : Module) (hm : m.Idle) (spec : MetricsSpec) (hspec : spec.OneList)
    (hincluded : m.includedNamespaces = spec.nsInclude.toFinset)
    (hexcluded : m.excludedNamespaces = spec.nsExclude.toFinset) (ops : List ReconfigureOp)
    (hops : Execution.Along Reconfiguring.step Reconfiguring.Covered { m := m, currentSpec := spec } ops)
    (s : Reconfiguring) (hs : s = Execution.run Reconfiguring.step { m := m, currentSpec := spec } ops)
    (hqueue : s.queue = []) (env : Surroundings) (henv : Accepts env.answers) (ep : RetinaEndpoint) (ip : NetIP)
    (hpod : s.c.PodAt ep ip) (hint : s.currentSpec.nsOfInterest ep.ns = true) :
    (s.m.applyDirtyPods env).filterManager.hasIP ip = true := by
  have hcovers : s.Covers := hs ▸ Execution.invariant (P := Reconfiguring.Covered) (fun _ _ hs h => hs.step h)
    (Reconfiguring.covers_init hm hspec hincluded hexcluded) hops
  have hint : s.m.nsOfInterest ep.ns = true := by
    rw [Module.nsOfInterest, hcovers.included, hcovers.excluded]
    exact hint
  have hnone : pendingNs ip s.queue = none := by
    rw [hqueue]
    rfl
  obtain ⟨-,-,hheld⟩ := Module.applyDirtyPods_spec hcovers.orderly henv
  obtain ⟨md,hmd⟩ := (hheld ip).mpr (hcovers.held ep ip hpod hnone hint)
  exact (FilterCache.hasKey_iff _ ip).mpr ⟨metricModuleReq,md,hmd⟩

section Sample

def sampleSpec : MetricsSpec := { nsInclude := ["ns1"] }

noncomputable def arrivalBetween : List ReconfigureOp :=
  [.cancel { nsInclude := ["ns1","ns2"] },.addPod (samplePod "ns1" sampleIP),.adjust sampleEnv,.run]

noncomputable def arrivalBefore : List ReconfigureOp :=
  [.addPod (samplePod "ns1" sampleIP),.handle,.cancel { nsInclude := ["ns1","ns2"] },.adjust sampleEnv,.run]

def onePod : Cache := { (Cache.updateEndpoint {} (samplePod "ns1" sampleIP)).1 with published := [] }

theorem onePod_getIPs {ns : String} (h : ns ≠ "ns1") (order : FiniteMap.Order String) :
    onePod.getIPsByNamespace order ns = [] := by
  refine List.eq_nil_iff_forall_not_mem.mpr ?_
  intro ip hip
  obtain ⟨ep,⟨⟨key,hkey⟩,-⟩,rfl⟩ := (Cache.mem_getIPsByNamespace _ order ns ip).mp hip
  have hmap : onePod.epMap = Finmap.insert "ns1/pod" (samplePod "ns1" sampleIP) ∅ := rfl
  rw [hmap] at hkey
  by_cases hk : key = "ns1/pod"
  · subst hk
    rw [Finmap.lookup_insert] at hkey
    cases hkey
    exact h rfl
  · rw [Finmap.lookup_insert_of_ne _ hk] at hkey
    cases hkey

end Sample

/-- The pod is never asked for, although its namespace is included before and after. -/
theorem pod_missed_between_loops :
    (Execution.run Reconfiguring.step { m := includingModule, currentSpec := sampleSpec } arrivalBetween).phase =
      .running ∧
    (Execution.run Reconfiguring.step { m := includingModule, currentSpec := sampleSpec } arrivalBetween).queue = [] ∧
    (Execution.run Reconfiguring.step { m := includingModule, currentSpec := sampleSpec } arrivalBetween).c.PodAt
      (samplePod "ns1" sampleIP) sampleIP ∧
    (Execution.run Reconfiguring.step { m := includingModule, currentSpec := sampleSpec }
      arrivalBetween).currentSpec.nsOfInterest "ns1" = true ∧
    ((Execution.run Reconfiguring.step { m := includingModule, currentSpec := sampleSpec }
      arrivalBetween).m.applyDirtyPods sampleEnv).filterManager.hasIP sampleIP = false := by
  refine ⟨rfl,rfl,⟨⟨"ns1/pod",rfl⟩,rfl⟩,rfl,?_⟩
  have hm : (Execution.run Reconfiguring.step { m := includingModule, currentSpec := sampleSpec } arrivalBetween).m =
    includingModule.updateNamespaceLists sampleEnv onePod { nsInclude := ["ns1","ns2"] } := rfl
  have hdirty : (includingModule.updateNamespaceLists sampleEnv onePod { nsInclude := ["ns1","ns2"] }).dirtyPods =
      {} := by
    rw [Module.updateNamespaceLists_frame (.inr rfl)]
    rfl
  have hmanager : (includingModule.updateNamespaceLists sampleEnv onePod
      { nsInclude := ["ns1","ns2"] }).filterManager = includingModule.filterManager := by
    refine Module.updateNamespaceLists_extends (by decide) rfl (by decide) (by decide) ?_
    intro ns _ hns
    refine onePod_getIPs ?_ sampleEnv.order
    rintro rfl
    exact hns (Finset.mem_singleton_self "ns1")
  rw [hm, Module.applyDirtyPods_clean hdirty, hmanager]
  rfl

theorem no_pod_missed_arriving_before :
    ((Execution.run Reconfiguring.step { m := includingModule, currentSpec := sampleSpec }
      arrivalBefore).m.applyDirtyPods sampleEnv).filterManager.hasIP sampleIP = true := by
  have hpod : IPv4Pod (samplePod "ns1" sampleIP) sampleIP := ⟨rfl,rfl,fun h => absurd h.2 (by decide)⟩
  refine no_pod_missed includingModule idle_includingModule sampleSpec (.inr rfl) rfl rfl arrivalBefore ?_ _ rfl rfl
    sampleEnv accepts_sampleEnv (samplePod "ns1" sampleIP) sampleIP ⟨⟨"ns1/pod",rfl⟩,rfl⟩ rfl
  refine ⟨⟨sampleIP,hpod,.inl rfl⟩,trivial,trivial,⟨accepts_sampleEnv,?_⟩,trivial,trivial⟩
  intro spec hspec
  cases hspec
  refine ⟨.inr rfl,?_⟩
  intro ep ip _ _ _
  exact .inl Finmap.notMem_empty

end Retina.Metrics
