import Retina.Metrics.Latency
import Retina.Watchers.Requests

/-! # The addresses of the API server in the latency metric

The metric builds its set of addresses from the events of the watcher, which tell what
has changed. A reconfiguration cleans the metric and initialises it again with an empty
set, and the watcher does not know about it. A refresh publishes its events one by one, and
the new set of the watcher becomes the current one after that.
-/
namespace Retina.Metrics
open Cache (NetIP RetinaEndpoint isIPV4)
open Watchers (ApiServerWatcher APIServerObject APIServerEvent RefreshOp)

/-- `APIServerObject.IPs`. An object without an endpoint is never published. -/
def apiServerObjectIPs (a : APIServerObject) : List NetIP :=
  match a.ep.bind (·.ips) with
  | none => []
  | some ips => (if ips.ipv4 ≠ .nil then [ips.ipv4] else []) ++ ips.otherIPv4s

def applyEvent (ips : Finset NetIP) (event : APIServerEvent) : Finset NetIP :=
  match event.type with
  | .addAPIServerIPs => ips ∪ (apiServerObjectIPs event.obj).toFinset
  | .deleteAPIServerIPs => ips \ (apiServerObjectIPs event.obj).toFinset

def LatencyMetrics.apiserverWatcherCallbackFn (lm : LatencyMetrics) (event : APIServerEvent) : LatencyMetrics :=
  { lm with apiServerIps := applyEvent lm.apiServerIps event }

/-- The watcher and the metric, which is subscribed to the topic or not, with the events on their way to it. Of a refresh
under way there are the events that are still to be published and the watcher at its end. The set `told` is what all
published events make of the empty set. -/
structure Following where
  w : ApiServerWatcher
  lm : LatencyMetrics
  subscribed : Bool := true
  queue : List APIServerEvent := []
  refreshing : Option (List APIServerEvent × ApiServerWatcher) := none
  told : Finset NetIP := ∅

inductive FollowingOp
  | refresh (op : RefreshOp)
  /-- The refresh publishes its next event, or ends. -/
  | proceed
  /-- The callback runs for the event that was published first. -/
  | deliver
  /-- The method `Clean`, called when the context options have changed. -/
  | clean
  /-- The method `Init`, called at the end of `updateMetricsContexts`. -/
  | init

namespace Following
variable (parseIP : String → NetIP)

/-- Events go to a metric that is subscribed when they are published. -/
def step (s : Following) : FollowingOp → Following
  | .refresh op =>
    match s.refreshing,s.w.refreshTo parseIP op.new op.env with
    | none,some r => { s with refreshing := some (r.events,r.watcher) }
    | _,_ => s
  | .proceed =>
    match s.refreshing with
    | none => s
    | some ([],w) => { s with w := w, refreshing := none }
    | some (event :: events,w) => { s with
        queue := if s.subscribed = true then s.queue ++ [event] else s.queue
        refreshing := some (events,w)
        told := applyEvent s.told event }
  | .deliver =>
    match s.queue with
    | [] => s
    | event :: queue => { s with lm := s.lm.apiserverWatcherCallbackFn event, queue := queue }
  | .clean => { s with subscribed := false }
  | .init => { s with lm := { s.lm with apiServerIps := ∅, cache := ∅ }, subscribed := true }

/-- The resolved sets are sets of IPv4 addresses, each with one text. -/
def ResolvesIPv4 (s : Following) : FollowingOp → Prop
  | .refresh op => (∀ text ∈ op.new, isIPV4 (parseIP text) = true) ∧ Set.InjOn parseIP ↑(s.w.current ∪ op.new)
  | _ => True

/-- When the metric is initialised, the events on their way make of the empty set what all published events do. -/
def Rebuilds (s : Following) : FollowingOp → Prop
  | .init => s.queue.foldl applyEvent ∅ = s.told
  | _ => True

end Following

/-! ## What the events of a refresh do to a set -/

section
variable {parseIP : String → NetIP}

theorem apiServerObjectIPs_endpoint {ip : NetIP} (hv4 : isIPV4 ip = true) (ips : List NetIP) :
    apiServerObjectIPs ⟨some (Watchers.apiServerEndpoint ip ips)⟩ = ip :: ips := by
  have hne : ip ≠ .nil := by
    intro hnil
    subst hnil
    cases hv4
  simp [apiServerObjectIPs, Watchers.apiServerEndpoint, hne]

theorem foldl_eventFor_add {ips : List NetIP} (h : ∀ ip ∈ ips, isIPV4 ip = true) (s : Finset NetIP) :
    (Watchers.eventFor .addAPIServerIPs ips).foldl applyEvent s = s ∪ ips.toFinset := by
  cases ips with
  | nil => simp [Watchers.eventFor]
  | cons ip ips => simp only [Watchers.eventFor, List.foldl_cons, List.foldl_nil, applyEvent,
      apiServerObjectIPs_endpoint (h ip List.mem_cons_self)]

theorem foldl_eventFor_delete {ips : List NetIP} (h : ∀ ip ∈ ips, isIPV4 ip = true) (s : Finset NetIP) :
    (Watchers.eventFor .deleteAPIServerIPs ips).foldl applyEvent s = s \ ips.toFinset := by
  cases ips with
  | nil => simp [Watchers.eventFor]
  | cons ip ips => simp only [Watchers.eventFor, List.foldl_cons, List.foldl_nil, applyEvent,
      apiServerObjectIPs_endpoint (h ip List.mem_cons_self)]

/-- The differences turn the old addresses into the new ones if no address has two texts. -/
theorem image_diff {current new : Finset String} (hinj : Set.InjOn parseIP ↑(current ∪ new)) :
    (current.image parseIP ∪ (new \ current).image parseIP) \ (current \ new).image parseIP = new.image parseIP := by
  have hunion : current.image parseIP ∪ (new \ current).image parseIP = (current ∪ new).image parseIP := by
    rw [← Finset.image_union, Finset.union_sdiff_self_eq_union]
  rw [hunion, ← Finset.image_sdiff_of_injOn hinj (Finset.sdiff_subset.trans Finset.subset_union_left)]
  congr 1
  ext text
  simp only [Finset.mem_sdiff, Finset.mem_union]
  tauto

end

namespace Following
variable {parseIP : String → NetIP} {s : Following}

theorem toFinset_createdIPs {w : ApiServerWatcher} {new : Finset String}
    (h : ∀ text ∈ new, isIPV4 (parseIP text) = true) (order : FiniteMap.Order String) :
    (w.createdIPs parseIP new order).toFinset = (new \ w.current).image parseIP := by
  ext ip
  rw [List.mem_toFinset, ApiServerWatcher.mem_createdIPs, Finset.mem_image]
  refine exists_congr fun text => and_congr_right fun htext => ?_
  rw [Watchers.to4_of_isIPV4 (h text (Finset.mem_sdiff.mp htext).1)]

theorem toFinset_deletedIPs {w : ApiServerWatcher} {new : Finset String}
    (h : ∀ text ∈ w.current, isIPV4 (parseIP text) = true) (order : FiniteMap.Order String) :
    (w.deletedIPs parseIP new order).toFinset = (w.current \ new).image parseIP := by
  ext ip
  rw [List.mem_toFinset, ApiServerWatcher.mem_deletedIPs, Finset.mem_image]
  refine exists_congr fun text => and_congr_right fun htext => ?_
  rw [Watchers.to4_of_isIPV4 (h text (Finset.mem_sdiff.mp htext).1)]

/-- The events of a refresh turn the current addresses into the new ones. -/
theorem refresh_events {w : ApiServerWatcher} {op : RefreshOp} (hnew : ∀ text ∈ op.new, isIPV4 (parseIP text) = true)
    (hcurrent : ∀ text ∈ w.current, isIPV4 (parseIP text) = true) (hinj : Set.InjOn parseIP ↑(w.current ∪ op.new)) :
    ∃ r, w.refreshTo parseIP op.new op.env = some r ∧ r.watcher.current = op.new ∧
      r.events.foldl applyEvent (w.current.image parseIP) = op.new.image parseIP := by
  refine ⟨_,ApiServerWatcher.refreshTo_of_isIPV4 hnew hcurrent op.env,rfl,?_⟩
  have hcreated := toFinset_createdIPs (w := w) hnew op.env.order
  have hdeleted : (w.deletedIPs parseIP op.new op.env.order).toFinset = (w.current \ op.new).image parseIP :=
    toFinset_deletedIPs hcurrent op.env.order
  have hv4 : ∀ {texts : Finset String} {ips : List NetIP}, ips.toFinset = texts.image parseIP →
      (∀ text ∈ texts, isIPV4 (parseIP text) = true) → ∀ ip ∈ ips, isIPV4 ip = true := by
    intro texts ips heq htexts ip hip
    obtain ⟨text,htext,rfl⟩ := Finset.mem_image.mp (heq ▸ List.mem_toFinset.mpr hip)
    exact htexts text htext
  rw [List.foldl_append, foldl_eventFor_add (hv4 hcreated fun text htext => hnew text (Finset.mem_sdiff.mp htext).1),
    foldl_eventFor_delete (hv4 hdeleted fun text htext => hcurrent text (Finset.mem_sdiff.mp htext).1), hcreated,
    hdeleted]
  exact image_diff hinj

structure Follows (parseIP : String → NetIP) (s : Following) : Prop where
  ipv4 : ∀ text ∈ s.w.current, isIPV4 (parseIP text) = true
  idle : s.refreshing = none → s.told = s.w.current.image parseIP
  /-- What is still to be published leads to the set at the end of the refresh. -/
  busy : ∀ events w, s.refreshing = some (events,w) → (∀ text ∈ w.current, isIPV4 (parseIP text) = true) ∧
    events.foldl applyEvent s.told = w.current.image parseIP
  synced : s.subscribed = true → s.queue.foldl applyEvent s.lm.apiServerIps = s.told

theorem Follows.proceed (hs : s.Follows parseIP) : (s.step parseIP .proceed).Follows parseIP := by
  rw [Following.step]
  rcases hrefreshing : s.refreshing with _ | ⟨_ | ⟨event,events⟩,w⟩
  · exact hs
  · obtain ⟨hipv4,htold⟩ := hs.busy [] w hrefreshing
    exact ⟨hipv4,fun _ => htold,nofun,hs.synced⟩
  · obtain ⟨hipv4,htold⟩ := hs.busy _ w hrefreshing
    refine ⟨hs.ipv4,nofun,?_,fun hsubscribed => ?_⟩
    · rintro _ _ ⟨⟩
      exact ⟨hipv4,htold⟩
    · dsimp only at hsubscribed ⊢
      rw [if_pos hsubscribed, List.foldl_append, hs.synced hsubscribed]
      rfl

theorem Follows.step (hs : s.Follows parseIP) {op : FollowingOp} (hop : s.ResolvesIPv4 parseIP op)
    (hrebuilds : s.Rebuilds op) : (s.step parseIP op).Follows parseIP := by
  cases op with
  | refresh op =>
    cases hrefreshing : s.refreshing with
    | some under =>
      simp only [Following.step, hrefreshing]
      exact hs
    | none =>
      obtain ⟨r,hr,hcurrent,hevents⟩ := refresh_events hop.1 hs.ipv4 hop.2
      simp only [Following.step, hrefreshing, hr]
      refine ⟨hs.ipv4,nofun,?_,hs.synced⟩
      rintro _ _ ⟨⟩
      refine ⟨hcurrent ▸ hop.1,?_⟩
      rw [hs.idle hrefreshing, hevents, hcurrent]
  | proceed => exact hs.proceed
  | deliver =>
    cases hqueue : s.queue with
    | nil =>
      simp only [Following.step, hqueue]
      exact hs
    | cons event queue =>
      simp only [Following.step, hqueue]
      refine ⟨hs.ipv4,hs.idle,hs.busy,fun hsubscribed => ?_⟩
      have hsynced := hs.synced hsubscribed
      rw [hqueue] at hsynced
      exact hsynced
  | clean => exact ⟨hs.ipv4,hs.idle,hs.busy,nofun⟩
  | init => exact ⟨hs.ipv4,hs.idle,hs.busy,fun _ => hrebuilds⟩

end Following

/-- When everything is delivered the metric has the current addresses, if each initialisation can still rebuild them. -/
theorem latency_follows_api_server (parseIP : String → NetIP) (f : Filter.FilterManager) (lm : LatencyMetrics)
    (hlm : lm.apiServerIps = ∅) (ops : List FollowingOp)
    (hops : Execution.Along (Following.step parseIP) (Following.ResolvesIPv4 parseIP)
      { w := { filterManager := f }, lm := lm } ops)
    (hrebuilds : Execution.Along (Following.step parseIP) Following.Rebuilds
      { w := { filterManager := f }, lm := lm } ops)
    (hended :
      (Execution.run (Following.step parseIP) { w := { filterManager := f }, lm := lm } ops).refreshing = none)
    (hsubscribed :
      (Execution.run (Following.step parseIP) { w := { filterManager := f }, lm := lm } ops).subscribed = true)
    (hqueue : (Execution.run (Following.step parseIP) { w := { filterManager := f }, lm := lm } ops).queue = []) :
    (Execution.run (Following.step parseIP) { w := { filterManager := f }, lm := lm } ops).lm.apiServerIps =
      (Execution.run (Following.step parseIP) { w := { filterManager := f }, lm := lm } ops).w.current.image parseIP := by
  have hstart : Following.Follows parseIP { w := { filterManager := f }, lm := lm } :=
    ⟨fun text htext => absurd htext (Finset.notMem_empty text),fun _ => rfl,nofun,fun _ => hlm⟩
  have hfollows := Execution.invariant (I := Following.Follows parseIP)
    (fun _ _ hs hop => hs.step hop.1 hop.2) hstart (hops.and hrebuilds)
  have hsynced := hfollows.synced hsubscribed
  rw [hqueue] at hsynced
  exact hsynced.trans (hfollows.idle hended)

section Sample

noncomputable def found : FollowingOp := .refresh (Watchers.resolved {"10.0.0.1"})

def unresolved : Following := { w := {}, lm := {} }

def foundEvent : APIServerEvent := ⟨.addAPIServerIPs,⟨some (Watchers.apiServerEndpoint (.v4 10 0 0 1) [])⟩⟩

theorem step_found : unresolved.step Watchers.sampleParseIP found = { unresolved with
    refreshing := some ([foundEvent],
      ⟨{"10.0.0.1"},Watchers.ApiServerWatcher.manage {} [.v4 10 0 0 1] [] Watchers.sampleRefreshEnv⟩) } := by
  have hcreated : Watchers.ApiServerWatcher.createdIPs Watchers.sampleParseIP {} {"10.0.0.1"}
      Watchers.sampleRefreshEnv.order = [.v4 10 0 0 1] := by
    simp [Watchers.ApiServerWatcher.createdIPs, Watchers.sampleParseIP, Watchers.to4]
  have hdeleted : Watchers.ApiServerWatcher.deletedIPs Watchers.sampleParseIP {} {"10.0.0.1"}
      Watchers.sampleRefreshEnv.order = [] := by simp [Watchers.ApiServerWatcher.deletedIPs]
  have hv4 : ∀ text ∈ ({"10.0.0.1"} : Finset String), isIPV4 (Watchers.sampleParseIP text) = true := by decide
  have hrefresh := Watchers.ApiServerWatcher.refreshTo_of_isIPV4 (w := {}) hv4 (by simp) Watchers.sampleRefreshEnv
  rw [hcreated, hdeleted] at hrefresh
  simp only [Following.step, found, Watchers.resolved, unresolved, hrefresh]
  rfl

noncomputable def forgetting : List FollowingOp := [found,.proceed,.proceed,.deliver,.clean,.init]

/-- The metric is initialised between the publication and the end of the refresh. -/
noncomputable def overtaking : List FollowingOp := [found,.proceed,.clean,.init,.proceed,.deliver]

end Sample

/-- A reconfiguration makes the metric forget the address for good. -/
theorem api_server_forgotten :
    let s := Execution.run (Following.step Watchers.sampleParseIP) unresolved forgetting
    s.subscribed = true ∧ s.queue = [] ∧ s.refreshing = none ∧ s.lm.apiServerIps = ∅ ∧ s.w.current = {"10.0.0.1"} := by
  intro s
  rw [show s = Execution.run _ _ forgetting from rfl, forgetting, Execution.run_cons, step_found]
  exact ⟨rfl,rfl,rfl,rfl,rfl⟩

theorem latency_follows_api_server_in_flight :
    (Execution.run (Following.step Watchers.sampleParseIP) unresolved overtaking).lm.apiServerIps =
      (Execution.run (Following.step Watchers.sampleParseIP) unresolved overtaking).w.current.image
        Watchers.sampleParseIP := by
  have hrun : Execution.run (Following.step Watchers.sampleParseIP) unresolved overtaking =
      Execution.run (Following.step Watchers.sampleParseIP) (unresolved.step Watchers.sampleParseIP found)
        [.proceed,.clean,.init,.proceed,.deliver] := rfl
  rw [step_found] at hrun
  refine latency_follows_api_server Watchers.sampleParseIP _ {} rfl overtaking
    ⟨⟨by decide,?_⟩,trivial,trivial,trivial,trivial,trivial,trivial⟩
    ⟨trivial,trivial,trivial,?_,trivial,trivial,trivial⟩ ?_ ?_ ?_
  · simp [Watchers.resolved]
  · change Following.Rebuilds (Execution.run (Following.step Watchers.sampleParseIP)
      (unresolved.step Watchers.sampleParseIP found) [.proceed,.clean]) .init
    rw [step_found]
    rfl
  · exact congrArg Following.refreshing hrun
  · exact congrArg Following.subscribed hrun
  · exact congrArg Following.queue hrun

end Retina.Metrics
