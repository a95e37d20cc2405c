import Retina.Metrics.PodEvents

/-! # The watcher of the API server

`pkg/watchers/apiserver/apiserver.go`. A refresh collects the address texts of the API
server from three sources and compares them with those of the last refresh. The addresses
that are new or gone are published and handed to the filter manager. The function
`net.ParseIP` is a parameter. A nil pointer that is dereferenced is the result `none`.
-/
namespace Retina.Watchers
open Cache (NetIP RetinaEndpoint isIPV4)
open Retina.Filter
open Metrics (apiServerEndpointName)

def to4 : NetIP → NetIP
  | .v4 a b c d => .v4 a b c d
  | _ => .nil

/-! ## What is published -/

/-- A nil pointer to the endpoint is `none`. -/
structure APIServerObject where
  ep : Option RetinaEndpoint
deriving DecidableEq

inductive APIServerEventType
  | addAPIServerIPs
  | deleteAPIServerIPs
deriving DecidableEq

structure APIServerEvent where
  type : APIServerEventType
  obj : APIServerObject
deriving DecidableEq

def apiServerEndpoint (primaryIP : NetIP) (ips : List NetIP) : RetinaEndpoint where
  name := apiServerEndpointName
  ns := apiServerEndpointName
  ips := some { ipv4 := primaryIP, otherIPv4s := ips }

/-- The texts are those of addresses. Only the text of a nil address does not parse. -/
def newAPIServerObject (stringIPs : List NetIP) : APIServerObject :=
  match stringIPs.filter (· ≠ .nil) with
  | [] => ⟨none⟩
  | primaryIP :: ips => ⟨some (apiServerEndpoint primaryIP ips)⟩

/-- The copy of the endpoint locks the endpoint first. -/
def APIServerObject.deepCopy (a : APIServerObject) : Option APIServerObject :=
  match a.ep with
  | none => none
  | some ep => some ⟨some ep⟩

def newCacheEvent (type : APIServerEventType) (obj : APIServerObject) : Option APIServerEvent :=
  match obj.deepCopy with
  | none => none
  | some obj => some ⟨type,obj⟩

def publish (netIPs : List NetIP) (type : APIServerEventType) : Option (List APIServerEvent) :=
  if netIPs.length = 0 then some []
  else
    match newCacheEvent type (newAPIServerObject netIPs) with
    | none => none
    | some event => some [event]

/-! ## The sources of the addresses -/

def filterManagerRetries : ℕ := 3
def hostLookupRetries : ℕ := 6

/-- What the service, the endpoint slices and the attempts to look up the host return. -/
structure Sources where
  service : Except String (List String)
  endpointSlices : Except String (List (List (List String)))
  lookupHost : ℕ → Except String (List String)

namespace Sources

def ipsFromService (a : Sources) : Except String (List String) :=
  match a.service with
  | .error err => .error ("retrieving kubernetes service: " ++ err)
  | .ok ips => .ok ips

def ipsFromEndpointSlice (a : Sources) : Except String (List String) :=
  match a.endpointSlices with
  | .error err => .error ("retrieving kubernetes endpointslices: " ++ err)
  | .ok slices => .ok (slices.flatMap List.flatten)

def lookupAttempt (a : Sources) (i : ℕ) : List String × Option String :=
  match a.lookupHost i with
  | .error err => ([],some ("APIServer LookupHost failed: " ++ err))
  | .ok hostIPs => (hostIPs,none)

def resolveIPs (a : Sources) : Except String (List String) :=
  match retry (fun i _ => a.lookupAttempt i) hostLookupRetries [] with
  | (_,some err) => .error err
  | (hostIPs,none) => .ok hostIPs

def initNewCache (a : Sources) : Except String (Finset String) :=
  match a.ipsFromService with
  | .error err => .error ("failed to retrieve ips from kubernetes service: " ++ err)
  | .ok svcIPs =>
    match a.ipsFromEndpointSlice with
    | .error err => .error ("failed to retrieve ips from kubernetes endpointslices: " ++ err)
    | .ok endpointIPs =>
      match a.resolveIPs with
      | .error err => .error ("failed to resolve IPs: " ++ err)
      | .ok ips => .ok (ips ++ endpointIPs ++ svcIPs).toFinset

end Sources

/-! ## The refresh -/

def apiServerReq : Requestor := "apiserver-watcher"
def apiServerReqMetadata : RequestMetadata := ⟨"apiserver-watcher"⟩

structure ApiServerWatcher where
  current : Finset String := ∅
  filterManager : FilterManager := { retry := filterManagerRetries }

/-- The order of the iterations over maps, and the answers of the kernel to the two calls of a refresh. -/
structure RefreshEnv where
  order : FiniteMap.Order String
  adds : ℕ → KernelAnswer
  deletes : ℕ → KernelAnswer

structure Refreshed where
  watcher : ApiServerWatcher
  events : List APIServerEvent := []
  err : Option String := none

namespace ApiServerWatcher
variable (parseIP : String → NetIP)

def createdIPs (w : ApiServerWatcher) (new : Finset String) (order : FiniteMap.Order String) : List NetIP :=
  ((order.list new).filter (· ∉ w.current)).map fun v => to4 (parseIP v)

def deletedIPs (w : ApiServerWatcher) (new : Finset String) (order : FiniteMap.Order String) : List NetIP :=
  ((order.list w.current).filter (· ∉ new)).map fun v => to4 (parseIP v)

/-- The errors of the filter manager are logged and dropped. -/
def manage (w : ApiServerWatcher) (createdIPs deletedIPs : List NetIP) (env : RefreshEnv) : FilterManager :=
  let f := w.filterManager
  let f := if createdIPs.length > 0 then (f.addIPs createdIPs apiServerReq apiServerReqMetadata env.adds).1 else f
  if deletedIPs.length > 0 then (f.deleteIPs deletedIPs apiServerReq apiServerReqMetadata env.deletes).1 else f

def refreshTo (w : ApiServerWatcher) (new : Finset String) (env : RefreshEnv) : Option Refreshed :=
  let createdIPs := w.createdIPs parseIP new env.order
  let deletedIPs := w.deletedIPs parseIP new env.order
  match publish createdIPs .addAPIServerIPs with
  | none => none
  | some added =>
    match publish deletedIPs .deleteAPIServerIPs with
    | none => none
    | some removed => some { watcher := ⟨new,w.manage createdIPs deletedIPs env⟩, events := added ++ removed }

def refresh (w : ApiServerWatcher) (sources : Sources) (env : RefreshEnv) : Option Refreshed :=
  match sources.initNewCache with
  | .error err => some { watcher := w, err := some err }
  | .ok new => w.refreshTo parseIP new env

end ApiServerWatcher

/-! ## Nil pointers -/

/-- The event can be built if there is an address with a text that parses. -/
theorem newCacheEvent_eq_some_iff (type : APIServerEventType) (ips : List NetIP) :
    (∃ event, newCacheEvent type (newAPIServerObject ips) = some event) ↔ ∃ ip ∈ ips, ip ≠ .nil := by
  cases hfilter : ips.filter (· ≠ .nil) with
  | nil =>
    have hnone : ∀ ip ∈ ips, ip = .nil := by simpa using List.filter_eq_nil_iff.mp hfilter
    simp only [newCacheEvent, newAPIServerObject, hfilter, APIServerObject.deepCopy]
    constructor
    · intro ⟨_,h⟩
      cases h
    · intro ⟨ip,hip,hne⟩
      exact absurd (hnone ip hip) hne
  | cons primaryIP rest =>
    have hmem : primaryIP ∈ ips.filter (· ≠ .nil) := hfilter ▸ List.mem_cons_self
    obtain ⟨hin,hne⟩ := List.mem_filter.mp hmem
    simp only [newCacheEvent, newAPIServerObject, hfilter, APIServerObject.deepCopy]
    exact ⟨fun _ => ⟨primaryIP,hin,by simpa using hne⟩,fun _ => ⟨_,rfl⟩⟩

theorem publish_eq_some_iff (type : APIServerEventType) (ips : List NetIP) :
    (∃ events, publish ips type = some events) ↔ (ips ≠ [] → ∃ ip ∈ ips, ip ≠ .nil) := by
  rw [← newCacheEvent_eq_some_iff type]
  cases ips with
  | nil => simp [publish]
  | cons ip ips =>
    simp only [publish, List.length_cons, Nat.add_eq_zero_iff, one_ne_zero, and_false, if_false, ne_eq, reduceCtorEq,
      not_false_eq_true, forall_const]
    cases newCacheEvent type (newAPIServerObject (ip :: ips)) <;> simp

theorem to4_ne_nil_iff {ip : NetIP} : to4 ip ≠ .nil ↔ isIPV4 ip = true := by
  cases ip <;> simp [to4, isIPV4]

theorem to4_of_isIPV4 {ip : NetIP} (h : isIPV4 ip = true) : to4 ip = ip := by
  cases ip <;> simp_all [to4, isIPV4]

def eventFor (type : APIServerEventType) : List NetIP → List APIServerEvent
  | [] => []
  | ip :: ips => [⟨type,⟨some (apiServerEndpoint ip ips)⟩⟩]

theorem publish_of_isIPV4 {ips : List NetIP} (h : ∀ ip ∈ ips, isIPV4 ip = true) (type : APIServerEventType) :
    publish ips type = some (eventFor type ips) := by
  have hfilter : ips.filter (· ≠ .nil) = ips := by
    refine List.filter_eq_self.mpr fun ip hip => ?_
    have hv4 := h ip hip
    cases ip <;> simp_all [isIPV4]
  cases ips with
  | nil => rfl
  | cons ip ips =>
    simp only [publish, List.length_cons, Nat.add_eq_zero_iff, one_ne_zero, and_false, if_false, newCacheEvent,
      newAPIServerObject, hfilter, APIServerObject.deepCopy, eventFor]

/-- If there is a text in the set, then one of the texts is that of an IPv4 address. -/
def SomeIPv4 (parseIP : String → NetIP) (texts : Finset String) : Prop :=
  texts.Nonempty → ∃ text ∈ texts, isIPV4 (parseIP text) = true

namespace ApiServerWatcher
variable {parseIP : String → NetIP} {w : ApiServerWatcher} {new : Finset String}

theorem mem_createdIPs {order : FiniteMap.Order String} {ip : NetIP} :
    ip ∈ w.createdIPs parseIP new order ↔ ∃ text ∈ new \ w.current, to4 (parseIP text) = ip := by
  simp [createdIPs, order.mem_list]

theorem mem_deletedIPs {order : FiniteMap.Order String} {ip : NetIP} :
    ip ∈ w.deletedIPs parseIP new order ↔ ∃ text ∈ w.current \ new, to4 (parseIP text) = ip := by
  simp [deletedIPs, order.mem_list]

/-- The list of the addresses of some texts can be published. -/
theorem publish_texts_iff {texts : Finset String} {ips : List NetIP}
    (hips : ∀ ip, ip ∈ ips ↔ ∃ text ∈ texts, to4 (parseIP text) = ip) (type : APIServerEventType) :
    (∃ events, publish ips type = some events) ↔ SomeIPv4 parseIP texts := by
  have hnonempty : ips ≠ [] ↔ texts.Nonempty := by
    constructor
    · intro hne
      obtain ⟨ip,hip⟩ := List.exists_mem_of_ne_nil ips hne
      obtain ⟨text,htext,-⟩ := (hips ip).mp hip
      exact ⟨text,htext⟩
    · intro ⟨text,htext⟩
      exact List.ne_nil_of_mem ((hips _).mpr ⟨text,htext,rfl⟩)
  have hv4 : (∃ ip ∈ ips, ip ≠ .nil) ↔ ∃ text ∈ texts, isIPV4 (parseIP text) = true := by
    simp only [hips, ← to4_ne_nil_iff]
    constructor
    · intro ⟨ip,⟨text,htext,heq⟩,hne⟩
      exact ⟨text,htext,heq ▸ hne⟩
    · intro ⟨text,htext,hne⟩
      exact ⟨_,⟨text,htext,rfl⟩,hne⟩
  rw [publish_eq_some_iff, hnonempty, hv4, SomeIPv4]

theorem refreshTo_eq_some_iff (env : RefreshEnv) :
    (∃ r, w.refreshTo parseIP new env = some r) ↔
      SomeIPv4 parseIP (new \ w.current) ∧ SomeIPv4 parseIP (w.current \ new) := by
  have hcreated : (∃ events, publish (w.createdIPs parseIP new env.order) .addAPIServerIPs = some events) ↔
    SomeIPv4 parseIP (new \ w.current) := publish_texts_iff (fun _ => mem_createdIPs) _
  have hdeleted : (∃ events, publish (w.deletedIPs parseIP new env.order) .deleteAPIServerIPs = some events) ↔
    SomeIPv4 parseIP (w.current \ new) := publish_texts_iff (fun _ => mem_deletedIPs) _
  rw [← hcreated, ← hdeleted]
  simp only [refreshTo]
  cases publish (w.createdIPs parseIP new env.order) .addAPIServerIPs with
  | none => simp
  | some added => cases publish (w.deletedIPs parseIP new env.order) .deleteAPIServerIPs <;> simp

/-- A refresh between two sets of IPv4 texts. -/
theorem refreshTo_of_isIPV4 (hnew : ∀ text ∈ new, isIPV4 (parseIP text) = true)
    (hcurrent : ∀ text ∈ w.current, isIPV4 (parseIP text) = true) (env : RefreshEnv) :
    w.refreshTo parseIP new env = some {
      watcher := ⟨new,w.manage (w.createdIPs parseIP new env.order) (w.deletedIPs parseIP new env.order) env⟩
      events := eventFor .addAPIServerIPs (w.createdIPs parseIP new env.order) ++
        eventFor .deleteAPIServerIPs (w.deletedIPs parseIP new env.order) } := by
  have hcreated : ∀ ip ∈ w.createdIPs parseIP new env.order, isIPV4 ip = true := by
    intro ip hip
    obtain ⟨text,htext,rfl⟩ := mem_createdIPs.mp hip
    have hv4 := hnew text (Finset.mem_sdiff.mp htext).1
    rwa [to4_of_isIPV4 hv4]
  have hdeleted : ∀ ip ∈ w.deletedIPs parseIP new env.order, isIPV4 ip = true := by
    intro ip hip
    obtain ⟨text,htext,rfl⟩ := mem_deletedIPs.mp hip
    have hv4 := hcurrent text (Finset.mem_sdiff.mp htext).1
    rwa [to4_of_isIPV4 hv4]
  simp only [refreshTo, publish_of_isIPV4 hcreated, publish_of_isIPV4 hdeleted]

end ApiServerWatcher

/-- A refresh dereferences no nil pointer exactly if neither the new texts nor the removed ones are all without IPv4. -/
theorem refresh_safe_iff (parseIP : String → NetIP) (w : ApiServerWatcher) (sources : Sources) (env : RefreshEnv) :
    w.refresh parseIP sources env ≠ none ↔
      ∀ new, sources.initNewCache = .ok new →
        ((new \ w.current).Nonempty → ∃ text ∈ new \ w.current, isIPV4 (parseIP text) = true) ∧
        ((w.current \ new).Nonempty → ∃ text ∈ w.current \ new, isIPV4 (parseIP text) = true) := by
  rw [Option.ne_none_iff_exists']
  unfold ApiServerWatcher.refresh
  cases hnew : sources.initNewCache with
  | error err => simp
  | ok new =>
    refine (ApiServerWatcher.refreshTo_eq_some_iff env).trans ⟨?_,fun h => h new rfl⟩
    intro h new' heq
    cases heq
    exact h

section Sample

def sampleParseIP (text : String) : NetIP :=
  if text = "10.0.0.1" then .v4 10 0 0 1
  else if text = "10.0.0.2" then .v4 10 0 0 2
  else if text = "10.0.0.3" then .v4 10 0 0 3
  else if text = "2001:db8::1" then .v6 0x20010db8000000000000000000000001
  else .nil

def sampleSources (hostIPs : List String) : Sources where
  service := .ok ["10.0.0.1"]
  endpointSlices := .ok [[["10.0.0.2"]]]
  lookupHost _ := .ok hostIPs

noncomputable def sampleRefreshEnv : RefreshEnv := ⟨FiniteMap.Order.arbitrary String,fun _ => {},fun _ => {}⟩

end Sample

/-- The host gets an IPv6 address. -/
theorem refresh_crashes :
    ApiServerWatcher.refresh sampleParseIP { current := {"10.0.0.1","10.0.0.2"} } (sampleSources ["2001:db8::1"])
      sampleRefreshEnv = none := by
  have hnew : (sampleSources ["2001:db8::1"]).initNewCache = .ok {"2001:db8::1","10.0.0.2","10.0.0.1"} := rfl
  simp only [ApiServerWatcher.refresh, hnew]
  rw [Option.eq_none_iff_forall_ne_some]
  intro r hr
  have hsafe := (ApiServerWatcher.refreshTo_eq_some_iff _).mp ⟨r,hr⟩
  obtain ⟨text,htext,hv4⟩ := hsafe.1 ⟨"2001:db8::1",by decide⟩
  have heq : text = "2001:db8::1" := by
    have hdiff : ({"2001:db8::1","10.0.0.2","10.0.0.1"} : Finset String) \ {"10.0.0.1","10.0.0.2"} =
        {"2001:db8::1"} := by decide
    rw [hdiff] at htext
    exact Finset.mem_singleton.mp htext
  subst heq
  cases hv4

end Retina.Watchers
