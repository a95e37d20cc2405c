import Retina.Library.FiniteMap
import Retina.Library.ReverseIndex

/-! # Services by address

`pkg/hubble/resources/service_linux.go`: the service that a cluster IP belongs to. The handler keeps
the service of each address and the addresses of each service. An address is given by its text, as
`netip.Addr` prints it. The events of one service are handled in their order, those of different
services in any.
-/
namespace Retina.Hubble
open Execution

structure NamespacedName where
  namespaceName : String
  name : String
deriving DecidableEq

structure Service where
  namespaceName : String
  name : String
  clusterIPs : List String

structure FlowService where
  name : String
  namespaceName : String
deriving DecidableEq

def Service.key (service : Service) : NamespacedName := ⟨service.namespaceName,service.name⟩

def NamespacedName.flowService (key : NamespacedName) : FlowService := ⟨key.name,key.namespaceName⟩

def FlowService.key (service : FlowService) : NamespacedName := ⟨service.namespaceName,service.name⟩

inductive EventKind
  | sync
  | upsert
  | delete

structure Event where
  kind : EventKind
  key : NamespacedName
  object : Option Service

structure ServiceHandler where
  ipToService : Finmap (fun _ : String => FlowService)
  serviceToIPs : Finmap (fun _ : NamespacedName => List String)

def ServiceHandler.new : ServiceHandler := ⟨∅,∅⟩

def ServiceHandler.decode (h : ServiceHandler) (ip : String) : Option FlowService := h.ipToService.lookup ip

def addClusterIP (key : NamespacedName) (h : ServiceHandler) (clusterIP : String) : ServiceHandler :=
  if clusterIP ≠ "" ∧ clusterIP ≠ "None" then
    { ipToService := h.ipToService.insert clusterIP key.flowService
      serviceToIPs := h.serviceToIPs.insert key ((h.serviceToIPs.lookup key).getD [] ++ [clusterIP]) }
  else h

def addServiceIPMappings (h : ServiceHandler) (service : Service) : ServiceHandler :=
  service.clusterIPs.foldl (addClusterIP service.key)
    { h with serviceToIPs := h.serviceToIPs.insert service.key [] }

def updateServiceCache (h : ServiceHandler) (service : Service) : ServiceHandler :=
  match h.serviceToIPs.lookup service.key with
  | none => addServiceIPMappings h service
  | some oldIPs => addServiceIPMappings { h with ipToService := oldIPs.foldl (fun m ip => m.erase ip) h.ipToService } service

def removeServiceFromCache (h : ServiceHandler) (key : NamespacedName) : ServiceHandler :=
  match h.serviceToIPs.lookup key with
  | none => h
  | some ips =>
    { ipToService := ips.foldl (fun m ip => m.erase ip) h.ipToService
      serviceToIPs := h.serviceToIPs.erase key }

def handleEvent (h : ServiceHandler) (ev : Event) : ServiceHandler :=
  match ev.kind with
  | .sync => h
  | .upsert =>
    match ev.object with
    | none => h
    | some service => updateServiceCache h service
  | .delete => removeServiceFromCache h ev.key

/-! ## The services in the API server -/

def Service.ips (service : Service) : List String := service.clusterIPs.filter fun ip => ip ≠ "" ∧ ip ≠ "None"

def apply (services : NamespacedName → Option Service) (ev : Event) : NamespacedName → Option Service :=
  match ev.kind with
  | .sync => services
  | .upsert =>
    match ev.object with
    | none => services
    | some service => Function.update services service.key (some service)
  | .delete => Function.update services ev.key none

def live (events : List Event) : NamespacedName → Option Service := run apply (fun _ => none) events

def OneOwner (services : NamespacedName → Option Service) : Prop :=
  ∀ ⦃key other service otherService ip⦄, services key = some service → services other = some otherService →
    ip ∈ service.ips → ip ∈ otherService.ips → key = other

def Event.change (ev : Event) : Option (NamespacedName × List String) :=
  match ev.kind with
  | .sync => none
  | .upsert => ev.object.map fun service => (service.key,service.ips)
  | .delete => some (ev.key,[])

def Event.concerns (key : NamespacedName) (ev : Event) : Bool := ev.change.any fun c => c.1 = key

/-! ## The two maps as an index -/

def ServiceHandler.view (h : ServiceHandler) : ReverseIndex.State NamespacedName String where
  claims key := (h.serviceToIPs.lookup key).getD []
  owner ip := (h.ipToService.lookup ip).map FlowService.key

theorem owner_view_iff (h : ServiceHandler) (ip : String) (key : NamespacedName) :
    h.view.owner ip = some key ↔ h.ipToService.lookup ip = some key.flowService := by
  change (h.ipToService.lookup ip).map FlowService.key = some key ↔ _
  rw [Option.map_eq_some_iff]
  constructor
  · rintro ⟨service,hservice,rfl⟩
    exact hservice
  · exact fun hservice => ⟨key.flowService,hservice,rfl⟩

theorem mem_claims_view_iff (h : ServiceHandler) (ip : String) (key : NamespacedName) :
    ip ∈ h.view.claims key ↔ ∃ ips, h.serviceToIPs.lookup key = some ips ∧ ip ∈ ips := by
  change ip ∈ (h.serviceToIPs.lookup key).getD [] ↔ _
  cases h.serviceToIPs.lookup key <;> simp

theorem lookup_foldl_addClusterIP (key : NamespacedName) (clusterIPs : List String) {h : ServiceHandler}
    {ips : List String} (hips : h.serviceToIPs.lookup key = some ips) :
    (∀ k, (clusterIPs.foldl (addClusterIP key) h).serviceToIPs.lookup k =
        if k = key then some (ips ++ clusterIPs.filter fun ip => ip ≠ "" ∧ ip ≠ "None")
        else h.serviceToIPs.lookup k) ∧
      ∀ ip, (clusterIPs.foldl (addClusterIP key) h).ipToService.lookup ip =
        if ip ∈ clusterIPs.filter fun ip => ip ≠ "" ∧ ip ≠ "None" then some key.flowService
        else h.ipToService.lookup ip := by
  induction clusterIPs generalizing h ips with
  | nil =>
    refine ⟨fun k => ?_,fun ip => by simp⟩
    split_ifs with hk
    · rw [hk, List.filter_nil, List.append_nil]
      exact hips
    · rfl
  | cons clusterIP clusterIPs ih =>
    rw [List.foldl_cons, addClusterIP]
    by_cases haddress : clusterIP ≠ "" ∧ clusterIP ≠ "None"
    · rw [if_pos haddress, List.filter_cons_of_pos (by simpa using haddress), hips, Option.getD_some]
      obtain ⟨hservices,haddresses⟩ := ih (h :=
        { ipToService := h.ipToService.insert clusterIP key.flowService
          serviceToIPs := h.serviceToIPs.insert key (ips ++ [clusterIP]) }) (Finmap.lookup_insert _)
      refine ⟨fun k => ?_,fun ip => ?_⟩
      · rw [hservices, List.append_assoc, List.singleton_append]
        split_ifs with hk
        · rfl
        · exact Finmap.lookup_insert_of_ne _ hk
      · rw [haddresses, FiniteMap.lookup_insert_eq_ite]
        by_cases hip : ip = clusterIP
        · simp [hip]
        · simp [hip]
    · rw [if_neg haddress, List.filter_cons_of_neg (by simpa using haddress)]
      exact ih hips

theorem view_addServiceIPMappings (h : ServiceHandler) (service : Service) :
    (∀ k, (addServiceIPMappings h service).view.claims k = if k = service.key then service.ips else h.view.claims k) ∧
      ∀ ip, (addServiceIPMappings h service).view.owner ip =
        if ip ∈ service.ips then some service.key else h.view.owner ip := by
  obtain ⟨hservices,haddresses⟩ := lookup_foldl_addClusterIP service.key service.clusterIPs
    (h := { h with serviceToIPs := h.serviceToIPs.insert service.key [] }) (Finmap.lookup_insert _)
  refine ⟨fun k => ?_,fun ip => ?_⟩
  · change (Option.getD _ []) = _
    rw [addServiceIPMappings, hservices]
    split_ifs with hk
    · rfl
    · rw [Finmap.lookup_insert_of_ne _ hk]
      rfl
  · change Option.map FlowService.key _ = _
    rw [addServiceIPMappings, haddresses]
    change _ = if ip ∈ service.clusterIPs.filter _ then _ else _
    split_ifs
    · rfl
    · rfl

/-- The handler takes the old addresses of the service out of the index and puts the new ones in. -/
theorem view_updateServiceCache (h : ServiceHandler) (service : Service) :
    (updateServiceCache h service).view = ReverseIndex.assign h.view (service.key,service.ips) := by
  have hassign : ∀ h' : ServiceHandler, h'.serviceToIPs = h.serviceToIPs →
      (∀ ip, h'.view.owner ip = if ip ∈ h.view.claims service.key then none else h.view.owner ip) →
      (addServiceIPMappings h' service).view = ReverseIndex.assign h.view (service.key,service.ips) := by
    intro h' hsame howner
    obtain ⟨hclaims,howners⟩ := view_addServiceIPMappings h' service
    have hsame' : h'.view.claims = h.view.claims := by
      simp only [ServiceHandler.view, hsame]
    refine ReverseIndex.eq_assign (fun k => ?_) fun ip => ?_
    · rw [hclaims, hsame']
    · rw [howners, howner]
  unfold updateServiceCache
  cases hold : h.serviceToIPs.lookup service.key with
  | none =>
    refine hassign h rfl fun ip => ?_
    have hnone : h.view.claims service.key = [] := by simp [ServiceHandler.view, hold]
    simp [hnone]
  | some oldIPs =>
    refine hassign _ rfl fun ip => ?_
    have hsome : h.view.claims service.key = oldIPs := by simp [ServiceHandler.view, hold]
    rw [hsome]
    change Option.map FlowService.key _ = _
    rw [FiniteMap.lookup_foldl_erase]
    split_ifs <;> rfl

theorem view_removeServiceFromCache (h : ServiceHandler) (key : NamespacedName) :
    (removeServiceFromCache h key).view = ReverseIndex.assign h.view (key,[]) := by
  unfold removeServiceFromCache
  cases hold : h.serviceToIPs.lookup key with
  | none =>
    have hnone : h.view.claims key = [] := by simp [ServiceHandler.view, hold]
    refine ReverseIndex.eq_assign (fun k => ?_) fun ip => by simp [hnone]
    split_ifs with hk
    · rw [hk, hnone]
    · rfl
  | some ips =>
    have hsome : h.view.claims key = ips := by simp [ServiceHandler.view, hold]
    refine ReverseIndex.eq_assign (fun k => ?_) fun ip => ?_
    · change Option.getD _ [] = _
      rw [FiniteMap.lookup_erase_eq_ite]
      split_ifs <;> rfl
    · change Option.map FlowService.key _ = _
      rw [FiniteMap.lookup_foldl_erase, if_neg List.not_mem_nil, hsome]
      split_ifs <;> rfl

theorem view_handleEvent (h : ServiceHandler) (ev : Event) :
    (handleEvent h ev).view = match ev.change with
      | none => h.view
      | some change => ReverseIndex.assign h.view change := by
  unfold handleEvent Event.change
  cases ev.kind with
  | sync => rfl
  | upsert =>
    cases ev.object with
    | none => rfl
    | some service => exact view_updateServiceCache h service
  | delete => exact view_removeServiceFromCache h ev.key

theorem view_run (events : List Event) (h : ServiceHandler) :
    (run handleEvent h events).view = run ReverseIndex.assign h.view (events.filterMap Event.change) := by
  induction events generalizing h with
  | nil => rfl
  | cons ev events ih =>
    have hview := view_handleEvent h ev
    rw [run_cons, ih, List.filterMap_cons]
    cases hchange : ev.change with
    | none =>
      rw [hchange] at hview
      rw [hview]
    | some change =>
      rw [hchange] at hview
      rw [hview]
      rfl

/-! ## Live services -/

def ipsOf (services : NamespacedName → Option Service) (key : NamespacedName) : List String :=
  ((services key).map Service.ips).getD []

theorem mem_ipsOf_iff (services : NamespacedName → Option Service) (key : NamespacedName) (ip : String) :
    ip ∈ ipsOf services key ↔ ∃ service, services key = some service ∧ ip ∈ service.ips := by
  unfold ipsOf
  cases services key <;> simp

theorem ipsOf_apply (services : NamespacedName → Option Service) (ev : Event) (key : NamespacedName) :
    ipsOf (apply services ev) key = match ev.change with
      | none => ipsOf services key
      | some change => if key = change.1 then change.2 else ipsOf services key := by
  unfold apply Event.change ipsOf
  cases ev.kind with
  | sync => rfl
  | upsert =>
    cases ev.object with
    | none => rfl
    | some service =>
      dsimp only [Option.map_some]
      rw [Function.update_apply]
      split_ifs <;> rfl
  | delete =>
    dsimp only
    rw [Function.update_apply]
    split_ifs <;> rfl

theorem claims_run_eq_ipsOf (events : List Event) {s : ReverseIndex.State NamespacedName String}
    {services : NamespacedName → Option Service} (h : s.claims = ipsOf services) :
    (run ReverseIndex.assign s (events.filterMap Event.change)).claims = ipsOf (run apply services events) := by
  induction events generalizing s services with
  | nil => exact h
  | cons ev events ih =>
    have hstep : ∀ key, ipsOf (apply services ev) key = _ := ipsOf_apply services ev
    rw [List.filterMap_cons, run_cons]
    cases hchange : ev.change with
    | none =>
      simp only [hchange] at hstep
      exact ih (h.trans (funext hstep).symm)
    | some change =>
      simp only [hchange] at hstep
      refine ih (funext fun key => ?_)
      rw [ReverseIndex.claims_assign, hstep, h]

theorem filter_changes (key : NamespacedName) (events : List Event) :
    (events.filterMap Event.change).filter (fun change => change.1 = key) =
      (events.filter (Event.concerns key)).filterMap Event.change := by
  induction events with
  | nil => rfl
  | cons ev events ih =>
    cases hchange : ev.change with
    | none => simpa [List.filterMap_cons, List.filter_cons, Event.concerns, hchange] using ih
    | some change =>
      by_cases hkey : change.1 = key
      · simpa [List.filterMap_cons, List.filter_cons, Event.concerns, hchange, hkey] using ih
      · simpa [List.filterMap_cons, List.filter_cons, Event.concerns, hchange, hkey] using ih

/-- The order between services does not matter for which addresses they have in the end. -/
theorem claims_eq_of_inOrder {history handled : List Event}
    (horder : ∀ key, handled.filter (Event.concerns key) = history.filter (Event.concerns key)) :
    (run ReverseIndex.assign .empty (handled.filterMap Event.change)).claims = ipsOf (live history) := by
  rw [live, ← claims_run_eq_ipsOf (s := .empty) history (funext fun _ => rfl)]
  funext key
  rw [ReverseIndex.claims_run_filter key (handled.filterMap Event.change) rfl,
    ReverseIndex.claims_run_filter key (history.filterMap Event.change) rfl, filter_changes, filter_changes, horder]

/-- Addresses lead to their live services, and the two maps agree, exactly if no event that takes an address away
from a service is handled after the last event of the service that has the address in the end. -/
theorem decode_live_iff (history handled : List Event) (hserver : ∀ earlier, earlier <+: history → OneOwner (live earlier))
    (horder : ∀ key, handled.filter (Event.concerns key) = history.filter (Event.concerns key)) :
    ((∀ ip key, (run handleEvent .new handled).decode ip = some key.flowService ↔
          ∃ service, live history key = some service ∧ ip ∈ service.ips) ∧
        ∀ ip key, (run handleEvent .new handled).ipToService.lookup ip = some key.flowService ↔
          ∃ ips, (run handleEvent .new handled).serviceToIPs.lookup key = some ips ∧ ip ∈ ips) ↔
      ReverseIndex.Undisturbed (handled.filterMap Event.change) := by
  have hview : (run handleEvent .new handled).view =
      run ReverseIndex.assign .empty (handled.filterMap Event.change) := view_run handled .new
  have hclaims := claims_eq_of_inOrder horder
  have hexclusive : ReverseIndex.Exclusive
      (run ReverseIndex.assign .empty (handled.filterMap Event.change)).claims := by
    intro key other ip hkey hother
    rw [hclaims, mem_ipsOf_iff] at hkey hother
    obtain ⟨service,hservice,hip⟩ := hkey
    obtain ⟨otherService,hotherService,hip'⟩ := hother
    exact hserver history (List.prefix_refl _) hservice hotherService hip hip'
  rw [← ReverseIndex.consistent_iff hexclusive, ← hview]
  have howner := owner_view_iff (run handleEvent .new handled)
  have hlive : ∀ ip key, ip ∈ (run handleEvent .new handled).view.claims key ↔
      ∃ service, live history key = some service ∧ ip ∈ service.ips := by
    intro ip key
    rw [hview, hclaims, mem_ipsOf_iff]
  constructor
  · rintro ⟨hdecode,_⟩ ip key
    rw [howner, hlive]
    exact hdecode ip key
  · intro hconsistent
    refine ⟨fun ip key => ?_,fun ip key => ?_⟩
    · rw [ServiceHandler.decode, ← howner, hconsistent, hlive]
    · rw [← howner, hconsistent, mem_claims_view_iff]

def serviceA : Service := ⟨"apps","a",["10.0.0.1"]⟩

def serviceB : Service := ⟨"apps","b",["10.0.0.1"]⟩

def upsert (service : Service) : Event := ⟨.upsert,service.key,some service⟩

def delete (service : Service) : Event := ⟨.delete,service.key,none⟩

def reuse : List Event := [upsert serviceA,delete serviceA,upsert serviceB]

theorem oneOwner_update_none (key : NamespacedName) (service : Option Service) :
    OneOwner (Function.update (fun _ => none) key service) := by
  intro k l s t ip hk hl _ _
  rw [Function.update_apply] at hk hl
  split_ifs at hk hl with hkey hother
  rw [hkey, hother]

theorem oneOwner_reuse (earlier : List Event) (hearlier : earlier <+: reuse) : OneOwner (live earlier) := by
  have hdeleted : live [upsert serviceA,delete serviceA] = Function.update (fun _ => none) serviceA.key none :=
    Function.update_idem _ _ _
  have hreused : live reuse = Function.update (fun _ => none) serviceB.key (some serviceB) := by
    change Function.update (live [upsert serviceA,delete serviceA]) serviceB.key (some serviceB) = _
    rw [hdeleted, Function.update_eq_self_iff.mpr rfl]
  rw [← List.mem_inits] at hearlier
  simp only [reuse, List.inits, List.map_cons, List.map_nil, List.mem_cons, List.not_mem_nil, or_false] at hearlier
  rcases hearlier with rfl | rfl | rfl | rfl
  · exact fun _ _ _ _ _ hk => by cases hk
  · exact oneOwner_update_none serviceA.key (some serviceA)
  · rw [hdeleted]
    exact oneOwner_update_none serviceA.key none
  · change OneOwner (live reuse)
    rw [hreused]
    exact oneOwner_update_none serviceB.key (some serviceB)

/-- The deletion of the first service is handled last. -/
theorem lateDelete_unmaps_address :
    (∀ earlier, earlier <+: reuse → OneOwner (live earlier)) ∧
      (∀ key, [upsert serviceA,upsert serviceB,delete serviceA].filter (Event.concerns key) =
        reuse.filter (Event.concerns key)) ∧
      live reuse serviceB.key = some serviceB ∧ "10.0.0.1" ∈ serviceB.ips ∧
      (run handleEvent .new [upsert serviceA,upsert serviceB,delete serviceA]).decode "10.0.0.1" = none ∧
      (run handleEvent .new [upsert serviceA,upsert serviceB,delete serviceA]).serviceToIPs.lookup serviceB.key =
        some ["10.0.0.1"] := by
  refine ⟨oneOwner_reuse,fun key => ?_,rfl,by decide,by decide,by decide⟩
  have hne : serviceA.key ≠ serviceB.key := by decide
  by_cases hA : serviceA.key = key
  · have hB : serviceB.key ≠ key := fun hB => hne (hA.trans hB.symm)
    simp [reuse, Event.concerns, Event.change, upsert, delete, hA, hB]
  · simp [reuse, List.filter_cons, Event.concerns, Event.change, upsert, delete, hA]

theorem orderedReuse_decodes :
    ((∀ ip key, (run handleEvent .new reuse).decode ip = some key.flowService ↔
          ∃ service, live reuse key = some service ∧ ip ∈ service.ips) ∧
        ∀ ip key, (run handleEvent .new reuse).ipToService.lookup ip = some key.flowService ↔
          ∃ ips, (run handleEvent .new reuse).serviceToIPs.lookup key = some ips ∧ ip ∈ ips) ↔
      ReverseIndex.Undisturbed (reuse.filterMap Event.change) :=
  decode_live_iff reuse reuse oneOwner_reuse fun _ => rfl

end Retina.Hubble
