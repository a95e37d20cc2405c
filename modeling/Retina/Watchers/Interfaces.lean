import Retina.Library.Execution
import Retina.PacketParser.EndpointEvents

/-! # The interfaces of endpoints

`pkg/watchers/endpoint`. A refresh lists the links, files the attributes of each veth under its name, hardware address
and network namespace, and publishes the veths whose key is new and those whose key is gone. The
index of the interface is not part of the key. A subscriber adds and removes what the events carry.
-/
namespace Retina.Watchers.Interfaces
open PacketParser (LinkAttrs EventType)

deriving instance DecidableEq for PacketParser.LinkAttrs

structure Key where
  name : String
  hardwareAddr : String
  netNsID : ℤ
deriving DecidableEq

def keyOf (attrs : LinkAttrs) : Key := ⟨attrs.name,attrs.hardwareAddr,attrs.netNsID⟩

structure Link where
  type : String
  attrs : LinkAttrs

structure EndpointEvent where
  type : EventType
  obj : LinkAttrs

abbrev LinkCache := Finmap (fun _ : Key => LinkAttrs)

def listVeths (links : List Link) : List LinkAttrs := (links.filter (·.type = "veth")).map Link.attrs

def newCache (veths : List LinkAttrs) : LinkCache := veths.foldl (fun m veth => m.insert (keyOf veth) veth) ∅

/-- One of the two loops of `diffCache`: the entries of `a` whose keys are not in `b`. -/
def missing (order : FiniteMap.Order Key) (a b : LinkCache) : List LinkAttrs :=
  (order.list a.keys).filterMap fun k => if k ∈ b then none else a.lookup k

structure Refresh where
  links : Except String (List Link)
  order : FiniteMap.Order Key

structure Scene where
  current : LinkCache := ∅
  held : Finset LinkAttrs := ∅

def receive (held : Finset LinkAttrs) (event : EndpointEvent) : Finset LinkAttrs :=
  match event.type with
  | .endpointCreated => insert event.obj held
  | .endpointDeleted => held.erase event.obj
  | .unknown => held

def events (order : FiniteMap.Order Key) (new current : LinkCache) : List EndpointEvent :=
  (missing order new current).map (⟨.endpointCreated,·⟩) ++ (missing order current new).map (⟨.endpointDeleted,·⟩)

/-- If the links cannot be listed, the refresh returns the error before it changes anything. -/
def refresh (s : Scene) (r : Refresh) : Scene :=
  match r.links with
  | .error _ => s
  | .ok links => {
      current := newCache (listVeths links)
      held := (events r.order (newCache (listVeths links)) s.current).foldl receive s.held }

def lastListing (veths : List LinkAttrs) (r : Refresh) : List LinkAttrs :=
  match r.links with
  | .error _ => veths
  | .ok links => listVeths links

def Reconstructs (refreshes : List Refresh) : Prop :=
  (Execution.run refresh {} refreshes).held = (refreshes.foldl lastListing []).toFinset

/-- The listed veths are told apart by their keys, and a veth whose key is known is the known one. -/
def KeysIdentify (s : Scene) (r : Refresh) : Prop :=
  ∀ links, r.links = .ok links → (∀ v ∈ listVeths links, ∀ w ∈ listVeths links, keyOf v = keyOf w → v = w) ∧
    ∀ v ∈ listVeths links, ∀ known ∈ s.current.lookup (keyOf v), known = v

/-! ## One refresh -/

theorem mem_foldl_receive_created (attrs : List LinkAttrs) (held : Finset LinkAttrs) (a : LinkAttrs) :
    a ∈ (attrs.map (⟨.endpointCreated,·⟩ : LinkAttrs → EndpointEvent)).foldl receive held ↔ a ∈ held ∨ a ∈ attrs := by
  induction attrs generalizing held with
  | nil => simp
  | cons x attrs ih =>
    rw [List.map_cons, List.foldl_cons, ih]
    simp only [receive, Finset.mem_insert, List.mem_cons]
    tauto

theorem mem_foldl_receive_deleted (attrs : List LinkAttrs) (held : Finset LinkAttrs) (a : LinkAttrs) :
    a ∈ (attrs.map (⟨.endpointDeleted,·⟩ : LinkAttrs → EndpointEvent)).foldl receive held ↔ a ∈ held ∧ a ∉ attrs := by
  induction attrs generalizing held with
  | nil => simp
  | cons x attrs ih =>
    rw [List.map_cons, List.foldl_cons, ih]
    simp only [receive, Finset.mem_erase, List.mem_cons]
    tauto

def Filed (m : LinkCache) : Prop := ∀ k a, m.lookup k = some a → keyOf a = k

theorem Filed.mem_missing {a b : LinkCache} (ha : Filed a) (order : FiniteMap.Order Key) (x : LinkAttrs) :
    x ∈ missing order a b ↔ a.lookup (keyOf x) = some x ∧ keyOf x ∉ b := by
  simp only [missing, List.mem_filterMap, order.mem_list, Finmap.mem_keys]
  constructor
  · rintro ⟨k,-,hk⟩
    split at hk
    · cases hk
    · next hb =>
      obtain rfl := ha k x hk
      exact ⟨hk,hb⟩
  · rintro ⟨hx,hb⟩
    exact ⟨keyOf x,Finmap.mem_of_lookup_eq_some hx,by rw [if_neg hb, hx]⟩

theorem lookup_newCache (veths : List LinkAttrs) : Filed (newCache veths) ∧
    (∀ k a, (newCache veths).lookup k = some a → a ∈ veths) ∧ ∀ v ∈ veths, keyOf v ∈ newCache veths := by
  rw [newCache]
  induction veths using List.reverseRecOn with
  | nil => simp [Filed]
  | append_singleton veths v ih =>
    rw [List.foldl_append, List.foldl_cons, List.foldl_nil]
    obtain ⟨hfiled,hmem,hkey⟩ := ih
    refine ⟨?_,?_,?_⟩
    · intro k a ha
      rcases FiniteMap.lookup_of_insert ha with ⟨rfl,rfl⟩ | ⟨-,ha⟩
      · rfl
      · exact hfiled k a ha
    · intro k a ha
      rcases FiniteMap.lookup_of_insert ha with ⟨-,rfl⟩ | ⟨-,ha⟩
      · simp
      · exact List.mem_append_left _ (hmem k a ha)
    · intro w hw
      rw [Finmap.mem_insert]
      rcases List.mem_append.mp hw with hw | hw
      · exact .inr (hkey w hw)
      · exact .inl (by rw [List.mem_singleton.mp hw])

/-- What the subscriber holds if it held the entries of the cache: the known entries with a key that is listed, and
the listed entries with a key that was not known. -/
theorem mem_held_refresh {s : Scene} {r : Refresh} {links : List Link} (hr : r.links = .ok links)
    (hfiled : Filed s.current) (hheld : ∀ a, a ∈ s.held ↔ s.current.lookup (keyOf a) = some a) (a : LinkAttrs) :
    a ∈ (refresh s r).held ↔ s.current.lookup (keyOf a) = some a ∧ keyOf a ∈ newCache (listVeths links) ∨
      (newCache (listVeths links)).lookup (keyOf a) = some a ∧ keyOf a ∉ s.current := by
  obtain ⟨hnew,-,-⟩ := lookup_newCache (listVeths links)
  simp only [refresh, hr, events, List.foldl_append]
  rw [mem_foldl_receive_deleted, mem_foldl_receive_created, hfiled.mem_missing, hnew.mem_missing, hheld]
  have hin : ∀ {m : LinkCache}, m.lookup (keyOf a) = some a → keyOf a ∈ m := Finmap.mem_of_lookup_eq_some
  constructor
  · rintro ⟨hs | hc,hd⟩
    · exact .inl ⟨hs,by_contra fun hk => hd ⟨hs,hk⟩⟩
    · exact .inr hc
  · rintro (⟨hs,hk⟩ | ⟨hn,hk⟩)
    · exact ⟨.inl hs,fun hd => hd.2 hk⟩
    · exact ⟨.inr ⟨hn,hk⟩,fun hd => hk (hin hd.1)⟩

structure InStep (s : Scene) (veths : List LinkAttrs) : Prop where
  filed : Filed s.current
  held : ∀ a, a ∈ s.held ↔ s.current.lookup (keyOf a) = some a
  listed : s.held = veths.toFinset

theorem inStep_empty : InStep {} [] := ⟨by simp [Filed],by simp,rfl⟩

theorem InStep.refresh {s : Scene} {veths : List LinkAttrs} (h : InStep s veths) {r : Refresh} (hr : KeysIdentify s r) :
    InStep (refresh s r) (lastListing veths r) := by
  cases hlinks : r.links with
  | error err => simpa only [Interfaces.refresh, lastListing, hlinks] using h
  | ok links =>
    obtain ⟨hfiled,hmem,hkey⟩ := lookup_newCache (listVeths links)
    obtain ⟨happart,hknown⟩ := hr links hlinks
    have hcurrent : (Interfaces.refresh s r).current = newCache (listVeths links) := by
      simp only [Interfaces.refresh, hlinks]
    have hlookup : ∀ v ∈ listVeths links, (newCache (listVeths links)).lookup (keyOf v) = some v := by
      intro v hv
      obtain ⟨w,hw⟩ := Finmap.mem_iff.mp (hkey v hv)
      rw [hw, happart w (hmem _ _ hw) v hv (hfiled _ _ hw)]
    have hheld : ∀ a, a ∈ (Interfaces.refresh s r).held ↔ (newCache (listVeths links)).lookup (keyOf a) = some a := by
      intro a
      rw [mem_held_refresh hlinks h.filed h.held]
      constructor
      · rintro (⟨ha,hk⟩ | ⟨ha,-⟩)
        · obtain ⟨v,hv⟩ := Finmap.mem_iff.mp hk
          rw [hv, hknown v (hmem _ _ hv) a (by rw [hfiled _ _ hv]; exact ha)]
        · exact ha
      · intro ha
        by_cases hk : keyOf a ∈ s.current
        · obtain ⟨known,hk'⟩ := Finmap.mem_iff.mp hk
          obtain rfl := hknown a (hmem _ _ ha) known hk'
          exact .inl ⟨hk',Finmap.mem_of_lookup_eq_some ha⟩
        · exact .inr ⟨ha,hk⟩
    refine ⟨hcurrent ▸ hfiled,?_,?_⟩
    · rw [hcurrent]
      exact hheld
    · ext a
      rw [hheld, lastListing, hlinks, List.mem_toFinset]
      exact ⟨hmem _ a,hlookup a⟩

/-- What is held is told apart by the keys, so that it can only be the listing if the listing is, and if nothing known
has changed under its key. -/
theorem InStep.keysIdentify {s : Scene} {veths : List LinkAttrs} (h : InStep s veths) {r : Refresh}
    (hr : (Interfaces.refresh s r).held = (lastListing veths r).toFinset) : KeysIdentify s r := by
  intro links hlinks
  obtain ⟨-,-,hkey⟩ := lookup_newCache (listVeths links)
  have hmem := mem_held_refresh hlinks h.filed h.held
  have hlisted : ∀ v, v ∈ listVeths links ↔ v ∈ (Interfaces.refresh s r).held := by
    intro v
    rw [hr, lastListing, hlinks, List.mem_toFinset]
  have hunique : ∀ a ∈ (Interfaces.refresh s r).held, ∀ b ∈ (Interfaces.refresh s r).held, keyOf a = keyOf b → a = b := by
    intro a ha b hb hab
    rw [hmem] at ha hb
    rw [hab] at ha
    rcases ha with ⟨ha,-⟩ | ⟨ha,hna⟩ <;> rcases hb with ⟨hb,-⟩ | ⟨hb,hnb⟩
    · exact Option.some.inj (ha.symm.trans hb)
    · exact absurd (Finmap.mem_of_lookup_eq_some ha) hnb
    · exact absurd (Finmap.mem_of_lookup_eq_some hb) hna
    · exact Option.some.inj (ha.symm.trans hb)
  refine ⟨?_,?_⟩
  · intro v hv w hw
    exact hunique v ((hlisted v).mp hv) w ((hlisted w).mp hw)
  · intro v hv known hk
    have hfiled := h.filed _ _ hk
    have hheld : known ∈ (Interfaces.refresh s r).held := by
      rw [hmem, hfiled]
      exact .inl ⟨hk,hkey v hv⟩
    exact hunique known hheld v ((hlisted v).mp hv) hfiled

/-! ## Refresh after refresh -/

theorem inStep_run {refreshes : List Refresh} (h : Execution.Along refresh KeysIdentify {} refreshes) :
    InStep (Execution.run refresh {} refreshes) (refreshes.foldl lastListing []) := by
  induction refreshes using List.reverseRecOn with
  | nil => exact inStep_empty
  | append_singleton refreshes r ih =>
    rw [Execution.along_append] at h
    rw [Execution.run_append, List.foldl_append]
    exact (ih h.1).refresh h.2.1

/-- The events are enough to reconstruct the interfaces exactly if no refresh lists a key twice or a known key with
attributes that are new. -/
theorem interfaces_reconstructed_iff (refreshes : List Refresh) :
    (∀ earlier, earlier <+: refreshes → Reconstructs earlier) ↔ Execution.Along refresh KeysIdentify {} refreshes := by
  have hall : Execution.Along refresh (fun _ _ => True) {} refreshes :=
    Execution.along_of_forall (fun _ _ _ => trivial) _
  refine Execution.forall_prefix_iff_along (fun refreshes _ hC => (inStep_run hC).listed) ?_ hall
  intro refreshes r _ hC _ hr hrec
  have hheld : (Execution.run refresh {} (refreshes ++ [r])).held =
      ((refreshes ++ [r]).foldl lastListing []).toFinset := hrec
  rw [Execution.run_append, List.foldl_append] at hheld
  exact hr ((inStep_run hC).keysIdentify hheld)

/-! ## An interface that is recreated -/

def lxc (index : ℕ) : LinkAttrs := ⟨"lxc1",index,"02:00:00:00:00:01",0⟩

noncomputable def listing (index : ℕ) : Refresh where
  links := .ok [⟨"veth",lxc index⟩,⟨"device",⟨"eth0",2,"02:00:00:00:00:02",0⟩⟩]
  order := FiniteMap.Order.arbitrary Key

theorem recreated_interface_missed :
    (Execution.run refresh {} [listing 7,listing 8]).held = {lxc 7} ∧
      ([listing 7,listing 8].foldl lastListing []).toFinset = {lxc 8} ∧ lxc 7 ≠ lxc 8 := by
  have hfirst : KeysIdentify {} (listing 7) := by
    rintro links ⟨rfl⟩
    exact ⟨by decide,by decide⟩
  have hstep := inStep_empty.refresh hfirst
  have hcurrent : (refresh {} (listing 7)).current = newCache [lxc 7] := rfl
  have hkey : keyOf (lxc 7) = keyOf (lxc 8) := rfl
  refine ⟨?_,by decide,by decide⟩
  ext a
  rw [Execution.run_cons, Execution.run_cons]
  refine (mem_held_refresh (r := listing 8) rfl hstep.filed hstep.held a).trans ?_
  rw [hcurrent]
  have hveths : listVeths [⟨"veth",lxc 8⟩,⟨"device",⟨"eth0",2,"02:00:00:00:00:02",0⟩⟩] = [lxc 8] := by decide
  rw [hveths]
  simp only [newCache, List.foldl_cons, List.foldl_nil, FiniteMap.lookup_insert_eq_ite, Finmap.mem_insert, hkey,
    Finmap.lookup_empty, Finmap.notMem_empty, or_false, Finset.mem_singleton]
  constructor
  · rintro (⟨ha,hk⟩ | ⟨ha,hk⟩)
    · rw [if_pos hk] at ha
      exact (Option.some.inj ha).symm
    · rw [if_neg hk] at ha
      cases ha
  · rintro rfl
    exact .inl ⟨rfl,rfl⟩

end Retina.Watchers.Interfaces
