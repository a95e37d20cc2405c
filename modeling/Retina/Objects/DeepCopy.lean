import Retina.Objects.Records

/-! # Deep copies

The `DeepCopy` methods of `pkg/common` and `NewCacheEvent` of `pkg/controllers/cache/types.go`, and what each of them
copies. Of the addresses of an object the slices of bytes are taken over as they are, and an owner reference loses its
`APIVersion`; everything else is copied.
-/
namespace Retina.Objects
open Memory

/-- `RLock` of a nil mutex panics. -/
def rLock (rwMutex : Option Pointer) : Prog Cell Unit := do
  let _ ← load Kind.rwMutex rwMutex
  pure ()

def OwnerReference.deepCopy (o : Option Pointer) : Prog Cell Pointer := do
  let o : OwnerReference ← load Kind.ownerReference o
  new Kind.ownerReference { kind := o.kind, name := o.name, uid := o.uid, controller := o.controller }

def RetinaContainer.deepCopy (c : Option Pointer) : Prog Cell Pointer := do
  let c : RetinaContainer ← load Kind.container c
  new Kind.container { name := c.name, id := c.id }

/-- `make` and `copy` for an address that is not nil. -/
def copyNetIP : NetIP → Prog Cell NetIP
  | none => pure none
  | some ip => do
    let bytes ← elements Kind.byte ip
    some <$> make Kind.byte bytes

/-- `make` and `copy` for a slice of addresses that is not empty. -/
def copyNetIPs : Option Slice → Prog Cell (Option Slice)
  | none => pure none
  | some ips =>
    if 0 < ips.len then do
      let addresses ← elements Kind.netIP ips
      some <$> make Kind.netIP addresses
    else pure none

def IPAddresses.deepCopy : Option Pointer → Prog Cell (Option Pointer)
  | none => pure none
  | some i => do
    let i : IPAddresses ← load Kind.addresses (some i)
    let otherIPv4s ← copyNetIPs i.otherIPv4s
    let otherIPv6s ← copyNetIPs i.otherIPv6s
    some <$> new Kind.addresses { ipv4 := i.ipv4, ipv6 := i.ipv6, otherIPv4s, otherIPv6s }

/-- The loop over a slice of pointers that is not nil. -/
def copyRecords (deepCopy : Option Pointer → Prog Cell Pointer) : Option Slice → Prog Cell (Option Slice)
  | none => pure none
  | some records => do
    let pointers ← elements Kind.pointer records
    let copies ← pointers.mapM deepCopy
    some <$> make Kind.pointer (copies.map some)

/-- The loop over a map that is not nil. -/
def copyMap (order : FiniteMap.Order String) : Option Pointer → Prog Cell (Option Pointer)
  | none => pure none
  | some m => do
    let m : StringMap ← load Kind.stringMap (some m)
    some <$> new Kind.stringMap
      ((order.list m.keys).foldl (fun copy k => (m.lookup k).elim copy (copy.insert k)) ∅)

def BaseObject.deepCopy (b : BaseObject) : Prog Cell BaseObject := do
  rLock b.rwMutex
  let ips ← IPAddresses.deepCopy b.ips
  let rwMutex ← new Kind.rwMutex ()
  return { rwMutex := some rwMutex, name := b.name, ns := b.ns, ips }

def RetinaEndpoint.deepCopy (order : FiniteMap.Order String) (ep : RetinaEndpoint) : Prog Cell RetinaEndpoint := do
  rLock ep.rwMutex
  let base ← ep.toBaseObject.deepCopy
  let ownerRefs ← copyRecords OwnerReference.deepCopy ep.ownerRefs
  let containers ← copyRecords RetinaContainer.deepCopy ep.containers
  let labels ← copyMap order ep.labels
  let annotations ← copyMap order ep.annotations
  return { toBaseObject := base, ownerRefs, containers, labels, annotations, nodeIP := ep.nodeIP }

def RetinaSvc.deepCopy (order : FiniteMap.Order String) (svc : RetinaSvc) : Prog Cell RetinaSvc := do
  rLock svc.rwMutex
  let base ← svc.toBaseObject.deepCopy
  let lbIP ← copyNetIP svc.lbIP
  let selector ← copyMap order svc.selector
  return { toBaseObject := base, lbIP, selector }

def RetinaNode.deepCopy (node : RetinaNode) : Prog Cell RetinaNode := do
  let ip ← copyNetIP node.ip
  return { name := node.name, ip, zone := node.zone }

def PublishObj.deepCopy (order : FiniteMap.Order String) : PublishObj → Prog Cell PublishObj
  | .endpoint ep => .endpoint <$> ep.deepCopy order
  | .svc s => .svc <$> s.deepCopy order
  | .node n => .node <$> n.deepCopy

def newCacheEvent (order : FiniteMap.Order String) (t : Cache.EventType) (obj : PublishObj) : Prog Cell CacheEvent := do
  let obj ← obj.deepCopy order
  return { type := t, obj }

/-! ## What is copied -/

def byteCells {α : Type} (v : View Cell α) (h : Heap Cell) : Set (Loc Kind) := {l | l ∈ v.reads h ∧ l.kind = .byte}

def OwnerReference.copied (o : OwnerReference) : OwnerReference := { o with apiVersion := "" }

section
variable {h : Heap Cell}

theorem kind_of_mem_netIP {ip : NetIP} {l : Loc Kind} (hl : l ∈ (NetIP.view ip).reads h) : l.kind = .byte := by
  obtain ⟨s,-,i,-,rfl⟩ := View.mem_optional_reads.mp hl
  rfl

theorem byteCells_netIPsView (ips : Slice) :
    byteCells (netIPsView (some ips)) h = (View.traverse NetIP.view (h.read Kind.netIP ips)).reads h := by
  ext l
  constructor
  · rintro ⟨⟨i,-,rfl⟩ | hl,hk⟩
    · cases hk
    · exact hl
  · intro hl
    obtain ⟨ip,-,hmem⟩ := View.mem_traverse_reads.mp hl
    exact ⟨.inr hl,kind_of_mem_netIP hmem⟩

theorem copying_copyNetIP {ip : NetIP} (hip : (NetIP.view ip).Within h) :
    Copying h (copyNetIP ip) NetIP.view ((NetIP.view ip).value h) ∅ := by
  cases ip with
  | none => exact copying_pure (Copied.const (Heap.Extends.refl h) none)
  | some s => exact Copying.elements_bind hip ((copying_make h Kind.byte _).imp fun _ _ hb => hb.map some)

theorem copying_copyNetIPs {ips : Option Slice} (hips : (netIPsView ips).Within h) :
    Copying h (copyNetIPs ips) netIPsView ((netIPsView ips).value h) (byteCells (netIPsView ips) h) := by
  cases ips with
  | none =>
    refine copying_pure ((Copied.const (Heap.Extends.refl h) []).congr ?_)
    exact (Set.eq_empty_iff_forall_notMem.mpr fun l hl => hl.1).symm
  | some s =>
    rw [byteCells_netIPsView, copyNetIPs]
    by_cases hlen : 0 < s.len
    · rw [if_pos hlen]
      refine Copying.elements_bind (fun l hl => hips l (.inl hl)) ((copying_make h Kind.netIP _).imp ?_)
      intro t h' ht
      have hsame := Copied.same (v := View.traverse NetIP.view (h.read Kind.netIP s)) (fun l hl => hips l (.inr hl)) ht.ext
      exact (ht.bind hsame).congr (Set.empty_union _)
    · rw [if_neg hlen]
      have hread : h.read Kind.netIP s = [] :=
        List.eq_nil_of_length_eq_zero ((h.length_read Kind.netIP s).trans (Nat.eq_zero_of_not_pos hlen))
      rw [show (netIPsView (some s)).value h = (View.traverse NetIP.view (h.read Kind.netIP s)).value h from rfl, hread]
      exact copying_pure (Copied.const (Heap.Extends.refl h) [])

theorem byteCells_ipsView (p : Pointer) {i : IPAddresses} (hi : h.get ⟨.addresses,p.base,p.index⟩ = i) :
    byteCells (ipsView (some p)) h = (NetIP.view i.ipv4).reads h ∪ (NetIP.view i.ipv6).reads h ∪
      byteCells (netIPsView i.otherIPv4s) h ∪ byteCells (netIPsView i.otherIPv6s) h := by
  subst hi
  ext l
  constructor
  · rintro ⟨rfl | ((hl | hl) | hl) | hl,hk⟩
    · cases hk
    · exact .inl (.inl (.inl hl))
    · exact .inl (.inl (.inr hl))
    · exact .inl (.inr ⟨hl,hk⟩)
    · exact .inr ⟨hl,hk⟩
  · rintro (((hl | hl) | hl) | hl)
    · exact ⟨.inr (.inl (.inl (.inl hl))),kind_of_mem_netIP hl⟩
    · exact ⟨.inr (.inl (.inl (.inr hl))),kind_of_mem_netIP hl⟩
    · exact ⟨.inr (.inl (.inr hl.1)),hl.2⟩
    · exact ⟨.inr (.inr hl.1),hl.2⟩

theorem copying_addresses {ips : Option Pointer} (hips : (ipsView ips).Within h) :
    Copying h (IPAddresses.deepCopy ips) ipsView ((ipsView ips).value h) (byteCells (ipsView ips) h) := by
  cases ips with
  | none =>
    refine copying_pure ((Copied.const (Heap.Extends.refl h) none).congr ?_)
    exact (Set.eq_empty_iff_forall_notMem.mpr fun l hl => hl.1).symm
  | some p =>
    refine Copying.load_bind (fun l hl => hips l (.inl hl)) ?_
    rw [byteCells_ipsView p rfl]
    have hview : (IPAddresses.view (h.get ⟨.addresses,p.base,p.index⟩)).Within h := fun l hl => hips l (.inr hl)
    intro h₁ hext
    simp only [yields_bind, yields_map]
    -- the slices of bytes are the same ones
    have hprimary := (Copied.same (fun l hl => hview l (.inl (.inl (.inl hl)))) hext).and
      (Copied.same (fun l hl => hview l (.inl (.inl (.inr hl)))) hext)
    refine ((copying_copyNetIPs fun l hl => hview l (.inl (.inr hl))).step hprimary).imp ?_
    rintro otherIPv4s h₂ ⟨hext₂,h4⟩
    refine ((copying_copyNetIPs fun l hl => hview l (.inr hl)).step h4).imp ?_
    rintro otherIPv6s h₃ ⟨hext₃,h6⟩
    refine (copying_new h Kind.addresses _ h₃ h6.ext).imp ?_
    rintro q h₄ ⟨hext₄,hq⟩
    refine ⟨(hext₂.trans hext₃).trans hext₄,?_⟩
    exact ((hq.bind ((h6.mono hext₄).map _)).map some).congr (Set.empty_union _)

theorem copying_ownerReference {p : Pointer} (hp : (View.cell Kind.ownerReference p : View Cell _).Within h) :
    Copying h (OwnerReference.deepCopy (some p)) (View.cell Kind.ownerReference)
      (OwnerReference.copied (h.get ⟨.ownerReference,p.base,p.index⟩)) ∅ :=
  Copying.load_bind hp (copying_new h Kind.ownerReference _)

theorem copying_container {p : Pointer} (hp : (View.cell Kind.container p : View Cell _).Within h) :
    Copying h (RetinaContainer.deepCopy (some p)) (View.cell Kind.container)
      (h.get ⟨.container,p.base,p.index⟩) ∅ :=
  Copying.load_bind hp (copying_new h Kind.container _)

/-- The loop over a slice of pointers, with what is left of a record. -/
theorem copying_copyRecords {k : Kind} {deepCopy : Option Pointer → Prog Cell Pointer} {g : Cell k → Cell k}
    (hcopy : ∀ p : Pointer, (View.cell k p : View Cell _).Within h →
      Copying h (deepCopy (some p)) (View.cell k) (g (h.get ⟨k,p.base,p.index⟩)) ∅)
    {records : Option Slice} (hrecords : (recordsView k records).Within h)
    (hnil : ∀ xs, (recordsView k records).value h = some xs → none ∉ xs) :
    Copying h (copyRecords deepCopy records) (recordsView k)
      (((recordsView k records).value h).map (List.map (Option.map g))) ∅ := by
  cases records with
  | none => exact copying_pure (Copied.const (Heap.Extends.refl h) none)
  | some s =>
    have hvalue := recordsView_value k s h
    refine Copying.elements_bind (fun l hl => hrecords l (.inl hl)) ?_
    have hcopies : Copying h ((h.read Kind.pointer s).mapM deepCopy)
        (View.traverse fun p => View.optional (View.cell k) (some p))
        ((h.read Kind.pointer s).map fun p => ((View.optional (View.cell k) p).value h).map g) ∅ := by
      refine Copying.mapM _ fun p hp => ?_
      cases p with
      | none => exact absurd (List.mem_map_of_mem hp) (hnil _ hvalue)
      | some p =>
        refine (hcopy p fun l hl => hrecords l (.inr ?_)).map some
        exact View.mem_traverse_reads.mpr ⟨some p,hp,hl⟩
    intro h₁ hext
    rw [yields_bind]
    refine (hcopies h₁ hext).imp ?_
    rintro copies h₂ ⟨hext₂,hcopies⟩
    rw [← View.traverse_map] at hcopies
    rw [yields_map]
    refine (copying_make h Kind.pointer _ h₂ hcopies.ext).imp ?_
    rintro t h₃ ⟨hext₃,ht⟩
    refine ⟨hext₂.trans hext₃,?_⟩
    rw [hvalue, Option.map_some, List.map_map]
    exact ((ht.bind (hcopies.mono hext₃)).map some).congr (Set.empty_union ∅)

theorem copying_containers {containers : Option Slice} (hcontainers : (recordsView .container containers).Within h)
    (hnil : ∀ xs, (recordsView .container containers).value h = some xs → none ∉ xs) :
    Copying h (copyRecords RetinaContainer.deepCopy containers) (recordsView .container)
      ((recordsView .container containers).value h) ∅ := by
  have hcopy := copying_copyRecords (g := id) (fun _ => copying_container) hcontainers hnil
  rwa [Option.map_id, List.map_id_fun, Option.map_id, id] at hcopy

theorem copying_copyMap (order : FiniteMap.Order String) {m : Option Pointer} (hm : (mapView m).Within h) :
    Copying h (copyMap order m) mapView ((mapView m).value h) ∅ := by
  cases m with
  | none => exact copying_pure (Copied.const (Heap.Extends.refl h) none)
  | some p =>
    refine Copying.load_bind hm ((copying_new h Kind.stringMap _).imp ?_)
    intro q h' hq
    rw [FiniteMap.foldl_insert_lookup fun k => (order.mem_list _ k).trans Finmap.mem_keys] at hq
    exact hq.map some

theorem yields_rLock {rwMutex : Option Pointer} {P : Unit → Heap Cell → Prop} :
    Yields (rLock rwMutex) h P ↔ rwMutex ≠ none ∧ P () h := by
  cases rwMutex <;> simp [rLock]

/-- The copy of the embedded object. The names are those of the original. -/
theorem yields_baseObject {b : BaseObject} (hmutex : b.rwMutex ≠ none) (hips : (ipsView b.ips).Within h) :
    Yields b.deepCopy h fun copy h' =>
      Copied h h' (ipsView copy.ips) ((ipsView b.ips).value h) (byteCells (ipsView b.ips) h) ∧
        copy.name = b.name ∧ copy.ns = b.ns := by
  rw [BaseObject.deepCopy, yields_bind, yields_rLock, yields_bind]
  refine ⟨hmutex,(copying_addresses hips h (Heap.Extends.refl h)).imp ?_⟩
  rintro ips h₁ ⟨-,hcopied⟩
  rw [yields_bind]
  refine (copying_new h Kind.rwMutex () h₁ hcopied.ext).imp ?_
  rintro rwMutex h₂ ⟨hext,-⟩
  rw [yields_pure]
  exact ⟨hcopied.mono hext,rfl,rfl⟩

def EndpointContent.copied (content : EndpointContent) : EndpointContent :=
  { content with ownerRefs := content.ownerRefs.map (List.map (Option.map OwnerReference.copied)) }

/-- The pointers that are followed without asking are not nil. -/
structure RetinaEndpoint.Valid (ep : RetinaEndpoint) (h : Heap Cell) : Prop where
  rwMutex : ep.rwMutex ≠ none
  ownerRefs : ∀ refs, (ep.view.value h).ownerRefs = some refs → none ∉ refs
  containers : ∀ containers, (ep.view.value h).containers = some containers → none ∉ containers

theorem RetinaEndpoint.Valid.yields {ep : RetinaEndpoint} (hep : ep.Valid h) (order : FiniteMap.Order String)
    (hwithin : ep.view.Within h) :
    Yields (ep.deepCopy order) h fun copy h' =>
      Copied h h' copy.view (ep.view.value h).copied (byteCells (ipsView ep.ips) h) := by
  simp only [RetinaEndpoint.deepCopy, yields_bind, yields_rLock, yields_pure]
  refine ⟨hep.rwMutex,?_⟩
  refine (yields_baseObject hep.rwMutex fun l hl => hwithin l (.inl (.inl (.inl (.inl hl))))).imp ?_
  rintro base h₁ ⟨hbase,hname,hns⟩
  refine ((copying_copyRecords (fun _ => copying_ownerReference)
    (fun l hl => hwithin l (.inl (.inl (.inl (.inr hl))))) hep.ownerRefs).step hbase).imp ?_
  rintro ownerRefs h₂ ⟨-,hrefs⟩
  refine ((copying_containers (fun l hl => hwithin l (.inl (.inl (.inr hl)))) hep.containers).step hrefs).imp ?_
  rintro containers h₃ ⟨-,hcontainers⟩
  refine ((copying_copyMap order fun l hl => hwithin l (.inl (.inr hl))).step hcontainers).imp ?_
  rintro labels h₄ ⟨-,hlabels⟩
  refine ((copying_copyMap order fun l hl => hwithin l (.inr hl)).step hlabels).imp ?_
  rintro annotations h₅ ⟨-,hannotations⟩
  rw [RetinaEndpoint.view, hname, hns]
  exact (hannotations.map _).congr (by simp only [Set.union_empty])

theorem RetinaSvc.yields {svc : RetinaSvc} (hmutex : svc.rwMutex ≠ none) (order : FiniteMap.Order String)
    (hwithin : svc.view.Within h) :
    Yields (svc.deepCopy order) h fun copy h' =>
      Copied h h' copy.view (svc.view.value h) (byteCells (ipsView svc.ips) h) := by
  simp only [RetinaSvc.deepCopy, yields_bind, yields_rLock, yields_pure]
  refine ⟨hmutex,?_⟩
  refine (yields_baseObject hmutex fun l hl => hwithin l (.inl (.inl hl))).imp ?_
  rintro base h₁ ⟨hbase,hname,hns⟩
  refine ((copying_copyNetIP fun l hl => hwithin l (.inl (.inr hl))).step hbase).imp ?_
  rintro lbIP h₂ ⟨-,hlbIP⟩
  refine ((copying_copyMap order fun l hl => hwithin l (.inr hl)).step hlbIP).imp ?_
  rintro selector h₃ ⟨-,hselector⟩
  rw [RetinaSvc.view, hname, hns]
  exact (hselector.map _).congr (by simp only [Set.union_empty])

theorem RetinaNode.yields {node : RetinaNode} (hwithin : node.view.Within h) :
    Yields node.deepCopy h fun copy h' => Copied h h' copy.view (node.view.value h) ∅ := by
  simp only [RetinaNode.deepCopy, yields_bind, yields_pure]
  refine (copying_copyNetIP hwithin h (Heap.Extends.refl h)).imp ?_
  rintro ip h₁ ⟨-,hip⟩
  exact hip.map _

/-! ## Panics -/

/-- If the loop ends, the slice had no nil pointer. -/
theorem not_nil_of_yields_copyRecords {k : Kind} {deepCopy : Option Pointer → Prog Cell Pointer}
    (hpanic : ∀ h' R, ¬Yields (deepCopy none) h' R) {records : Option Slice} (hrecords : (recordsView k records).Within h)
    {h₁ : Heap Cell} (hext : Heap.Extends h h₁) {R : Option Slice → Heap Cell → Prop}
    (hm : Yields (copyRecords deepCopy records) h₁ R) (xs : List (Option (Cell k)))
    (hxs : (recordsView k records).value h = some xs) : none ∉ xs := by
  cases records with
  | none => cases hxs
  | some s =>
    rw [copyRecords, yields_bind, yields_elements, yields_bind] at hm
    have hread : h₁.read Kind.pointer s = h.read Kind.pointer s :=
      (View.of_extends (v := View.array Kind.pointer s) (fun l hl => hrecords l (.inl hl)) hext).1
    rw [hread] at hm
    rw [recordsView_value, Option.some.injEq] at hxs
    subst hxs
    intro hnone
    obtain ⟨p,hp,hvalue⟩ := List.mem_map.mp hnone
    rw [View.optional_value, Option.map_eq_none_iff] at hvalue
    subst hvalue
    obtain ⟨h',hcopy⟩ := hm.of_mapM none hp
    exact hpanic h' _ hcopy

theorem RetinaEndpoint.Valid.of_yields {ep : RetinaEndpoint} {order : FiniteMap.Order String}
    (hwithin : ep.view.Within h) {R : RetinaEndpoint → Heap Cell → Prop} (hm : Yields (ep.deepCopy order) h R) :
    ep.Valid h := by
  rw [RetinaEndpoint.deepCopy, yields_bind, yields_rLock, yields_bind] at hm
  obtain ⟨hmutex,hm⟩ := hm
  have hbase := yields_baseObject hmutex fun l hl => hwithin l (.inl (.inl (.inl (.inl hl))))
  obtain ⟨base,h₁,-,⟨hbase,-⟩,hm⟩ := hbase.and hm
  rw [yields_bind] at hm
  have hrefs := not_nil_of_yields_copyRecords (fun h' R => by simp [OwnerReference.deepCopy])
    (fun l hl => hwithin l (.inl (.inl (.inl (.inr hl))))) hbase.ext hm
  have hcopied := copying_copyRecords (fun _ => copying_ownerReference)
    (fun l hl => hwithin l (.inl (.inl (.inl (.inr hl))))) hrefs h₁ hbase.ext
  obtain ⟨refs,h₂,-,⟨hext,-⟩,hm⟩ := hcopied.and hm
  rw [yields_bind] at hm
  have hcontainers := not_nil_of_yields_copyRecords (fun h' R => by simp [RetinaContainer.deepCopy])
    (fun l hl => hwithin l (.inl (.inl (.inr hl)))) (hbase.ext.trans hext) hm
  exact ⟨hmutex,hrefs,hcontainers⟩

end
end Retina.Objects
