import Retina.Objects.DeepCopy

/-! # Published objects

Which objects are published as faithful and independent copies. A copy is faithful if the same content is seen through
it, and independent if nothing that is done to the slices, maps and records of the original afterwards is seen through it.
-/
namespace Retina.Objects
open Memory

/-! ## Bytes are seen -/

theorem shows_netIP (ip : NetIP) : (NetIP.view ip).Shows Kind.byte :=
  View.Shows.optional (View.shows_array Kind.byte) ip

theorem shows_netIPs (ips : Option Slice) : (netIPsView ips).Shows Kind.byte := by
  cases ips with
  | none => exact View.shows_const Kind.byte []
  | some s =>
    refine View.Shows.bind ?_ (View.Shows.traverse shows_netIP)
    rintro h l ⟨i,-,rfl⟩ hk
    cases hk

theorem shows_addresses (i : IPAddresses) : i.view.Shows Kind.byte := by
  refine ((((shows_netIP _).and (shows_netIP _)).and (shows_netIPs _)).and (shows_netIPs _)).map ?_
  exact Function.LeftInverse.injective (g := fun c => (((c.ipv4,c.ipv6),c.otherIPv4s),c.otherIPv6s)) fun _ => rfl

theorem shows_ips (ips : Option Pointer) : (ipsView ips).Shows Kind.byte := by
  refine View.Shows.optional (fun p => View.Shows.bind ?_ shows_addresses) ips
  rintro h l rfl hk
  cases hk

theorem shows_records {k : Kind} (hk : k ≠ .byte) (records : Option Slice) :
    (recordsView k records).Shows Kind.byte := by
  refine View.shows_of_kind_ne fun h l hl hbyte => ?_
  obtain ⟨s,-,hs⟩ := View.mem_optional_reads.mp hl
  rcases hs with ⟨i,-,rfl⟩ | hs
  · cases hbyte
  · obtain ⟨p,-,hp⟩ := View.mem_traverse_reads.mp hs
    obtain ⟨q,-,rfl⟩ := View.mem_optional_reads.mp hp
    exact hk hbyte

theorem shows_map (m : Option Pointer) : (mapView m).Shows Kind.byte := by
  refine View.shows_of_kind_ne fun h l hl hbyte => ?_
  obtain ⟨p,-,rfl⟩ := View.mem_optional_reads.mp hl
  cases hbyte

theorem PublishObj.shows_byte (obj : PublishObj) : obj.view.Shows Kind.byte := by
  cases obj with
  | endpoint ep =>
    refine (View.Shows.map ?_ ?_).map fun _ _ heq => Content.endpoint.inj heq
    · have hrefs := shows_records (k := .ownerReference) nofun ep.ownerRefs
      have hcontainers := shows_records (k := .container) nofun ep.containers
      exact ((((shows_ips _).and hrefs).and hcontainers).and (shows_map _)).and (shows_map _)
    · exact Function.LeftInverse.injective
        (g := fun c => ((((c.ips,c.ownerRefs),c.containers),c.labels),c.annotations)) fun _ => rfl
  | svc s =>
    refine (View.Shows.map (((shows_ips _).and (shows_netIP _)).and (shows_map _)) ?_).map
      fun _ _ heq => Content.svc.inj heq
    exact Function.LeftInverse.injective (g := fun c => ((c.ips,c.lbIP),c.selector)) fun _ => rfl
  | node n =>
    refine ((shows_netIP n.ip).map ?_).map fun _ _ heq => Content.node.inj heq
    exact Function.LeftInverse.injective (g := fun c => c.ip) fun _ => rfl

instance : Nontrivial (Cell .byte) := ⟨(0 : UInt8),(1 : UInt8),by decide⟩

/-! ## Objects that are copied well -/

def PublishObj.Valid (obj : PublishObj) (h : Heap Cell) : Prop :=
  match obj with
  | .endpoint ep => ep.Valid h
  | .svc s => s.rwMutex ≠ none
  | .node _ => True

def PublishObj.shared (obj : PublishObj) (h : Heap Cell) : Set (Loc Kind) :=
  match obj with
  | .endpoint ep => byteCells (ipsView ep.ips) h
  | .svc s => byteCells (ipsView s.ips) h
  | .node _ => ∅

def Content.copied : Content → Content
  | .endpoint c => .endpoint c.copied
  | .svc c => .svc c
  | .node c => .node c

def AddressesContent.NoBytes (a : AddressesContent) : Prop :=
  ∀ ip ∈ a.ipv4 :: a.ipv6 :: (a.otherIPv4s ++ a.otherIPv6s), ip.getD [] = []

/-- Owner references have no API version, and there is no address with bytes. -/
def Content.Plain : Content → Prop
  | .endpoint c => (∀ refs, c.ownerRefs = some refs → ∀ o, some o ∈ refs → o.apiVersion = "") ∧
      ∀ a, c.ips = some a → a.NoBytes
  | .svc c => ∀ a, c.ips = some a → a.NoBytes
  | .node _ => True

section
variable {h : Heap Cell}

theorem PublishObj.Valid.yields {obj : PublishObj} (hobj : obj.Valid h) (order : FiniteMap.Order String)
    (hwithin : obj.view.Within h) :
    Yields (obj.deepCopy order) h fun copy h' =>
      Copied h h' copy.view (obj.view.value h).copied (obj.shared h) := by
  cases obj with
  | endpoint ep =>
    rw [PublishObj.deepCopy, yields_map]
    exact (RetinaEndpoint.Valid.yields hobj order hwithin).imp fun _ _ hcopy => hcopy.map Content.endpoint
  | svc s =>
    rw [PublishObj.deepCopy, yields_map]
    exact (RetinaSvc.yields hobj order hwithin).imp fun _ _ hcopy => hcopy.map Content.svc
  | node n =>
    rw [PublishObj.deepCopy, yields_map]
    exact (RetinaNode.yields hwithin).imp fun _ _ hcopy => hcopy.map Content.node

theorem PublishObj.Valid.of_yields {obj : PublishObj} {order : FiniteMap.Order String} (hwithin : obj.view.Within h)
    {R : PublishObj → Heap Cell → Prop} (hm : Yields (obj.deepCopy order) h R) : obj.Valid h := by
  cases obj with
  | endpoint ep =>
    rw [PublishObj.deepCopy, yields_map] at hm
    exact RetinaEndpoint.Valid.of_yields hwithin hm
  | svc s =>
    rw [PublishObj.deepCopy, yields_map, RetinaSvc.deepCopy, yields_bind, yields_rLock] at hm
    exact hm.1
  | node n => exact trivial

theorem PublishObj.mem_shared {obj : PublishObj} {l : Loc Kind} (hl : l ∈ obj.shared h) :
    l ∈ obj.view.reads h ∧ l.kind = .byte := by
  cases obj with
  | endpoint ep => exact ⟨.inl (.inl (.inl (.inl hl.1))),hl.2⟩
  | svc s => exact ⟨.inl (.inl hl.1),hl.2⟩
  | node n => exact hl.elim

theorem OwnerReference.copied_eq_iff (o : OwnerReference) : o.copied = o ↔ o.apiVersion = "" := by
  obtain ⟨apiVersion,kind,name,uid,controller⟩ := o
  simp [OwnerReference.copied, eq_comm]

theorem EndpointContent.copied_eq_iff (c : EndpointContent) :
    c.copied = c ↔ ∀ refs, c.ownerRefs = some refs → ∀ o, some o ∈ refs → o.apiVersion = "" := by
  have hrefs : c.copied = c ↔ c.ownerRefs.map (List.map (Option.map OwnerReference.copied)) = c.ownerRefs := by
    obtain ⟨name,ns,ips,ownerRefs,containers,labels,annotations,nodeIP⟩ := c
    simp [EndpointContent.copied]
  rw [hrefs]
  cases c.ownerRefs with
  | none => simp
  | some refs =>
    rw [Option.map_some, Option.some.injEq]
    constructor
    · rintro hmap refs ⟨⟩ o ho
      have hsame := List.map_inj_left.mp (hmap.trans (List.map_id refs).symm) (some o) ho
      exact o.copied_eq_iff.mp (Option.some.inj hsame)
    · intro hall
      refine (List.map_congr_left fun ref href => ?_).trans (List.map_id refs)
      cases ref with
      | none => rfl
      | some o => exact congrArg some (o.copied_eq_iff.mpr (hall refs rfl o href))

theorem netIP_reads_eq_empty_iff (ip : NetIP) :
    (NetIP.view ip).reads h = ∅ ↔ ((NetIP.view ip).value h).getD [] = [] := by
  cases ip with
  | none => exact ⟨fun _ => rfl,fun _ => rfl⟩
  | some s =>
    change {l | ∃ i < s.len, l = (⟨.byte,s.base,s.offset + i⟩ : Loc Kind)} = ∅ ↔ h.read Kind.byte s = []
    rw [← List.length_eq_zero_iff, Heap.length_read, Set.eq_empty_iff_forall_notMem]
    constructor
    · intro hnone
      by_contra hlen
      exact hnone _ ⟨0,Nat.pos_of_ne_zero hlen,rfl⟩
    · rintro hlen l ⟨i,hi,-⟩
      exact absurd hi (by simp [hlen])

theorem byteCells_netIPs_eq_empty_iff (ips : Option Slice) :
    byteCells (netIPsView ips) h = ∅ ↔ ∀ ip ∈ (netIPsView ips).value h, ip.getD [] = [] := by
  cases ips with
  | none => exact ⟨fun _ _ hip => (List.not_mem_nil hip).elim,fun _ => Set.eq_empty_of_forall_notMem fun _ hl => hl.1⟩
  | some s =>
    have hvalue : (netIPsView (some s)).value h = (h.read Kind.netIP s).map fun ip => (NetIP.view ip).value h :=
      View.traverse_value NetIP.view _ h
    rw [byteCells_netIPsView, hvalue, List.forall_mem_map]
    simp only [← netIP_reads_eq_empty_iff, Set.eq_empty_iff_forall_notMem, View.mem_traverse_reads]
    push Not
    exact forall_comm.trans (forall_congr' fun ip => forall_comm)

theorem byteCells_ips_eq_empty_iff (ips : Option Pointer) :
    byteCells (ipsView ips) h = ∅ ↔ ∀ a, (ipsView ips).value h = some a → a.NoBytes := by
  cases ips with
  | none => exact ⟨nofun,fun _ => Set.eq_empty_of_forall_notMem fun _ hl => hl.1⟩
  | some p =>
    obtain ⟨i,hi⟩ : ∃ i : IPAddresses, h.get ⟨.addresses,p.base,p.index⟩ = i := ⟨_,rfl⟩
    have hvalue : (ipsView (some p)).value h = some (i.view.value h) := by
      rw [← hi]
      rfl
    rw [byteCells_ipsView p hi, hvalue]
    simp only [Set.union_empty_iff, netIP_reads_eq_empty_iff, byteCells_netIPs_eq_empty_iff, Option.some.injEq,
      forall_eq', AddressesContent.NoBytes, List.forall_mem_cons, List.forall_mem_append, and_assoc]
    rfl

theorem PublishObj.plain_iff (obj : PublishObj) (h : Heap Cell) :
    (obj.view.value h).Plain ↔ (obj.view.value h).copied = obj.view.value h ∧ obj.shared h = ∅ := by
  cases obj with
  | endpoint ep =>
    refine and_congr ?_ (byteCells_ips_eq_empty_iff ep.ips).symm
    exact (EndpointContent.copied_eq_iff _).symm.trans ⟨congrArg Content.endpoint,Content.endpoint.inj⟩
  | svc s => exact (byteCells_ips_eq_empty_iff s.ips).symm.trans ⟨fun hs => ⟨rfl,hs⟩,fun hs => hs.2⟩
  | node n => exact ⟨fun _ => ⟨rfl,rfl⟩,fun _ => trivial⟩

/-- The object of an event is a faithful and independent copy exactly if no pointer is nil that is followed, no owner
reference has an API version and no address in `ips` has a byte. -/
theorem published_copy_iff (order : FiniteMap.Order String) (t : Cache.EventType) (obj : PublishObj) (h : Heap Cell)
    (hobj : obj.view.Within h) :
    (Yields (newCacheEvent order t obj) h fun event h' => event.type = t ∧
      event.obj.view.value h' = obj.view.value h ∧ event.obj.view.Independent obj.view h') ↔
      obj.Valid h ∧ (obj.view.value h).Plain := by
  rw [newCacheEvent, yields_bind]
  simp only [yields_pure, true_and]
  constructor
  · intro hm
    have hvalid := PublishObj.Valid.of_yields hobj hm
    obtain ⟨copy,h',-,hcopied,hsame,hindep⟩ := (hvalid.yields order hobj).and hm
    refine ⟨hvalid,(obj.plain_iff h).mpr ⟨hcopied.value.symm.trans hsame,?_⟩⟩
    exact (hcopied.independent_iff copy.shows_byte hobj fun _ => PublishObj.mem_shared).mp hindep
  · rintro ⟨hvalid,hplain⟩
    obtain ⟨hcontent,hshared⟩ := (obj.plain_iff h).mp hplain
    refine (hvalid.yields order hobj).imp fun copy h' hcopied => ⟨hcopied.value.trans hcontent,?_⟩
    exact (hcopied.independent_iff copy.shows_byte hobj fun _ => PublishObj.mem_shared).mpr hshared

/-! ## Two endpoints -/

theorem recordsView_within {k : Kind} {s : Slice} (hs : s.base < h.next)
    (hpointers : ∀ p, some p ∈ h.read Kind.pointer s → p.base < h.next) : (recordsView k (some s)).Within h := by
  rintro l (⟨i,-,rfl⟩ | hl)
  · exact hs
  · obtain ⟨p,hp,hmem⟩ := View.mem_traverse_reads.mp hl
    obtain ⟨q,rfl,rfl⟩ := View.mem_optional_reads.mp hmem
    exact hpointers q hp

end

def zeroHeap : Heap Cell where
  cells k _ _ := match k with
    | .byte => (0 : UInt8)
    | .netIP | .pointer => none
    | .addresses => ({} : IPAddresses)
    | .ownerReference => ({} : OwnerReference)
    | .container => ({} : RetinaContainer)
    | .stringMap => (∅ : StringMap)
    | .rwMutex => ()
  next := 0

def plainEndpoint : RetinaEndpoint where
  rwMutex := some ⟨0,0⟩
  name := "web-0"
  ns := "default"
  ownerRefs := some ⟨2,0,1⟩
  containers := some ⟨4,0,1⟩
  labels := some ⟨5,0⟩

def plainHeap : Heap Cell :=
  (((((zeroHeap.alloc Kind.rwMutex [()]).alloc Kind.ownerReference [{ kind := "ReplicaSet", name := "web" }]).alloc
    Kind.pointer [some ⟨1,0⟩]).alloc Kind.container [{ name := "nginx" }]).alloc
      Kind.pointer [some ⟨3,0⟩]).alloc Kind.stringMap [Finmap.singleton "app" "web"]

theorem plainEndpoint_within : (PublishObj.endpoint plainEndpoint).view.Within plainHeap := by
  have hrefs : plainHeap.read Kind.pointer ⟨2,0,1⟩ = [some ⟨1,0⟩] := rfl
  have hcontainers : plainHeap.read Kind.pointer ⟨4,0,1⟩ = [some ⟨3,0⟩] := rfl
  rintro l ((((hl | hl) | hl) | hl) | hl)
  · exact hl.elim
  · exact recordsView_within (by decide) (by simp [hrefs]; decide) l hl
  · exact recordsView_within (by decide) (by simp [hcontainers]; decide) l hl
  · obtain rfl := hl
    decide
  · exact hl.elim

theorem plainEndpoint_copied :
    Yields (newCacheEvent (.arbitrary String) .podAdded (.endpoint plainEndpoint)) plainHeap fun event h' =>
      event.type = .podAdded ∧
      event.obj.view.value h' = (PublishObj.endpoint plainEndpoint).view.value plainHeap ∧
      event.obj.view.Independent (PublishObj.endpoint plainEndpoint).view h' := by
  have hrefs : (plainEndpoint.view.value plainHeap).ownerRefs = some [some { kind := "ReplicaSet", name := "web" }] := rfl
  have hcontainers : (plainEndpoint.view.value plainHeap).containers = some [some { name := "nginx" }] := rfl
  refine (published_copy_iff _ _ _ plainHeap plainEndpoint_within).mpr ⟨⟨nofun,?_,?_⟩,?_,nofun⟩
  · intro refs h
    obtain rfl := Option.some.inj (hrefs.symm.trans h)
    simp
  · intro containers h
    obtain rfl := Option.some.inj (hcontainers.symm.trans h)
    simp
  · intro refs h o ho
    obtain rfl := Option.some.inj (hrefs.symm.trans h)
    obtain rfl := Option.some.inj (List.mem_singleton.mp ho)
    rfl

def sampleEndpoint : RetinaEndpoint where
  rwMutex := some ⟨0,0⟩
  name := "web-0"
  ns := "default"
  ips := some ⟨2,0⟩
  ownerRefs := some ⟨4,0,1⟩

def sampleOwner : OwnerReference := { apiVersion := "apps/v1", kind := "ReplicaSet", name := "web" }

def sampleHeap : Heap Cell :=
  ((((zeroHeap.alloc Kind.rwMutex [()]).alloc Kind.byte [10,0,0,1]).alloc Kind.addresses
    [{ ipv4 := some ⟨1,0,4⟩ }]).alloc Kind.ownerReference [sampleOwner]).alloc Kind.pointer [some ⟨3,0⟩]

/-- The copy does not have the API version, and it has the bytes of the address in common with the original. -/
theorem sampleEndpoint_copy : ∃ copy h',
    newCacheEvent (.arbitrary String) .podAdded (.endpoint sampleEndpoint) sampleHeap =
      some (⟨.podAdded,.endpoint copy⟩,h') ∧
    (sampleEndpoint.view.value sampleHeap).ownerRefs = some [some sampleOwner] ∧
    (copy.view.value h').ownerRefs = some [some { sampleOwner with apiVersion := "" }] ∧
    (copy.view.value h').ips = some ⟨some [10,0,0,1],none,[],[]⟩ ∧
    (copy.view.value (h'.write ⟨.byte,1,3⟩ (2 : UInt8))).ips = some ⟨some [10,0,0,2],none,[],[]⟩ :=
  ⟨_,_,rfl,rfl,rfl,rfl,rfl⟩

end Retina.Objects
