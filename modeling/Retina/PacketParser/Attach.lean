import Mathlib
import Retina.Library.FiniteMap

/-! # Attaching the programs to an interface

`createQdiscAndAttach`, `attachViaTC`, `attachViaTCX`, `clean` and `cleanTCX` of
`pkg/plugin/packetparser/packetparser_linux.go`, over the part of the kernel that they change.
A request to add what is there already is refused with `os.ErrExist`; every other failure is
given. The function that `attachViaTC` defers reads the `err` that `tcOpen` and `SetOption` set.
The three `Add` calls have an `err` of their own, which it does not see.
-/
namespace Retina.PacketParser

/-- `netlink.LinkAttrs`, as far as it is read, with the address as `HardwareAddr.String` prints it. -/
structure LinkAttrs where
  name : String
  index : ℕ
  hardwareAddr : String
  netNsID : ℤ

structure AttachmentKey where
  name : String
  hardwareAddr : String
  netNs : ℤ
deriving DecidableEq

def ifaceToKey (iface : LinkAttrs) : AttachmentKey where
  name := iface.name
  hardwareAddr := iface.hardwareAddr
  netNs := iface.netNsID

inductive InterfaceType
  | veth
  | device
  | unknown
deriving DecidableEq

inductive Program
  | hostIngressFilter
  | hostEgressFilter
  | endpointIngressFilter
  | endpointEgressFilter

def programs : InterfaceType → Option (Program × Program)
  | .device => some (.hostIngressFilter,.hostEgressFilter)
  | .veth => some (.endpointIngressFilter,.endpointEgressFilter)
  | .unknown => none

inductive Hook
  | ingress
  | egress
deriving DecidableEq

/-- `attachmentValue`. A socket and a link are known by a number, a qdisc by its interface. -/
inductive AttachmentValue
  | tc (rtnl qdisc : ℕ)
  | tcx (ingressLink egressLink : ℕ)
deriving DecidableEq

def AttachmentValue.numbers : AttachmentValue → List ℕ
  | .tc rtnl _ => [rtnl]
  | .tcx ingressLink egressLink => [ingressLink,egressLink]

inductive Errno
  | exist
  | other

/-- `err != nil && !errors.Is(err, os.ErrExist)`. -/
def refused : Option Errno → Bool
  | some .other => true
  | _ => false

/-- The plugin's map and what the kernel holds for it. `next` was not given to a socket or link before. -/
structure Host where
  next : ℕ
  sockets : Finset ℕ
  links : Finmap fun _ : ℕ => (ℕ × Hook) × Program
  qdiscs : Finset ℕ
  filters : Finmap fun _ : ℕ × Hook => Program
  attachmentMap : Finmap fun _ : AttachmentKey => AttachmentValue

namespace Host

def tcOpen (h : Host) : Host := { h with next := h.next + 1, sockets := insert h.next h.sockets }

def addQdisc (h : Host) (index : ℕ) (fails : Bool) : Host × Option Errno :=
  if fails then (h,some .other)
  else if index ∈ h.qdiscs then (h,some .exist)
  else ({ h with qdiscs := insert index h.qdiscs },none)

def addFilter (h : Host) (place : ℕ × Hook) (program : Program) (fails : Bool) : Host × Option Errno :=
  if fails then (h,some .other)
  else if place ∈ h.filters then (h,some .exist)
  else ({ h with filters := h.filters.insert place program },none)

/-- The filters go with the qdisc that they are attached to. -/
def deleteQdisc (h : Host) (index : ℕ) : Host :=
  { h with
    qdiscs := h.qdiscs.erase index
    filters := (h.filters.erase (index,.ingress)).erase (index,.egress) }

def clean (h : Host) (rtnl qdisc : ℕ) : Host :=
  { h.deleteQdisc qdisc with sockets := h.sockets.erase rtnl }

def closeLink (h : Host) (link : ℕ) : Host := { h with links := h.links.erase link }

def cleanTCX (h : Host) (ingressLink egressLink : ℕ) : Host := (h.closeLink ingressLink).closeLink egressLink

def attachTCX (h : Host) (place : ℕ × Hook) (program : Program) : Host :=
  { h with next := h.next + 1, links := h.links.insert h.next (place,program) }

def store (h : Host) (iface : LinkAttrs) (value : AttachmentValue) : Host :=
  { h with attachmentMap := h.attachmentMap.insert (ifaceToKey iface) value }

end Host

/-- The calls that fail. An `Add` that does not is still refused if the object is there. -/
structure Failures where
  tcOpen : Bool
  setOption : Bool
  qdiscAdd : Bool
  ingressAdd : Bool
  egressAdd : Bool
  attachTCXIngress : Bool
  attachTCXEgress : Bool

def Failures.anyAdd (f : Failures) : Bool := f.qdiscAdd || f.ingressAdd || f.egressAdd

namespace Host

/-- `attachViaTC` from the call that follows the `defer` to its return. -/
def install (h : Host) (iface : LinkAttrs) (chosen : Program × Program) (rtnl : ℕ) (f : Failures) : Host :=
  let qdisc := h.addQdisc iface.index f.qdiscAdd
  if refused qdisc.2 then qdisc.1
  else
    let ingress := qdisc.1.addFilter (iface.index,.ingress) chosen.1 f.ingressAdd
    if refused ingress.2 then ingress.1
    else
      let egress := ingress.1.addFilter (iface.index,.egress) chosen.2 f.egressAdd
      if refused egress.2 then egress.1
      else egress.1.store iface (.tc rtnl iface.index)

def attachViaTC (h : Host) (iface : LinkAttrs) (ifaceType : InterfaceType) (f : Failures) : Host :=
  match programs ifaceType with
  | none => h
  | some chosen =>
    if f.tcOpen then h
    else
      let installed := h.tcOpen.install iface chosen h.next f
      -- the deferred function: `err` is what `SetOption` returned, on every path
      if f.setOption then installed.clean h.next iface.index else installed

def attachViaTCX (h : Host) (iface : LinkAttrs) (ifaceType : InterfaceType) (f : Failures) : Host :=
  match programs ifaceType with
  | none => h
  | some chosen =>
    if f.attachTCXIngress then h
    else
      let ingress := h.attachTCX (iface.index,.ingress) chosen.1
      if f.attachTCXEgress then ingress.closeLink h.next
      else (ingress.attachTCX (iface.index,.egress) chosen.2).store iface (.tcx h.next ingress.next)

def createQdiscAndAttach (h : Host) (tcxSupported : Bool) (iface : LinkAttrs) (ifaceType : InterfaceType)
    (f : Failures) : Host :=
  if tcxSupported then h.attachViaTCX iface ifaceType f else h.attachViaTC iface ifaceType f

structure WellFormed (h : Host) : Prop where
  sockets_lt : ∀ rtnl ∈ h.sockets, rtnl < h.next
  links_lt : ∀ link ∈ h.links, link < h.next
  entries_lt : ∀ key value, h.attachmentMap.lookup key = some value → ∀ n ∈ value.numbers, n < h.next

def Installed (h : Host) (index : ℕ) : Prop :=
  index ∈ h.qdiscs ∧ (index,.ingress) ∈ h.filters ∧ (index,.egress) ∈ h.filters

def Attached (h h' : Host) (iface : LinkAttrs) : Prop :=
  h'.attachmentMap.lookup (ifaceToKey iface) = some (.tc h.next iface.index) ∧
    h'.Installed iface.index ∧ h.next ∈ h'.sockets

def RolledBack (h h' : Host) (iface : LinkAttrs) : Prop :=
  h'.attachmentMap = h.attachmentMap ∧ h'.sockets = h.sockets ∧ (iface.index ∈ h'.qdiscs → iface.index ∈ h.qdiscs)

/-- The interface has an entry with two open links, or the links and the entries are those from before. -/
def AllOrNothingTCX (h h' : Host) (iface : LinkAttrs) : Prop :=
  (∃ ingressLink egressLink, h'.attachmentMap.lookup (ifaceToKey iface) = some (.tcx ingressLink egressLink) ∧
    ingressLink ∈ h'.links ∧ egressLink ∈ h'.links) ∨
  h'.attachmentMap = h.attachmentMap ∧ h'.links = h.links

instance (h : Host) (index : ℕ) : Decidable (h.Installed index) :=
  inferInstanceAs (Decidable (_ ∧ _ ∧ _))

instance (h h' : Host) (iface : LinkAttrs) : Decidable (Attached h h' iface) :=
  inferInstanceAs (Decidable (_ ∧ _ ∧ _))

instance (h h' : Host) (iface : LinkAttrs) : Decidable (RolledBack h h' iface) :=
  inferInstanceAs (Decidable (_ ∧ _ ∧ (_ → _)))

section Add
variable (h : Host) (index : ℕ) (place : ℕ × Hook) (program : Program) (fails : Bool)

@[simp] theorem refused_addQdisc : refused (h.addQdisc index fails).2 = fails := by
  unfold addQdisc
  cases fails <;> by_cases hi : index ∈ h.qdiscs <;> simp [hi, refused]

@[simp] theorem refused_addFilter : refused (h.addFilter place program fails).2 = fails := by
  unfold addFilter
  cases fails <;> by_cases hp : place ∈ h.filters <;> simp [hp, refused]

theorem exists_addQdisc : ∃ qdiscs, (h.addQdisc index fails).1 = { h with qdiscs := qdiscs } := by
  unfold addQdisc
  split_ifs
  · exact ⟨h.qdiscs,rfl⟩
  · exact ⟨h.qdiscs,rfl⟩
  · exact ⟨_,rfl⟩

theorem exists_addFilter : ∃ filters, (h.addFilter place program fails).1 = { h with filters := filters } := by
  unfold addFilter
  split_ifs
  · exact ⟨h.filters,rfl⟩
  · exact ⟨h.filters,rfl⟩
  · exact ⟨_,rfl⟩

theorem mem_addQdisc : index ∈ (h.addQdisc index false).1.qdiscs := by
  by_cases hi : index ∈ h.qdiscs <;> simp [addQdisc, hi]

theorem addFilter_qdiscs : (h.addFilter place program fails).1.qdiscs = h.qdiscs := by
  obtain ⟨filters,he⟩ := h.exists_addFilter place program fails
  rw [he]

theorem mem_addFilter (other : ℕ × Hook) :
    other ∈ (h.addFilter place program false).1.filters ↔ other = place ∨ other ∈ h.filters := by
  by_cases hp : place ∈ h.filters
  · simp only [addFilter, hp, Bool.false_eq_true, if_true, if_false]
    exact ⟨.inr,fun ho => ho.elim (fun he => he ▸ hp) id⟩
  · simp [addFilter, hp, Finmap.mem_insert]

end Add

section Install
variable (h : Host) (iface : LinkAttrs) (chosen : Program × Program) (rtnl : ℕ) (f : Failures)

/-- Beside the qdisc and the filters only the entry is written, and only if no `Add` has failed. -/
theorem exists_install : ∃ qdiscs filters, h.install iface chosen rtnl f =
    { h with
      qdiscs := qdiscs
      filters := filters
      attachmentMap := if f.anyAdd then h.attachmentMap
        else h.attachmentMap.insert (ifaceToKey iface) (.tc rtnl iface.index) } := by
  obtain ⟨qdiscs,hq⟩ := h.exists_addQdisc iface.index f.qdiscAdd
  obtain ⟨ingress,hi⟩ := exists_addFilter { h with qdiscs := qdiscs } (iface.index,.ingress) chosen.1 f.ingressAdd
  obtain ⟨egress,he⟩ := exists_addFilter { h with qdiscs := qdiscs, filters := ingress } (iface.index,.egress)
    chosen.2 f.egressAdd
  unfold install
  simp only [refused_addQdisc, refused_addFilter, hq, hi, he, Failures.anyAdd]
  by_cases hqdisc : f.qdiscAdd = true
  · exact ⟨qdiscs,h.filters,by simp [hqdisc]⟩
  by_cases hingress : f.ingressAdd = true
  · exact ⟨qdiscs,ingress,by simp [hqdisc, hingress]⟩
  by_cases hegress : f.egressAdd = true
  · exact ⟨qdiscs,egress,by simp [hqdisc, hingress, hegress]⟩
  · exact ⟨qdiscs,egress,by simp [hqdisc, hingress, hegress, store]⟩

theorem install_sockets : (h.install iface chosen rtnl f).sockets = h.sockets := by
  obtain ⟨qdiscs,filters,hi⟩ := h.exists_install iface chosen rtnl f
  rw [hi]

theorem install_attachmentMap : (h.install iface chosen rtnl f).attachmentMap =
    if f.anyAdd then h.attachmentMap else h.attachmentMap.insert (ifaceToKey iface) (.tc rtnl iface.index) := by
  obtain ⟨qdiscs,filters,hi⟩ := h.exists_install iface chosen rtnl f
  rw [hi]

theorem install_installed (hf : f.anyAdd = false) : (h.install iface chosen rtnl f).Installed iface.index := by
  obtain ⟨⟨hq,hi⟩,he⟩ : (f.qdiscAdd = false ∧ f.ingressAdd = false) ∧ f.egressAdd = false := by
    simpa [Failures.anyAdd] using hf
  simp only [install, refused_addQdisc, refused_addFilter, hq, hi, he, Bool.false_eq_true, if_false]
  refine ⟨?_,?_,?_⟩
  · rw [store, addFilter_qdiscs, addFilter_qdiscs]
    exact mem_addQdisc h iface.index
  · rw [store, mem_addFilter, mem_addFilter]
    exact .inr (.inl rfl)
  · rw [store, mem_addFilter]
    exact .inl rfl

end Install

namespace WellFormed
variable {h : Host} (hw : h.WellFormed)
include hw

theorem of_le {h' : Host} (hn : h.next ≤ h'.next) (hs : ∀ rtnl ∈ h'.sockets, rtnl ∈ h.sockets ∨ rtnl < h'.next)
    (hl : ∀ link ∈ h'.links, link ∈ h.links ∨ link < h'.next)
    (he : ∀ key value, h'.attachmentMap.lookup key = some value →
      h.attachmentMap.lookup key = some value ∨ ∀ n ∈ value.numbers, n < h'.next) : h'.WellFormed where
  sockets_lt rtnl hm := (hs rtnl hm).elim (fun hm => (hw.sockets_lt rtnl hm).trans_le hn) id
  links_lt link hm := (hl link hm).elim (fun hm => (hw.links_lt link hm).trans_le hn) id
  entries_lt key value hv :=
    (he key value hv).elim (fun hv n hm => (hw.entries_lt key value hv n hm).trans_le hn) id

theorem tcOpen : h.tcOpen.WellFormed := by
  refine hw.of_le (Nat.le_succ _) (fun rtnl hm => ?_) (fun _ => .inl) (fun _ _ => .inl)
  rcases Finset.mem_insert.mp hm with rfl | hm
  · exact .inr (Nat.lt_succ_self _)
  · exact .inl hm

theorem attachTCX (place : ℕ × Hook) (program : Program) : (h.attachTCX place program).WellFormed := by
  refine hw.of_le (Nat.le_succ _) (fun _ => .inl) (fun link hm => ?_) (fun _ _ => .inl)
  rcases Finmap.mem_insert.mp hm with rfl | hm
  · exact .inr (Nat.lt_succ_self _)
  · exact .inl hm

theorem closeLink (link : ℕ) : (h.closeLink link).WellFormed :=
  hw.of_le le_rfl (fun _ => .inl) (fun _ hm => .inl (Finmap.mem_erase.mp hm).2) (fun _ _ => .inl)

theorem clean (rtnl qdisc : ℕ) : (h.clean rtnl qdisc).WellFormed :=
  hw.of_le le_rfl (fun _ hm => .inl (Finset.mem_of_mem_erase hm)) (fun _ => .inl) (fun _ _ => .inl)

theorem store {iface : LinkAttrs} {value : AttachmentValue} (hv : ∀ n ∈ value.numbers, n < h.next) :
    (h.store iface value).WellFormed := by
  refine hw.of_le le_rfl (fun _ => .inl) (fun _ => .inl) (fun key other hl => ?_)
  rcases FiniteMap.lookup_of_insert hl with ⟨_,rfl⟩ | ⟨_,hl⟩
  · exact .inr hv
  · exact .inl hl

theorem install (iface : LinkAttrs) (chosen : Program × Program) {rtnl : ℕ} (hr : rtnl < h.next) (f : Failures) :
    (h.install iface chosen rtnl f).WellFormed := by
  obtain ⟨qdiscs,filters,hi⟩ := h.exists_install iface chosen rtnl f
  rw [hi]
  refine hw.of_le le_rfl (fun _ => .inl) (fun _ => .inl) fun key value hl => ?_
  cases ha : f.anyAdd with
  | true =>
    simp only [ha, if_true] at hl
    exact .inl hl
  | false =>
    simp only [ha, Bool.false_eq_true, if_false] at hl
    rcases FiniteMap.lookup_of_insert hl with ⟨_,rfl⟩ | ⟨_,hl⟩
    · exact .inr (by simpa [AttachmentValue.numbers] using hr)
    · exact .inl hl

theorem attachViaTC (iface : LinkAttrs) (ifaceType : InterfaceType) (f : Failures) :
    (h.attachViaTC iface ifaceType f).WellFormed := by
  unfold Host.attachViaTC
  cases programs ifaceType with
  | none => exact hw
  | some chosen =>
    have hi := hw.tcOpen.install iface chosen (Nat.lt_succ_self h.next) f
    dsimp only
    split_ifs
    · exact hw
    · exact hi.clean _ _
    · exact hi

theorem attachViaTCX (iface : LinkAttrs) (ifaceType : InterfaceType) (f : Failures) :
    (h.attachViaTCX iface ifaceType f).WellFormed := by
  unfold Host.attachViaTCX
  cases programs ifaceType with
  | none => exact hw
  | some chosen =>
    dsimp only
    split_ifs
    · exact hw
    · exact (hw.attachTCX _ _).closeLink _
    · refine ((hw.attachTCX _ _).attachTCX _ _).store ?_
      simp [AttachmentValue.numbers, Host.attachTCX]

theorem createQdiscAndAttach (tcxSupported : Bool) (iface : LinkAttrs) (ifaceType : InterfaceType) (f : Failures) :
    (h.createQdiscAndAttach tcxSupported iface ifaceType f).WellFormed := by
  unfold Host.createQdiscAndAttach
  split_ifs
  · exact hw.attachViaTCX iface ifaceType f
  · exact hw.attachViaTC iface ifaceType f

/-- An entry with a number that was not given before is a new one. -/
theorem lookup_ne (key : AttachmentKey) (qdisc : ℕ) : h.attachmentMap.lookup key ≠ some (.tc h.next qdisc) :=
  fun hl => lt_irrefl _ (hw.entries_lt key _ hl h.next (List.mem_singleton_self _))

end WellFormed

/-- Over links nothing is left behind: the link of one direction is closed if the other is refused. -/
theorem attachViaTCX_allOrNothing {h : Host} (hw : h.WellFormed) (iface : LinkAttrs) (ifaceType : InterfaceType)
    (f : Failures) : h.AllOrNothingTCX (h.attachViaTCX iface ifaceType f) iface := by
  unfold attachViaTCX
  cases programs ifaceType with
  | none => exact .inr ⟨rfl,rfl⟩
  | some chosen =>
    cases f.attachTCXIngress with
    | true => exact .inr ⟨rfl,rfl⟩
    | false =>
      cases f.attachTCXEgress with
      | true =>
        refine .inr ⟨rfl,?_⟩
        have hnext : h.next ∉ h.links := fun hm => lt_irrefl _ (hw.links_lt _ hm)
        exact FiniteMap.erase_insert hnext _
      | false =>
        refine .inl ⟨h.next,h.next + 1,Finmap.lookup_insert _,?_,?_⟩
        · simp [store, attachTCX, Finmap.mem_insert]
        · simp [store, attachTCX, Finmap.mem_insert]

/-! ## The deferred function

What is left when the calls after the `defer` have returned, and what is left if it runs then. -/

section Deferred
variable {h : Host} (hw : h.WellFormed) (iface : LinkAttrs) (chosen : Program × Program) {f : Failures}

theorem next_mem_sockets : h.next ∈ (h.tcOpen.install iface chosen h.next f).sockets := by
  rw [install_sockets]
  exact Finset.mem_insert_self _ _

theorem lookup_installed (ha : f.anyAdd = false) :
    (h.tcOpen.install iface chosen h.next f).attachmentMap.lookup (ifaceToKey iface) =
      some (.tc h.next iface.index) := by
  rw [install_attachmentMap, ha, if_neg Bool.false_ne_true]
  exact Finmap.lookup_insert _

theorem attachmentMap_of_anyAdd (ha : f.anyAdd = true) :
    (h.tcOpen.install iface chosen h.next f).attachmentMap = h.attachmentMap := by
  rw [install_attachmentMap, if_pos ha]
  rfl

theorem attached_install (ha : f.anyAdd = false) : Attached h (h.tcOpen.install iface chosen h.next f) iface :=
  ⟨lookup_installed iface chosen ha,install_installed _ iface chosen h.next f ha,next_mem_sockets iface chosen⟩

include hw

theorem rolledBack_clean (ha : f.anyAdd = true) :
    RolledBack h ((h.tcOpen.install iface chosen h.next f).clean h.next iface.index) iface := by
  have hnext : h.next ∉ h.sockets := fun hm => lt_irrefl _ (hw.sockets_lt _ hm)
  refine ⟨attachmentMap_of_anyAdd iface chosen ha,?_,fun hm => ?_⟩
  · simp [clean, install_sockets, tcOpen, hnext]
  · simp [clean, deleteQdisc] at hm

/-- Without the deferred function the socket of the call stays open. -/
theorem not_allOrNothing_of_anyAdd (ha : f.anyAdd = true) :
    ¬(Attached h (h.tcOpen.install iface chosen h.next f) iface ∨
      RolledBack h (h.tcOpen.install iface chosen h.next f) iface) := by
  rintro (⟨hl,_⟩ | ⟨_,hsockets,_⟩)
  · rw [attachmentMap_of_anyAdd iface chosen ha] at hl
    exact hw.lookup_ne _ _ hl
  · have hm : h.next ∈ h.sockets := hsockets ▸ next_mem_sockets iface chosen
    exact lt_irrefl _ (hw.sockets_lt _ hm)

/-- The deferred function leaves the entry, and removes what it stands for. -/
theorem not_allOrNothing_of_clean (ha : f.anyAdd = false) :
    ¬(Attached h ((h.tcOpen.install iface chosen h.next f).clean h.next iface.index) iface ∨
      RolledBack h ((h.tcOpen.install iface chosen h.next f).clean h.next iface.index) iface) := by
  rintro (⟨_,_,hsocket⟩ | ⟨hmap,_⟩)
  · simp [clean] at hsocket
  · have hl := lookup_installed (h := h) iface chosen ha
    exact hw.lookup_ne _ _ ((congrArg (Finmap.lookup (ifaceToKey iface)) hmap).symm.trans hl)

end Deferred

theorem programs_eq_none_iff (ifaceType : InterfaceType) : programs ifaceType = none ↔ ifaceType = .unknown := by
  cases ifaceType <;> simp [programs]

/-- Attaching over a clsact qdisc is all or nothing exactly if the deferred function runs when it has
something to undo: `SetOption` fails if and only if one of the `Add` calls does. -/
theorem attachViaTC_allOrNothing_iff (h : Host) (hw : h.WellFormed) (iface : LinkAttrs) (ifaceType : InterfaceType)
    (f : Failures) : (Attached h (h.attachViaTC iface ifaceType f) iface ∨
        RolledBack h (h.attachViaTC iface ifaceType f) iface) ↔
      ifaceType = .unknown ∨ f.tcOpen = true ∨ f.setOption = f.anyAdd := by
  have hnothing : RolledBack h h iface := ⟨rfl,rfl,id⟩
  rw [← programs_eq_none_iff]
  unfold attachViaTC
  cases programs ifaceType with
  | none => exact iff_of_true (.inr hnothing) (.inl rfl)
  | some chosen =>
    cases f.tcOpen with
    | true => exact iff_of_true (.inr hnothing) (.inr (.inl rfl))
    | false =>
      simp only [Bool.false_eq_true, if_false, reduceCtorEq, false_or]
      cases ha : f.anyAdd with
      | true =>
        cases f.setOption with
        | true => exact iff_of_true (.inr (rolledBack_clean hw iface chosen ha)) rfl
        | false => exact iff_of_false (not_allOrNothing_of_anyAdd hw iface chosen ha) (by decide)
      | false =>
        cases f.setOption with
        | true => exact iff_of_false (not_allOrNothing_of_clean hw iface chosen ha) (by decide)
        | false => exact iff_of_true (.inl (attached_install iface chosen ha)) rfl

end Host

def podIface : LinkAttrs where
  name := "veth0"
  index := 7
  hardwareAddr := "aa:bb:cc:dd:ee:ff"
  netNsID := 1

def emptyHost : Host where
  next := 0
  sockets := ∅
  links := ∅
  qdiscs := ∅
  filters := ∅
  attachmentMap := ∅

def noFailures : Failures where
  tcOpen := false
  setOption := false
  qdiscAdd := false
  ingressAdd := false
  egressAdd := false
  attachTCXIngress := false
  attachTCXEgress := false

def restartedHost : Host :=
  { emptyHost with
    qdiscs := {podIface.index}
    filters := (Finmap.singleton (podIface.index,.ingress) .endpointIngressFilter).insert
      (podIface.index,.egress) .endpointEgressFilter }

theorem restartedHost_wellFormed : restartedHost.WellFormed where
  sockets_lt rtnl hm := absurd hm (Finset.notMem_empty rtnl)
  links_lt _ hm := absurd hm Finmap.notMem_empty
  entries_lt _ _ hl := absurd (hl.symm.trans (Finmap.lookup_empty _)) (Option.some_ne_none _)

namespace Host

theorem restartedHost_allOrNothing : restartedHost.WellFormed ∧
    (Attached restartedHost (restartedHost.attachViaTC podIface .veth noFailures) podIface ∨
      RolledBack restartedHost (restartedHost.attachViaTC podIface .veth noFailures) podIface) :=
  ⟨restartedHost_wellFormed,
    (attachViaTC_allOrNothing_iff restartedHost restartedHost_wellFormed podIface .veth noFailures).mpr
      (.inr (.inr rfl))⟩

def withoutFilter : Host := emptyHost.attachViaTC podIface .veth { noFailures with ingressAdd := true }

def withoutOption : Host := emptyHost.attachViaTC podIface .veth { noFailures with setOption := true }

/-- With a filter refused the socket and the qdisc stay; with the option refused the entry stays
without them. -/
theorem attachViaTC_not_allOrNothing :
    (withoutFilter.sockets = {0} ∧ withoutFilter.qdiscs = {7} ∧
      ¬(Attached emptyHost withoutFilter podIface ∨ RolledBack emptyHost withoutFilter podIface)) ∧
    (withoutOption.sockets = ∅ ∧ withoutOption.qdiscs = ∅ ∧
      ¬(Attached emptyHost withoutOption podIface ∨ RolledBack emptyHost withoutOption podIface)) := by
  decide

end Host

end Retina.PacketParser
