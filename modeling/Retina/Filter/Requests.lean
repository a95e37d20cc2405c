import Retina.Cache.Types
import Retina.Library.FiniteMap

/-! # The filter cache

`pkg/managers/filtermanager/cache.go` maps an address to its requestors and each of
them to the metadata of its requests. No map inside is ever left empty: a cache
carries that as a field. What the cache says is the relation `Holds` between
addresses, requestors and metadata. The maps only compare the texts of addresses, so
the type of these texts is left open; elsewhere it is `NetIP`.
-/
namespace Retina.Filter
open Cache (NetIP)

abbrev Requestor := String

structure RequestMetadata where
  ruleID : String
deriving DecidableEq

abbrev Requests := Finmap (fun _ : Requestor => Finset RequestMetadata)
abbrev RequestData (κ : Type := NetIP) := Finmap (fun _ : κ => Requests)

variable {κ : Type} [DecidableEq κ]

namespace RequestData
variable (data : RequestData κ) (ip : κ) (r : Requestor) (m : RequestMetadata)

def add : RequestData κ :=
  let reqs := (data.lookup ip).getD ∅
  data.insert ip (reqs.insert r (insert m ((reqs.lookup r).getD ∅)))

def dropRequest (reqs : Requests) (ms : Finset RequestMetadata) : Requests :=
  if (ms.erase m).card = 0 then reqs.erase r else reqs.insert r (ms.erase m)

def delete : RequestData κ × Bool :=
  match data.lookup ip with
  | none => (data,false)
  | some reqs =>
    match reqs.lookup r with
    | none => (data,false)
    | some ms =>
      if dropRequest r m reqs ms = ∅ then (data.erase ip,true)
      else (data.insert ip (dropRequest r m reqs ms),false)

def NoneEmpty : Prop :=
  ∀ ip reqs, data.lookup ip = some reqs → reqs ≠ ∅ ∧ ∀ r ms, reqs.lookup r = some ms → ms ≠ ∅

end RequestData

theorem RequestData.delete_of_lookup {data : RequestData κ} {ip : κ} {r : Requestor} {reqs : Requests}
    {ms : Finset RequestMetadata} (hip : data.lookup ip = some reqs) (hr : reqs.lookup r = some ms)
    (m : RequestMetadata) : data.delete ip r m = if dropRequest r m reqs ms = ∅ then (data.erase ip,true)
      else (data.insert ip (dropRequest r m reqs ms),false) := by simp only [delete, hip, hr]

theorem RequestData.delete_of_absent {data : RequestData κ} {ip : κ} {r : Requestor}
    (h : ∀ reqs ms, data.lookup ip = some reqs → reqs.lookup r ≠ some ms) (m : RequestMetadata) :
    data.delete ip r m = (data,false) := by
  simp only [delete]
  split
  · rfl
  · next reqs hip =>
    split
    · rfl
    · next ms hr => exact absurd hr (h reqs ms hip)

theorem requests_ne_empty_of_lookup {reqs : Requests} {r : Requestor} {ms : Finset RequestMetadata}
    (h : reqs.lookup r = some ms) : reqs ≠ ∅ := by
  rintro rfl
  simp at h

namespace RequestData

theorem noneEmpty_empty : NoneEmpty (∅ : RequestData κ) := by
  intro ip reqs h
  simp at h

variable {data : RequestData κ} (hdata : data.NoneEmpty) (ip : κ) (r : Requestor) (m : RequestMetadata)
include hdata

theorem NoneEmpty.add : (data.add ip r m).NoneEmpty := by
  intro ip' reqs hreqs
  rw [RequestData.add, FiniteMap.lookup_insert_eq_ite] at hreqs
  split at hreqs
  · cases hreqs
    refine ⟨requests_ne_empty_of_lookup (Finmap.lookup_insert _),?_⟩
    intro r' ms hms
    rw [FiniteMap.lookup_insert_eq_ite] at hms
    split at hms
    · cases hms
      exact Finset.insert_ne_empty _ _
    · cases hlook : data.lookup ip with
      | none => simp [hlook] at hms
      | some old =>
        simp only [hlook, Option.getD_some] at hms
        exact (hdata ip old hlook).2 r' ms hms
  · exact hdata ip' reqs hreqs

theorem NoneEmpty.delete : (data.delete ip r m).1.NoneEmpty := by
  by_cases hheld : ∃ reqs ms, data.lookup ip = some reqs ∧ reqs.lookup r = some ms
  · obtain ⟨reqs,ms,hip,hr⟩ := hheld
    rw [delete_of_lookup hip hr]
    intro ip' reqs' hreqs'
    split at hreqs'
    · exact hdata ip' reqs' (FiniteMap.lookup_of_erase hreqs').2
    · next hne =>
      rw [FiniteMap.lookup_insert_eq_ite] at hreqs'
      split at hreqs'
      · cases hreqs'
        refine ⟨hne,?_⟩
        intro r' ms' hms'
        rw [dropRequest] at hms'
        split at hms'
        · exact (hdata ip reqs hip).2 r' ms' (FiniteMap.lookup_of_erase hms').2
        · next hcard =>
          rw [FiniteMap.lookup_insert_eq_ite] at hms'
          split at hms'
          · cases hms'
            exact fun h => hcard (by rw [h, Finset.card_empty])
          · exact (hdata ip reqs hip).2 r' ms' hms'
      · exact hdata ip' reqs' hreqs'
  · rw [delete_of_absent fun reqs ms hip hr => hheld ⟨reqs,ms,hip,hr⟩]
    exact hdata

end RequestData

structure FilterCache (κ : Type := NetIP) [DecidableEq κ] where
  data : RequestData κ := ∅
  noneEmpty : data.NoneEmpty := by exact RequestData.noneEmpty_empty

namespace FilterCache
variable (f : FilterCache κ) (ip : κ) (r : Requestor) (m : RequestMetadata)

def hasKey : Bool := (f.data.lookup ip).isSome

def addIP : FilterCache κ := ⟨f.data.add ip r m,f.noneEmpty.add ip r m⟩

/-- The flag says that the address itself was deleted. -/
def deleteIP : FilterCache κ × Bool := (⟨(f.data.delete ip r m).1,f.noneEmpty.delete ip r m⟩,(f.data.delete ip r m).2)

def ips (order : FiniteMap.Order κ) : List κ := order.list f.data.keys

def reset (_ : FilterCache κ) : FilterCache κ := {}

def Holds : Prop := ∃ reqs ms, f.data.lookup ip = some reqs ∧ reqs.lookup r = some ms ∧ m ∈ ms

instance : Decidable (f.Holds ip r m) :=
  decidable_of_iff (∃ ms ∈ (f.data.lookup ip).bind fun reqs => reqs.lookup r, m ∈ ms) (by
    simp only [Holds, Option.mem_def, Option.bind_eq_some_iff]
    constructor
    · rintro ⟨ms,⟨reqs,hip,hr⟩,hm⟩
      exact ⟨reqs,ms,hip,hr,hm⟩
    · rintro ⟨reqs,ms,hip,hr,hm⟩
      exact ⟨ms,⟨reqs,hip,hr⟩,hm⟩)

end FilterCache

theorem mem_lookup_dropRequest {r : Requestor} {m : RequestMetadata} {reqs : Requests} {ms : Finset RequestMetadata}
    (hr : reqs.lookup r = some ms) (r' : Requestor) (m' : RequestMetadata) :
    (∃ ms', (RequestData.dropRequest r m reqs ms).lookup r' = some ms' ∧ m' ∈ ms') ↔
      (∃ ms', reqs.lookup r' = some ms' ∧ m' ∈ ms') ∧ ¬(r' = r ∧ m' = m) := by
  rw [RequestData.dropRequest]
  by_cases hrr : r' = r
  · subst hrr
    split
    · next hcard =>
      have hempty := Finset.card_eq_zero.mp hcard
      have hsub : ∀ x ∈ ms, x = m := fun x hx => by
        by_contra hne
        simpa [hempty] using Finset.mem_erase.mpr ⟨hne,hx⟩
      simp only [Finmap.lookup_erase, hr]
      simp only [reduceCtorEq, false_and, exists_false, Option.some.injEq, exists_eq_left', true_and, false_iff, not_and,
        not_not]
      exact hsub m'
    · simp only [Finmap.lookup_insert, hr, Option.some.injEq, exists_eq_left', Finset.mem_erase, true_and]
      exact and_comm
  · split <;> simp [hrr]

namespace FilterCache
variable (f : FilterCache κ) (ip : κ) (r : Requestor) (m : RequestMetadata)

theorem hasKey_iff : f.hasKey ip = true ↔ ∃ r m, f.Holds ip r m := by
  rw [hasKey, Option.isSome_iff_exists]
  constructor
  · rintro ⟨reqs,hip⟩
    obtain ⟨hne,hms⟩ := f.noneEmpty ip reqs hip
    have hkeys : ∃ r, r ∈ reqs := by
      by_contra hall
      exact hne (Finmap.ext_lookup fun r => by
        rw [Finmap.lookup_eq_none.mpr fun h => hall ⟨r,h⟩, Finmap.lookup_empty])
    obtain ⟨r,hr⟩ := hkeys
    obtain ⟨ms,hrms⟩ := Finmap.mem_iff.mp hr
    obtain ⟨m,hm⟩ := Finset.nonempty_iff_ne_empty.mpr (hms r ms hrms)
    exact ⟨r,m,reqs,ms,hip,hrms,hm⟩
  · rintro ⟨r,m,reqs,ms,hip,-,-⟩
    exact ⟨reqs,hip⟩

theorem holds_addIP (ip' : κ) (r' : Requestor) (m' : RequestMetadata) :
    (f.addIP ip r m).Holds ip' r' m' ↔ f.Holds ip' r' m' ∨ ip' = ip ∧ r' = r ∧ m' = m := by
  simp only [Holds, addIP, RequestData.add, FiniteMap.lookup_insert_eq_ite]
  by_cases hip : ip' = ip
  · subst hip
    by_cases hr : r' = r
    · subst hr
      cases hlook : f.data.lookup ip' with
      | none => simp
      | some reqs =>
        cases hms : reqs.lookup r' with
        | none => simp [hms]
        | some ms => simp [hms, or_comm]
    · cases hlook : f.data.lookup ip' with
      | none => simp [hr]
      | some reqs => simp [hr]
  · simp [hip]

theorem holds_deleteIP (ip' : κ) (r' : Requestor) (m' : RequestMetadata) :
    (f.deleteIP ip r m).1.Holds ip' r' m' ↔ f.Holds ip' r' m' ∧ ¬(ip' = ip ∧ r' = r ∧ m' = m) := by
  simp only [Holds, deleteIP]
  by_cases hheld : ∃ reqs ms, f.data.lookup ip = some reqs ∧ reqs.lookup r = some ms
  · obtain ⟨reqs,ms,hip,hr⟩ := hheld
    have hdrop := mem_lookup_dropRequest (m := m) hr r' m'
    rw [RequestData.delete_of_lookup hip hr]
    by_cases hii : ip' = ip
    · subst hii
      simp only [hip, Option.some.injEq, exists_and_left, exists_eq_left', true_and, ← hdrop]
      split
      · next hempty => simp [hempty]
      · simp
    · split <;> simp [hii]
  · rw [RequestData.delete_of_absent fun reqs ms hip hr => hheld ⟨reqs,ms,hip,hr⟩]
    refine ⟨fun h => ⟨h,?_⟩,fun h => h.1⟩
    rintro ⟨rfl,rfl,-⟩
    obtain ⟨reqs,ms,hip,hr,-⟩ := h
    exact hheld ⟨reqs,ms,hip,hr⟩

/-- The flag is set exactly when the address was there and is gone. -/
theorem deleteIP_flag : (f.deleteIP ip r m).2 = (f.hasKey ip && !(f.deleteIP ip r m).1.hasKey ip) := by
  simp only [hasKey, deleteIP]
  by_cases hheld : ∃ reqs ms, f.data.lookup ip = some reqs ∧ reqs.lookup r = some ms
  · obtain ⟨reqs,ms,hip,hr⟩ := hheld
    rw [RequestData.delete_of_lookup hip hr]
    split <;> simp [hip]
  · rw [RequestData.delete_of_absent fun reqs ms hip hr => hheld ⟨reqs,ms,hip,hr⟩]
    simp

/-- The address leaves the cache with its only request. -/
theorem deleteIP_eq_true_iff : (f.deleteIP ip r m).2 = true ↔
    f.Holds ip r m ∧ ∀ r' m', f.Holds ip r' m' → r' = r ∧ m' = m := by
  rw [deleteIP_flag, Bool.and_eq_true, Bool.not_eq_true', ← Bool.not_eq_true, hasKey_iff, hasKey_iff]
  simp only [holds_deleteIP, true_and, not_exists]
  constructor
  · rintro ⟨⟨r',m',h⟩,hgone⟩
    have honly : ∀ r' m', f.Holds ip r' m' → r' = r ∧ m' = m :=
      fun r' m' h => by_contra fun hne => hgone r' m' ⟨h,hne⟩
    obtain ⟨rfl,rfl⟩ := honly r' m' h
    exact ⟨h,honly⟩
  · rintro ⟨h,honly⟩
    exact ⟨⟨r,m,h⟩,fun r' m' h' => h'.2 (honly r' m' h'.1)⟩

theorem mem_ips (order : FiniteMap.Order κ) : ip ∈ f.ips order ↔ f.hasKey ip = true := by
  rw [ips, order.mem_list, Finmap.mem_keys, hasKey, Finmap.mem_iff, Option.isSome_iff_exists]

theorem not_holds_reset : ¬f.reset.Holds ip r m := by simp [Holds, reset]

end FilterCache

end Retina.Filter
