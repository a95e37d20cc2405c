import Retina.Cache.Operations
import Retina.Library.FiniteMap

/-! # Pods by namespace

`GetAllNamespaces` and `GetIPsByNamespace` walk over the map of the endpoints in an
order that the runtime chooses.
-/
namespace Retina.Cache

def endpoints (c : Cache) (order : FiniteMap.Order String) : List RetinaEndpoint :=
  (order.list c.epMap.keys).filterMap fun key => c.epMap.lookup key

def getAllNamespaces (c : Cache) (order : FiniteMap.Order String) : List String :=
  order.list ((c.endpoints order).map fun ep => ep.ns).toFinset

/-- The loop of `GetIPsByNamespace`. An endpoint without a primary address is logged and left out. -/
def primaryIPs (ns : String) (unique : Finset NetIP) : List RetinaEndpoint → List NetIP
  | [] => []
  | ep :: eps =>
    if ep.ns = ns then
      match ep.primaryNetIP with
      | .error _ => primaryIPs ns unique eps
      | .ok ip => if ip ∈ unique then primaryIPs ns unique eps else ip :: primaryIPs ns (insert ip unique) eps
    else primaryIPs ns unique eps

def getIPsByNamespace (c : Cache) (order : FiniteMap.Order String) (ns : String) : List NetIP :=
  primaryIPs ns ∅ (c.endpoints order)

def PodAt (c : Cache) (ep : RetinaEndpoint) (ip : NetIP) : Prop :=
  (∃ key, c.epMap.lookup key = some ep) ∧ ep.primaryNetIP = .ok ip

variable (c : Cache) (order : FiniteMap.Order String)

theorem mem_endpoints (ep : RetinaEndpoint) : ep ∈ c.endpoints order ↔ ∃ key, c.epMap.lookup key = some ep := by
  rw [endpoints, List.mem_filterMap]
  refine exists_congr fun key => ?_
  rw [order.mem_list, Finmap.mem_keys, Finmap.mem_iff]
  exact ⟨And.right,fun h => ⟨⟨ep,h⟩,h⟩⟩

theorem mem_getAllNamespaces (ns : String) :
    ns ∈ c.getAllNamespaces order ↔ ∃ key ep, c.epMap.lookup key = some ep ∧ ep.ns = ns := by
  rw [getAllNamespaces, order.mem_list, List.mem_toFinset, List.mem_map]
  simp only [mem_endpoints]
  constructor
  · rintro ⟨ep,⟨key,hkey⟩,hns⟩
    exact ⟨key,ep,hkey,hns⟩
  · rintro ⟨key,ep,hkey,hns⟩
    exact ⟨ep,⟨key,hkey⟩,hns⟩

theorem mem_primaryIPs (ns : String) (unique : Finset NetIP) (eps : List RetinaEndpoint) (ip : NetIP) :
    ip ∈ primaryIPs ns unique eps ↔ ip ∉ unique ∧ ∃ ep ∈ eps, ep.ns = ns ∧ ep.primaryNetIP = .ok ip := by
  induction eps generalizing unique with
  | nil => simp [primaryIPs]
  | cons ep eps ih =>
    rw [primaryIPs]
    by_cases hns : ep.ns = ns
    · rw [if_pos hns]
      cases hip : ep.primaryNetIP with
      | error err => simp [ih, hip]
      | ok ip' =>
        by_cases hu : ip' ∈ unique
        · simp only [hu, if_true, ih, List.mem_cons, exists_eq_or_imp, hns, hip, Except.ok.injEq, true_and]
          constructor
          · rintro ⟨hnot,h⟩
            exact ⟨hnot,.inr h⟩
          · rintro ⟨hnot,rfl | h⟩
            · exact absurd hu hnot
            · exact ⟨hnot,h⟩
        · simp only [hu, if_false, List.mem_cons, ih, exists_eq_or_imp, hns, hip, Except.ok.injEq, true_and,
            Finset.mem_insert]
          by_cases heq : ip = ip'
          · subst heq
            simp [hu]
          · simp [heq, Ne.symm heq]
    · simp [ih, hns]

theorem mem_getIPsByNamespace (ns : String) (ip : NetIP) :
    ip ∈ c.getIPsByNamespace order ns ↔ ∃ ep, c.PodAt ep ip ∧ ep.ns = ns := by
  rw [getIPsByNamespace, mem_primaryIPs]
  simp only [mem_endpoints, Finset.notMem_empty, not_false_eq_true, true_and]
  refine exists_congr fun ep => ?_
  rw [PodAt]
  tauto

end Retina.Cache
