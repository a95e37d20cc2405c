import Retina.Library.FiniteMap

/-! # Counted references

Each holder keeps one reference to its label. The count of a label is right if it is the number
of its holders; the surplus is what the count has above that.
-/
namespace Retina.References
variable {κ ι β : Type*} [DecidableEq κ] [DecidableEq ι] (label : β → ι)

def held (holders : Finmap (fun _ : κ => β)) (l : ι) : ℕ :=
  FiniteMap.sum (fun b => if label b = l then 1 else 0) holders

def surplus (count : ι → ℕ) (holders : Finmap (fun _ : κ => β)) (l : ι) : ℤ := count l - held label holders l

variable {label} {count : ι → ℕ} {holders : Finmap (fun _ : κ => β)}

omit [DecidableEq κ] in
theorem surplus_eq_zero_iff : surplus label count holders = 0 ↔ ∀ l, count l = held label holders l := by
  rw [funext_iff]
  refine forall_congr' fun l => ?_
  rw [Pi.zero_apply, surplus, sub_eq_zero, Nat.cast_inj]

omit [DecidableEq κ] in
theorem surplus_acquire (l : ι) :
    surplus label (Function.update count l (count l + 1)) holders = surplus label count holders + Pi.single l 1 := by
  funext x
  by_cases hx : x = l
  · subst hx
    simp only [surplus, Function.update_self, Pi.add_apply, Pi.single_eq_same]
    omega
  · simp [surplus, hx]

omit [DecidableEq κ] in
theorem surplus_release {l : ι} (h : 0 < count l) :
    surplus label (Function.update count l (count l - 1)) holders = surplus label count holders - Pi.single l 1 := by
  funext x
  by_cases hx : x = l
  · subst hx
    simp only [surplus, Function.update_self, Pi.sub_apply, Pi.single_eq_same]
    omega
  · simp [surplus, hx]

theorem single_eq_ite (b : β) (l : ι) : (Pi.single (label b) 1 : ι → ℤ) l = ((if label b = l then 1 else 0 : ℕ) : ℤ) := by
  by_cases h : label b = l
  · subst h
    simp
  · simp [h]

theorem surplus_insert_of_none {k : κ} (b : β) (h : holders.lookup k = none) :
    surplus label count (holders.insert k b) = surplus label count holders - Pi.single (label b) 1 := by
  funext l
  have hsum := FiniteMap.sum_insert_of_none (fun b => if label b = l then 1 else 0) b h
  rw [Pi.sub_apply, single_eq_ite, surplus, surplus, held, held, hsum]
  omega

theorem surplus_insert_of_some {k : κ} {old : β} (b : β) (h : holders.lookup k = some old) :
    surplus label count (holders.insert k b) =
      surplus label count holders - Pi.single (label b) 1 + Pi.single (label old) 1 := by
  funext l
  have hsum := FiniteMap.sum_insert_of_some (fun b => if label b = l then 1 else 0) b h
  rw [Pi.add_apply, Pi.sub_apply, single_eq_ite, single_eq_ite, surplus, surplus, held, held]
  omega

theorem surplus_erase {k : κ} {old : β} (h : holders.lookup k = some old) :
    surplus label count (holders.erase k) = surplus label count holders + Pi.single (label old) 1 := by
  funext l
  have hsum := FiniteMap.sum_erase (fun b => if label b = l then 1 else 0) h
  rw [Pi.add_apply, single_eq_ite, surplus, surplus, held, held]
  omega

omit [DecidableEq κ] in
theorem pos_of_surplus {l : ι} (h : 0 < surplus label count holders l) : 0 < count l := by
  unfold surplus at h
  omega

/-- What a holder has a reference to was counted. -/
theorem pos_of_holder {k : κ} {b : β} (h : holders.lookup k = some b) (hs : 0 ≤ surplus label count holders (label b)) :
    0 < count (label b) := by
  have hsum := FiniteMap.sum_erase (fun b' => if label b' = label b then 1 else 0) h
  rw [if_pos rfl] at hsum
  unfold surplus held at hs
  omega

end Retina.References
