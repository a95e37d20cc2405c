import Mathlib

/-! # Bounded channels

A channel holds at most as many values as its capacity. A send that does not wait gives up
when there is no room. What several workers hold is a sum over the workers, of which one
worker changes one term.
-/
namespace Retina
variable {α : Type*}

structure Channel (α : Type*) where
  capacity : ℕ
  queue : List α := []
  closed : Bool := false

namespace Channel

def trySend (c : Channel α) (a : α) : Option (Channel α) :=
  if c.queue.length < c.capacity then some { c with queue := c.queue ++ [a] } else none

def receive (c : Channel α) : Option (α × Channel α) :=
  match c.queue with
  | [] => none
  | a :: rest => some (a,{ c with queue := rest })

theorem trySend_eq_some {c c' : Channel α} {a : α} (h : c.trySend a = some c') :
    c.queue.length < c.capacity ∧ c' = { c with queue := c.queue ++ [a] } := by
  unfold trySend at h
  split at h
  · exact ⟨‹_›,(Option.some.inj h).symm⟩
  · cases h

theorem receive_eq_some {c c' : Channel α} {a : α} (h : c.receive = some (a,c')) :
    c.queue = a :: c'.queue ∧ c'.capacity = c.capacity := by
  unfold receive at h
  split at h
  · cases h
  · cases h
    exact ⟨‹_›,rfl⟩

end Channel

/-- The sum after one of its terms has changed. -/
theorem sum_update_add {ι M : Type*} [Fintype ι] [DecidableEq ι] [AddCommMonoid M] (f : α → M) (g : ι → α) (i : ι)
    (x : α) : ∑ j, f (Function.update g i x j) + f (g i) = ∑ j, f (g j) + f x := by
  have hrest : ∑ j ∈ Finset.univ.erase i, f (Function.update g i x j) = ∑ j ∈ Finset.univ.erase i, f (g j) :=
    Finset.sum_congr rfl fun j hj => by rw [Function.update_of_ne (Finset.ne_of_mem_erase hj)]
  rw [← Finset.add_sum_erase _ _ (Finset.mem_univ i), ← Finset.add_sum_erase _ (fun j => f (g j)) (Finset.mem_univ i),
    hrest, Function.update_self]
  abel

end Retina
