import Mathlib

/-! # The last item of a key

A queue of items with keys. The last item of a key is found again when an item with another key is
taken from the front, when an item is added at the end, and when the only item of its key goes
from the front to the end.
-/
namespace Retina.KeyedQueue
variable {α κ : Type*} [DecidableEq κ] (key : α → κ)

def lastOf (k : κ) (q : List α) : Option α := (q.filter fun a => key a = k).getLast?

variable {key}

@[simp] theorem lastOf_nil (k : κ) : lastOf key k [] = none := rfl

theorem lastOf_append_singleton (k : κ) (q : List α) (a : α) :
    lastOf key k (q ++ [a]) = if key a = k then some a else lastOf key k q := by
  rw [lastOf, List.filter_append]
  by_cases h : key a = k
  · simp [h]
  · simp [h, lastOf]

theorem lastOf_eq_none_iff {k : κ} {q : List α} : lastOf key k q = none ↔ ∀ a ∈ q, key a ≠ k := by
  simp [lastOf]

theorem mem_of_lastOf {k : κ} {q : List α} {a : α} (h : lastOf key k q = some a) : a ∈ q ∧ key a = k := by
  have hmem := List.mem_filter.mp (List.mem_of_getLast? h)
  exact ⟨hmem.1,of_decide_eq_true hmem.2⟩

theorem lastOf_cons_of_ne {k : κ} {a : α} (h : key a ≠ k) (q : List α) : lastOf key k (a :: q) = lastOf key k q := by
  rw [lastOf, List.filter_cons_of_neg (by simpa using h), lastOf]

/-- The first item is the last one of its key exactly if no other item has the key. -/
theorem lastOf_cons_self (a : α) (q : List α) :
    lastOf key (key a) (a :: q) = some ((lastOf key (key a) q).getD a) := by
  rw [lastOf, List.filter_cons_of_pos (by simp), List.getLast?_cons, lastOf]

/-- An item without others of its key may go to the end. -/
theorem lastOf_rotate {a : α} {q : List α} (h : ∀ b ∈ q, key b ≠ key a) (k : κ) :
    lastOf key k (q ++ [a]) = lastOf key k (a :: q) := by
  rw [lastOf_append_singleton]
  by_cases hk : key a = k
  · subst hk
    rw [if_pos rfl, lastOf_cons_self, lastOf_eq_none_iff.mpr h, Option.getD_none]
  · rw [if_neg hk, lastOf_cons_of_ne hk]

end Retina.KeyedQueue
