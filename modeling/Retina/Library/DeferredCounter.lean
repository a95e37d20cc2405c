import Mathlib

/-! # Counters that hold back what they count

A counter observes a sequence of items. Each amount is either held back, by a
guarded addition that skips what would pass the limit, or delivered at once
together with everything held back before. A consumer turns each delivery into a
value, and may lose a part of it but never adds to it. Histories are lists with
the newest item first.
-/
namespace Retina

structure DeferredCounter (α : Type*) where
  limit : ℕ
  amount : α → ℕ
  delivered : α → Bool

namespace DeferredCounter
variable {α : Type*}

/-- Addition that leaves the counter alone instead of passing the limit. -/
def add (limit pending amount : ℕ) : ℕ := if pending + amount ≤ limit then pending + amount else pending

theorem add_of_le {limit pending amount : ℕ} (h : pending + amount ≤ limit) :
    add limit pending amount = pending + amount := if_pos h

theorem add_of_lt {limit pending amount : ℕ} (h : limit < pending + amount) :
    add limit pending amount = pending := if_neg (Nat.not_le.mpr h)

variable (c : DeferredCounter α)

def pending : List α → ℕ
  | [] => 0
  | a :: older => if c.delivered a then 0 else add c.limit (pending older) (c.amount a)

def total (items : List α) : ℕ := (items.map c.amount).sum

def received (consume : ℕ → α → ℕ) : List α → ℕ
  | [] => 0
  | a :: older => received consume older + if c.delivered a then consume (c.pending older) a else 0

/-- Nothing is lost: no item that is held back takes the counter past the limit, and the
consumer takes every delivery at its full value. -/
def Exact (consume : ℕ → α → ℕ) : List α → Prop
  | [] => True
  | a :: older => Exact consume older ∧
      (c.delivered a = false → c.pending older + c.amount a ≤ c.limit) ∧
      (c.delivered a = true → consume (c.pending older) a = c.pending older + c.amount a)

@[simp] theorem total_cons (a : α) (older : List α) : c.total (a :: older) = c.amount a + c.total older :=
  List.sum_cons

theorem pending_of_delivered {a : α} (h : c.delivered a = true) (older : List α) : c.pending (a :: older) = 0 :=
  if_pos h

theorem pending_of_heldBack {a : α} (h : c.delivered a = false) (older : List α) :
    c.pending (a :: older) = add c.limit (c.pending older) (c.amount a) := if_neg (by rw [h]; decide)

theorem pending_le (items : List α) : c.pending items ≤ c.limit := by
  induction items with
  | nil => exact Nat.zero_le c.limit
  | cons a older ih =>
    rw [pending, add]
    split
    · exact Nat.zero_le c.limit
    · split <;> assumption

section Consumer
variable {consume : ℕ → α → ℕ} (hle : ∀ pending a, consume pending a ≤ pending + c.amount a)
include hle

/-- The guard and the consumer only ever lose value. -/
theorem received_le (items : List α) : c.received consume items + c.pending items ≤ c.total items := by
  induction items with
  | nil => exact Nat.le_refl 0
  | cons a older ih =>
    have hc := hle (c.pending older) a
    rw [received, total_cons]
    cases hd : c.delivered a with
    | true =>
      rw [c.pending_of_delivered hd, if_pos rfl]
      omega
    | false =>
      rw [c.pending_of_heldBack hd, add, if_neg Bool.false_ne_true]
      split <;> omega

/-- So the totals agree only when neither of them loses anything. -/
theorem total_eq_received_iff (items : List α) :
    c.total items = c.received consume items + c.pending items ↔ c.Exact consume items := by
  induction items with
  | nil => exact ⟨fun _ => trivial,fun _ => rfl⟩
  | cons a older ih =>
    have hold := c.received_le hle older
    have hc := hle (c.pending older) a
    have hp := c.pending_le older
    rw [received, total_cons, Exact, ← ih]
    -- What the older items have lost is never made up for, so no loss may have occurred there.
    cases hd : c.delivered a with
    | true =>
      rw [c.pending_of_delivered hd, if_pos rfl]
      simp only [reduceCtorEq, false_implies, true_and, forall_const]
      omega
    | false =>
      rw [c.pending_of_heldBack hd, if_neg Bool.false_ne_true]
      simp only [reduceCtorEq, false_implies, and_true, forall_const]
      rcases Nat.lt_or_ge c.limit (c.pending older + c.amount a) with h | h
      · rw [add_of_lt h]
        omega
      · rw [add_of_le h]
        omega

end Consumer

/-- As long as nothing is lost, the pending value is the plain sum of what was held back
since the last delivery. -/
theorem pending_eq_sum {consume : ℕ → α → ℕ} {items : List α} (h : c.Exact consume items) :
    c.pending items = c.total (items.takeWhile fun a => !c.delivered a) := by
  induction items with
  | nil => rfl
  | cons a older ih =>
    obtain ⟨hold,hheld,-⟩ := h
    cases hd : c.delivered a with
    | true =>
      rw [c.pending_of_delivered hd, List.takeWhile_cons_of_neg (by simp [hd])]
      rfl
    | false =>
      rw [c.pending_of_heldBack hd, List.takeWhile_cons_of_pos (by simp [hd]), total_cons, ← ih hold,
        add_of_le (hheld hd), Nat.add_comm]

/-- Only what is held back moves the pending value. -/
theorem pending_congr {b : DeferredCounter α} (hlimit : b.limit = c.limit) (hdelivered : b.delivered = c.delivered)
    {items : List α} (hamount : ∀ a ∈ items, c.delivered a = false → b.amount a = c.amount a) :
    b.pending items = c.pending items := by
  induction items with
  | nil => rfl
  | cons a older ih =>
    have hold := ih fun x hx => hamount x (List.mem_cons_of_mem a hx)
    cases hd : c.delivered a with
    | true => rw [c.pending_of_delivered hd, b.pending_of_delivered (by rw [hdelivered, hd])]
    | false =>
      rw [c.pending_of_heldBack hd, b.pending_of_heldBack (by rw [hdelivered, hd]), hold, hlimit,
        hamount a List.mem_cons_self hd]

end DeferredCounter

end Retina
