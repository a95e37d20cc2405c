import Mathlib

/-! # Retained events

A ring keeps the last events that were written to it. The events are numbered from the
first one on, and a reader is the number of the event that it reads next. Which events the
ring still has, and when it hands one out, is its own affair: a user of the ring relies on
the laws below only.
-/
namespace Retina
variable {α : Type*}

structure Ring (α : Type*) where
  capacity : ℕ
  written : List α := []

/-- A reader that was overtaken passes over some events and is told of a number of lost ones. -/
inductive Ring.Read (α : Type*)
  | event (a : α)
  | lost (passed numEventsLost : ℕ)
  | wait

/-- Where a new reader begins and what a reader gets, by the capacity and the number of events written. -/
structure Ring.Behaviour where
  oldestWrite (capacity written : ℕ) : ℕ
  next (capacity written reader : ℕ) : Ring.Read Unit
  oldestWrite_le : ∀ capacity written, oldestWrite capacity written ≤ written
  /-- Only an event that was written is handed out. -/
  event_lt : ∀ {capacity written reader}, next capacity written reader = .event () → reader < written
  /-- A reader that was overtaken does not pass over events that are still to come. -/
  lost_le : ∀ {capacity written reader passed lost},
    next capacity written reader = .lost passed lost → reader + passed ≤ written

namespace Ring
variable (b : Behaviour)

def write (r : Ring α) (a : α) : Ring α := { r with written := r.written ++ [a] }

def oldestWrite (r : Ring α) : ℕ := b.oldestWrite r.capacity r.written.length

def readFrom (r : Ring α) (reader : ℕ) : Read α :=
  match h : b.next r.capacity r.written.length reader with
  | .event () => .event (r.written.get ⟨reader,b.event_lt h⟩)
  | .lost passed numEventsLost => .lost passed numEventsLost
  | .wait => .wait

variable {b}

theorem readFrom_event {r : Ring α} {reader : ℕ} {a : α} (h : r.readFrom b reader = .event a) :
    r.written[reader]? = some a := by
  unfold readFrom at h
  split at h
  · next hnext =>
    cases h
    exact List.getElem?_eq_getElem (b.event_lt hnext)
  · cases h
  · cases h

theorem readFrom_lost {r : Ring α} {reader passed lost : ℕ} (h : r.readFrom b reader = .lost passed lost) :
    reader + passed ≤ r.written.length := by
  unfold readFrom at h
  split at h
  · cases h
  · next hnext =>
    cases h
    exact b.lost_le hnext
  · cases h

def Read.advance : Read α → ℕ
  | .event _ => 1
  | .lost passed _ => passed
  | .wait => 0

def Read.log (reads : List ℕ) (reader : ℕ) : Read α → List ℕ
  | .event _ => reads ++ [reader]
  | _ => reads

structure Passed (reads : List ℕ) (reader : ℕ) : Prop where
  ascending : reads.Pairwise (· < ·)
  below : ∀ i ∈ reads, i < reader

theorem Passed.mono {reads : List ℕ} {reader reader' : ℕ} (h : Passed reads reader) (hle : reader ≤ reader') :
    Passed reads reader' := ⟨h.ascending,fun i hi => (h.below i hi).trans_le hle⟩

theorem Passed.log {reads : List ℕ} {reader : ℕ} (h : Passed reads reader) (read : Read α) :
    Passed (read.log reads reader) (reader + read.advance) := by
  cases read with
  | event a =>
    constructor
    · refine List.pairwise_append.mpr ⟨h.ascending,List.pairwise_singleton _ _,?_⟩
      intro i hi j hj
      simpa [List.mem_singleton.mp hj] using h.below i hi
    · intro i hi
      simp only [Read.log, Read.advance, List.mem_append, List.mem_singleton] at hi ⊢
      obtain hold | hnew := hi
      · have := h.below i hold
        omega
      · omega
  | lost passed numEventsLost => exact h.mono (by omega)
  | wait => exact h

end Ring

end Retina
