import Mathlib

/-! # Values handed over in slots

A call leaves a value in a slot when it begins and takes it out when it ends. Several calls may
be under way. Each one finds its own value again as long as no two of them use one slot.
-/
namespace Retina.Handover
variable {γ σ β : Type*} [DecidableEq σ] (slot : γ → σ) (value : γ → β)

structure Paired (slots : σ → Option β) (pending : List γ) : Prop where
  holds : ∀ c ∈ pending, slots (slot c) = some (value c)
  apart : pending.Pairwise fun c d => slot c ≠ slot d

variable {slot value} {slots : σ → Option β} {pending earlier : List γ} {c : γ}

omit [DecidableEq σ] in
theorem paired_nil (slots : σ → Option β) : Paired slot value slots [] where
  holds _ hc := absurd hc List.not_mem_nil
  apart := List.Pairwise.nil

theorem Paired.enter (h : Paired slot value slots pending) (hc : ∀ d ∈ pending, slot d ≠ slot c) :
    Paired slot value (Function.update slots (slot c) (some (value c))) (c :: pending) where
  holds d hd := by
    rcases List.mem_cons.mp hd with rfl | hd
    · exact Function.update_self ..
    · rw [Function.update_of_ne (hc d hd)]
      exact h.holds d hd
  apart := List.pairwise_cons.mpr ⟨fun d hd => (hc d hd).symm,h.apart⟩

omit [DecidableEq σ] in
theorem Paired.ne_of_mem (h : Paired slot value slots (earlier ++ c :: pending)) {d : γ} (hd : d ∈ earlier ++ pending) :
    slot d ≠ slot c := by
  obtain ⟨_,hlater,hboth⟩ := List.pairwise_append.mp h.apart
  rcases List.mem_append.mp hd with hd | hd
  · exact hboth d hd c List.mem_cons_self
  · exact ((List.pairwise_cons.mp hlater).1 d hd).symm

theorem Paired.leave (h : Paired slot value slots (earlier ++ c :: pending)) :
    Paired slot value (Function.update slots (slot c) none) (earlier ++ pending) where
  holds d hd := by
    rw [Function.update_of_ne (h.ne_of_mem hd)]
    refine h.holds d ?_
    rcases List.mem_append.mp hd with hd | hd
    · exact List.mem_append_left _ hd
    · exact List.mem_append_right _ (List.mem_cons_of_mem c hd)
  apart := h.apart.sublist ((List.sublist_cons_self c pending).append_left earlier)

end Retina.Handover
