import Mathlib

/-! # Names that can be taken once

A registrar takes a name unless it has taken it before. A loop that registers a name in some of its rounds goes through if and only if
no name comes twice and none was taken before; apart from the names it does what it would do without them.
-/
namespace Retina

/-- Whether a name is taken, given the names that have been taken before. -/
structure Registrar (κ : Type*) where
  accepts : Finset κ → κ → Bool
  refuses_taken : ∀ {taken k}, k ∈ taken → accepts taken k = false
  accepts_new : ∀ {taken k}, k ∉ taken → accepts taken k = true

namespace Registrar
variable {κ ε σ : Type*} [DecidableEq κ]

def once : Registrar κ where
  accepts taken k := decide (k ∉ taken)
  refuses_taken h := decide_eq_false (not_not_intro h)
  accepts_new h := decide_eq_true h

def claim (r : Registrar κ) (taken : Finset κ) : Option κ → Option (Finset κ)
  | none => some taken
  | some k => if r.accepts taken k then some (insert k taken) else none

def Available (taken : Finset κ) (names : List κ) : Prop := names.Nodup ∧ ∀ k ∈ names, k ∉ taken

omit [DecidableEq κ] in
theorem available_nil (taken : Finset κ) : Available taken [] := ⟨List.nodup_nil,by simp⟩

theorem available_cons {taken : Finset κ} {k : κ} {names : List κ} :
    Available taken (k :: names) ↔ k ∉ taken ∧ Available (insert k taken) names := by
  simp only [Available, List.nodup_cons, List.forall_mem_cons, Finset.mem_insert, not_or]
  constructor
  · rintro ⟨⟨hk,hnodup⟩,hfree,hrest⟩
    exact ⟨hfree,hnodup,fun x hx => ⟨fun h => hk (h ▸ hx),hrest x hx⟩⟩
  · rintro ⟨hfree,hnodup,hrest⟩
    exact ⟨⟨fun hk => (hrest k hk).1 rfl,hnodup⟩,hfree,fun x hx => (hrest x hx).2⟩

omit [DecidableEq κ] in
/-- The names that a list without repetition asks for are distinct if no two of its members ask for one name. -/
theorem nodup_filterMap_iff {events : List ε} (h : events.Nodup) (name : ε → Option κ) :
    (events.filterMap name).Nodup ↔ ∀ e ∈ events, ∀ e' ∈ events, e ≠ e' → ∀ k, name e = some k → name e' ≠ some k := by
  rw [List.Nodup, List.pairwise_filterMap]
  constructor
  · intro hpair e he e' he' hne k hk hk'
    have : Std.Symm fun e e' => ∀ k, name e = some k → ∀ k', name e' = some k' → k ≠ k' :=
      ⟨fun _ _ hdiff k hk k' hk' => (hdiff k' hk' k hk).symm⟩
    exact hpair.forall he he' hne k hk k hk' rfl
  · intro hall
    refine h.pairwise_of_forall_ne fun e he e' he' hne k hk k' hk' => ?_
    rintro rfl
    exact hall e he e' he' hne k hk hk'

section Loop
variable (r : Registrar κ) (step : σ → ε → σ) {name : ε → Option κ} {body : σ × Finset κ → ε → Option (σ × Finset κ)}

theorem foldlM_of_available {events : List ε}
    (hbody : ∀ p, ∀ e ∈ events, body p e = (r.claim p.2 (name e)).map (step p.1 e,·)) (s : σ) {taken : Finset κ}
    (h : Available taken (events.filterMap name)) :
    events.foldlM body (s,taken) = some (events.foldl step s,taken ∪ (events.filterMap name).toFinset) := by
  induction events generalizing s taken with
  | nil => simp
  | cons e events ih =>
    obtain ⟨hfirst,hrest⟩ := List.forall_mem_cons.mp (fun e he p => hbody p e he)
    rw [List.foldlM_cons, hfirst]
    cases hname : name e with
    | none =>
      rw [List.filterMap_cons_none hname] at h ⊢
      exact ih (fun p e he => hrest e he p) _ h
    | some k =>
      rw [List.filterMap_cons_some hname] at h ⊢
      obtain ⟨hfree,h⟩ := available_cons.mp h
      simp only [claim, r.accepts_new hfree, if_true, Option.map_some]
      refine (ih (fun p e he => hrest e he p) _ h).trans ?_
      rw [List.toFinset_cons, Finset.union_insert, Finset.insert_union]
      rfl

theorem foldlM_of_not_available {events : List ε}
    (hbody : ∀ p, ∀ e ∈ events, body p e = (r.claim p.2 (name e)).map (step p.1 e,·)) (s : σ) {taken : Finset κ}
    (h : ¬Available taken (events.filterMap name)) : events.foldlM body (s,taken) = none := by
  induction events generalizing s taken with
  | nil => exact absurd (available_nil taken) h
  | cons e events ih =>
    obtain ⟨hfirst,hrest⟩ := List.forall_mem_cons.mp (fun e he p => hbody p e he)
    rw [List.foldlM_cons, hfirst]
    cases hname : name e with
    | none =>
      rw [List.filterMap_cons_none hname] at h
      exact ih (fun p e he => hrest e he p) _ h
    | some k =>
      rw [List.filterMap_cons_some hname, available_cons] at h
      by_cases hfree : k ∈ taken
      · simp [claim, r.refuses_taken hfree]
      · simp only [claim, r.accepts_new hfree, if_true, Option.map_some]
        exact ih (fun p e he => hrest e he p) _ fun hrest => h ⟨hfree,hrest⟩

end Loop
end Registrar
end Retina
