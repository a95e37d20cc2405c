import Retina.Library.Execution

/-! # An index from addresses to their owners

Each key is assigned a list of addresses, and an index gives the owner of an address. An
assignment first takes the old addresses of its key out of the index, whoever they are indexed
to, and then indexes the new ones.
-/
namespace Retina.ReverseIndex
open Execution
variable {κ α : Type*} [DecidableEq κ] [DecidableEq α]

structure State (κ α : Type*) where
  claims : κ → List α
  owner : α → Option κ

def State.empty : State κ α := ⟨fun _ => [],fun _ => none⟩

def assign (s : State κ α) (e : κ × List α) : State κ α where
  claims := Function.update s.claims e.1 e.2
  owner a := if a ∈ e.2 then some e.1 else if a ∈ s.claims e.1 then none else s.owner a

/-- The index is the inverse of the assignment. -/
def Consistent (s : State κ α) : Prop := ∀ a k, s.owner a = some k ↔ a ∈ s.claims k

def Exclusive (claims : κ → List α) : Prop := ∀ ⦃k l a⦄, a ∈ claims k → a ∈ claims l → k = l

/-- Whenever a key gives up an address, the key that has it in the end is still to be assigned again. -/
def Undisturbed (events : List (κ × List α)) : Prop :=
  ∀ before e after, events = before ++ e :: after →
    ∀ a, a ∈ (run assign State.empty before).claims e.1 → a ∉ e.2 →
      ∀ k, a ∈ (run assign State.empty events).claims k → ∃ e' ∈ after, e'.1 = k

theorem claims_assign (s : State κ α) (e : κ × List α) (k : κ) :
    (assign s e).claims k = if k = e.1 then e.2 else s.claims k := Function.update_apply s.claims e.1 e.2 k

theorem eq_assign {s t : State κ α} {e : κ × List α} (hclaims : ∀ k, t.claims k = if k = e.1 then e.2 else s.claims k)
    (howner : ∀ a, t.owner a = if a ∈ e.2 then some e.1 else if a ∈ s.claims e.1 then none else s.owner a) :
    t = assign s e := by
  obtain ⟨claims,owner⟩ := t
  rw [assign, State.mk.injEq]
  refine ⟨funext fun k => ?_,funext howner⟩
  rw [Function.update_apply]
  exact hclaims k

theorem claims_run_of_forall_ne {k : κ} {events : List (κ × List α)} (h : ∀ e ∈ events, e.1 ≠ k) (s : State κ α) :
    (run assign s events).claims k = s.claims k := by
  induction events generalizing s with
  | nil => rfl
  | cons e events ih =>
    rw [run_cons, ih (fun e' he' => h e' (List.mem_cons_of_mem e he')), claims_assign,
      if_neg (h e List.mem_cons_self).symm]

/-- The addresses of a key only depend on its own assignments. -/
theorem claims_run_filter (k : κ) (events : List (κ × List α)) {s t : State κ α} (h : s.claims k = t.claims k) :
    (run assign s events).claims k = (run assign t (events.filter fun e => e.1 = k)).claims k := by
  induction events generalizing s t with
  | nil => exact h
  | cons e events ih =>
    by_cases hk : e.1 = k
    · rw [List.filter_cons_of_pos (by simpa using hk), run_cons, run_cons]
      refine ih ?_
      rw [claims_assign, claims_assign, if_pos hk.symm, if_pos hk.symm]
    · rw [List.filter_cons_of_neg (by simpa using hk), run_cons]
      refine ih ?_
      rw [claims_assign, if_neg (Ne.symm hk), h]

/-- An indexed owner always has the address. -/
theorem claims_of_owner (events : List (κ × List α)) {a : α} {k : κ}
    (h : (run assign State.empty events).owner a = some k) : a ∈ (run assign State.empty events).claims k := by
  induction events using List.reverseRecOn generalizing a k with
  | nil => cases h
  | append_singleton events e ih =>
    rw [run_append] at h ⊢
    change (assign (run assign State.empty events) e).owner a = some k at h
    change a ∈ (assign (run assign State.empty events) e).claims k
    rw [claims_assign]
    simp only [assign] at h
    split_ifs at h with hnew hold
    · cases h
      rwa [if_pos rfl]
    · have hclaims := ih h
      split_ifs with hk
      · rw [hk] at hclaims
        exact absurd hclaims hold
      · exact hclaims

/-- An address that a key has and loses is given up in one of its assignments. -/
theorem exists_given_up {k : κ} {a : α} (events : List (κ × List α)) (s : State κ α) (h : a ∈ s.claims k)
    (hnot : a ∉ (run assign s events).claims k) :
    ∃ before e after, events = before ++ e :: after ∧ e.1 = k ∧ a ∈ (run assign s before).claims k ∧ a ∉ e.2 := by
  induction events generalizing s with
  | nil => exact absurd h hnot
  | cons e events ih =>
    by_cases hk : e.1 = k ∧ a ∉ e.2
    · exact ⟨[],e,events,rfl,hk.1,h,hk.2⟩
    · have hkept : a ∈ (assign s e).claims k := by
        rw [claims_assign]
        split_ifs with hek
        · by_contra ha
          exact hk ⟨hek.symm,ha⟩
        · exact h
      obtain ⟨before,e',after,rfl,hek,hbefore,ha⟩ := ih (assign s e) hkept hnot
      exact ⟨e :: before,e',after,rfl,hek,hbefore,ha⟩

/-- Only an assignment of the key itself can index an address to it. -/
theorem owner_run_ne {k : κ} {a : α} {events : List (κ × List α)} (hne : ∀ e ∈ events, e.1 ≠ k) {s : State κ α}
    (h : s.owner a ≠ some k) : (run assign s events).owner a ≠ some k := by
  induction events generalizing s with
  | nil => exact h
  | cons e events ih =>
    refine ih (fun e' he' => hne e' (List.mem_cons_of_mem e he')) ?_
    simp only [assign]
    split_ifs
    · exact fun heq => hne e List.mem_cons_self (Option.some.inj heq)
    · exact fun heq => by cases heq
    · exact h

/-- Ahead of the rest of the events, the keys that are not assigned again are indexed. -/
theorem owner_of_undisturbed {events : List (κ × List α)} (hexclusive : Exclusive (run assign State.empty events).claims)
    (hundisturbed : Undisturbed events) (before after : List (κ × List α)) (hevents : events = before ++ after) {k : κ}
    {a : α} (hk : ∀ e ∈ after, e.1 ≠ k) (ha : a ∈ (run assign State.empty events).claims k) :
    (run assign State.empty before).owner a = some k := by
  induction before using List.reverseRecOn generalizing after with
  | nil =>
    rw [hevents, List.nil_append, claims_run_of_forall_ne hk] at ha
    cases ha
  | append_singleton before e ih =>
    rw [List.append_assoc, List.singleton_append] at hevents
    have hclaims : a ∈ (assign (run assign State.empty before) e).claims k := by
      rwa [hevents, run_append, run_cons, claims_run_of_forall_ne hk] at ha
    rw [run_append]
    change (assign (run assign State.empty before) e).owner a = some k
    by_cases hek : e.1 = k
    · rw [claims_assign, if_pos hek.symm] at hclaims
      simp only [assign]
      rw [if_pos hclaims, hek]
    · have howner := ih (e :: after) hevents (List.forall_mem_cons.mpr ⟨hek,hk⟩)
      -- another key that takes the address would have to give it up again
      have hnew : a ∉ e.2 := by
        intro hnew
        have hgained : a ∈ (assign (run assign State.empty before) e).claims e.1 := by rwa [claims_assign, if_pos rfl]
        have hlost : a ∉ (run assign (assign (run assign State.empty before) e) after).claims e.1 := by
          intro hkept
          rw [hevents] at ha hexclusive
          rw [run_append, run_cons] at ha hexclusive
          exact hek (hexclusive hkept ha)
        obtain ⟨between,e',rest,rfl,hsame,hbetween,hgiven⟩ := exists_given_up after _ hgained hlost
        have hsplit : events = (before ++ e :: between) ++ e' :: rest := by
          rw [hevents, List.append_assoc, List.cons_append]
        have hhad : a ∈ (run assign State.empty (before ++ e :: between)).claims e'.1 := by
          rwa [run_append, run_cons, hsame]
        obtain ⟨e'',he'',hagain⟩ := hundisturbed _ e' rest hsplit a hhad hgiven k ha
        exact hk e'' (List.mem_append_right _ (List.mem_cons_of_mem _ he'')) hagain
      have hold : a ∉ (run assign State.empty before).claims e.1 := by
        intro hold
        obtain ⟨e',he',hagain⟩ := hundisturbed before e after hevents a hold hnew k ha
        exact hk e' he' hagain
      simp only [assign]
      rw [if_neg hnew, if_neg hold, howner]

/-- The index ends up as the inverse of the assignment exactly if no key is disturbed after its last
assignment. -/
theorem consistent_iff {events : List (κ × List α)} (hexclusive : Exclusive (run assign State.empty events).claims) :
    Consistent (run assign State.empty events) ↔ Undisturbed events := by
  constructor
  · intro hconsistent before e after hevents a hold hnew k ha
    by_contra hnone
    have hne : ∀ e' ∈ after, e'.1 ≠ k := fun e' he' heq => hnone ⟨e',he',heq⟩
    have howner : (assign (run assign State.empty before) e).owner a ≠ some k := by
      simp only [assign]
      rw [if_neg hnew, if_pos hold]
      exact fun heq => by cases heq
    have hlast := owner_run_ne hne howner
    rw [hevents] at ha hconsistent
    rw [run_append, run_cons] at ha hconsistent
    exact hlast ((hconsistent a k).mpr ha)
  · intro hundisturbed a k
    constructor
    · exact claims_of_owner events
    · exact owner_of_undisturbed hexclusive hundisturbed events [] (List.append_nil events).symm (by simp)

end Retina.ReverseIndex
