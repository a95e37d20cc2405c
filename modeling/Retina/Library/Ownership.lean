import Retina.Library.Execution

/-! # Exclusive ownership of addresses

A registry holds objects under their identities, and an object comes with the
addresses that it claims. Publishing an object takes its addresses over: every
other object that claims one of them leaves the registry.
-/
namespace Retina.Ownership
variable {ι ω α : Type*} (addrs : ω → List α)

inductive Event (ι ω : Type*) where
  | publish (i : ι) (o : ω)
  | withdraw (i : ι)

def Owns (r : ι → Option ω) (i : ι) (a : α) : Prop := ∃ o, r i = some o ∧ a ∈ addrs o

def Exclusive (r : ι → Option ω) : Prop := ∀ ⦃i j a⦄, Owns addrs r i a → Owns addrs r j a → i = j

open Classical in
noncomputable def publish (r : ι → Option ω) (i : ι) (o : ω) (j : ι) : Option ω :=
  if j = i then some o else if ∃ a ∈ addrs o, Owns addrs r j a then none else r j

open Classical in
noncomputable def withdraw (r : ι → Option ω) (i j : ι) : Option ω := if j = i then none else r j

noncomputable def step (r : ι → Option ω) : Event ι ω → ι → Option ω
  | .publish i o => publish addrs r i o
  | .withdraw i => withdraw r i

def latest [DecidableEq α] (a : α) (events : List (Event ι ω)) : Option (ι × ω) :=
  events.foldl (fun last e => match e with
    | .publish i o => if a ∈ addrs o then some (i,o) else last
    | .withdraw _ => last) none

variable {addrs} {r r' : ι → Option ω} {i j : ι} {a : α}

theorem owns_of_shrinks (h : ∀ j, r' j = r j ∨ r' j = none) (ho : Owns addrs r' j a) : Owns addrs r j a := by
  obtain ⟨o,hj,ha⟩ := ho
  rcases h j with h | h
  · exact ⟨o,h ▸ hj,ha⟩
  · simp [h] at hj

theorem Exclusive.of_shrinks (hr : Exclusive addrs r) (h : ∀ j, r' j = r j ∨ r' j = none) :
    Exclusive addrs r' :=
  fun _ _ _ hi hj => hr (owns_of_shrinks h hi) (owns_of_shrinks h hj)

theorem publish_self (r : ι → Option ω) (i : ι) (o : ω) : publish addrs r i o i = some o := by simp [publish]

theorem publish_evicts {o : ω} (hj : j ≠ i) (ha : a ∈ addrs o) (ho : Owns addrs r j a) :
    publish addrs r i o j = none := by
  simp only [publish, if_neg hj]
  exact if_pos ⟨a,ha,ho⟩

theorem publish_keeps {o : ω} (hj : j ≠ i) (h : ∀ a ∈ addrs o, ¬Owns addrs r j a) :
    publish addrs r i o j = r j := by
  simp only [publish, if_neg hj]
  exact if_neg fun ⟨a,ha,ho⟩ => h a ha ho

theorem owns_publish_of_ne {o : ω} (hj : j ≠ i) (ho : Owns addrs (publish addrs r i o) j a) :
    a ∉ addrs o ∧ Owns addrs r j a := by
  obtain ⟨x,hx,ha⟩ := ho
  by_cases h : ∃ b ∈ addrs o, Owns addrs r j b
  · obtain ⟨b,hb,hob⟩ := h
    simp [publish_evicts hj hb hob] at hx
  · have hkeep := publish_keeps hj fun b hb hob => h ⟨b,hb,hob⟩
    have hown : Owns addrs r j a := ⟨x,hkeep ▸ hx,ha⟩
    exact ⟨fun hao => h ⟨a,hao,hown⟩,hown⟩

theorem Exclusive.publish (hr : Exclusive addrs r) (i : ι) (o : ω) : Exclusive addrs (publish addrs r i o) := by
  have owned : ∀ j a, j ≠ i → Owns addrs (Ownership.publish addrs r i o) j a →
      ¬Owns addrs (Ownership.publish addrs r i o) i a := by
    rintro j a hj ho ⟨x,hx,ha⟩
    rw [publish_self] at hx
    cases hx
    exact (owns_publish_of_ne hj ho).1 ha
  intro j k a hj hk
  by_cases hji : j = i
  · subst hji
    by_contra hne
    exact owned k a (Ne.symm hne) hk hj
  · by_cases hki : k = i
    · subst hki
      exact absurd hk (owned j a hji hj)
    · exact hr (owns_publish_of_ne hji hj).2 (owns_publish_of_ne hki hk).2

theorem withdraw_shrinks (r : ι → Option ω) (i j : ι) : withdraw r i j = r j ∨ withdraw r i j = none := by
  by_cases h : j = i <;> simp [withdraw, h]

section Latest
variable [DecidableEq α]

theorem latest_concat_publish (a : α) (events : List (Event ι ω)) (i : ι) (o : ω) :
    latest addrs a (events ++ [.publish i o]) = if a ∈ addrs o then some (i,o) else latest addrs a events := by
  simp [latest]

theorem latest_concat_withdraw (a : α) (events : List (Event ι ω)) (i : ι) :
    latest addrs a (events ++ [.withdraw i]) = latest addrs a events := by simp [latest]

theorem mem_of_latest {events : List (Event ι ω)} {o : ω} (h : latest addrs a events = some (i,o)) :
    a ∈ addrs o := by
  induction events using List.reverseRecOn with
  | nil => simp [latest] at h
  | append_singleton events e ih =>
    cases e with
    | publish k x =>
      rw [latest_concat_publish] at h
      split at h
      · cases h
        assumption
      · exact ih h
    | withdraw k =>
      rw [latest_concat_withdraw] at h
      exact ih h

/-- Whoever owns an address is the last that was published with it. -/
theorem latest_of_owner (events : List (Event ι ω)) {o : ω}
    (hi : Execution.run (step addrs) (fun _ => none) events i = some o) (ha : a ∈ addrs o) :
    latest addrs a events = some (i,o) := by
  induction events using List.reverseRecOn generalizing i o with
  | nil => simp [Execution.run] at hi
  | append_singleton events e ih =>
    rw [Execution.run_append] at hi
    set r := Execution.run (step addrs) (fun _ => none) events with hr
    cases e with
    | publish k x =>
      rw [latest_concat_publish]
      by_cases hik : i = k
      · subst hik
        have hx : some x = some o := (publish_self r i x).symm.trans hi
        cases hx
        exact if_pos ha
      · have hown : Owns addrs (publish addrs r k x) i a := ⟨o,hi,ha⟩
        obtain ⟨hax,y,hy,-⟩ := owns_publish_of_ne hik hown
        rw [if_neg hax]
        refine ih ?_ ha
        rw [← hi]
        symm
        apply publish_keeps hik
        intro b hb hob
        have hnone := publish_evicts hik hb hob
        have hsome : publish addrs r k x i = some o := hi
        simp [hnone] at hsome
    | withdraw k =>
      rw [latest_concat_withdraw]
      refine ih ?_ ha
      have hsome : withdraw r k i = some o := hi
      rcases withdraw_shrinks r k i with h | h
      · exact h ▸ hsome
      · simp [h] at hsome

end Latest

end Retina.Ownership
