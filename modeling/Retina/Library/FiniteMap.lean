import Mathlib

/-! # Finite maps with one type of values

What a lookup says after an update, sums over the values, and orders in which the
keys are visited.
-/
namespace Retina.FiniteMap
variable {α β : Type*} [DecidableEq α]

theorem lookup_of_erase {m : Finmap (fun _ : α => β)} {a k : α} {b : β} (h : (m.erase a).lookup k = some b) :
    k ≠ a ∧ m.lookup k = some b := by
  by_cases hk : k = a
  · rw [hk, Finmap.lookup_erase] at h
    cases h
  · rw [Finmap.lookup_erase_ne hk] at h
    exact ⟨hk,h⟩

theorem lookup_of_insert {m : Finmap (fun _ : α => β)} {a k : α} {b c : β} (h : (m.insert a c).lookup k = some b) :
    k = a ∧ c = b ∨ k ≠ a ∧ m.lookup k = some b := by
  by_cases hk : k = a
  · rw [hk, Finmap.lookup_insert] at h
    exact .inl ⟨hk,Option.some.inj h⟩
  · rw [Finmap.lookup_insert_of_ne _ hk] at h
    exact .inr ⟨hk,h⟩

/-- A symmetric relation between the values of any two keys is kept if the new value is related to the others. -/
theorem pairwise_insert {m : Finmap (fun _ : α => β)} {R : β → β → Prop} (hsymm : ∀ a b, R a b → R b a)
    (h : ∀ k l a b, k ≠ l → m.lookup k = some a → m.lookup l = some b → R a b) {key : α} {c : β}
    (hnew : ∀ k a, k ≠ key → m.lookup k = some a → R a c) :
    ∀ k l a b, k ≠ l → (m.insert key c).lookup k = some a → (m.insert key c).lookup l = some b → R a b := by
  intro k l a b hne ha hb
  rcases lookup_of_insert ha with ⟨hk,rfl⟩ | ⟨hk,hka⟩
  · rcases lookup_of_insert hb with ⟨hl,rfl⟩ | ⟨hl,hlb⟩
    · exact absurd (hk.trans hl.symm) hne
    · exact hsymm b c (hnew l b hl hlb)
  · rcases lookup_of_insert hb with ⟨hl,rfl⟩ | ⟨-,hlb⟩
    · exact hnew k a hk hka
    · exact h k l a b hne hka hlb

theorem lookup_insert_eq_ite (m : Finmap (fun _ : α => β)) (a k : α) (b : β) :
    (m.insert a b).lookup k = if k = a then some b else m.lookup k := by
  by_cases h : k = a
  · subst h
    simp
  · simp [h, Finmap.lookup_insert_of_ne _ h]

theorem lookup_erase_eq_ite (m : Finmap (fun _ : α => β)) (a k : α) :
    (m.erase a).lookup k = if k = a then none else m.lookup k := by
  by_cases h : k = a
  · subst h
    simp
  · simp [h, Finmap.lookup_erase_ne h]

theorem lookup_foldl_erase (m : Finmap (fun _ : α => β)) (keys : List α) (k : α) :
    (keys.foldl (fun m a => m.erase a) m).lookup k = if k ∈ keys then none else m.lookup k := by
  induction keys generalizing m with
  | nil => simp
  | cons a keys ih =>
    rw [List.foldl_cons, ih, lookup_erase_eq_ite]
    by_cases hk : k ∈ keys <;> by_cases ha : k = a <;> simp [hk, ha]

theorem lookup_foldl_insert (m : Finmap (fun _ : α => β)) (b : β) (keys : List α) (k : α) :
    (keys.foldl (fun m a => m.insert a b) m).lookup k = if k ∈ keys then some b else m.lookup k := by
  induction keys generalizing m with
  | nil => simp
  | cons a keys ih =>
    rw [List.foldl_cons, ih, lookup_insert_eq_ite]
    by_cases hk : k ∈ keys <;> by_cases ha : k = a <;> simp [hk, ha]

/-- A loop over the entries of a map that inserts them into another one. -/
theorem lookup_foldl_insert_lookup (m acc : Finmap (fun _ : α => β)) (keys : List α) (k : α) :
    (keys.foldl (fun acc a => (m.lookup a).elim acc (acc.insert a)) acc).lookup k =
      if k ∈ keys then (m.lookup k).or (acc.lookup k) else acc.lookup k := by
  induction keys generalizing acc with
  | nil => simp
  | cons a keys ih =>
    rw [List.foldl_cons, ih]
    by_cases ha : k = a
    · subst ha
      cases hm : m.lookup k with
      | none => simp
      | some b => by_cases hk : k ∈ keys <;> simp [hk]
    · have hacc : ((m.lookup a).elim acc (acc.insert a)).lookup k = acc.lookup k := by
        cases m.lookup a with
        | none => rfl
        | some b => exact Finmap.lookup_insert_of_ne acc ha
      simp [hacc, ha]

/-- The whole map is copied, whatever order its keys are visited in. -/
theorem foldl_insert_lookup {m : Finmap (fun _ : α => β)} {keys : List α} (hkeys : ∀ k, k ∈ keys ↔ k ∈ m) :
    keys.foldl (fun acc a => (m.lookup a).elim acc (acc.insert a)) ∅ = m := by
  refine Finmap.ext_lookup fun k => ?_
  rw [lookup_foldl_insert_lookup]
  by_cases hk : k ∈ m
  · simp [(hkeys k).mpr hk]
  · simp [mt (hkeys k).mp hk, Finmap.lookup_eq_none.mpr hk]

def sum (f : β → ℕ) (m : Finmap (fun _ : α => β)) : ℕ := (m.entries.map fun entry => f entry.2).sum

theorem sum_insert_of_none (f : β → ℕ) {m : Finmap (fun _ : α => β)} {a : α} (b : β)
    (h : m.lookup a = none) : sum f (m.insert a b) = f b + sum f m := by
  rw [sum, Finmap.entries_insert_of_notMem (Finmap.lookup_eq_none.mp h), Multiset.map_cons,
    Multiset.sum_cons]
  rfl

theorem insert_erase (m : Finmap (fun _ : α => β)) (a : α) (b : β) :
    (m.erase a).insert a b = m.insert a b := by
  apply Finmap.ext_lookup
  intro x
  by_cases h : x = a
  · subst x
    rw [Finmap.lookup_insert, Finmap.lookup_insert]
  · rw [Finmap.lookup_insert_of_ne _ h, Finmap.lookup_insert_of_ne _ h, Finmap.lookup_erase_ne h]

theorem erase_insert {m : Finmap (fun _ : α => β)} {a : α} (h : a ∉ m) (b : β) : (m.insert a b).erase a = m := by
  apply Finmap.ext_lookup
  intro x
  rw [lookup_erase_eq_ite]
  split_ifs with hx
  · rw [hx, Finmap.lookup_eq_none.mpr h]
  · rw [Finmap.lookup_insert_of_ne _ hx]

@[simp] theorem erase_empty (a : α) : (∅ : Finmap (fun _ : α => β)).erase a = ∅ := by
  apply Finmap.ext_lookup
  intro x
  rw [lookup_erase_eq_ite, Finmap.lookup_empty, ite_self]

theorem insert_lookup {m : Finmap (fun _ : α => β)} {a : α} {b : β} (h : m.lookup a = some b) :
    m.insert a b = m := by
  apply Finmap.ext_lookup
  intro x
  by_cases hx : x = a
  · subst x
    rw [Finmap.lookup_insert, h]
  · rw [Finmap.lookup_insert_of_ne _ hx]

theorem sum_erase (f : β → ℕ) {m : Finmap (fun _ : α => β)} {a : α} {b : β} (h : m.lookup a = some b) :
    f b + sum f (m.erase a) = sum f m := by
  rw [← sum_insert_of_none f b (Finmap.lookup_erase a m), insert_erase, insert_lookup h]

theorem sum_insert_of_some (f : β → ℕ) {m : Finmap (fun _ : α => β)} {a : α} {b : β} (b' : β)
    (h : m.lookup a = some b) : f b + sum f (m.insert a b') = f b' + sum f m := by
  have he := sum_erase f h
  have hi := sum_insert_of_none f b' (Finmap.lookup_erase a m)
  rw [insert_erase] at hi
  omega

omit [DecidableEq α] in
theorem filter_append_filter_perm {p q : β → Bool} (h : ∀ x, p x = true → q x = false) (xs : List β) :
    (xs.filter p ++ xs.filter q).Perm (xs.filter fun x => p x || q x) := by
  induction xs with
  | nil => exact .refl _
  | cons x xs ih =>
    by_cases hp : p x = true
    · simpa [hp, h x hp] using ih
    · by_cases hq : q x = true
      · simpa [hp, hq] using List.perm_middle.trans (ih.cons x)
      · simpa [hp, hq] using ih

/-- Listing one key after the other visits what has one of the keys. -/
theorem flatMap_filter_perm (f : β → α) (q : β → Bool) (xs : List β) {ks : List α}
    (hks : ks.Nodup) :
    (ks.flatMap fun k => xs.filter fun x => f x = k && q x).Perm (xs.filter fun x => q x && ks.contains (f x)) := by
  induction ks with
  | nil => simp
  | cons k ks ih =>
    obtain ⟨hk,hks⟩ := List.nodup_cons.mp hks
    rw [List.flatMap_cons]
    refine ((ih hks).append_left _).trans ?_
    refine (filter_append_filter_perm ?_ xs).trans (List.Perm.of_eq (List.filter_congr ?_))
    · intro x hx
      have hfx : f x = k := by simpa using (Bool.and_eq_true_iff.mp hx).1
      simp [hfx, hk]
    · intro x _
      by_cases hfx : f x = k <;> simp [hfx, hk]

/-- An iteration over a map visits each key once, in an order of its own. -/
structure Order (α : Type*) where
  list : Finset α → List α
  mem_list : ∀ s a, a ∈ list s ↔ a ∈ s
  nodup_list : ∀ s, (list s).Nodup

omit [DecidableEq α] in
@[simp] theorem Order.list_empty (order : Order α) : order.list ∅ = [] := by
  refine List.eq_nil_iff_forall_not_mem.mpr ?_
  intro a h
  exact absurd ((order.mem_list ∅ a).mp h) (Finset.notMem_empty a)

omit [DecidableEq α] in
@[simp] theorem Order.list_singleton (order : Order α) (a : α) : order.list {a} = [a] := by
  have hperm : (order.list {a}).Perm [a] :=
    (List.perm_ext_iff_of_nodup (order.nodup_list {a}) (List.nodup_singleton a)).mpr fun b => by simp [order.mem_list]
  exact List.perm_singleton.mp hperm

noncomputable def Order.arbitrary (α : Type*) : Order α where
  list s := s.toList
  mem_list _ _ := Finset.mem_toList
  nodup_list s := s.nodup_toList

end Retina.FiniteMap
