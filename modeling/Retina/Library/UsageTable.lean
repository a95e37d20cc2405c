import Retina.Library.FiniteMap

/-! # A table of items by a key

A table notes when each item was last used and forgets the items that were not used for a while. It
files an item under a key. As long as an item never takes the place of another one, the table says of
each item what a function from items to times would say.
-/
namespace Retina.UsageTable
variable {κ τ : Type*} [DecidableEq κ]

structure Use (τ : Type*) where
  time : ℤ
  item : τ
deriving DecidableEq

abbrev Table (κ τ : Type*) := Finmap (fun _ : κ => Use τ)

def Due (ttl now : ℤ) (time : ℤ) : Prop := ttl ≤ now - time

instance (ttl now time : ℤ) : Decidable (Due ttl now time) := inferInstanceAs (Decidable (_ ≤ _))

def record (key : τ → κ) (table : Table κ τ) (item : τ) (now : ℤ) : Table κ τ := table.insert (key item) ⟨now,item⟩

def keepEntry (table : Table κ τ) (ttl now : ℤ) (kept : Table κ τ) (k : κ) : Table κ τ :=
  match table.lookup k with
  | none => kept
  | some u => if Due ttl now u.time then kept else kept.insert k u

def sweep (table : Table κ τ) (ttl now : ℤ) (order : FiniteMap.Order κ) : Table κ τ :=
  (order.list table.keys).foldl (keepEntry table ttl now) ∅

def dueItem (table : Table κ τ) (ttl now : ℤ) (k : κ) : Option τ :=
  (table.lookup k).bind fun u => if Due ttl now u.time then some u.item else none

def swept (table : Table κ τ) (ttl now : ℤ) (order : FiniteMap.Order κ) : List τ :=
  (order.list table.keys).filterMap (dueItem table ttl now)

def Tracks (table : Table κ τ) (item : τ) : Prop := ∃ k u, table.lookup k = some u ∧ u.item = item

/-! ## What a sweep leaves -/

def keptEntry (table : Table κ τ) (ttl now : ℤ) (k : κ) : Option (Use τ) :=
  (table.lookup k).filter fun u => ¬Due ttl now u.time

theorem lookup_keepEntry (table : Table κ τ) (ttl now : ℤ) (kept : Table κ τ) (a k : κ) :
    (keepEntry table ttl now kept a).lookup k =
      if k = a then (keptEntry table ttl now k).or (kept.lookup k) else kept.lookup k := by
  rw [keepEntry, keptEntry]
  by_cases hk : k = a
  · subst hk
    rw [if_pos rfl]
    cases table.lookup k with
    | none => rfl
    | some u => by_cases hdue : Due ttl now u.time <;> simp [hdue, Option.filter_some]
  · rw [if_neg hk]
    cases table.lookup a with
    | none => rfl
    | some u => by_cases hdue : Due ttl now u.time <;> simp [hdue, Finmap.lookup_insert_of_ne _ hk]

theorem lookup_foldl_keepEntry (table : Table κ τ) (ttl now : ℤ) (ks : List κ) (kept : Table κ τ) (k : κ) :
    (ks.foldl (keepEntry table ttl now) kept).lookup k =
      if k ∈ ks then (keptEntry table ttl now k).or (kept.lookup k) else kept.lookup k := by
  induction ks generalizing kept with
  | nil => simp
  | cons a ks ih =>
    rw [List.foldl_cons, ih, lookup_keepEntry]
    by_cases hka : k = a
    · subst hka
      by_cases hks : k ∈ ks <;> simp [hks, ← Option.or_assoc]
    · by_cases hks : k ∈ ks <;> simp [hka, hks]

theorem lookup_sweep (table : Table κ τ) (ttl now : ℤ) (order : FiniteMap.Order κ) (k : κ) :
    (sweep table ttl now order).lookup k = keptEntry table ttl now k := by
  simp only [sweep, lookup_foldl_keepEntry, order.mem_list, Finmap.mem_keys, Finmap.lookup_empty, Option.or_none]
  split
  · rfl
  · next h => rw [keptEntry, Finmap.lookup_eq_none.mpr h, Option.filter_none]

/-! ## Tables against functions -/

/-- The table says what the function says: the item was last used at the time, or it is forgotten. -/
structure Represents (key : τ → κ) (table : Table κ τ) (last : τ → Option ℤ) : Prop where
  filed : ∀ k u, table.lookup k = some u → key u.item = k
  agrees : ∀ item time, table.lookup (key item) = some ⟨time,item⟩ ↔ last item = some time

variable {key : τ → κ} {table : Table κ τ} {last : τ → Option ℤ}

theorem represents_empty : Represents key (∅ : Table κ τ) (fun _ => none) where
  filed := by simp
  agrees := by simp

theorem Represents.tracks_iff (h : Represents key table last) (item : τ) : Tracks table item ↔ last item ≠ none := by
  rw [Option.ne_none_iff_exists']
  constructor
  · rintro ⟨k,⟨time,item'⟩,hu,rfl⟩
    have hk := h.filed k _ hu
    subst hk
    exact ⟨time,(h.agrees _ _).mp hu⟩
  · rintro ⟨time,ht⟩
    exact ⟨key item,⟨time,item⟩,(h.agrees item time).mpr ht,rfl⟩

/-- No other item has the entry that the item takes. -/
def Unclaimed (key : τ → κ) (table : Table κ τ) (item : τ) : Prop :=
  ∀ u ∈ table.lookup (key item), u.item = item

theorem Represents.record [DecidableEq τ] (h : Represents key table last) {item : τ}
    (hfree : Unclaimed key table item) (now : ℤ) :
    Represents key (record key table item now) (Function.update last item (some now)) where
  filed := by
    intro k u hu
    rcases FiniteMap.lookup_of_insert hu with ⟨rfl,rfl⟩ | ⟨-,hu⟩
    · rfl
    · exact h.filed k u hu
  agrees := by
    intro item' time
    rw [UsageTable.record, FiniteMap.lookup_insert_eq_ite, Function.update_apply]
    by_cases hitem : item' = item
    · subst hitem
      simp
    · rw [if_neg hitem]
      split
      · next hkey =>
        -- The entry was free or had the item itself, so that the other item was not there.
        have hnone : last item' ≠ some time := by
          intro ht
          have hu := (h.agrees item' time).mpr ht
          rw [hkey] at hu
          exact hitem (hfree _ hu)
        have hne : (⟨now,item⟩ : Use τ) ≠ ⟨time,item'⟩ := fun he => hitem (congrArg Use.item he).symm
        simp [hnone, hne]
      · exact h.agrees item' time

/-- The other item is forgotten although it is not due. -/
theorem Represents.not_tracks_of_claimed (h : Represents key table last) {item : τ} {u : Use τ}
    (hu : table.lookup (key item) = some u) (hne : u.item ≠ item) (now : ℤ) :
    last u.item ≠ none ∧ ¬Tracks (UsageTable.record key table item now) u.item := by
  have hkey := h.filed _ _ hu
  refine ⟨(h.tracks_iff u.item).mp ⟨_,u,hu,rfl⟩,?_⟩
  rintro ⟨k,u',hu',hitem⟩
  rcases FiniteMap.lookup_of_insert hu' with ⟨-,rfl⟩ | ⟨hk,hu'⟩
  · exact hne hitem.symm
  · have hk' := h.filed _ _ hu'
    rw [hitem, hkey] at hk'
    exact hk hk'.symm

theorem Represents.sweep (h : Represents key table last) (ttl now : ℤ) (order : FiniteMap.Order κ) :
    Represents key (sweep table ttl now order) (fun item => (last item).filter fun time => ¬Due ttl now time) where
  filed := by
    intro k u hu
    rw [lookup_sweep, keptEntry, Option.filter_eq_some_iff] at hu
    exact h.filed k u hu.1
  agrees := by
    intro item time
    rw [lookup_sweep, keptEntry, Option.filter_eq_some_iff, Option.filter_eq_some_iff, h.agrees]

/-- A sweep forgets the items that are due, each of them once. -/
theorem Represents.swept (h : Represents key table last) (ttl now : ℤ) (order : FiniteMap.Order κ) :
    (swept table ttl now order).Nodup ∧
      ∀ item, item ∈ UsageTable.swept table ttl now order ↔ ∃ time ∈ last item, Due ttl now time := by
  have hdue : ∀ k item, item ∈ dueItem table ttl now k ↔
      ∃ u, table.lookup k = some u ∧ Due ttl now u.time ∧ u.item = item := by
    intro k item
    simp [dueItem, Option.bind_eq_some_iff]
  constructor
  · refine (order.nodup_list table.keys).filterMap ?_
    intro k k' item hk hk'
    obtain ⟨u,hu,-,rfl⟩ := (hdue k item).mp hk
    obtain ⟨u',hu',-,hitem⟩ := (hdue k' _).mp hk'
    rw [← h.filed k u hu, ← h.filed k' u' hu', hitem]
  · intro item
    simp only [UsageTable.swept, List.mem_filterMap, order.mem_list, Finmap.mem_keys]
    constructor
    · rintro ⟨k,-,hk⟩
      obtain ⟨⟨time,item'⟩,hu,htime,rfl⟩ := (hdue k item).mp hk
      have hkey := h.filed k _ hu
      subst hkey
      exact ⟨time,(h.agrees _ _).mp hu,htime⟩
    · rintro ⟨time,ht,htime⟩
      have hu := (h.agrees item time).mpr ht
      exact ⟨key item,Finmap.mem_of_lookup_eq_some hu,(hdue _ _).mpr ⟨_,hu,htime,rfl⟩⟩

end Retina.UsageTable
