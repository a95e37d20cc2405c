import Mathlib

/-! # A heap of arrays, and what is seen of it

Arrays of cells of several kinds, with pointers into them and slices of them. A view is what a reader sees from some
place on, together with the cells that this depends on. A copy is described by what its view reads of the heap from
before: nothing, if the copy is deep.
-/
namespace Retina.Memory
variable {K : Type} {V : K → Type} {α β γ : Type}

structure Pointer where
  base : ℕ
  index : ℕ
deriving DecidableEq

structure Slice where
  base : ℕ
  offset : ℕ
  len : ℕ
deriving DecidableEq

/-- A cell of the array with the number `base`. -/
structure Loc (K : Type) where
  kind : K
  base : ℕ
  index : ℕ

/-- The arrays from `next` on are not allocated. -/
structure Heap (V : K → Type) where
  cells : ∀ k, ℕ → ℕ → V k
  next : ℕ

namespace Heap

def get (h : Heap V) (l : Loc K) : V l.kind := h.cells l.kind l.base l.index

def read (h : Heap V) (k : K) (s : Slice) : List (V k) :=
  (List.range s.len).map fun i => h.cells k s.base (s.offset + i)

@[simp] theorem length_read (h : Heap V) (k : K) (s : Slice) : (h.read k s).length = s.len := by simp [read]

def write [DecidableEq K] (h : Heap V) (l : Loc K) (v : V l.kind) : Heap V :=
  { h with
    cells := Function.update h.cells l.kind fun b i =>
      if b = l.base ∧ i = l.index then v else h.cells l.kind b i }

theorem get_write_self [DecidableEq K] (h : Heap V) (l : Loc K) (v : V l.kind) : (h.write l v).get l = v := by
  simp [get, write]

theorem get_write_of_ne [DecidableEq K] (h : Heap V) {l l' : Loc K} (v : V l.kind) (hne : l' ≠ l) :
    (h.write l v).get l' = h.get l' := by
  obtain ⟨k,b,i⟩ := l
  obtain ⟨k',b',i'⟩ := l'
  by_cases hk : k' = k
  · subst hk
    have hbi : ¬(b' = b ∧ i' = i) := by
      rintro ⟨rfl,rfl⟩
      exact hne rfl
    simp [get, write, hbi]
  · simp [get, write, hk]

def alloc [DecidableEq K] (h : Heap V) (k : K) (xs : List (V k)) : Heap V where
  cells := Function.update h.cells k fun b i => if b = h.next then xs.getD i (h.cells k b i) else h.cells k b i
  next := h.next + 1

structure Extends (h h' : Heap V) : Prop where
  next_le : h.next ≤ h'.next
  get_eq : ∀ l : Loc K, l.base < h.next → h'.get l = h.get l

theorem Extends.refl (h : Heap V) : Extends h h := ⟨le_rfl,fun _ _ => rfl⟩

theorem Extends.trans {h h' h'' : Heap V} (h₁ : Extends h h') (h₂ : Extends h' h'') : Extends h h'' where
  next_le := h₁.next_le.trans h₂.next_le
  get_eq l hl := (h₂.get_eq l (hl.trans_le h₁.next_le)).trans (h₁.get_eq l hl)

theorem extends_alloc [DecidableEq K] (h : Heap V) (k : K) (xs : List (V k)) : Extends h (h.alloc k xs) where
  next_le := Nat.le_succ h.next
  get_eq l hl := by
    obtain ⟨k',b,i⟩ := l
    by_cases hk : k' = k
    · subst hk
      simp [get, alloc, Nat.ne_of_lt hl]
    · simp [get, alloc, hk]

theorem read_alloc [DecidableEq K] (h : Heap V) (k : K) (xs : List (V k)) :
    (h.alloc k xs).read k ⟨h.next,0,xs.length⟩ = xs := by
  refine List.ext_getElem (by simp) ?_
  intro i _ hi
  simp [read, alloc, hi]

end Heap

open Heap

/-! ## Views -/

/-- The value that is seen and the cells that it is read from, which decide on both. -/
structure View (V : K → Type) (α : Type) where
  value : Heap V → α
  reads : Heap V → Set (Loc K)
  congr : ∀ h h', (∀ l ∈ reads h, h'.get l = h.get l) → value h' = value h ∧ reads h' = reads h

namespace View

def const (a : α) : View V α where
  value _ := a
  reads _ := ∅
  congr _ _ _ := ⟨rfl,rfl⟩

def cell (k : K) (p : Pointer) : View V (V k) where
  value h := h.get ⟨k,p.base,p.index⟩
  reads _ := {⟨k,p.base,p.index⟩}
  congr _ _ hl := ⟨hl _ rfl,rfl⟩

def array (k : K) (s : Slice) : View V (List (V k)) where
  value h := h.read k s
  reads _ := {l | ∃ i < s.len, l = ⟨k,s.base,s.offset + i⟩}
  congr h h' hl := by
    refine ⟨List.map_congr_left ?_,rfl⟩
    intro i hi
    exact hl ⟨k,s.base,s.offset + i⟩ ⟨i,List.mem_range.mp hi,rfl⟩

def map (f : α → β) (v : View V α) : View V β where
  value h := f (v.value h)
  reads := v.reads
  congr h h' hl := ⟨congrArg f (v.congr h h' hl).1,(v.congr h h' hl).2⟩

def and (v : View V α) (w : View V β) : View V (α × β) where
  value h := (v.value h,w.value h)
  reads h := v.reads h ∪ w.reads h
  congr h h' hl := by
    obtain ⟨hv,hvr⟩ := v.congr h h' fun l hmem => hl l (.inl hmem)
    obtain ⟨hw,hwr⟩ := w.congr h h' fun l hmem => hl l (.inr hmem)
    rw [hv, hw, hvr, hwr]
    exact ⟨rfl,rfl⟩

def bind (v : View V α) (f : α → View V β) : View V β where
  value h := (f (v.value h)).value h
  reads h := v.reads h ∪ (f (v.value h)).reads h
  congr h h' hl := by
    obtain ⟨hv,hvr⟩ := v.congr h h' fun l hmem => hl l (.inl hmem)
    rw [hv, hvr]
    obtain ⟨hf,hfr⟩ := (f (v.value h)).congr h h' fun l hmem => hl l (.inr hmem)
    rw [hf, hfr]
    exact ⟨rfl,rfl⟩

def traverse (f : α → View V β) : List α → View V (List β)
  | [] => const []
  | x :: xs => ((f x).and (traverse f xs)).map fun ys => ys.1 :: ys.2

theorem traverse_map (f : β → View V γ) (e : α → β) (xs : List α) :
    traverse f (xs.map e) = traverse (fun x => f (e x)) xs := by
  induction xs with
  | nil => rfl
  | cons x xs ih => rw [List.map_cons, traverse, traverse, ih]

def optional (f : α → View V β) : Option α → View V (Option β)
  | none => const none
  | some x => (f x).map some

@[simp] theorem traverse_value (f : α → View V β) (xs : List α) (h : Heap V) :
    (traverse f xs).value h = xs.map fun x => (f x).value h := by
  induction xs with
  | nil => rfl
  | cons x xs ih => exact congrArg ((f x).value h :: ·) ih

@[simp] theorem mem_traverse_reads {f : α → View V β} {xs : List α} {h : Heap V} {l : Loc K} :
    l ∈ (traverse f xs).reads h ↔ ∃ x ∈ xs, l ∈ (f x).reads h := by
  induction xs with
  | nil => simp [traverse, const]
  | cons x xs ih =>
    rw [List.exists_mem_cons_iff, ← ih]
    rfl

@[simp] theorem optional_value (f : α → View V β) (x : Option α) (h : Heap V) :
    (optional f x).value h = x.map fun x => (f x).value h := by
  cases x <;> rfl

@[simp] theorem mem_optional_reads {f : α → View V β} {x : Option α} {h : Heap V} {l : Loc K} :
    l ∈ (optional f x).reads h ↔ ∃ y, x = some y ∧ l ∈ (f y).reads h := by
  cases x with
  | none => simp [optional, const]
  | some x => simp [optional, map]

def Within (v : View V α) (h : Heap V) : Prop := ∀ l ∈ v.reads h, l.base < h.next

theorem of_extends {v : View V α} {h h' : Heap V} (hv : v.Within h) (hext : Extends h h') :
    v.value h' = v.value h ∧ v.reads h' = v.reads h :=
  v.congr h h' fun l hl => hext.get_eq l (hv l hl)

theorem within_of_extends {v : View V α} {h h' : Heap V} (hv : v.Within h) (hext : Extends h h') : v.Within h' := by
  intro l hl
  rw [(of_extends hv hext).2] at hl
  exact (hv l hl).trans_le hext.next_le

/-- Whatever is done to the cells that `w` reads, and in new arrays, `v` does not see it. -/
def Independent (v : View V α) (w : View V β) (h : Heap V) : Prop :=
  ∀ h' : Heap V, (∀ l : Loc K, l.base < h.next → l ∉ w.reads h → h'.get l = h.get l) → v.value h' = v.value h

theorem independent_of_disjoint {v : View V α} {w : View V β} {h : Heap V} (hv : v.Within h)
    (hdisjoint : ∀ l ∈ v.reads h, l ∉ w.reads h) : Independent v w h := by
  intro h' hkept
  exact (v.congr h h' fun l hl => hkept l (hv l hl) (hdisjoint l hl)).1

/-! ## Kinds of cells that are seen -/

/-- As long as the cells of other kinds stay as they are, no change of a cell of the kind `k` goes unnoticed. -/
def Shows (k : K) (v : View V α) : Prop :=
  ∀ h h', (∀ l : Loc K, l.kind ≠ k → h'.get l = h.get l) → v.value h' = v.value h →
    ∀ l ∈ v.reads h, l.kind = k → h'.get l = h.get l

theorem shows_const (k : K) (a : α) : Shows k (const a : View V α) := by
  rintro h h' _ _ l ⟨⟩

theorem shows_of_kind_ne {k : K} {v : View V α} (hv : ∀ h, ∀ l ∈ v.reads h, l.kind ≠ k) : Shows k v :=
  fun h _ _ _ l hl hk => absurd hk (hv h l hl)

theorem shows_array (k : K) (s : Slice) : Shows k (array k s : View V (List (V k))) := by
  rintro h h' _ hvalue l ⟨i,hi,rfl⟩ _
  have hmem := List.map_inj_left.mp (show (List.range s.len).map _ = (List.range s.len).map _ from hvalue)
  exact hmem i (List.mem_range.mpr hi)

theorem Shows.map {k : K} {v : View V α} (hv : Shows k v) {f : α → β} (hf : Function.Injective f) :
    Shows k (v.map f) :=
  fun h h' hother hvalue => hv h h' hother (hf hvalue)

theorem Shows.and {k : K} {v : View V α} {w : View V β} (hv : Shows k v) (hw : Shows k w) : Shows k (v.and w) := by
  intro h h' hother hvalue l hl hk
  rcases hl with hl | hl
  · exact hv h h' hother (congrArg Prod.fst hvalue) l hl hk
  · exact hw h h' hother (congrArg Prod.snd hvalue) l hl hk

/-- The first view may lose what it sees, for it sees no cell of the kind. -/
theorem Shows.bind {k : K} {v : View V α} {f : α → View V β} (hv : ∀ h, ∀ l ∈ v.reads h, l.kind ≠ k)
    (hf : ∀ a, Shows k (f a)) : Shows k (v.bind f) := by
  intro h h' hother hvalue l hl hk
  have hsame := (v.congr h h' fun l hl => hother l (hv h l hl)).1
  rcases hl with hl | hl
  · exact absurd hk (hv h l hl)
  · refine hf (v.value h) h h' hother ?_ l hl hk
    rw [show (v.bind f).value h' = (f (v.value h')).value h' from rfl, hsame] at hvalue
    exact hvalue

theorem Shows.traverse {k : K} {f : α → View V β} (hf : ∀ a, Shows k (f a)) (xs : List α) :
    Shows k (traverse f xs) := by
  induction xs with
  | nil => exact shows_const k []
  | cons x xs ih =>
    refine ((hf x).and ih).map ?_
    rintro ⟨a,as⟩ ⟨b,bs⟩ hab
    obtain ⟨rfl,rfl⟩ := List.cons.inj hab
    rfl

theorem Shows.optional {k : K} {f : α → View V β} (hf : ∀ a, Shows k (f a)) (x : Option α) :
    Shows k (optional f x) := by
  cases x with
  | none => exact shows_const k none
  | some x => exact (hf x).map (Option.some_injective β)

/-- A view is not independent of another one if both read a cell whose changes the first one shows. -/
theorem Shows.not_independent [DecidableEq K] {k : K} {v : View V α} (hv : Shows k v) {w : View V β} {h : Heap V}
    {l : Loc K} (hl : l ∈ v.reads h) (hw : l ∈ w.reads h) (hk : l.kind = k) {x : V l.kind} (hx : x ≠ h.get l) :
    ¬Independent v w h := by
  intro hindep
  have hvalue := hindep (h.write l x) fun l' _ hl' => h.get_write_of_ne x (ne_of_mem_of_not_mem hw hl').symm
  have hother : ∀ l' : Loc K, l'.kind ≠ k → (h.write l x).get l' = h.get l' := by
    intro l' hl'
    refine h.get_write_of_ne x ?_
    rintro rfl
    exact hl' hk
  have hsame := hv h (h.write l x) hother hvalue l hl hk
  rw [get_write_self] at hsame
  exact hx hsame

end View

/-! ## Copies -/

/-- In the heap `h'`, which extends `h`, the view shows `a`, and of the cells of `h` it reads those of `shared`. -/
structure Copied (h h' : Heap V) (v : View V α) (a : α) (shared : Set (Loc K)) : Prop where
  ext : Extends h h'
  value : v.value h' = a
  within : v.Within h'
  old : ∀ l : Loc K, l ∈ v.reads h' ∧ l.base < h.next ↔ l ∈ shared

namespace Copied
variable {h h' h'' : Heap V} {v : View V α} {a : α} {S T : Set (Loc K)}

theorem const (hext : Extends h h') (a : α) : Copied h h' (View.const a) a ∅ where
  ext := hext
  value := rfl
  within _ hl := hl.elim
  old _ := ⟨fun hl => hl.1.elim,fun hl => hl.elim⟩

/-- What is taken over without copying. -/
theorem same (hv : v.Within h) (hext : Extends h h') : Copied h h' v (v.value h) (v.reads h) where
  ext := hext
  value := (View.of_extends hv hext).1
  within := View.within_of_extends hv hext
  old l := by
    rw [(View.of_extends hv hext).2]
    exact ⟨fun hl => hl.1,fun hl => ⟨hl,hv l hl⟩⟩

theorem mono (hc : Copied h h' v a S) (hext : Extends h' h'') : Copied h h'' v a S where
  ext := hc.ext.trans hext
  value := (View.of_extends hc.within hext).1.trans hc.value
  within := View.within_of_extends hc.within hext
  old l := by
    rw [(View.of_extends hc.within hext).2]
    exact hc.old l

theorem map (hc : Copied h h' v a S) (f : α → β) : Copied h h' (v.map f) (f a) S where
  ext := hc.ext
  value := congrArg f hc.value
  within := hc.within
  old := hc.old

theorem and {w : View V β} {b : β} (hv : Copied h h' v a S) (hw : Copied h h' w b T) :
    Copied h h' (v.and w) (a,b) (S ∪ T) where
  ext := hv.ext
  value := congrArg₂ Prod.mk hv.value hw.value
  within l hl := hl.elim (hv.within l) (hw.within l)
  old l := by
    rw [Set.mem_union, ← hv.old, ← hw.old, ← or_and_right]
    rfl

theorem bind {f : α → View V β} {b : β} (hv : Copied h h' v a S) (hf : Copied h h' (f a) b T) :
    Copied h h' (v.bind f) b (S ∪ T) := by
  obtain ⟨hext,rfl,hwithin,hold⟩ := hv
  refine ⟨hext,hf.value,fun l hl => hl.elim (hwithin l) (hf.within l),?_⟩
  intro l
  rw [Set.mem_union, ← hold, ← hf.old, ← or_and_right]
  rfl

theorem congr (hc : Copied h h' v a S) (hST : S = T) : Copied h h' v a T := hST ▸ hc

/-- A copy that shares nothing with the heap from before is independent of everything that was there. -/
theorem independent (hc : Copied h h' v a ∅) {w : View V β} (hw : w.Within h) : v.Independent w h' := by
  refine View.independent_of_disjoint hc.within ?_
  intro l hv hmem
  rw [(View.of_extends hw hc.ext).2] at hmem
  exact (hc.old l).mp ⟨hv,hw l hmem⟩

/-- What is shared is what the copy depends on, if it is shown. -/
theorem independent_iff [DecidableEq K] {k : K} [Nontrivial (V k)] (hc : Copied h h' v a S) (hv : v.Shows k)
    {w : View V β} (hw : w.Within h) (hS : ∀ l ∈ S, l ∈ w.reads h ∧ l.kind = k) : v.Independent w h' ↔ S = ∅ := by
  constructor
  · intro hindep
    refine Set.eq_empty_iff_forall_notMem.mpr ?_
    intro l hl
    obtain ⟨hmem,rfl⟩ := hS l hl
    obtain ⟨x,hx⟩ := exists_ne (h'.get l)
    rw [← (View.of_extends hw hc.ext).2] at hmem
    exact hv.not_independent ((hc.old l).mpr hl).1 hmem rfl hx hindep
  · rintro rfl
    exact hc.independent hw

end Copied

/-! ## Programs -/

/-- Programs on the heap; `none` is a panic. -/
abbrev Prog (V : K → Type) := StateT (Heap V) Option

def new [DecidableEq K] (k : K) (x : V k) : Prog V Pointer := fun h => some (⟨h.next,0⟩,h.alloc k [x])

def make [DecidableEq K] (k : K) (xs : List (V k)) : Prog V Slice := fun h =>
  some (⟨h.next,0,xs.length⟩,h.alloc k xs)

/-- A nil pointer is dereferenced with a panic. -/
def load (k : K) : Option Pointer → Prog V (V k)
  | none => fun _ => none
  | some p => fun h => some (h.get ⟨k,p.base,p.index⟩,h)

def elements (k : K) (s : Slice) : Prog V (List (V k)) := fun h => some (h.read k s,h)

def Yields (m : Prog V α) (h : Heap V) (P : α → Heap V → Prop) : Prop := ∃ a h', m h = some (a,h') ∧ P a h'

section Yields
variable {m : Prog V α} {h : Heap V} {P Q : α → Heap V → Prop}

theorem Yields.imp (hm : Yields m h P) (hPQ : ∀ a h', P a h' → Q a h') : Yields m h Q := by
  obtain ⟨a,h',hrun,hP⟩ := hm
  exact ⟨a,h',hrun,hPQ a h' hP⟩

/-- A program has one outcome. -/
theorem Yields.and (hP : Yields m h P) (hQ : Yields m h Q) : Yields m h fun a h' => P a h' ∧ Q a h' := by
  obtain ⟨a,h',hrun,hPa⟩ := hP
  obtain ⟨a',h'',hrun',hQa⟩ := hQ
  rw [hrun] at hrun'
  cases hrun'
  exact ⟨a,h',hrun,hPa,hQa⟩

@[simp] theorem yields_pure {a : α} : Yields (pure a : Prog V α) h P ↔ P a h := by
  constructor
  · rintro ⟨_,_,⟨⟩,hP⟩
    exact hP
  · intro hP
    exact ⟨a,h,rfl,hP⟩

@[simp] theorem yields_bind {f : α → Prog V β} {R : β → Heap V → Prop} :
    Yields (m >>= f) h R ↔ Yields m h fun a h' => Yields (f a) h' R := by
  constructor
  · rintro ⟨b,h'',hrun,hR⟩
    obtain ⟨⟨a,h'⟩,hm,hf⟩ := Option.bind_eq_some_iff.mp (show (m h).bind _ = some (b,h'') from hrun)
    exact ⟨a,h',hm,b,h'',hf,hR⟩
  · rintro ⟨a,h',hm,b,h'',hf,hR⟩
    exact ⟨b,h'',Option.bind_eq_some_iff.mpr ⟨(a,h'),hm,hf⟩,hR⟩

@[simp] theorem yields_map {f : α → β} {R : β → Heap V → Prop} :
    Yields (f <$> m) h R ↔ Yields m h fun a h' => R (f a) h' := by
  rw [← bind_pure_comp, yields_bind]
  simp only [yields_pure]

@[simp] theorem yields_load {k : K} {p : Option Pointer} {R : V k → Heap V → Prop} :
    Yields (load k p) h R ↔ ∃ q, p = some q ∧ R (h.get ⟨k,q.base,q.index⟩) h := by
  cases p with
  | none => simp [Yields, load]
  | some p => simp [Yields, load]

@[simp] theorem yields_elements {k : K} {s : Slice} {R : List (V k) → Heap V → Prop} :
    Yields (elements k s) h R ↔ R (h.read k s) h := by
  simp [Yields, elements]

theorem Yields.of_mapM {f : α → Prog V β} {xs : List α} {R : List β → Heap V → Prop} (hm : Yields (xs.mapM f) h R) :
    ∀ x ∈ xs, ∃ h', Yields (f x) h' fun _ _ => True := by
  induction xs generalizing h R with
  | nil => simp
  | cons x xs ih =>
    simp only [List.mapM_cons, yields_bind, yields_pure] at hm
    obtain ⟨y,h₁,hy,hrest⟩ := hm
    rintro z (_ | ⟨_,hz⟩)
    · exact ⟨h,y,h₁,hy,trivial⟩
    · exact ih hrest z hz

end Yields

/-! ## Programs that copy -/

/-- In any heap that extends `h` the program returns a copy that shares `shared` with `h`. -/
def Copying (h : Heap V) (m : Prog V β) (view : β → View V α) (a : α) (shared : Set (Loc K)) : Prop :=
  ∀ h₁, Extends h h₁ → Yields m h₁ fun b h₂ => Extends h₁ h₂ ∧ Copied h h₂ (view b) a shared

section Copying
variable {h : Heap V} {m : Prog V β} {view : β → View V α} {a : α} {S T : Set (Loc K)}

theorem copying_pure {b : β} (hb : Copied h h (view b) a S) : Copying h (pure b) view a S := by
  intro h₁ hext
  rw [yields_pure]
  exact ⟨Extends.refl h₁,hb.mono hext⟩

/-- What is read is what was there in the beginning. -/
theorem Copying.elements_bind {k : K} {s : Slice} {f : List (V k) → Prog V β}
    (hs : (View.array k s : View V _).Within h) (hf : Copying h (f (h.read k s)) view a S) :
    Copying h (elements k s >>= f) view a S := by
  intro h₁ hext
  rw [yields_bind, yields_elements, show h₁.read k s = h.read k s from (View.of_extends hs hext).1]
  exact hf h₁ hext

theorem Copying.load_bind {k : K} {p : Pointer} {f : V k → Prog V β} (hp : (View.cell k p : View V _).Within h)
    (hf : Copying h (f (h.get ⟨k,p.base,p.index⟩)) view a S) : Copying h (load k (some p) >>= f) view a S := by
  intro h₁ hext
  rw [yields_bind, yields_load]
  refine ⟨p,rfl,?_⟩
  rw [show h₁.get ⟨k,p.base,p.index⟩ = h.get ⟨k,p.base,p.index⟩ from (View.of_extends hp hext).1]
  exact hf h₁ hext

theorem Copying.imp {δ : Type} {view' : γ → View V δ} {f : β → γ} {a' : δ} (hm : Copying h m view a S)
    (himp : ∀ b h', Copied h h' (view b) a S → Copied h h' (view' (f b)) a' T) : Copying h (f <$> m) view' a' T := by
  intro h₁ hext
  rw [yields_map]
  exact (hm h₁ hext).imp fun b h₂ hb => ⟨hb.1,himp b h₂ hb.2⟩

theorem Copying.map {δ : Type} (hm : Copying h m view a S) (f : α → δ) :
    Copying h m (fun b => (view b).map f) (f a) S :=
  fun h₁ hext => (hm h₁ hext).imp fun _ _ hb => ⟨hb.1,hb.2.map f⟩

/-- One more copy. -/
theorem Copying.step {δ : Type} (hm : Copying h m view a S) {h₁ : Heap V} {v : View V δ} {d : δ}
    (hv : Copied h h₁ v d T) :
    Yields m h₁ fun b h₂ => Extends h₁ h₂ ∧ Copied h h₂ (v.and (view b)) (d,a) (T ∪ S) :=
  (hm h₁ hv.ext).imp fun _ _ hb => ⟨hb.1,(hv.mono hb.1).and hb.2⟩

/-- Copying one element after the other. -/
theorem Copying.mapM {f : γ → Prog V β} {g : γ → α} (xs : List γ)
    (hf : ∀ x ∈ xs, Copying h (f x) view (g x) ∅) : Copying h (xs.mapM f) (View.traverse view) (xs.map g) ∅ := by
  induction xs with
  | nil =>
    rw [List.mapM_nil]
    exact copying_pure (Copied.const (Extends.refl h) [])
  | cons x xs ih =>
    intro h₁ hext
    simp only [List.mapM_cons, yields_bind, yields_pure]
    refine (hf x List.mem_cons_self h₁ hext).imp ?_
    rintro y h₂ ⟨hext₂,hy⟩
    refine ((ih fun x hx => hf x (List.mem_cons_of_mem _ hx)).step hy).imp ?_
    rintro ys h₃ ⟨hext₃,hys⟩
    exact ⟨hext₂.trans hext₃,(hys.map fun zs => zs.1 :: zs.2).congr (Set.empty_union ∅)⟩

variable [DecidableEq K]

theorem copying_make (h : Heap V) (k : K) (xs : List (V k)) : Copying h (make k xs) (View.array k) xs ∅ := by
  intro h₁ hext
  refine ⟨_,_,rfl,h₁.extends_alloc k xs,hext.trans (h₁.extends_alloc k xs),h₁.read_alloc k xs,?_,?_⟩
  · rintro l ⟨i,-,rfl⟩
    exact Nat.lt_succ_self h₁.next
  · intro l
    constructor
    · rintro ⟨⟨i,-,rfl⟩,hlt⟩
      exact absurd hext.next_le (Nat.not_le_of_lt hlt)
    · intro hl
      exact hl.elim

theorem copying_new (h : Heap V) (k : K) (x : V k) : Copying h (new k x) (View.cell k) x ∅ := by
  intro h₁ hext
  refine ⟨_,_,rfl,h₁.extends_alloc k [x],hext.trans (h₁.extends_alloc k [x]),?_,?_,?_⟩
  · simp [View.cell, Heap.get, Heap.alloc]
  · rintro l rfl
    exact Nat.lt_succ_self h₁.next
  · intro l
    constructor
    · rintro ⟨rfl,hlt⟩
      exact absurd hext.next_le (Nat.not_le_of_lt hlt)
    · intro hl
      exact hl.elim

end Copying

end Retina.Memory
