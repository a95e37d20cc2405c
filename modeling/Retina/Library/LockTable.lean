import Mathlib

/-! # A table of locks

A client works under a key. It takes the mutex of its key from the table, or stores a new one,
waits for it, and unlocks it in the end. In between it may remove the entry of its key. Clients
of one key exclude one another as long as an entry is removed only while nobody waits for its
mutex, and nobody comes for the key before that mutex is unlocked.
-/
namespace Retina

inductive LockPhase
  | out
  | waiting (mutex : ℕ)
  | holding (mutex : ℕ)
  /-- Holding a mutex whose entry the client has removed. -/
  | detached (mutex : ℕ)
  | gone
deriving DecidableEq

namespace LockPhase

def owned : LockPhase → Option ℕ
  | holding mutex | detached mutex => some mutex
  | _ => none

/-- The mutex that the client has taken from the table and not removed from it. -/
def linked : LockPhase → Option ℕ
  | waiting mutex | holding mutex => some mutex
  | _ => none

def isWaiting : LockPhase → Bool
  | waiting _ => true
  | _ => false

def isDetached : LockPhase → Bool
  | detached _ => true
  | _ => false

end LockPhase

structure LockTable (κ τ : Type*) where
  table : Finmap fun _ : κ => ℕ
  next : ℕ
  holder : ℕ → Option τ
  phase : τ → LockPhase

namespace LockTable
variable {κ τ : Type*} [DecidableEq κ] [DecidableEq τ]

def move (s : LockTable κ τ) (t : τ) (p : LockPhase) : LockTable κ τ := { s with phase := Function.update s.phase t p }

def loadOrStore (s : LockTable κ τ) (k : κ) (t : τ) : LockTable κ τ :=
  match s.table.lookup k with
  | some mutex => s.move t (.waiting mutex)
  | none => { s.move t (.waiting s.next) with table := s.table.insert k s.next, next := s.next + 1 }

def lock (s : LockTable κ τ) (t : τ) (mutex : ℕ) : LockTable κ τ :=
  match s.holder mutex with
  | none => { s.move t (.holding mutex) with holder := Function.update s.holder mutex (some t) }
  | some _ => s

def remove (s : LockTable κ τ) (k : κ) (t : τ) (mutex : ℕ) : LockTable κ τ :=
  { s.move t (.detached mutex) with table := s.table.erase k }

def unlock (s : LockTable κ τ) (t : τ) (mutex : ℕ) : LockTable κ τ :=
  { s.move t .gone with holder := Function.update s.holder mutex none }

/-- Nobody has come yet. The table may have entries. -/
def Untouched (s : LockTable κ τ) : Prop := (∀ t, s.phase t = .out) ∧ ∀ mutex, s.holder mutex = none

structure Consistent (key : τ → κ) (s : LockTable κ τ) : Prop where
  held : ∀ t mutex, (s.phase t).owned = some mutex → s.holder mutex = some t
  listed : ∀ t mutex, (s.phase t).linked = some mutex → s.table.lookup (key t) = some mutex
  alone : ∀ t u, (s.phase t).isDetached = true → key u = key t → u ≠ t → s.phase u = .out ∨ s.phase u = .gone

def Exclusive (key : τ → κ) (s : LockTable κ τ) : Prop :=
  ∀ t u, key t = key u → (s.phase t).owned.isSome = true → (s.phase u).owned.isSome = true → t = u

variable {key : τ → κ} {s : LockTable κ τ} {t : τ} {mutex : ℕ}

omit [DecidableEq τ] in
theorem Untouched.consistent (h : s.Untouched) : s.Consistent key where
  held t mutex ho := by simp [h.1 t, LockPhase.owned] at ho
  listed t mutex hl := by simp [h.1 t, LockPhase.linked] at hl
  alone t u hd := by simp [h.1 t, LockPhase.isDetached] at hd

namespace Consistent
variable (h : s.Consistent key)
include h

omit [DecidableEq τ] in
/-- A client that removed the entry of its key is the only one with a mutex of the key. -/
theorem linked_eq_none {u : τ} (hd : (s.phase u).isDetached = true) (hk : key t = key u) (hne : t ≠ u) :
    (s.phase t).linked = none := by
  rcases h.alone u t hd hk hne with hp | hp
  · rw [hp]; rfl
  · rw [hp]; rfl

omit [DecidableEq τ] in
theorem exclusive : s.Exclusive key := by
  intro t u hk ht hu
  by_contra hne
  cases hpt : s.phase t with
  | out => simp [hpt, LockPhase.owned] at ht
  | waiting => simp [hpt, LockPhase.owned] at ht
  | gone => simp [hpt, LockPhase.owned] at ht
  | detached =>
    rcases h.alone t u (by rw [hpt]; rfl) hk.symm (Ne.symm hne) with hpu | hpu
    · simp [hpu, LockPhase.owned] at hu
    · simp [hpu, LockPhase.owned] at hu
  | holding mutex =>
    cases hpu : s.phase u with
    | out => simp [hpu, LockPhase.owned] at hu
    | waiting => simp [hpu, LockPhase.owned] at hu
    | gone => simp [hpu, LockPhase.owned] at hu
    | detached =>
      have hl := h.linked_eq_none (by rw [hpu]; rfl) hk hne
      rw [hpt] at hl
      cases hl
    | holding other =>
      -- both have taken the mutex that the table has for the key
      have hlt := h.listed t mutex (by rw [hpt]; rfl)
      have hlu := h.listed u other (by rw [hpu]; rfl)
      rw [← hk, hlt] at hlu
      have hm : mutex = other := Option.some.inj hlu
      subst hm
      have hht := h.held t mutex (by rw [hpt]; rfl)
      have hhu := h.held u mutex (by rw [hpu]; rfl)
      exact hne (Option.some.inj (hht.symm.trans hhu))

/-- A step moves one client. What is left to show concerns it, and the holders and entries of the others. -/
theorem of_move {s' : LockTable κ τ} {p : LockPhase} (hp : s'.phase = Function.update s.phase t p)
    (hheld : ∀ mutex, p.owned = some mutex → s'.holder mutex = some t)
    (hothers : ∀ v mutex, v ≠ t → s.holder mutex = some v → s'.holder mutex = some v)
    (hlisted : ∀ mutex, p.linked = some mutex → s'.table.lookup (key t) = some mutex)
    (hentries : ∀ v mutex, v ≠ t → (s.phase v).linked = some mutex → s.table.lookup (key v) = some mutex →
      s'.table.lookup (key v) = some mutex)
    (halone : p.isDetached = true → ∀ u, key u = key t → u ≠ t → s.phase u = .out ∨ s.phase u = .gone)
    (hmoved : ∀ v, key t = key v → (s.phase v).isDetached = true → v ≠ t → p = .out ∨ p = .gone) :
    s'.Consistent key where
  held v mutex ho := by
    by_cases hv : v = t
    · subst hv
      rw [hp, Function.update_self] at ho
      exact hheld mutex ho
    · rw [hp, Function.update_of_ne hv] at ho
      exact hothers v mutex hv (h.held v mutex ho)
  listed v mutex hl := by
    by_cases hv : v = t
    · subst hv
      rw [hp, Function.update_self] at hl
      exact hlisted mutex hl
    · rw [hp, Function.update_of_ne hv] at hl
      exact hentries v mutex hv hl (h.listed v mutex hl)
  alone v u hd hk hne := by
    by_cases hv : v = t
    · subst hv
      rw [hp, Function.update_self] at hd
      rw [hp, Function.update_of_ne hne]
      exact halone hd u hk hne
    · rw [hp, Function.update_of_ne hv] at hd
      by_cases hu : u = t
      · subst hu
        rw [hp, Function.update_self]
        exact hmoved v hk hd hv
      · rw [hp, Function.update_of_ne hu]
        exact h.alone v u hd hk hne

theorem loadOrStore (hn : ∀ u, key u = key t → (s.phase u).isDetached = false) :
    (s.loadOrStore (key t) t).Consistent key := by
  have hmoved (v : τ) (hk : key t = key v) (hd : (s.phase v).isDetached = true) : False := by
    rw [hn v hk.symm] at hd
    cases hd
  unfold LockTable.loadOrStore
  cases hl : s.table.lookup (key t) with
  | some mutex =>
    refine h.of_move rfl (fun _ ho => ?_) (fun _ _ _ => id) (fun _ he => ?_) (fun _ _ _ _ => id) (fun hd => ?_)
      (fun v hk hd _ => (hmoved v hk hd).elim)
    · cases ho
    · exact hl.trans he
    · cases hd
  | none =>
    refine h.of_move rfl (fun _ ho => ?_) (fun _ _ _ => id) (fun _ he => ?_) (fun v other _ _ hv => ?_) (fun hd => ?_)
      (fun v hk hd _ => (hmoved v hk hd).elim)
    · cases ho
    · exact (Finmap.lookup_insert _).trans he
    · -- the key of a client that has taken a mutex is in the table
      have hk : key v ≠ key t := fun hk => by
        rw [hk, hl] at hv
        cases hv
      exact (Finmap.lookup_insert_of_ne _ hk).trans hv
    · cases hd

theorem lock (hwait : s.phase t = .waiting mutex) : (s.lock t mutex).Consistent key := by
  unfold LockTable.lock
  cases hh : s.holder mutex with
  | some _ => exact h
  | none =>
    refine h.of_move rfl (fun other ho => ?_) (fun v other _ ho => ?_) (fun other he => ?_) (fun _ _ _ _ => id)
      (fun hd => ?_) (fun v hk hd hv => ?_)
    · cases ho
      exact Function.update_self ..
    · have hne : other ≠ mutex := fun he => by
        rw [he, hh] at ho
        cases ho
      exact (Function.update_of_ne hne ..).trans ho
    · exact h.listed t other (by rw [hwait]; exact he)
    · cases hd
    · have hl := h.linked_eq_none hd hk (Ne.symm hv)
      rw [hwait] at hl
      cases hl

omit [DecidableEq τ] in
/-- Beside a client that holds a mutex, the others of its key wait or do nothing. -/
theorem idle_of_holding (hhold : s.phase t = .holding mutex) {u : τ} (hk : key u = key t) (hne : u ≠ t)
    (hw : (s.phase u).isWaiting = false) : s.phase u = .out ∨ s.phase u = .gone := by
  have ht : (s.phase t).owned.isSome = true := by rw [hhold]; rfl
  cases hu : s.phase u with
  | out => exact .inl rfl
  | gone => exact .inr rfl
  | waiting => rw [hu] at hw; cases hw
  | holding => exact (hne (h.exclusive u t hk (by rw [hu]; rfl) ht)).elim
  | detached => exact (hne (h.exclusive u t hk (by rw [hu]; rfl) ht)).elim

theorem remove (hhold : s.phase t = .holding mutex) (hn : ∀ u, key u = key t → (s.phase u).isWaiting = false) :
    (s.remove (key t) t mutex).Consistent key := by
  refine h.of_move rfl (fun other ho => ?_) (fun _ _ _ => id) (fun _ he => ?_) (fun v other hv hl he => ?_)
    (fun _ u hk hne => h.idle_of_holding hhold hk hne (hn u hk)) (fun v hk hd hv => ?_)
  · exact h.held t other (by rw [hhold]; exact ho)
  · cases he
  · have hk : key v ≠ key t := fun hk => by
      rcases h.idle_of_holding hhold hk hv (hn v hk) with hp | hp
      · rw [hp] at hl; cases hl
      · rw [hp] at hl; cases hl
    exact (Finmap.lookup_erase_ne hk).trans he
  · have hl := h.linked_eq_none hd hk (Ne.symm hv)
    rw [hhold] at hl
    cases hl

theorem unlock (howned : (s.phase t).owned = some mutex) : (s.unlock t mutex).Consistent key := by
  refine h.of_move rfl (fun _ ho => ?_) (fun v other hv ho => ?_) (fun _ he => ?_) (fun _ _ _ _ => id)
    (fun hd => ?_) (fun _ _ _ _ => .inr rfl)
  · cases ho
  · have hne : other ≠ mutex := fun he => by
      rw [he, h.held t mutex howned] at ho
      exact hv (Option.some.inj ho).symm
    exact (Function.update_of_ne hne ..).trans ho
  · cases he
  · cases hd

end Consistent
end LockTable
end Retina
