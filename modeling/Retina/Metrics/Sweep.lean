import Retina.Metrics.Batches

/-! # Marks during a tick

The methods of the dirty cache are locked one by one, and a tick takes four steps: it
reads the additions, clears them, reads the deletions and clears those. The callbacks
may put marks between any two of these steps.
-/
namespace Retina.Metrics
open Cache (NetIP CacheEvent)

inductive Side
  | add
  | delete
deriving DecidableEq

namespace DirtyCache

def marks (d : DirtyCache) : Side → Finmap (fun _ : NetIP => DirtyCachePod)
  | .add => d.toAdd
  | .delete => d.toDelete

def mark (d : DirtyCache) (side : Side) (key : NetIP) (obj : DirtyCachePod) : DirtyCache :=
  match side with
  | .add => d.markToAdd key obj
  | .delete => d.markToDelete key obj

def getList (d : DirtyCache) (side : Side) (order : FiniteMap.Order NetIP) : List DirtyCachePod :=
  match side with
  | .add => d.getAddList order
  | .delete => d.getDeleteList order

def clear (d : DirtyCache) : Side → DirtyCache
  | .add => { d with toAdd := ∅ }
  | .delete => { d with toDelete := ∅ }

variable {d : DirtyCache} {side side' : Side} {key key' : NetIP} {obj : DirtyCachePod}

theorem lookup_mark : ((d.mark side key obj).marks side).lookup key = some obj := by
  cases side with
  | add => exact Finmap.lookup_insert _
  | delete => exact Finmap.lookup_insert _

theorem lookup_mark_of_ne (hne : key' ≠ key) :
    ((d.mark side key obj).marks side').lookup key' = (d.marks side').lookup key' := by
  cases side <;> cases side' <;>
    simp [mark, marks, markToAdd, markToDelete, Finmap.lookup_insert_of_ne, Finmap.lookup_erase_ne, hne]

theorem marks_clear_of_ne (hne : side' ≠ side) : (d.clear side).marks side' = d.marks side' := by
  cases side <;> cases side' <;> simp_all [clear, marks]

theorem mem_getList {order : FiniteMap.Order NetIP} (h : (d.marks side).lookup key = some obj) :
    obj ∈ d.getList side order := by
  have hmem : key ∈ order.list (d.marks side).keys :=
    (order.mem_list _ _).mpr (Finmap.mem_keys.mpr (Finmap.mem_of_lookup_eq_some h))
  cases side with
  | add => exact List.mem_filterMap.mpr ⟨key,hmem,h⟩
  | delete => exact List.mem_filterMap.mpr ⟨key,hmem,h⟩

end DirtyCache

inductive TickStep
  | get (side : Side)
  | clear (side : Side)
deriving DecidableEq

def TickStep.next : TickStep → TickStep
  | .get side => .clear side
  | .clear .add => .get .delete
  | .clear .delete => .get .add

structure Sweep where
  d : DirtyCache := {}
  next : TickStep := .get .add

inductive SweepOp
  | mark (side : Side) (key : NetIP) (obj : DirtyCachePod)
  | tick (order : FiniteMap.Order NetIP)

namespace Sweep

def step (s : Sweep) : SweepOp → Sweep
  | .mark side key obj => { s with d := s.d.mark side key obj }
  | .tick _ =>
    match s.next with
    | .get _ => { s with next := s.next.next }
    | .clear side => { d := s.d.clear side, next := s.next.next }

/-- The entry is still there, unless a later mark replaced it or a later reading of its side returned it. -/
def Accounted (s : Sweep) (side : Side) (key : NetIP) (obj : DirtyCachePod) (later : List SweepOp) : Prop :=
  ((Execution.run step s later).d.marks side).lookup key = some obj ∨
    (∃ side' obj', SweepOp.mark side' key obj' ∈ later) ∨
    ∃ before order after, later = before ++ .tick order :: after ∧
      (Execution.run step s before).next = .get side ∧ obj ∈ (Execution.run step s before).d.getList side order

/-- No mark comes between the reading and the clearing of its side. -/
def Undisturbed (s : Sweep) : SweepOp → Prop
  | .mark side _ _ => s.next ≠ .clear side
  | .tick _ => True

/-! ## Sweeps and the module -/

/-- The callback puts at most one mark. -/
theorem podCallBackFn_mark (m : Module) (c : Cache) (event : CacheEvent) :
    (m.podCallBackFn c event).dirtyPods = m.dirtyPods ∨
      ∃ side key obj, (m.podCallBackFn c event).dirtyPods = m.dirtyPods.mark side key obj := by
  simp only [Module.podCallBackFn]
  split
  · split
    · exact .inl rfl
    · split
      · exact .inl rfl
      · simp only [Module.handlePodEvent]
        split
        · exact .inl rfl
        · split
          · split
            · exact .inr ⟨.delete,_,_,rfl⟩
            · exact .inr ⟨.add,_,_,rfl⟩
          · split
            · exact .inl rfl
            · exact .inr ⟨.delete,_,_,rfl⟩
          · exact .inl rfl
  · exact .inl rfl

/-- The four steps without a mark in between are the tick of the module. -/
theorem run_tick (m : Module) (env : Surroundings) :
    Execution.run step { d := m.dirtyPods } (List.replicate 4 (.tick env.ipOrder)) =
      { d := (m.applyDirtyPods env).dirtyPods } := by
  have hdelete : (m.applyDirtyPods env).dirtyPods.toDelete = ∅ := rfl
  have hadd := m.toAdd_applyDirtyPods env
  change ({ d := (m.dirtyPods.clear .add).clear .delete } : Sweep) = _
  rcases hd : (m.applyDirtyPods env).dirtyPods with ⟨toAdd,toDelete⟩
  rw [hd] at hadd hdelete
  cases hadd
  cases hdelete
  rfl

/-! ## What becomes of an entry -/

variable {s : Sweep} {side : Side} {key : NetIP} {obj : DirtyCachePod}

/-- What a tick does to an entry that will not be cleared next. -/
theorem tick_cases (order : FiniteMap.Order NetIP) (hentry : (s.d.marks side).lookup key = some obj)
    (hnext : s.next ≠ .clear side) :
    s.next = .get side ∧ obj ∈ s.d.getList side order ∨
      ((s.step (.tick order)).d.marks side).lookup key = some obj ∧ (s.step (.tick order)).next ≠ .clear side := by
  by_cases hget : s.next = .get side
  · exact .inl ⟨hget,DirtyCache.mem_getList hentry⟩
  · right
    cases h : s.next with
    | get side' =>
      have hne : side' ≠ side := by
        intro heq
        exact hget (heq ▸ h)
      simp only [step, h, TickStep.next]
      exact ⟨hentry,fun heq => hne (TickStep.clear.inj heq)⟩
    | clear side' =>
      have hne : side ≠ side' := by
        intro heq
        exact hnext (heq ▸ h)
      simp only [step, h, DirtyCache.marks_clear_of_ne hne]
      refine ⟨hentry,?_⟩
      cases side' <;> simp [TickStep.next]

/-- Along a run an entry is replaced, or read, or there and not about to be cleared. -/
theorem accounted_or_waiting {later : List SweepOp} (h : Execution.Along step Undisturbed s later)
    (hentry : (s.d.marks side).lookup key = some obj) (hnext : s.next ≠ .clear side) :
    (∃ side' obj', SweepOp.mark side' key obj' ∈ later) ∨
    (∃ before order after, later = before ++ .tick order :: after ∧
      (Execution.run step s before).next = .get side ∧ obj ∈ (Execution.run step s before).d.getList side order) ∨
    ((Execution.run step s later).d.marks side).lookup key = some obj ∧
      (Execution.run step s later).next ≠ .clear side := by
  induction later using List.reverseRecOn with
  | nil => exact .inr (.inr ⟨hentry,hnext⟩)
  | append_singleton later op ih =>
    obtain ⟨hlater,-⟩ := (Execution.along_append _ _ _ _).mp h
    obtain ⟨side',obj',hmark⟩ | ⟨before,order,after,rfl,hread⟩ | ⟨hstill,hphase⟩ := ih hlater
    · exact .inl ⟨side',obj',List.mem_append_left _ hmark⟩
    · exact .inr (.inl ⟨before,order,after ++ [op],by simp,hread⟩)
    · rw [Execution.run_append]
      cases op with
      | mark side' key' obj' =>
        by_cases heq : key = key'
        · exact .inl ⟨side',obj',by simp [heq]⟩
        · exact .inr (.inr ⟨(DirtyCache.lookup_mark_of_ne heq).trans hstill,hphase⟩)
      | tick order =>
        obtain hread | hwaiting := tick_cases order hstill hphase
        · exact .inr (.inl ⟨later,order,[],rfl,hread⟩)
        · exact .inr (.inr hwaiting)

end Sweep

/-- No entry is lost in a run without a mark between the reading and the clearing of its side. -/
theorem no_entry_lost (s : Sweep) (ops : List SweepOp) (h : Execution.Along Sweep.step Sweep.Undisturbed s ops)
    (earlier : List SweepOp) (side : Side) (key : NetIP) (obj : DirtyCachePod) (later : List SweepOp)
    (hops : earlier ++ .mark side key obj :: later <+: ops) :
    (Execution.run Sweep.step s (earlier ++ [.mark side key obj])).Accounted side key obj later := by
  obtain ⟨rest,rfl⟩ := hops
  simp only [Execution.along_append] at h
  obtain ⟨⟨-,hmark,hlater⟩,-⟩ := h
  have hput : Execution.run Sweep.step s (earlier ++ [.mark side key obj]) =
    (Execution.run Sweep.step s earlier).step (.mark side key obj) := Execution.run_append s earlier _
  rw [hput]
  obtain hreplaced | hread | ⟨hstill,-⟩ := Sweep.accounted_or_waiting hlater DirtyCache.lookup_mark hmark
  · exact .inr (.inl hreplaced)
  · exact .inr (.inr hread)
  · exact .inl hstill

/-- An addition that is marked after the reading is cleared with the others. -/
theorem entry_lost :
    ¬(Execution.run Sweep.step {} [.tick sampleEnv.ipOrder,.mark .add sampleIP sampleEntry]).Accounted .add sampleIP
      sampleEntry [.tick sampleEnv.ipOrder] := by
  intro h
  obtain hstill | ⟨side,obj,hmark⟩ | ⟨before,order,after,heq,hnext,-⟩ := h
  · cases hstill
  · simp at hmark
  · obtain ⟨rfl,-⟩ | ⟨before,rfl,hnil⟩ := List.cons_eq_append_iff.mp heq
    · cases hnext
    · simp at hnil

theorem no_entry_lost_after_tick :
    (Execution.run Sweep.step {} (List.replicate 4 (.tick sampleEnv.ipOrder) ++
      [.mark .add sampleIP sampleEntry])).Accounted .add sampleIP sampleEntry
        (List.replicate 2 (.tick sampleEnv.ipOrder)) := by
  refine no_entry_lost {} _ ?_ _ .add sampleIP sampleEntry _ (List.prefix_refl _)
  simp [Execution.Along, Sweep.Undisturbed, Sweep.step, TickStep.next, List.replicate]

end Retina.Metrics
