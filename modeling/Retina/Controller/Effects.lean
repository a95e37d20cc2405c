import Retina.Controller.Reconcile
import Retina.Library.Execution

/-! # What a reconcile can do

The fields of the state that the results are about, and the few ways in which one call of
`Reconcile` changes them.
-/
namespace Retina.Controller

structure View where
  jobs : List Job
  targets : Option (List String)
  completed : List String
  deleting : Bool
  autoDeleted : Bool
  complete : Bool
  error : Bool

def World.view (w : World) : View where
  jobs := w.jobs
  targets := w.targets
  completed := w.completed
  deleting := w.deleting
  autoDeleted := w.autoDeleted
  complete := w.status.holds .complete
  error := w.status.holds .error

/-- The new status is stored exactly if the requests succeed; if it was stored before, nothing is lost. -/
theorem updateStatus_fst (u : UpdateOutcome) (s : Status GoTime) (w : World) :
    (updateStatus u s w).1 = { w with
      status := if u.succeeds then s.map GoTime.stored else w.status
      statusUpdates := (updateStatus u s w).1.statusUpdates } := by
  unfold updateStatus UpdateOutcome.succeeds
  cases hget : u.get with
  | false => simp
  | true =>
    by_cases heq : s = w.status.map GoTime.api
    · have hstored : s.map GoTime.stored = w.status := by rw [heq, Status.map_api_stored]
      simp [← heq, hstored]
    · cases hupdate : u.update <;> simp [heq]

theorem updateStatus_ok {u : UpdateOutcome} {s : Status GoTime} {w : World} (h : (updateStatus u s w).2 = .ok ()) :
    (updateStatus u s w).1.status = s.map GoTime.stored := by
  have hget : u.get = true := by
    by_contra hget
    rw [Bool.not_eq_true] at hget
    simp [updateStatus, hget] at h
  by_cases heq : s = w.status.map GoTime.api
  · have hstored : s.map GoTime.stored = w.status := by rw [heq, Status.map_api_stored]
    rw [updateStatus_fst, hstored]
    exact ite_self _
  · have hupdate : u.update = true := by
      by_contra hupdate
      rw [Bool.not_eq_true] at hupdate
      simp [updateStatus, hget, heq, hupdate] at h
    rw [updateStatus_fst, UpdateOutcome.succeeds, hget, hupdate]
    rfl

def View.withStatus (v : View) (s : Status GoTime) : View :=
  { v with complete := s.holds .complete, error := s.holds .error }

theorem view_of_status {w w' : World} {s : Status GoTime} {n : ℕ}
    (h : w' = { w with status := s.map GoTime.stored, statusUpdates := n }) : w'.view = w.view.withStatus s := by
  rw [h]
  simp [World.view, View.withStatus]

theorem view_updateStatus (u : UpdateOutcome) (s : Status GoTime) (w : World) :
    (updateStatus u s w).1.view = if u.succeeds then w.view.withStatus s else w.view := by
  have hfst := updateStatus_fst u s w
  split_ifs at hfst ⊢ with h
  · exact view_of_status hfst
  · rw [hfst]
    rfl

theorem view_updateStatus_of_ok {u : UpdateOutcome} {s : Status GoTime} {w : World}
    (h : (updateStatus u s w).2 = .ok ()) : (updateStatus u s w).1.view = w.view.withStatus s := by
  have hstatus := updateStatus_ok h
  have hfst := updateStatus_fst u s w
  refine view_of_status (n := (updateStatus u s w).1.statusUpdates) ?_
  rw [hfst] at hstatus
  rw [← hstatus]
  exact hfst

def View.createJobs (v : View) (targets : Targets) (created : List String) : View :=
  { v with
    jobs := v.jobs ++ created.map fun node => { node := node }
    targets := if v.targets.isNone ∧ created ≠ [] then some targets.nodes else v.targets }

theorem view_createJobs (w : World) (targets : Targets) (created : List String) :
    (w.createJobs targets created).view = w.view.createJobs targets created := rfl

/-- The ways in which one reconcile can change the view, given what the listings show. -/
inductive Effect (e : Environment) (v : View) (listed : ℕ → List Job) : View → Prop
  | unchanged : Effect e v listed v
  | deleted (hdeleting : v.deleting = true) : Effect e v listed { v with jobs := [] }
  /-- Some of the listed jobs have not completed. -/
  | inProgress (hdeleting : v.deleting = false) {n : ℕ} (hlisting : e.listing = some n)
      (hnot : ¬∀ job ∈ listed n, job.isComplete = true) :
      Effect e v listed { v with complete := false, error := v.error || (listed n).any Job.isFailed }
  /-- All listed jobs have completed, and the capture may be deleted. -/
  | complete (hdeleting : v.deleting = false) {n : ℕ} (hlisting : e.listing = some n) (hne : listed n ≠ [])
      (hall : ∀ job ∈ listed n, job.isComplete = true) (cleaned : Bool) :
      Effect e v listed { v with complete := true, deleting := cleaned, autoDeleted := v.autoDeleted || cleaned }
  /-- Nothing was listed, and no job could be asked for. -/
  | failed (hdeleting : v.deleting = false) {n : ℕ} (hlisting : e.listing = some n) (hnone : listed n = [])
      (hfailed : e.secret = false ∨ ∃ err, e.translation = .error err) : Effect e v listed { v with error := true }
  /-- Nothing was listed, and jobs were created, but not for all targets. -/
  | partly (hdeleting : v.deleting = false) {n : ℕ} (hlisting : e.listing = some n) (hnone : listed n = [])
      (targets : Targets) (htargets : e.translation = .ok targets)
      (hless : (e.created targets).length < targets.nodes.length) (written : Bool) :
      Effect e v listed { v.createJobs targets (e.created targets) with error := v.error || written }
  /-- Nothing was listed, and jobs were created for all targets. -/
  | created (hdeleting : v.deleting = false) {n : ℕ} (hlisting : e.listing = some n) (hnone : listed n = [])
      (targets : Targets) (htargets : e.translation = .ok targets)
      (hall : e.created targets = targets.nodes) (written : Bool) :
      Effect e v listed { v.createJobs targets targets.nodes with complete := v.complete && !written }

theorem view_handleDelete (e : Environment) (w : World) :
    (handleDelete e w).1.view = w.view ∨ (handleDelete e w).1.view = { w.view with jobs := [] } := by
  unfold handleDelete
  dsimp only
  split_ifs
  · exact .inl rfl
  · exact .inl rfl
  all_goals exact .inr rfl

theorem holds_countJobs (now : ℤ) (s : Status GoTime) (jobs : List Job) :
    (countJobs now s jobs).holds .complete = s.holds .complete ∧
      (countJobs now s jobs).holds .error = (s.holds .error || jobs.any Job.isFailed) := by
  unfold countJobs
  by_cases h : jobs.filter Job.isFailed = []
  · have hany : jobs.any Job.isFailed = false := by
      rw [List.any_eq_false]
      exact fun job hjob => List.filter_eq_nil_iff.mp h job hjob
    simp only [h, if_true, hany, Bool.or_false]
    exact ⟨rfl,rfl⟩
  · have hany : jobs.any Job.isFailed = true := by
      obtain ⟨job,hjob⟩ := List.exists_mem_of_ne_nil _ h
      exact List.any_eq_true.mpr ⟨job,(List.mem_filter.mp hjob).1,(List.mem_filter.mp hjob).2⟩
    simp only [h, if_false, hany, Bool.or_true, Status.holds_setCondition]
    exact ⟨rfl,rfl⟩

theorem length_filter_eq_iff (jobs : List Job) :
    (jobs.filter Job.isComplete).length = jobs.length ↔ ∀ job ∈ jobs, job.isComplete = true := by
  rw [List.length_filter_eq_length_iff]

theorem any_isFailed_of_complete {jobs : List Job} (h : ∀ job ∈ jobs, job.isComplete = true) :
    jobs.any Job.isFailed = false := by
  rw [List.any_eq_false]
  intro job hjob
  rw [Job.not_isFailed_of_isComplete (h job hjob)]
  exact Bool.false_ne_true

theorem view_cleanUp (e : Environment) (failedJobs : List Job) (w : World) :
    (cleanUp e failedJobs w).1.view = w.view ∨
      (cleanUp e failedJobs w).1.view = { w.view with deleting := true, autoDeleted := true } := by
  unfold cleanUp
  split_ifs
  · exact .inl rfl
  · exact .inl rfl
  · exact .inl rfl
  · exact .inr rfl

/-- All jobs are complete: the capture is completed, and perhaps deleted. -/
theorem effect_complete {e : Environment} {w : World} {n : ℕ} (hdeleting : w.deleting = false)
    (hlisting : e.listing = some n) (hne : w.listed n ≠ [])
    (hall : ∀ job ∈ w.listed n, job.isComplete = true) :
    Effect e w.view w.listed (updateCaptureStatusFromJobs e (w.status.map GoTime.api) (w.listed n) w).1.view := by
  have herror := (holds_countJobs e.now (w.status.map GoTime.api) (w.listed n)).2
  rw [Status.holds_map] at herror
  unfold updateCaptureStatusFromJobs
  rw [if_neg (not_not.mpr ((length_filter_eq_iff _).mpr hall))]
  rw [any_isFailed_of_complete hall, Bool.or_false] at herror
  dsimp only
  generalize hs : ({ (countJobs e.now (w.status.map GoTime.api) (w.listed n)).setCondition
    (completeCondition e.now ((w.listed n).filter Job.isComplete).length) with
      completionTime := some (lastCompleteTime e.now (w.listed n)) } : Status GoTime) = s
  have hview : w.view.withStatus s = { w.view with complete := true } := by
    have hholds : ∀ t, s.holds t = ((countJobs e.now (w.status.map GoTime.api) (w.listed n)).setCondition
        (completeCondition e.now ((w.listed n).filter Job.isComplete).length)).holds t := fun t => by rw [← hs]; rfl
    simp only [View.withStatus, hholds, Status.holds_setCondition, completeCondition, reduceCtorEq, if_true, if_false,
      herror]
    rfl
  have heffect : ∀ cleaned, Effect e w.view w.listed { w.view with
      complete := true, deleting := cleaned, autoDeleted := w.autoDeleted || cleaned } :=
    fun cleaned => .complete hdeleting hlisting hne hall cleaned
  have hplain : Effect e w.view w.listed { w.view with complete := true } := by
    have h := heffect false
    rw [Bool.or_false, ← hdeleting] at h
    exact h
  cases hupdate : updateStatus e.finalUpdate s w with
  | mk w' result =>
    have hfst : (updateStatus e.finalUpdate s w).1 = w' := by rw [hupdate]
    cases result with
    | error failure =>
      have hupdated := view_updateStatus e.finalUpdate s w
      rw [hfst, hview] at hupdated
      rw [hupdated]
      split_ifs
      · exact hplain
      · exact .unchanged
    | ok done =>
      have hupdated := view_updateStatus_of_ok (show (updateStatus e.finalUpdate s w).2 = .ok () by rw [hupdate])
      rw [hfst, hview] at hupdated
      rcases view_cleanUp e ((w.listed n).filter Job.isFailed) w' with h | h
      · rw [h, hupdated]
        exact hplain
      · rw [h, hupdated]
        have hcleaned := heffect true
        rw [Bool.or_true] at hcleaned
        exact hcleaned

theorem effect_inProgress {e : Environment} {w : World} {n : ℕ} (hdeleting : w.deleting = false)
    (hlisting : e.listing = some n)
    (hall : ¬∀ job ∈ w.listed n, job.isComplete = true) :
    Effect e w.view w.listed (updateCaptureStatusFromJobs e (w.status.map GoTime.api) (w.listed n) w).1.view := by
  have herror := (holds_countJobs e.now (w.status.map GoTime.api) (w.listed n)).2
  rw [Status.holds_map] at herror
  unfold updateCaptureStatusFromJobs
  rw [if_pos fun h => hall ((length_filter_eq_iff _).mp h), view_updateStatus]
  split_ifs
  · have heffect := Effect.inProgress (v := w.view) hdeleting hlisting hall
    rw [View.withStatus]
    simp only [Status.holds_setCondition, inProgressCondition, reduceCtorEq, if_true, if_false, herror]
    exact heffect
  · exact .unchanged

theorem effect_updateCaptureStatusFromJobs {e : Environment} {w : World} {n : ℕ} (hdeleting : w.deleting = false)
    (hlisting : e.listing = some n) (hne : w.listed n ≠ []) :
    Effect e w.view w.listed (updateCaptureStatusFromJobs e (w.status.map GoTime.api) (w.listed n) w).1.view := by
  by_cases hall : ∀ job ∈ w.listed n, job.isComplete = true
  · exact effect_complete hdeleting hlisting hne hall
  · exact effect_inProgress hdeleting hlisting hall

/-! ## The creation of jobs -/

theorem effect_createJobsFromCapture {e : Environment} {w w' : World} {n : ℕ} {s : Status GoTime}
    (hdeleting : w.deleting = false) (hlisting : e.listing = some n) (hnone : w.listed n = [])
    (hview : w'.view = w.view) (hs : ∀ t, s.holds t = w.status.holds t) :
    Effect e w.view w.listed (createJobsFromCapture e s w').1.view := by
  have hcomplete : s.holds .complete = w.view.complete := hs .complete
  have herror : s.holds .error = w.view.error := hs .error
  unfold createJobsFromCapture
  cases htranslation : e.translation with
  | error err =>
    dsimp only
    rw [view_updateStatus, hview, View.withStatus]
    simp only [Status.holds_setCondition, errorCondition, reduceCtorEq, if_true, if_false, hcomplete]
    split_ifs
    · exact .failed hdeleting hlisting hnone (.inr ⟨err,htranslation⟩)
    · exact .unchanged
  | ok targets =>
    dsimp only
    by_cases hless : (e.created targets).length < targets.nodes.length
    · rw [if_pos hless, view_updateStatus, view_createJobs, hview, View.withStatus]
      simp only [Status.holds_setCondition, errorCondition, reduceCtorEq, if_true, if_false, hcomplete]
      have heffect := Effect.partly (v := w.view) hdeleting hlisting hnone targets htranslation hless e.finalUpdate.succeeds
      split_ifs with hwritten
      · simpa [hwritten, View.createJobs] using heffect
      · simpa [hwritten, View.createJobs] using heffect
    · have hall : e.created targets = targets.nodes := by
        unfold Environment.created at hless ⊢
        cases hfails : e.createFails with
        | none => rfl
        | some k =>
          simp only [hfails, List.length_take] at hless
          exact List.take_of_length_le (by omega)
      rw [if_neg hless, view_updateStatus, view_createJobs, hview, View.withStatus, hall]
      simp only [Status.holds_setCondition, inProgressCondition, reduceCtorEq, if_true, if_false, herror]
      have heffect := Effect.created (v := w.view) hdeleting hlisting hnone targets htranslation hall e.finalUpdate.succeeds
      split_ifs with hwritten
      · simpa [hwritten, View.createJobs] using heffect
      · simpa [hwritten, View.createJobs] using heffect

theorem effect_createResources {e : Environment} {w w' : World} {n : ℕ} {s : Status GoTime}
    (hdeleting : w.deleting = false) (hlisting : e.listing = some n) (hnone : w.listed n = [])
    (hview : w'.view = w.view) (hs : ∀ t, s.holds t = w.status.holds t) :
    Effect e w.view w.listed (createResources e s w').1.view := by
  have hholds : ∀ t, w'.status.holds t = w.status.holds t := by
    intro t
    cases t with
    | complete => exact congrArg View.complete hview
    | error => exact congrArg View.error hview
  unfold createResources
  split_ifs with hmanaged hsas hsecret hspec
  · rw [hview]
    exact .unchanged
  · rw [view_updateStatus, hview, View.withStatus]
    simp only [Status.holds_setCondition, errorCondition, reduceCtorEq, if_true, if_false, hs]
    split_ifs
    · exact .failed hdeleting hlisting hnone (.inl (by simpa using hsecret))
    · exact .unchanged
  · rw [hview]
    exact .unchanged
  · refine effect_createJobsFromCapture hdeleting hlisting hnone hview fun t => ?_
    rw [Status.holds_map]
    exact hholds t
  · exact effect_createJobsFromCapture hdeleting hlisting hnone hview hs

theorem effect_handleUpdate {e : Environment} {w : World} (hdeleting : w.deleting = false) :
    Effect e w.view w.listed (handleUpdate e w).1.view := by
  unfold handleUpdate
  cases hlisting : e.listing with
  | none => exact .unchanged
  | some n =>
    dsimp only
    split_ifs with hlisted hstart
    · exact effect_updateCaptureStatusFromJobs hdeleting hlisting hlisted
    · rw [ne_eq, not_not] at hlisted
      have hholds : ∀ t, ({ w.status.map GoTime.api with startTime := some (.clock e.now) } : Status GoTime).holds t =
          w.status.holds t := fun t => Status.holds_map GoTime.api w.status t
      have hview := view_updateStatus e.startUpdate
        { w.status.map GoTime.api with startTime := some (.clock e.now) } w
      have hsame : w.view.withStatus { w.status.map GoTime.api with startTime := some (.clock e.now) } = w.view := by
        rw [View.withStatus, hholds, hholds]
        rfl
      rw [hsame, ite_self] at hview
      cases hupdate : updateStatus e.startUpdate
          { w.status.map GoTime.api with startTime := some (.clock e.now) } w with
      | mk w' result =>
        rw [hupdate] at hview
        cases result with
        | error failure =>
          dsimp only at hview ⊢
          rw [hview]
          exact .unchanged
        | ok done => exact effect_createResources hdeleting hlisting hlisted hview hholds
    · rw [ne_eq, not_not] at hlisted
      exact effect_createResources hdeleting hlisting hlisted rfl fun t => Status.holds_map GoTime.api w.status t

theorem reconcile_effect (e : Environment) (w : World) : Effect e w.view w.listed (reconcile e w).1.view := by
  unfold reconcile
  split_ifs with hpresent hget hdeleting hfinalizer
  · exact .unchanged
  · exact .unchanged
  · rcases view_handleDelete e w with h | h
    · rw [h]
      exact .unchanged
    · rw [h]
      exact .deleted hdeleting
  · exact .unchanged
  · rw [Bool.not_eq_true] at hdeleting
    exact effect_handleUpdate (w := { w with finalizer := true }) hdeleting

end Retina.Controller
