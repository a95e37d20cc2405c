import Retina.Controller.Jobs

/-! # The conditions of a capture

A condition that was set stays until the same type is set again, and nothing ever sets an error
back. An error that comes from a failed job excludes that all jobs complete; an error of an
earlier reconcile does not.
-/
namespace Retina.Controller
open Execution

/-- The listing is current, and while there are no jobs, the secret and all of the jobs can be created.
While the capture is not deleted itself, nobody deletes a failed job. -/
def CreatesEverything (w : World) : Event → Prop
  | .reconcile e => (∀ n, e.listing = some n → w.listed n = w.jobs) ∧
      (w.jobs = [] → e.secret = true ∧ ∃ targets, e.translation = .ok targets ∧ e.created targets = targets.nodes)
  | .deleteJob index => w.deleting = true ∨ ∀ job, w.jobs[index]? = some job → job.isFailed = false
  | _ => True

structure Explained (v : View) : Prop where
  exclusive : ¬(v.error = true ∧ v.complete = true)
  error : v.deleting = false → v.error = true → ∃ job ∈ v.jobs, job.isFailed = true

theorem Job.isActive_of_isFailed {job : Job} (h : job.isFailed = true) : job.isActive = false := by
  simp_all [Job.isFailed, Job.isActive]

theorem update_of_not_isActive {job : Job} (h : job.isActive = false) (conditions : List JobCondition)
    (completionTime : Option ℤ) : Job.update conditions completionTime job = job := by
  rw [Job.update, if_neg (by simp [h])]

/-- A job that has finished stays in the list. -/
theorem mem_modify_of_not_isActive {job : Job} (h : job.isActive = false) {jobs : List Job} (hjob : job ∈ jobs)
    (index : ℕ) (conditions : List JobCondition) (completionTime : Option ℤ) :
    job ∈ jobs.modify index (Job.update conditions completionTime) := by
  induction jobs generalizing index with
  | nil => cases hjob
  | cons first jobs ih =>
    cases index with
    | zero =>
      rw [List.modify_zero_cons]
      rcases List.mem_cons.mp hjob with rfl | hjob
      · rw [update_of_not_isActive h]
        exact List.mem_cons_self
      · exact List.mem_cons_of_mem _ hjob
    | succ index =>
      rw [List.modify_succ_cons]
      rcases List.mem_cons.mp hjob with rfl | hjob
      · exact List.mem_cons_self
      · exact List.mem_cons_of_mem _ (ih hjob index)

theorem Explained.updateJob {v : View} (h : Explained v) (index : ℕ) (conditions : List JobCondition)
    (completionTime : Option ℤ) (completed : List String) :
    Explained { v with
      jobs := v.jobs.modify index (Job.update conditions completionTime), completed := completed } := by
  refine ⟨h.exclusive,fun hdeleting herror => ?_⟩
  obtain ⟨job,hjob,hfailed⟩ := h.error hdeleting herror
  exact ⟨job,mem_modify_of_not_isActive (Job.isActive_of_isFailed hfailed) hjob index conditions completionTime,hfailed⟩

theorem Explained.deleteJob {v : View} (h : Explained v) {index : ℕ}
    (hkept : v.deleting = true ∨ ∀ job, v.jobs[index]? = some job → job.isFailed = false) :
    Explained { v with jobs := v.jobs.eraseIdx index } := by
  refine ⟨h.exclusive,fun (hdeleting : v.deleting = false) herror => ?_⟩
  obtain ⟨job,hjob,hfailed⟩ := h.error hdeleting herror
  rcases mem_eraseIdx_or hjob index with hmem | hdeleted
  · exact ⟨job,hmem,hfailed⟩
  · rw [hkept.resolve_left (by simp [hdeleting]) job hdeleted] at hfailed
    cases hfailed

/-- Without jobs there is no error yet. -/
theorem Explained.error_of_jobs_eq_nil {v : View} (h : Explained v) (hdeleting : v.deleting = false)
    (hjobs : v.jobs = []) : ¬v.error = true := by
  intro herror
  obtain ⟨job,hjob,_⟩ := h.error hdeleting herror
  rw [hjobs] at hjob
  cases hjob

theorem reconcile_explained (e : Environment) (w : World) (h : Explained w.view)
    (hcreates : CreatesEverything w (.reconcile e)) : Explained (reconcile e w).1.view := by
  obtain ⟨hcurrent,hcreates⟩ := hcreates
  have heffect := reconcile_effect e w
  generalize (reconcile e w).1.view = v at heffect ⊢
  cases heffect with
  | unchanged => exact h
  | deleted hdeleting =>
    have hnot : w.view.deleting ≠ false := by simp [hdeleting]
    exact ⟨h.exclusive,fun hd => absurd hd hnot⟩
  | @inProgress hdeleting n hsome _ =>
    refine ⟨fun hboth => Bool.false_ne_true hboth.2,fun _ herror => ?_⟩
    rcases Bool.or_eq_true_iff.mp herror with herror | hfailed
    · exact h.error hdeleting herror
    · rw [hcurrent n hsome] at hfailed
      exact List.any_eq_true.mp hfailed
  | @complete hdeleting n hsome _ hall cleaned =>
    rw [hcurrent n hsome] at hall
    have hno : ¬w.view.error = true := by
      intro herror
      obtain ⟨job,hjob,hfailed⟩ := h.error hdeleting herror
      rw [Job.not_isFailed_of_isComplete (hall job hjob)] at hfailed
      cases hfailed
    exact ⟨fun hboth => hno hboth.1,fun _ herror => absurd herror hno⟩
  | @failed _ n hsome hnone hfailed =>
    rw [hcurrent n hsome] at hnone
    obtain ⟨hsecret,targets,htranslation,_⟩ := hcreates hnone
    rcases hfailed with hfailed | ⟨err,hfailed⟩
    · rw [hsecret] at hfailed
      cases hfailed
    · rw [htranslation] at hfailed
      cases hfailed
  | @partly _ n hsome hnone targets' htargets hless _ =>
    rw [hcurrent n hsome] at hnone
    obtain ⟨_,targets,htranslation,hcreated⟩ := hcreates hnone
    rw [htranslation] at htargets
    cases htargets
    rw [hcreated] at hless
    exact absurd hless (lt_irrefl _)
  | @created hdeleting n hsome hnone _ _ _ written =>
    rw [hcurrent n hsome] at hnone
    have hno := h.error_of_jobs_eq_nil hdeleting hnone
    exact ⟨fun hboth => hno hboth.1,fun _ herror => absurd herror hno⟩

theorem step_explained (w : World) (event : Event) (h : Explained w.view) (hcreates : CreatesEverything w event) :
    Explained (step w event).view := by
  cases event with
  | reconcile e => exact reconcile_explained e w h hcreates
  | jobStatus index conditions completionTime =>
    rw [step, view_updateJob]
    exact h.updateJob index conditions completionTime _
  | deleteJob index =>
    rw [step, view_deleteJob]
    exact h.deleteJob hcreates
  | deleteCapture =>
    rcases view_deleteCapture w with hview | hview
    · rw [hview]
      exact h
    · rw [hview]
      exact ⟨h.exclusive,fun hnot => absurd hnot (by simp)⟩

/-- While the secret and the jobs can be created at once and failed jobs stay, a capture never has both
conditions. -/
theorem conditions_exclusive (spec : Spec) (managedStorageAccount : Bool) (events : List Event)
    (hcreates : Along step CreatesEverything (World.new spec managedStorageAccount) events) (earlier : List Event)
    (hearlier : earlier <+: events) :
    ¬((run step (World.new spec managedStorageAccount) earlier).status.holds .error = true ∧
      (run step (World.new spec managedStorageAccount) earlier).status.holds .complete = true) := by
  obtain ⟨later,rfl⟩ := hearlier
  have hnew : Explained (World.new spec managedStorageAccount).view :=
    ⟨by simp [World.view, World.new, Status.holds, isStatusConditionTrue],
      fun _ herror => absurd herror Bool.false_ne_true⟩
  have hexplained : Explained (run step (World.new spec managedStorageAccount) earlier).view :=
    invariant (I := fun w => Explained w.view) step_explained hnew ((along_append _ _ _ _).mp hcreates).1
  exact hexplained.exclusive

def blobSpec : Spec := ⟨"web","apps",false,some "web-sas",false,none⟩

/-- The first translation fails, and the next one succeeds. -/
theorem earlierError_stays :
    let missing : TranslationError := .secretNotFound
      "secret of Capture is not found when blobupload is enabled, secretName: web-sas/apps"
    let w := run step (World.new blobSpec false)
      [.reconcile { answered 0 oneNode with translation := .error missing },
        .reconcile (answered 0 oneNode),completes 0,.reconcile (answered 0 oneNode)]
    w.status.holds .error = true ∧ w.status.holds .complete = true := by
  decide

theorem failedJob_excludes_complete :
    ¬((run step (World.new hostPathSpec false) [.reconcile (answered 0 twoNodes),completes 0,
          .jobStatus 1 [⟨.failed,true⟩] none,.reconcile (answered 0 twoNodes)]).status.holds .error = true ∧
      (run step (World.new hostPathSpec false) [.reconcile (answered 0 twoNodes),completes 0,
          .jobStatus 1 [⟨.failed,true⟩] none,.reconcile (answered 0 twoNodes)]).status.holds .complete = true) :=
  conditions_exclusive hostPathSpec false
    [.reconcile (answered 0 twoNodes),completes 0,.jobStatus 1 [⟨.failed,true⟩] none,.reconcile (answered 0 twoNodes)]
    ⟨⟨fun n hn => by cases hn; rfl,fun _ => ⟨rfl,twoNodes,rfl,rfl⟩⟩,trivial,trivial,
      ⟨fun n hn => by cases hn; rfl,fun _ => ⟨rfl,twoNodes,rfl,rfl⟩⟩,trivial⟩ _ (List.prefix_refl _)

end Retina.Controller
