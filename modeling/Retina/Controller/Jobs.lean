import Retina.Controller.Effects

/-! # The jobs of a capture

Jobs have generated names, so nothing but the listing keeps a reconcile from creating them
again, and a reconcile that finds jobs does not create those that are missing.
-/
namespace Retina.Controller
open Execution

/-- What a step needs to know of the jobs that a status event leaves behind. -/
theorem view_updateJob (w : World) (index : ℕ) (conditions : List JobCondition) (completionTime : Option ℤ) :
    (w.updateJob index conditions completionTime).view = { w.view with
      jobs := w.jobs.modify index (Job.update conditions completionTime)
      completed := ((w.jobs.modify index (Job.update conditions completionTime)).filter Job.isComplete).map Job.node ++
        w.completed } := rfl

theorem view_deleteJob (w : World) (index : ℕ) :
    (w.deleteJob index).view = { w.view with jobs := w.jobs.eraseIdx index } := rfl

theorem mem_eraseIdx_or {job : Job} {jobs : List Job} (hjob : job ∈ jobs) (index : ℕ) :
    job ∈ jobs.eraseIdx index ∨ jobs[index]? = some job := by
  obtain ⟨i,hi⟩ := List.mem_iff_getElem?.mp hjob
  by_cases h : i = index
  · exact .inr (h ▸ hi)
  · exact .inl (List.mem_eraseIdx_iff_getElem?.mpr ⟨i,h,hi⟩)

theorem view_deleteCapture (w : World) :
    (step w .deleteCapture).view = w.view ∨ (step w .deleteCapture).view = { w.view with deleting := true } := by
  unfold step
  split_ifs
  · exact .inr rfl
  · exact .inl rfl

@[simp] theorem node_update (conditions : List JobCondition) (completionTime : Option ℤ) (job : Job) :
    (Job.update conditions completionTime job).node = job.node := by
  unfold Job.update
  split_ifs <;> rfl

theorem map_node_modify (jobs : List Job) (index : ℕ) (conditions : List JobCondition) (completionTime : Option ℤ) :
    (jobs.modify index (Job.update conditions completionTime)).map Job.node = jobs.map Job.node := by
  induction jobs generalizing index with
  | nil => simp
  | cons job jobs ih =>
    cases index with
    | zero => simp
    | succ index => simp [ih]

/-! ## One job for each node -/

def ListingShowsJobs (w : World) : Event → Prop
  | .reconcile e => ∀ n, e.listing = some n → w.listed n = [] → w.jobs = []
  | _ => True

theorem nodup_created (e : Environment) (targets : Targets) : (e.created targets).Nodup := by
  unfold Environment.created
  cases e.createFails with
  | none => exact targets.nodup
  | some k => exact targets.nodup.sublist (List.take_sublist k _)

theorem map_node_createJobs {v : View} (hjobs : v.jobs = []) (targets : Targets) (created : List String) :
    (v.createJobs targets created).jobs.map Job.node = created := by
  simp [View.createJobs, hjobs, Function.comp_def]

theorem reconcile_nodup (e : Environment) (w : World) (h : (w.jobs.map Job.node).Nodup)
    (hlisting : ListingShowsJobs w (.reconcile e)) : ((reconcile e w).1.jobs.map Job.node).Nodup := by
  have heffect := reconcile_effect e w
  change ((reconcile e w).1.view.jobs.map Job.node).Nodup
  generalize (reconcile e w).1.view = v at heffect ⊢
  cases heffect with
  | unchanged => exact h
  | deleted _ => exact List.nodup_nil
  | inProgress _ _ _ => exact h
  | complete _ _ _ _ _ => exact h
  | failed _ _ _ _ => exact h
  | partly _ hsome hnone _ _ _ _ =>
    have hjobs := map_node_createJobs (v := w.view) (hlisting _ hsome hnone)
    dsimp only
    rw [hjobs]
    exact nodup_created e _
  | created _ hsome hnone _ _ _ _ =>
    have hjobs := map_node_createJobs (v := w.view) (hlisting _ hsome hnone)
    dsimp only
    rw [hjobs]
    exact Targets.nodup _

theorem step_nodup (w : World) (event : Event) (h : (w.jobs.map Job.node).Nodup) (hlisting : ListingShowsJobs w event) :
    ((step w event).jobs.map Job.node).Nodup := by
  cases event with
  | reconcile e => exact reconcile_nodup e w h hlisting
  | jobStatus index conditions completionTime =>
    change ((w.jobs.modify index (Job.update conditions completionTime)).map Job.node).Nodup
    rwa [map_node_modify]
  | deleteJob index => exact h.sublist ((List.eraseIdx_sublist w.jobs index).map Job.node)
  | deleteCapture =>
    change ((step w .deleteCapture).view.jobs.map Job.node).Nodup
    rcases view_deleteCapture w with hview | hview <;> rw [hview] <;> exact h

/-- While listings do not miss the jobs altogether, no node has two of them. -/
theorem at_most_one_job_per_node (spec : Spec) (managedStorageAccount : Bool) (events : List Event)
    (hlisting : Along step ListingShowsJobs (World.new spec managedStorageAccount) events) (earlier : List Event)
    (hearlier : earlier <+: events) :
    ((run step (World.new spec managedStorageAccount) earlier).jobs.map Job.node).Nodup := by
  obtain ⟨later,rfl⟩ := hearlier
  have hnew : ((World.new spec managedStorageAccount).jobs.map Job.node).Nodup := List.nodup_nil
  exact invariant step_nodup hnew ((along_append _ _ _ _).mp hlisting).1

def answered (listing : ℕ) (targets : Targets) : Environment where
  now := 0
  getCapture := true
  addFinalizer := true
  listing := some listing
  startUpdate := ⟨true,true⟩
  sasURL := true
  secret := true
  specUpdate := true
  translation := .ok targets
  createFails := none
  finalUpdate := ⟨true,true⟩
  deleteCapture := true
  deleteJobs := true
  deleteSecret := true
  removeFinalizer := true

def hostPathSpec : Spec := ⟨"web","apps",false,none,false,none⟩

def oneNode : Targets := ⟨["node-1"],by decide,by decide⟩

/-- The update of the status triggers a reconcile before the cache has the job. -/
theorem staleListing_creates_again :
    ¬((run step (World.new hostPathSpec false)
      [.reconcile (answered 0 oneNode),.reconcile (answered 1 oneNode)]).jobs.map Job.node).Nodup := by
  decide

theorem currentListing_creates_once :
    ((run step (World.new hostPathSpec false)
      [.reconcile (answered 0 oneNode),.reconcile (answered 0 oneNode)]).jobs.map Job.node).Nodup :=
  at_most_one_job_per_node hostPathSpec false [.reconcile (answered 0 oneNode),.reconcile (answered 0 oneNode)]
    ⟨fun _ _ _ => rfl,fun n hn h => by cases hn; exact h,trivial⟩ _ (List.prefix_refl _)

/-! ## Complete captures -/

/-- The listing is current, and the jobs are created for all targets or for none. While the capture
is not deleted itself, nobody deletes a job that has not completed. -/
def CreatesAllOrNone (w : World) : Event → Prop
  | .reconcile e => (∀ n, e.listing = some n → w.listed n = w.jobs) ∧
      ∀ targets, e.translation = .ok targets → e.created targets = [] ∨ e.created targets = targets.nodes
  | .deleteJob index => w.deleting = true ∨ ∀ job, w.jobs[index]? = some job → job.isComplete = true
  | _ => True

/-- Each target has completed or has a job. -/
structure Covered (v : View) : Prop where
  jobs : ∀ job ∈ v.jobs, job.isComplete = true → job.node ∈ v.completed
  targets : v.deleting = false → v.jobs = [] ∧ v.targets = none ∨
    ∃ nodes, v.targets = some nodes ∧ ∀ node ∈ nodes, node ∈ v.completed ∨ node ∈ v.jobs.map Job.node
  done : v.complete = true ∨ v.autoDeleted = true →
    ∃ nodes, v.targets = some nodes ∧ ∀ node ∈ nodes, node ∈ v.completed

theorem isComplete_new (node : String) : Job.isComplete { node := node } = false := rfl

theorem Covered.createJobs {v : View} (h : Covered v) (hdeleting : v.deleting = false) (hjobs : v.jobs = [])
    (targets : Targets) : Covered (v.createJobs targets targets.nodes) := by
  have hmap := map_node_createJobs hjobs targets targets.nodes
  have hnew : ∀ job ∈ (v.createJobs targets targets.nodes).jobs, job.isComplete = true → job.node ∈ v.completed := by
    intro job hjob hcomplete
    simp only [View.createJobs, hjobs, List.nil_append, List.mem_map] at hjob
    obtain ⟨node,_,rfl⟩ := hjob
    rw [isComplete_new] at hcomplete
    cases hcomplete
  rcases h.targets hdeleting with ⟨_,hnone⟩ | ⟨nodes,hnodes,hcovered⟩
  · -- the first jobs of the capture
    have htargets : (v.createJobs targets targets.nodes).targets = some targets.nodes := by
      simp [View.createJobs, hnone, targets.nonempty]
    refine ⟨hnew,fun _ => .inr ⟨targets.nodes,htargets,fun node hnode => .inr ?_⟩,fun hdone => ?_⟩
    · rwa [hmap]
    · obtain ⟨nodes,hnodes,_⟩ := h.done hdone
      rw [hnone] at hnodes
      cases hnodes
  · -- all of the jobs have completed and were deleted
    have htargets : (v.createJobs targets targets.nodes).targets = v.targets := by simp [View.createJobs, hnodes]
    refine ⟨hnew,fun _ => .inr ⟨nodes,htargets.trans hnodes,fun node hnode => .inl ?_⟩,fun hdone => ?_⟩
    · have hnode := hcovered node hnode
      rw [hjobs] at hnode
      exact hnode.resolve_right (by simp)
    · rw [htargets]
      exact h.done hdone

theorem Covered.of_complete {v : View} (h : Covered v) (hdeleting : v.deleting = false) (hne : v.jobs ≠ [])
    (hall : ∀ job ∈ v.jobs, job.isComplete = true) (cleaned : Bool) :
    Covered { v with complete := true, deleting := cleaned, autoDeleted := v.autoDeleted || cleaned } := by
  refine ⟨h.jobs,fun _ => h.targets hdeleting,fun _ => ?_⟩
  rcases h.targets hdeleting with ⟨hjobs,_⟩ | ⟨nodes,hnodes,hcovered⟩
  · exact absurd hjobs hne
  · refine ⟨nodes,hnodes,fun node hnode => (hcovered node hnode).elim id fun hmem => ?_⟩
    obtain ⟨job,hjob,rfl⟩ := List.mem_map.mp hmem
    exact h.jobs job hjob (hall job hjob)

theorem Covered.deleteJob {v : View} (h : Covered v) {index : ℕ}
    (hkept : v.deleting = true ∨ ∀ job, v.jobs[index]? = some job → job.isComplete = true) :
    Covered { v with jobs := v.jobs.eraseIdx index } := by
  refine ⟨fun job hjob => h.jobs job (List.mem_of_mem_eraseIdx hjob),fun (hdeleting : v.deleting = false) => ?_,h.done⟩
  have hcomplete := hkept.resolve_left (by simp [hdeleting])
  rcases h.targets hdeleting with ⟨hjobs,hnone⟩ | ⟨nodes,hnodes,hcovered⟩
  · exact .inl ⟨by simp [hjobs],hnone⟩
  · refine .inr ⟨nodes,hnodes,fun node hnode => (hcovered node hnode).elim .inl fun hmem => ?_⟩
    obtain ⟨job,hjob,rfl⟩ := List.mem_map.mp hmem
    rcases mem_eraseIdx_or hjob index with hleft | hdeleted
    · exact .inr (List.mem_map_of_mem hleft)
    · exact .inl (h.jobs job hjob (hcomplete job hdeleted))

theorem Covered.updateJob {v : View} (h : Covered v) (index : ℕ) (conditions : List JobCondition)
    (completionTime : Option ℤ) :
    Covered { v with
      jobs := v.jobs.modify index (Job.update conditions completionTime)
      completed := ((v.jobs.modify index (Job.update conditions completionTime)).filter Job.isComplete).map Job.node ++
        v.completed } := by
  refine ⟨?_,?_,?_⟩
  · intro job hjob hcomplete
    exact List.mem_append_left _ (List.mem_map.mpr ⟨job,List.mem_filter.mpr ⟨hjob,hcomplete⟩,rfl⟩)
  · intro hdeleting
    rcases h.targets hdeleting with ⟨hjobs,hnone⟩ | ⟨nodes,hnodes,hcovered⟩
    · exact .inl ⟨by simp [hjobs],hnone⟩
    · refine .inr ⟨nodes,hnodes,fun node hnode => ?_⟩
      dsimp only
      rw [map_node_modify]
      exact (hcovered node hnode).imp_left (List.mem_append_right _)
  · intro hdone
    obtain ⟨nodes,hnodes,hcompleted⟩ := h.done hdone
    exact ⟨nodes,hnodes,fun node hnode => List.mem_append_right _ (hcompleted node hnode)⟩

theorem reconcile_covered (e : Environment) (w : World) (h : Covered w.view)
    (hcreates : CreatesAllOrNone w (.reconcile e)) : Covered (reconcile e w).1.view := by
  obtain ⟨hcurrent,hcreated⟩ := hcreates
  have heffect := reconcile_effect e w
  generalize (reconcile e w).1.view = v at heffect ⊢
  cases heffect with
  | unchanged => exact h
  | deleted hdeleting => exact ⟨by simp,fun hnot => absurd (hdeleting.symm.trans hnot) (by decide),h.done⟩
  | inProgress _ _ _ => exact ⟨h.jobs,h.targets,fun hdone => h.done (.inr (hdone.resolve_left Bool.false_ne_true))⟩
  | complete hdeleting hsome hne hall cleaned =>
    rw [hcurrent _ hsome] at hne hall
    exact h.of_complete hdeleting hne hall cleaned
  | failed _ _ _ _ => exact ⟨h.jobs,h.targets,h.done⟩
  | partly _ _ _ targets htargets hless _ =>
    rcases hcreated _ htargets with hempty | hfull
    · have hsame : w.view.createJobs targets (e.created targets) = w.view := by simp [View.createJobs, hempty]
      rw [hsame]
      exact ⟨h.jobs,h.targets,h.done⟩
    · rw [hfull] at hless
      exact absurd hless (lt_irrefl _)
  | created hdeleting hsome hnone targets _ _ _ =>
    rw [hcurrent _ hsome] at hnone
    have hcovered := h.createJobs hdeleting hnone targets
    exact ⟨hcovered.jobs,hcovered.targets,
      fun hdone => hcovered.done (hdone.imp_left fun hc => (Bool.and_eq_true_iff.mp hc).1)⟩

theorem step_covered (w : World) (event : Event) (h : Covered w.view) (hcreates : CreatesAllOrNone w event) :
    Covered (step w event).view := by
  cases event with
  | reconcile e => exact reconcile_covered e w h hcreates
  | jobStatus index conditions completionTime =>
    rw [step, view_updateJob]
    exact h.updateJob index conditions completionTime
  | deleteJob index =>
    rw [step, view_deleteJob]
    exact h.deleteJob hcreates
  | deleteCapture =>
    rcases view_deleteCapture w with hview | hview
    · rw [hview]
      exact h
    · rw [hview]
      exact ⟨h.jobs,fun hnot => absurd hnot (by simp),h.done⟩

/-- While no reconcile creates only a part of the jobs and no job is lost, a capture that is complete, or that was deleted after
its upload, has completed on all of its targets. -/
theorem complete_covers_targets (spec : Spec) (managedStorageAccount : Bool) (events : List Event)
    (hcreates : Along step CreatesAllOrNone (World.new spec managedStorageAccount) events) (earlier : List Event)
    (hearlier : earlier <+: events)
    (hdone : (run step (World.new spec managedStorageAccount) earlier).status.holds .complete = true ∨
      (run step (World.new spec managedStorageAccount) earlier).autoDeleted = true) :
    ∃ nodes, (run step (World.new spec managedStorageAccount) earlier).targets = some nodes ∧
      ∀ node ∈ nodes, node ∈ (run step (World.new spec managedStorageAccount) earlier).completed := by
  obtain ⟨later,rfl⟩ := hearlier
  have hnew : Covered (World.new spec managedStorageAccount).view :=
    ⟨by simp [World.view, World.new],fun _ => .inl ⟨rfl,rfl⟩,fun hdone => by rcases hdone with h | h <;> cases h⟩
  have hcovered : Covered (run step (World.new spec managedStorageAccount) earlier).view :=
    invariant (I := fun w => Covered w.view) step_covered hnew ((along_append _ _ _ _).mp hcreates).1
  exact hcovered.done hdone

def twoNodes : Targets := ⟨["node-1","node-2"],by decide,by decide⟩

def completes (index : ℕ) : Event := .jobStatus index [⟨.complete,true⟩] (some 1)

/-- The job of the second node was never created. -/
theorem missingJob_complete :
    let w := run step (World.new hostPathSpec false)
      [.reconcile { answered 0 twoNodes with createFails := some 1 },completes 0,.reconcile (answered 0 twoNodes)]
    w.status.holds .complete = true ∧ w.targets = some ["node-1","node-2"] ∧ "node-2" ∉ w.completed := by
  decide

theorem allJobs_complete :
    ∃ nodes, (run step (World.new hostPathSpec false)
        [.reconcile (answered 0 oneNode),completes 0,.reconcile (answered 0 oneNode)]).targets = some nodes ∧
      ∀ node ∈ nodes, node ∈ (run step (World.new hostPathSpec false)
        [.reconcile (answered 0 oneNode),completes 0,.reconcile (answered 0 oneNode)]).completed :=
  complete_covers_targets hostPathSpec false
    [.reconcile (answered 0 oneNode),completes 0,.reconcile (answered 0 oneNode)]
    ⟨⟨fun n hn => by cases hn; rfl,fun targets h => by cases h; exact .inr rfl⟩,trivial,
      ⟨fun n hn => by cases hn; rfl,fun targets h => by cases h; exact .inr rfl⟩,trivial⟩
    _ (List.prefix_refl _) (.inl (by decide))

end Retina.Controller
