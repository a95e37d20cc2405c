import Retina.Controller.Jobs

/-! # Reconciling a finished capture

The time of completion is the latest of the jobs' times and of the clock. It is written again
whenever it differs from the stored one, and a time of the clock always differs.
-/
namespace Retina.Controller
open Execution

def completionTimes (jobs : List Job) : Set ℤ := {t | ∃ job ∈ jobs, job.completionTime = some t}

theorem completionTimes_cons (job : Job) (jobs : List Job) :
    completionTimes (job :: jobs) = {t | job.completionTime = some t} ∪ completionTimes jobs := by
  ext t
  simp [completionTimes]

/-- The fold either keeps the time that it starts from, or ends at the latest of the jobs' times. -/
theorem lastTime_cases (last : GoTime) (jobs : List Job) :
    let result := jobs.foldl (fun last job =>
      match job.completionTime with
      | none => last
      | some t => if last.nanos < (GoTime.api t).nanos then .api t else last) last
    ((∀ t ∈ completionTimes jobs, t * 1000000000 ≤ last.nanos) ∧ result = last) ∨
      ∃ t, IsGreatest (completionTimes jobs) t ∧ last.nanos < t * 1000000000 ∧ result = .api t := by
  induction jobs generalizing last with
  | nil => exact .inl ⟨by simp [completionTimes],rfl⟩
  | cons job jobs ih =>
    rw [completionTimes_cons]
    cases htime : job.completionTime with
    | none => simpa [htime] using ih last
    | some s =>
      have hsingle : {t : ℤ | some s = some t} = {s} := by ext t; simp [eq_comm]
      rw [hsingle]
      by_cases hlater : last.nanos < (GoTime.api s).nanos
      · simp only [List.foldl_cons, htime, if_pos hlater]
        have hlast : last.nanos < s * 1000000000 := hlater
        right
        rcases ih (.api s) with ⟨hle,hresult⟩ | ⟨t,hgreatest,hlt,hresult⟩
        · refine ⟨s,⟨.inl rfl,?_⟩,hlast,hresult⟩
          rintro t (rfl | ht)
          · exact le_rfl
          · have h : t * 1000000000 ≤ s * 1000000000 := hle t ht
            omega
        · have hst : s * 1000000000 < t * 1000000000 := hlt
          refine ⟨t,⟨.inr hgreatest.1,?_⟩,hlast.trans hst,hresult⟩
          rintro u (rfl | hu)
          · omega
          · exact hgreatest.2 hu
      · simp only [List.foldl_cons, htime, if_neg hlater]
        have hle : s * 1000000000 ≤ last.nanos := not_lt.mp hlater
        rcases ih last with ⟨hall,hresult⟩ | ⟨t,hgreatest,hlt,hresult⟩
        · refine .inl ⟨?_,hresult⟩
          rintro t (rfl | ht)
          · exact hle
          · exact hall t ht
        · refine .inr ⟨t,⟨.inr hgreatest.1,?_⟩,hlt,hresult⟩
          rintro u (rfl | hu)
          · omega
          · exact hgreatest.2 hu

theorem lastCompleteTime_eq {jobs : List Job} {latest : ℤ} (hlatest : IsGreatest (completionTimes jobs) latest)
    (now : ℤ) : lastCompleteTime now jobs = if now < latest * 1000000000 then .api latest else .clock now := by
  rcases lastTime_cases (.clock now) jobs with ⟨hle,hresult⟩ | ⟨t,hgreatest,hlt,hresult⟩
  · have h : latest * 1000000000 ≤ now := hle latest hlatest.1
    rw [if_neg (not_lt.mpr h)]
    exact hresult
  · obtain rfl := hgreatest.unique hlatest
    rw [if_pos (show now < t * 1000000000 from hlt)]
    exact hresult

/-- A time of the clock that is not before the latest one is stored as its second. -/
theorem stored_lastCompleteTime_eq_iff {jobs : List Job} {latest : ℤ}
    (hlatest : IsGreatest (completionTimes jobs) latest) (now : ℤ) :
    (lastCompleteTime now jobs).stored = latest ↔ now / 1000000000 ≤ latest := by
  rw [lastCompleteTime_eq hlatest]
  split_ifs with hbefore
  · simp only [GoTime.stored, true_iff]
    omega
  · simp only [GoTime.stored]
    omega

/-! ## The status of a complete capture -/

def completeStatus (now : ℤ) (status : Status GoTime) (jobs : List Job) : Status GoTime :=
  { (countJobs now status jobs).setCondition (completeCondition now (jobs.filter Job.isComplete).length) with
    completionTime := some (lastCompleteTime now jobs) }

theorem countJobs_of_complete {jobs : List Job} (hall : ∀ job ∈ jobs, job.isComplete = true) (now : ℤ)
    (status : Status GoTime) :
    countJobs now status jobs = { status with
      active := (jobs.filter Job.isActive).length
      failed := (jobs.filter Job.isFailed).length
      succeeded := (jobs.filter Job.isComplete).length } := by
  have hnone : jobs.filter Job.isFailed = [] := by
    rw [List.filter_eq_nil_iff]
    exact List.any_eq_false.mp (any_isFailed_of_complete hall)
  rw [countJobs, if_pos hnone]

/-- A condition that says the same again does not even change its time. -/
theorem setStatusCondition_again {τ σ : Type} (f : τ → σ) (conditions : List (Condition τ)) (new : Condition τ)
    (time : σ) :
    setStatusCondition ((setStatusCondition conditions new).map (·.map f))
        { type := new.type, status := new.status, reason := new.reason, message := new.message,
          lastTransitionTime := time } =
      (setStatusCondition conditions new).map (·.map f) := by
  induction conditions with
  | nil => simp [setStatusCondition, Condition.map]
  | cons c rest ih =>
    rw [setStatusCondition]
    by_cases hc : c.type = new.type
    · simp [if_pos hc, setStatusCondition, Condition.map]
    · rw [if_neg hc, List.map_cons, setStatusCondition, if_neg (show ¬(c.map f).type = new.type from hc), ih]

/-- Only the time of completion can change once more. -/
theorem completeStatus_again {jobs : List Job} (hall : ∀ job ∈ jobs, job.isComplete = true) (first now : ℤ)
    (status : Status GoTime) :
    completeStatus now (((completeStatus first status jobs).map GoTime.stored).map GoTime.api) jobs =
      { ((completeStatus first status jobs).map GoTime.stored).map GoTime.api with
        completionTime := some (lastCompleteTime now jobs) } := by
  have hconditions := setStatusCondition_again (fun t => GoTime.api (GoTime.stored t)) status.conditions
    (completeCondition first (jobs.filter Job.isComplete).length) (.clock now)
  have hmap : ∀ c : Condition GoTime, (c.map GoTime.stored).map GoTime.api = c.map fun t => .api t.stored := fun _ => rfl
  simp only [completeStatus, countJobs_of_complete hall, Status.setCondition, Status.map, List.map_map,
    Function.comp_def, hmap]
  simp only [completeCondition] at hconditions ⊢
  rw [hconditions]

structure Finished (w : World) : Prop where
  present : w.present = true
  deleting : w.deleting = false
  cleanUpAfterUpload : w.spec.cleanUpAfterUpload = false
  jobs : w.jobs ≠ []
  complete : ∀ job ∈ w.jobs, job.isComplete = true

theorem updateCaptureStatusFromJobs_of_finished {w : World} (h : Finished w) (e : Environment) (status : Status GoTime) :
    (updateCaptureStatusFromJobs e status w.jobs w).1 =
      (updateStatus e.finalUpdate (completeStatus e.now status w.jobs) w).1 := by
  have hspec := congrArg World.spec (updateStatus_fst e.finalUpdate (completeStatus e.now status w.jobs) w)
  rw [updateCaptureStatusFromJobs, if_neg (not_not.mpr ((length_filter_eq_iff _).mpr h.complete))]
  rw [completeStatus] at hspec ⊢
  dsimp only at hspec ⊢
  generalize hs : ({ (countJobs e.now status w.jobs).setCondition
    (completeCondition e.now (w.jobs.filter Job.isComplete).length) with
      completionTime := some (lastCompleteTime e.now w.jobs) } : Status GoTime) = s at hspec ⊢
  cases hupdate : updateStatus e.finalUpdate s w with
  | mk w' result =>
    cases result with
    | error failure => rfl
    | ok done =>
      rw [hupdate] at hspec
      have hno : w'.spec.cleanUpAfterUpload = false := (congrArg Spec.cleanUpAfterUpload hspec).trans h.cleanUpAfterUpload
      simp [cleanUp, hno]

theorem handleUpdate_of_finished {w : World} (h : Finished w) {e : Environment} (hlisting : e.listing = some 0) :
    (handleUpdate e w).1 = (updateStatus e.finalUpdate (completeStatus e.now (w.status.map .api) w.jobs) w).1 := by
  have hlisted : w.listed 0 = w.jobs := rfl
  rw [← updateCaptureStatusFromJobs_of_finished h]
  simp only [handleUpdate, hlisting, hlisted, ne_eq, h.jobs, not_false_eq_true, if_true]

theorem reconcile_eq_handleUpdate {w : World} (h : Finished w) {e : Environment} (hget : e.getCapture = true)
    (hfinalizer : w.finalizer = true ∨ e.addFinalizer = true) :
    reconcile e w = handleUpdate e { w with finalizer := true } := by
  have hadded : (!w.finalizer && !e.addFinalizer) = false := by
    rcases hfinalizer with h | h <;> simp [h]
  simp only [reconcile, h.present, h.deleting, hget, hadded, Bool.not_true, Bool.false_eq_true, if_false]

theorem reconcile_of_finished {w : World} (h : Finished w) {e : Environment} (hget : e.getCapture = true)
    (hlisting : e.listing = some 0) (hfinalizer : w.finalizer = true ∨ e.addFinalizer = true) :
    (reconcile e w).1 = (updateStatus e.finalUpdate (completeStatus e.now (w.status.map .api) w.jobs)
      { w with finalizer := true }).1 := by
  have hfinished : Finished { w with finalizer := true } := ⟨h.1,h.2,h.3,h.4,h.5⟩
  rw [reconcile_eq_handleUpdate h hget hfinalizer]
  exact handleUpdate_of_finished hfinished hlisting

/-! ## Further reconciles -/

def Environment.compares (e : Environment) : Bool := e.getCapture && e.listing.isSome && e.finalUpdate.get

/-- The stored status is the one that a reconcile computes, up to the time of completion. -/
structure Settled (latest : ℤ) (w : World) : Prop extends Finished w where
  finalizer : w.finalizer = true
  greatest : IsGreatest (completionTimes w.jobs) latest
  stored : w.status.completionTime = some latest
  status : ∀ now, completeStatus now (w.status.map .api) w.jobs =
    { w.status.map .api with completionTime := some (lastCompleteTime now w.jobs) }

theorem reconcile_of_not_compares {w : World} (h : Finished w) (hfinalizer : w.finalizer = true) {e : Environment}
    (hlisting : e.listing = none ∨ e.listing = some 0) (hnot : e.compares = false) : (reconcile e w).1 = w := by
  have hadded : ({ w with finalizer := true } : World) = w := by rw [← hfinalizer]
  cases hget : e.getCapture with
  | false => simp [reconcile, h.present, hget]
  | true =>
    rcases hlisting with hlisting | hlisting
    · rw [reconcile_eq_handleUpdate h hget (.inl hfinalizer), hadded]
      simp [handleUpdate, hlisting]
    · have hupdate : e.finalUpdate.get = false := by
        simpa [Environment.compares, hget, hlisting] using hnot
      rw [reconcile_of_finished h hget hlisting (.inl hfinalizer), hadded]
      simp [updateStatus, hupdate]

theorem reconcile_of_settled {latest : ℤ} {w : World} (h : Settled latest w) {e : Environment}
    (hlisting : e.listing = none ∨ e.listing = some 0) (hcompares : e.compares = true) :
    if e.now < latest * 1000000000 then (reconcile e w).1 = w
    else (reconcile e w).1.statusUpdates = w.statusUpdates + 1 := by
  simp only [Environment.compares, Bool.and_eq_true] at hcompares
  obtain ⟨⟨hget,hsome⟩,hupdate⟩ := hcompares
  have hzero : e.listing = some 0 := hlisting.resolve_left fun hnone => by simp [hnone] at hsome
  have hadded : ({ w with finalizer := true } : World) = w := by rw [← h.finalizer]
  rw [reconcile_of_finished h.toFinished hget hzero (.inl h.finalizer), hadded, h.status, lastCompleteTime_eq h.greatest]
  split_ifs with hbefore
  · have hsame : ({ w.status.map .api with completionTime := some (.api latest) } : Status GoTime) = w.status.map .api := by
      simp [Status.map, h.stored]
    rw [hsame]
    simp [updateStatus, hupdate]
  · have hdiffers : ({ w.status.map .api with completionTime := some (.clock e.now) } : Status GoTime) ≠
        w.status.map .api := by
      intro heq
      have htime := congrArg Status.completionTime heq
      simp [Status.map, h.stored] at htime
    cases hwritten : e.finalUpdate.update <;> simp [updateStatus, hupdate, hdiffers, hwritten]

theorem run_settled_iff {latest : ℤ} {w : World} (h : Settled latest w) {further : List Environment}
    (hlisting : ∀ e ∈ further, e.listing = none ∨ e.listing = some 0) :
    (∀ earlier, earlier <+: further →
        (run (fun w e => (reconcile e w).1) w earlier).status = w.status ∧
          (run (fun w e => (reconcile e w).1) w earlier).statusUpdates = w.statusUpdates) ↔
      ∀ e ∈ further, e.compares = true → e.now < latest * 1000000000 := by
  have hquiet : ∀ e ∈ further, (e.compares = true → e.now < latest * 1000000000) → (reconcile e w).1 = w := by
    intro e he hbefore
    cases hcompares : e.compares with
    | false => exact reconcile_of_not_compares h.toFinished h.finalizer (hlisting e he) hcompares
    | true =>
      have hstep := reconcile_of_settled h (hlisting e he) hcompares
      rwa [if_pos (hbefore hcompares)] at hstep
  constructor
  · intro hall
    induction further with
    | nil => simp
    | cons e further ih =>
      have hfirst : e.compares = true → e.now < latest * 1000000000 := by
        intro hcompares
        by_contra hafter
        have hstep := reconcile_of_settled h (hlisting e List.mem_cons_self) hcompares
        rw [if_neg hafter] at hstep
        have hupdates := (hall [e] ⟨further,rfl⟩).2
        change (reconcile e w).1.statusUpdates = w.statusUpdates at hupdates
        omega
      have hsame := hquiet e List.mem_cons_self hfirst
      refine List.forall_mem_cons.mpr ⟨hfirst,ih (fun e' he' => hlisting e' (List.mem_cons_of_mem e he'))
        (fun e' he' => hquiet e' (List.mem_cons_of_mem e he')) fun earlier hearlier => ?_⟩
      have h := hall (e :: earlier) (List.cons_prefix_cons.mpr ⟨rfl,hearlier⟩)
      rwa [run_cons, hsame] at h
  · intro hbefore earlier hearlier
    have hfixed : run (fun w e => (reconcile e w).1) w earlier = w :=
      run_of_fixed fun e he => hquiet e (hearlier.subset he) (hbefore e (hearlier.subset he))
    rw [hfixed]
    exact ⟨rfl,rfl⟩

/-- The completed capture stays as it is exactly if its jobs' latest time is not before the second of the first
reconcile and is after every further one. -/
theorem complete_idempotent_iff (w : World) (hfinished : Finished w) (e : Environment) (hget : e.getCapture = true)
    (hfinalizer : w.finalizer = true ∨ e.addFinalizer = true) (hcurrent : e.listing = some 0)
    (hupdate : e.finalUpdate.succeeds = true) (further : List Environment)
    (hlisting : ∀ e ∈ further, e.listing = none ∨ e.listing = some 0) :
    (reconcile e w).1.status.holds .complete = true ∧
      (((∃ latest, IsGreatest (completionTimes w.jobs) latest ∧
            (reconcile e w).1.status.completionTime = some latest) ∧
          ∀ earlier, earlier <+: further →
            (run (fun w e => (reconcile e w).1) (reconcile e w).1 earlier).status = (reconcile e w).1.status ∧
            (run (fun w e => (reconcile e w).1) (reconcile e w).1 earlier).statusUpdates =
              (reconcile e w).1.statusUpdates) ↔
        ∃ latest, IsGreatest (completionTimes w.jobs) latest ∧ e.now / 1000000000 ≤ latest ∧
          ∀ e' ∈ further, e'.compares = true → e'.now < latest * 1000000000) := by
  have hfirst := updateStatus_fst e.finalUpdate (completeStatus e.now (w.status.map .api) w.jobs)
    { w with finalizer := true }
  rw [if_pos hupdate, ← reconcile_of_finished hfinished hget hcurrent hfinalizer] at hfirst
  generalize (reconcile e w).1 = w' at hfirst ⊢
  have hstatus : w'.status = (completeStatus e.now (w.status.map .api) w.jobs).map GoTime.stored := by rw [hfirst]
  have hjobs : w'.jobs = w.jobs := by rw [hfirst]
  have hfinished' : Finished w' := by
    rw [hfirst]
    exact ⟨hfinished.1,hfinished.2,hfinished.3,hfinished.4,hfinished.5⟩
  have hfinalizer' : w'.finalizer = true := by rw [hfirst]
  have hagain : ∀ now, completeStatus now (w'.status.map .api) w'.jobs =
      { w'.status.map .api with completionTime := some (lastCompleteTime now w'.jobs) } := by
    intro now
    rw [hstatus, hjobs]
    exact completeStatus_again hfinished.complete e.now now _
  have hstored : w'.status.completionTime = some (lastCompleteTime e.now w.jobs).stored := by
    rw [hstatus]
    rfl
  have hsettled : ∀ latest, IsGreatest (completionTimes w.jobs) latest → w'.status.completionTime = some latest →
      Settled latest w' := fun latest hlatest htime => ⟨hfinished',hfinalizer',hjobs ▸ hlatest,htime,hagain⟩
  have htime : ∀ latest, IsGreatest (completionTimes w.jobs) latest →
      (w'.status.completionTime = some latest ↔ e.now / 1000000000 ≤ latest) := by
    intro latest hlatest
    rw [hstored, Option.some_inj]
    exact stored_lastCompleteTime_eq_iff hlatest e.now
  refine ⟨?_,?_,?_⟩
  · rw [hstatus, Status.holds_map]
    exact (Status.holds_setCondition _ _ _).trans (if_pos rfl)
  · rintro ⟨⟨latest,hlatest,hsame⟩,hall⟩
    exact ⟨latest,hlatest,(htime latest hlatest).mp hsame,
      (run_settled_iff (hsettled latest hlatest hsame) hlisting).mp hall⟩
  · rintro ⟨latest,hlatest,hnow,hbefore⟩
    have hsame := (htime latest hlatest).mpr hnow
    exact ⟨⟨latest,hlatest,hsame⟩,(run_settled_iff (hsettled latest hlatest hsame) hlisting).mpr hbefore⟩

def finishedWorld : World :=
  run step (World.new hostPathSpec false) [.reconcile (answered 0 oneNode),completes 0]

def clockAt (now : ℤ) : Environment := { answered 0 oneNode with now := now }

theorem completionTime_follows_clock :
    finishedWorld.jobs.map Job.completionTime = [some 1] ∧
      (let w := (reconcile (clockAt 2500000000) finishedWorld).1
      let w' := (reconcile (clockAt 3500000000) w).1
      w.status.completionTime = some 2 ∧ w'.status.completionTime = some 3 ∧ w'.statusUpdates = w.statusUpdates + 1) := by
  decide

theorem slowClock_settles :
    (reconcile (clockAt 500000000) finishedWorld).1.status.holds .complete = true ∧
      (((∃ latest, IsGreatest (completionTimes finishedWorld.jobs) latest ∧
            (reconcile (clockAt 500000000) finishedWorld).1.status.completionTime = some latest) ∧
          ∀ earlier, earlier <+: [clockAt 900000000] →
            (run (fun w e => (reconcile e w).1) (reconcile (clockAt 500000000) finishedWorld).1 earlier).status =
              (reconcile (clockAt 500000000) finishedWorld).1.status ∧
            (run (fun w e => (reconcile e w).1) (reconcile (clockAt 500000000) finishedWorld).1 earlier).statusUpdates =
              (reconcile (clockAt 500000000) finishedWorld).1.statusUpdates) ↔
        ∃ latest, IsGreatest (completionTimes finishedWorld.jobs) latest ∧ (clockAt 500000000).now / 1000000000 ≤ latest ∧
          ∀ e' ∈ [clockAt 900000000], e'.compares = true → e'.now < latest * 1000000000) :=
  complete_idempotent_iff finishedWorld ⟨rfl,rfl,rfl,by decide,by decide⟩ (clockAt 500000000) rfl (.inl rfl) rfl rfl
    [clockAt 900000000] (by simp [clockAt, answered])

end Retina.Controller
