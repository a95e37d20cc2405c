import Retina.Controller.Status

/-! # The capture controller

`pkg/controllers/operator/capture/controller.go`: what one call of `Reconcile` does to a Capture
object and to its jobs. Each request to the API server can fail, and a listing of the jobs may
be answered from a cache that shows an earlier state of them. The reads of the Capture object
itself are current. The jobs are run by the cluster: a job that has finished stays as it is, until
somebody deletes it.
-/
namespace Retina.Controller

structure Spec where
  name : String
  namespaceName : String
  cleanUpAfterUpload : Bool
  blobUpload : Option String
  hasS3Upload : Bool
  persistentVolumeClaim : Option String

def Spec.hasRemoteStorage (spec : Spec) : Bool :=
  spec.blobUpload.isSome || spec.hasS3Upload || spec.persistentVolumeClaim.isSome

def managedSecretName (captureName : String) : String := "managed-" ++ captureName

structure Targets where
  nodes : List String
  nonempty : nodes ≠ []
  nodup : nodes.Nodup

inductive TranslationError
  | jobNumExceedLimit (message : String)
  | secretNotFound (message : String)
  | other (message : String)

def TranslationError.reason : TranslationError → String
  | .jobNumExceedLimit _ => "ExceedJobNumLimit"
  | .secretNotFound _ => "FindSecretFailed"
  | .other _ => "OtherError"

def TranslationError.message : TranslationError → String
  | .jobNumExceedLimit message => message
  | .secretNotFound message => message
  | .other message => message

/-- The Capture object and its jobs on the API server, and what has happened so far. -/
structure World where
  spec : Spec
  managedStorageAccount : Bool
  present : Bool := true
  finalizer : Bool := false
  deleting : Bool := false
  status : Status ℤ := {}
  jobs : List Job := []
  /-- Earlier states of the jobs, the latest first. -/
  history : List (List Job) := []
  /-- The targets of the reconcile that first created jobs. -/
  targets : Option (List String) := none
  /-- The nodes where a job has completed. -/
  completed : List String := []
  /-- The controller itself deleted the object. -/
  autoDeleted : Bool := false
  /-- The updates of the status that the controller has requested. -/
  statusUpdates : ℕ := 0

structure UpdateOutcome where
  get : Bool
  update : Bool

def UpdateOutcome.succeeds (u : UpdateOutcome) : Bool := u.get && u.update

/-- The clock in one call of `Reconcile`, and the outcomes of its requests. -/
structure Environment where
  now : ℤ
  getCapture : Bool
  addFinalizer : Bool
  /-- How many changes of the jobs the listing lags behind. -/
  listing : Option ℕ
  startUpdate : UpdateOutcome
  sasURL : Bool
  secret : Bool
  specUpdate : Bool
  translation : Except TranslationError Targets
  /-- The first job that cannot be created. -/
  createFails : Option ℕ
  finalUpdate : UpdateOutcome
  deleteCapture : Bool
  deleteJobs : Bool
  deleteSecret : Bool
  removeFinalizer : Bool

inductive Failure
  | getCapture
  | addFinalizer
  | listJobs
  | createSASURL
  | updateWithSecret
  | updateStatus
  | autoDelete
  | deleteJobs
  | deleteSecret
  | removeFinalizer

def Failure.text : Failure → String
  | .getCapture => "failed to get Capture: "
  | .addFinalizer => ""
  | .listJobs => "failed to list Capture jobs: "
  | .createSASURL => "failed to create Capture SAS URL: "
  | .updateWithSecret => "failed to update capture with managed secret: "
  | .updateStatus => "failed to update status of Capture: "
  | .autoDelete => "failed to auto-delete Capture after successful upload: "
  | .deleteJobs => "failed to delete Capture jobs: "
  | .deleteSecret => "failed to delete secret: "
  | .removeFinalizer => "failed to remove Capture finalizer: "

abbrev Result := Except Failure Unit

/-- The jobs in a listing that lags behind by `n` changes. At first there are none. -/
def World.listed (w : World) (n : ℕ) : List Job := (w.jobs :: w.history).getD n []

/-- `updateStatus`: the status is only written if it differs from the stored one. -/
def updateStatus (u : UpdateOutcome) (status : Status GoTime) (w : World) : World × Result :=
  if !u.get then (w,.error .getCapture)
  else if status = w.status.map .api then (w,.ok ())
  else
    let w := { w with statusUpdates := w.statusUpdates + 1 }
    if !u.update then (w,.error .updateStatus)
    else ({ w with status := status.map GoTime.stored },.ok ())

def errorCondition (now : ℤ) (reason message : String) : Condition GoTime :=
  { type := .error, status := true, reason := reason, message := message, lastTransitionTime := .clock now }

def inProgressCondition (now : ℤ) (active total : ℕ) : Condition GoTime :=
  { type := .complete
    status := false
    reason := "JobsInProgress"
    message := toString active ++ "/" ++ toString total ++ " Capture jobs are in progress, waiting for completion"
    lastTransitionTime := .clock now }

def completeCondition (now : ℤ) (total : ℕ) : Condition GoTime :=
  { type := .complete
    status := true
    reason := "JobsCompleted"
    message := "All " ++ toString total ++ " Capture jobs are completed"
    lastTransitionTime := .clock now }

/-- The later of the clock and the times at which the jobs completed. -/
def lastCompleteTime (now : ℤ) (jobs : List Job) : GoTime :=
  jobs.foldl (fun last job =>
    match job.completionTime with
    | none => last
    | some t => if last.nanos < (GoTime.api t).nanos then .api t else last) (.clock now)

def countJobs (now : ℤ) (status : Status GoTime) (captureJobs : List Job) : Status GoTime :=
  let failedJobs := captureJobs.filter Job.isFailed
  let status := { status with
    active := (captureJobs.filter Job.isActive).length
    failed := failedJobs.length
    succeeded := (captureJobs.filter Job.isComplete).length }
  if failedJobs = [] then status
  else status.setCondition (errorCondition now "RunJobFailed"
    (toString failedJobs.length ++ " Capture jobs are in failed state"))

def cleanUp (e : Environment) (failedJobs : List Job) (w : World) : World × Result :=
  if !w.spec.cleanUpAfterUpload ∨ failedJobs ≠ [] then (w,.ok ())
  else if !w.spec.hasRemoteStorage then (w,.ok ())
  else if !e.deleteCapture then (w,.error .autoDelete)
  else ({ w with deleting := true, autoDeleted := true },.ok ())

def updateCaptureStatusFromJobs (e : Environment) (status : Status GoTime) (captureJobs : List Job) (w : World) :
    World × Result :=
  let activeJobs := captureJobs.filter Job.isActive
  let successfulJobs := captureJobs.filter Job.isComplete
  let status := countJobs e.now status captureJobs
  if successfulJobs.length ≠ captureJobs.length then
    updateStatus e.finalUpdate
      (status.setCondition (inProgressCondition e.now activeJobs.length captureJobs.length)) w
  else
    let status := status.setCondition (completeCondition e.now successfulJobs.length)
    let status := { status with completionTime := some (lastCompleteTime e.now captureJobs) }
    match updateStatus e.finalUpdate status w with
    | (w,.error failure) => (w,.error failure)
    | (w,.ok ()) => cleanUp e (captureJobs.filter Job.isFailed) w

def Environment.created (e : Environment) (targets : Targets) : List String :=
  match e.createFails with
  | none => targets.nodes
  | some k => targets.nodes.take k

def World.createJobs (w : World) (targets : Targets) (created : List String) : World :=
  { w with
    jobs := w.jobs ++ created.map fun node => { node := node }
    -- each creation is a change of its own, that a listing may stop at
    history := (created.inits.dropLast.map fun nodes => w.jobs ++ nodes.map fun node => { node := node }).reverse ++
      w.history
    targets := if w.targets.isNone ∧ created ≠ [] then some targets.nodes else w.targets }

def createJobsFromCapture (e : Environment) (status : Status GoTime) (w : World) : World × Result :=
  match e.translation with
  | .error err => updateStatus e.finalUpdate (status.setCondition (errorCondition e.now err.reason err.message)) w
  | .ok targets =>
    let created := e.created targets
    let w := w.createJobs targets created
    if created.length < targets.nodes.length then
      updateStatus e.finalUpdate
        (status.setCondition (errorCondition e.now "CreateJobFailed"
          -- the name of the job is generated by the API server
          ("Failed to create Capture job " ++ "/" ++ w.spec.namespaceName))) w
    else
      updateStatus e.finalUpdate
        (status.setCondition (inProgressCondition e.now targets.nodes.length targets.nodes.length)) w

def createResources (e : Environment) (status : Status GoTime) (w : World) : World × Result :=
  if w.managedStorageAccount ∧ w.spec.blobUpload = none then
    if !e.sasURL then (w,.error .createSASURL)
    else if !e.secret then
      updateStatus e.finalUpdate (status.setCondition (errorCondition e.now "CreateSecretFailed"
        ("Failed to create secret " ++ managedSecretName w.spec.name ++ "/" ++ w.spec.namespaceName))) w
    else if !e.specUpdate then (w,.error .updateWithSecret)
    else
      let w := { w with spec := { w.spec with blobUpload := some (managedSecretName w.spec.name) } }
      -- the answer to the update has the stored status
      createJobsFromCapture e (w.status.map .api) w
  else createJobsFromCapture e status w

def handleUpdate (e : Environment) (w : World) : World × Result :=
  match e.listing with
  | none => (w,.error .listJobs)
  | some n =>
    let captureJobList := w.listed n
    let status := w.status.map GoTime.api
    if captureJobList ≠ [] then updateCaptureStatusFromJobs e status captureJobList w
    else if status.startTime = none then
      let status := { status with startTime := some (.clock e.now) }
      match updateStatus e.startUpdate status w with
      | (w,.error failure) => (w,.error failure)
      | (w,.ok ()) => createResources e status w
    else createResources e status w

def handleDelete (e : Environment) (w : World) : World × Result :=
  if !w.finalizer then (w,.ok ())
  else if !e.deleteJobs then (w,.error .deleteJobs)
  else
    let w := { w with jobs := [], history := w.jobs :: w.history }
    if w.managedStorageAccount ∧ w.spec.blobUpload = some (managedSecretName w.spec.name) ∧ !e.deleteSecret then
      (w,.error .deleteSecret)
    else if !e.removeFinalizer then (w,.error .removeFinalizer)
    else ({ w with finalizer := false, present := false },.ok ())

/-- `Reconcile`. A capture that is not found is no error. -/
def reconcile (e : Environment) (w : World) : World × Result :=
  if !w.present then (w,.ok ())
  else if !e.getCapture then (w,.error .getCapture)
  else if w.deleting then handleDelete e w
  else if !w.finalizer && !e.addFinalizer then (w,.error .addFinalizer)
  else handleUpdate e { w with finalizer := true }

/-! ## Runs -/

inductive Event
  | reconcile (e : Environment)
  /-- The status of a job changes. -/
  | jobStatus (index : ℕ) (conditions : List JobCondition) (completionTime : Option ℤ)
  /-- A job is deleted by somebody else, as `retina capture delete` does. -/
  | deleteJob (index : ℕ)
  /-- A user deletes the object. -/
  | deleteCapture

def Job.update (conditions : List JobCondition) (completionTime : Option ℤ) (job : Job) : Job :=
  if job.isActive then { job with conditions := conditions, completionTime := completionTime } else job

def World.updateJob (w : World) (index : ℕ) (conditions : List JobCondition) (completionTime : Option ℤ) : World :=
  let jobs := w.jobs.modify index (Job.update conditions completionTime)
  { w with
    jobs := jobs
    history := w.jobs :: w.history
    completed := (jobs.filter Job.isComplete).map Job.node ++ w.completed }

def World.deleteJob (w : World) (index : ℕ) : World :=
  { w with jobs := w.jobs.eraseIdx index, history := w.jobs :: w.history }

def step (w : World) : Event → World
  | .reconcile e => (reconcile e w).1
  | .jobStatus index conditions completionTime => w.updateJob index conditions completionTime
  | .deleteJob index => w.deleteJob index
  | .deleteCapture => if w.finalizer then { w with deleting := true } else { w with present := false }

def World.new (spec : Spec) (managedStorageAccount : Bool) : World where
  spec := spec
  managedStorageAccount := managedStorageAccount

end Retina.Controller
