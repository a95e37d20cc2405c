import Retina.Capture.FileNames
import Retina.Capture.JobEnv
import Retina.Capture.StopCondition

/-! # The jobs of a capture

`TranslateCaptureToJobs` of `pkg/capture/crd_to_job.go`: the checks, the reads of what the output needs, and one job for
each target. A job is given by its node and by the filters of its environment.
-/
namespace Retina.Capture

structure S3Upload where
  endpoint : String
  bucket : String
  secretName : String
  region : String
  path : String

structure CaptureObject where
  name : String
  namespaceName : String
  startTime : Option Time
  spec : CaptureSpec
  filters : Option CaptureConfigurationFilters
  pcapFilter : Option String
  s3Upload : Option S3Upload
  hasS3Upload : spec.hasS3Upload = s3Upload.isSome

def CaptureObject.configuration (capture : CaptureObject) : CaptureConfiguration where
  filters := capture.filters
  tcpdumpFilter := capture.spec.tcpdumpFilter
  pcapFilter := capture.pcapFilter
  sourceIPs := capture.spec.sourceIPs
  destinationIPs := capture.spec.destinationIPs

inductive TranslateError
  | capture (e : CaptureError)
  | output (e : OutputError)
  | secretNotFound (secretName namespaceName : String)
  | getSecret (error : String)
  | getS3Secret (error : String)
  | getPersistentVolumeClaim (namespaceName name : String)
  | targets (e : TargetsError)
  | noOutput
  | filters (error : String)
  | noNodes
  | timestamp (stringTimestamp : GoString)
  | jobNumExceedLimit (currentNum : ℕ) (limit : ℤ)

/-- The message of an error; `quote` is `strconv.Quote`, and `timeError` the message of `time.Parse`. -/
def TranslateError.text (quote timeError : GoString → GoString) : TranslateError → GoString
  | .capture e => e.text quote
  | .output e => e.text quote
  | .secretNotFound secretName namespaceName => utf8
    ("secret of Capture is not found when blobupload is enabled, secretName: " ++ secretName ++ "/" ++ namespaceName)
  | .getSecret error => utf8 error
  | .getS3Secret error => utf8 ("failed to get secrets for Capture: " ++ error)
  | .getPersistentVolumeClaim namespaceName name => utf8 ("failed to get pvc " ++ namespaceName ++ "/" ++ name)
  | .targets e => utf8 e.text
  | .noOutput => ascii "need to specify at least one outputConfiguration."
  | .filters error => utf8 error
  | .noNodes => ascii "no nodes are selected"
  | .timestamp stringTimestamp => ascii
    "failed to parse capture start timestamp: failed to create timestamp from string: " ++ timeError stringTimestamp
  | .jobNumExceedLimit currentNum limit => utf8
    ("the number of capture jobs " ++ toString currentNum ++ " exceeds the limit " ++ toString limit)

inductive Lookup
  | found
  | notFound
  | failed (error : String)

/-- The configuration of the translation, and the answers to its requests. -/
structure Translator where
  ip : IPParser
  selectors : SelectorText
  api : Api
  order : FiniteMap.Order String
  secret : String → Lookup
  persistentVolumeClaim : String → Lookup
  captureHostPathBaseDir : GoString
  captureJobNumLimit : ℤ

namespace Translator
variable (tr : Translator)

def findSecret (namespaceName secretName : String) (failure : String → TranslateError) : Except TranslateError Unit :=
  match tr.secret secretName with
  | .found => .ok ()
  | .notFound => .error (.secretNotFound secretName namespaceName)
  | .failed error => .error (failure error)

def initJobTemplate (capture : CaptureObject) : Except TranslateError Unit := do
  let blobSecret := capture.spec.blobUpload.getD ""
  if blobSecret ≠ "" then tr.findSecret capture.namespaceName blobSecret .getSecret
  let s3Secret := (capture.s3Upload.map S3Upload.secretName).getD ""
  if s3Secret ≠ "" then tr.findSecret capture.namespaceName s3Secret .getS3Secret
  let claim := capture.spec.persistentVolumeClaim.getD ""
  if claim ≠ "" then
    match tr.persistentVolumeClaim claim with
    | .found => pure ()
    | _ => throw (.getPersistentVolumeClaim capture.namespaceName claim)

def checkOutput (capture : CaptureObject) (resolvedHostPath : GoString) : Except TranslateError Unit :=
  if resolvedHostPath = [] ∧ capture.spec.persistentVolumeClaim.isNone ∧ capture.s3Upload.isNone ∧
      capture.spec.blobUpload.getD "" = "" then .error .noOutput
  else .ok ()

def nodeOS (os : String) : NodeOS := if os = "linux" then .linux else .windows

def renderJobs (capture : CaptureObject) (targets : CaptureTargetsOnNode) (env : JobEnv) :
    Except TranslateError (List (String × JobEnv)) :=
  let stringTimestamp := (capture.startTime.map fun t => timeToString (some t)).getD []
  if targets.keys = ∅ then .error .noNodes
  else if (stringToTime stringTimestamp).isNone then .error (.timestamp stringTimestamp)
  else .ok ((tr.order.list targets.keys).filterMap fun nodeName => (targets.lookup nodeName).map fun target =>
    (nodeName,renderJob tr.ip (nodeOS target.os) target.podIpAddresses env))

def translateCaptureToJobs (capture : CaptureObject) : Except TranslateError (List (String × JobEnv)) := do
  (validateCapture tr.ip tr.captureHostPathBaseDir capture.spec).mapError .capture
  let resolvedHostPath ← (resolveHostPath capture.spec.hostPath tr.captureHostPathBaseDir).mapError .output
  tr.initJobTemplate capture
  let targets ← (calculateCaptureTargetsOnNode tr.selectors tr.api tr.order capture.spec.target
    capture.namespaceName).mapError .targets
  checkOutput capture resolvedHostPath
  let env ← (obtainCaptureJobPodEnv tr.ip capture.configuration).mapError .filters
  let jobs ← tr.renderJobs capture targets env
  if tr.captureJobNumLimit ≠ 0 ∧ tr.captureJobNumLimit < jobs.length then
    throw (.jobNumExceedLimit jobs.length tr.captureJobNumLimit)
  return jobs

theorem exists_of_bind_eq_ok {ε α β : Type} {x : Except ε α} {f : α → Except ε β} {b : β} (h : x >>= f = .ok b) :
    ∃ a, x = .ok a ∧ f a = .ok b := by
  cases x with
  | error e => cases h
  | ok a => exact ⟨a,rfl,h⟩

variable {tr}

theorem renderJobs_ne_nil {capture : CaptureObject} {targets : CaptureTargetsOnNode} {env : JobEnv}
    {jobs : List (String × JobEnv)} (h : tr.renderJobs capture targets env = .ok jobs) : jobs ≠ [] := by
  unfold renderJobs at h
  dsimp only at h
  split_ifs at h with hkeys htime
  obtain ⟨nodeName,hnode⟩ := Finset.nonempty_iff_ne_empty.mpr hkeys
  obtain ⟨target,htarget⟩ := Option.isSome_iff_exists.mp (Finmap.lookup_isSome.mpr (Finmap.mem_keys.mp hnode))
  cases h
  intro hnil
  have hnone := List.filterMap_eq_nil_iff.mp hnil nodeName ((tr.order.mem_list _ _).mpr hnode)
  rw [htarget] at hnone
  cases hnone

theorem translateCaptureToJobs_of_steps {capture : CaptureObject} {path : GoString} {targets : CaptureTargetsOnNode}
    {env : JobEnv} {jobs : List (String × JobEnv)}
    (hvalid : validateCapture tr.ip tr.captureHostPathBaseDir capture.spec = .ok ())
    (hpath : resolveHostPath capture.spec.hostPath tr.captureHostPathBaseDir = .ok path)
    (htemplate : tr.initJobTemplate capture = .ok ())
    (htargets : calculateCaptureTargetsOnNode tr.selectors tr.api tr.order capture.spec.target capture.namespaceName =
      .ok targets)
    (houtput : checkOutput capture path = .ok ()) (henv : obtainCaptureJobPodEnv tr.ip capture.configuration = .ok env)
    (hjobs : tr.renderJobs capture targets env = .ok jobs) (hlimit : tr.captureJobNumLimit = 0) :
    tr.translateCaptureToJobs capture = .ok jobs := by
  simp only [translateCaptureToJobs, hvalid, hpath, htemplate, htargets, houtput, henv, Except.mapError, bind, Except.bind,
    hjobs, hlimit, ne_eq, not_true_eq_false, false_and, if_false]
  rfl

/-- A capture without targets is an error, so a translation has a job. -/
theorem translateCaptureToJobs_ne_nil {capture : CaptureObject} {jobs : List (String × JobEnv)}
    (h : tr.translateCaptureToJobs capture = .ok jobs) : jobs ≠ [] := by
  unfold translateCaptureToJobs at h
  obtain ⟨-,-,h⟩ := exists_of_bind_eq_ok h
  obtain ⟨resolvedHostPath,-,h⟩ := exists_of_bind_eq_ok h
  obtain ⟨-,-,h⟩ := exists_of_bind_eq_ok h
  obtain ⟨targets,-,h⟩ := exists_of_bind_eq_ok h
  obtain ⟨-,-,h⟩ := exists_of_bind_eq_ok h
  obtain ⟨env,-,h⟩ := exists_of_bind_eq_ok h
  obtain ⟨rendered,hrendered,h⟩ := exists_of_bind_eq_ok h
  split_ifs at h
  · cases h
  · cases h
    exact renderJobs_ne_nil hrendered

end Translator
end Retina.Capture
