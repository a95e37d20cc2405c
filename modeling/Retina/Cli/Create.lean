import Retina.Capture.Translate

/-! # The command that creates a capture

`create` of `cli/cmd/capture/create.go`. The credentials for an upload are put into a `Secret` before the jobs are made,
and the jobs become the owners of the `Secret` after all of them are there. The answers of the server to the requests
of one invocation are its input. A request that is answered with an error may have been carried out.
-/
namespace Retina.Cli
open Retina.Capture (GoString ascii IPParser trimSpace fields SelectorText Api Lookup Time CaptureTarget S3Upload
  CaptureObject Translator TranslateError JobEnv)

/-- An error of the command. An error of the server, or of the library of Kubernetes, is a text. -/
inductive CreateError
  | namespaceUnknown (err : String)
  | bpfFilterEmpty (filterName : String)
  | bpfFilterContainsFlag (filterName token : String)
  | tcpdumpFilterIncompatibleWithSourceDestIPs
  | emptyIP (flagName : String)
  | invalidIP (flagName trimmed : String)
  | fileCountTooSmall
  | fileCountRequiresMaxSize
  | cleanupRequiresRemoteStorage
  | s3UploadSecret (err : String)
  | translate (err : TranslateError)
  | unwrapped (err : String)

/-- The texts, with the quotes of `%q`, and with the text of an error of the translation. -/
def CreateError.text (quote : String → String) (translateText : TranslateError → String) : CreateError → String
  | namespaceUnknown err => "failed to get namespace from kubeconfig: " ++ err
  | bpfFilterEmpty filterName => filterName ++ ": BPF filter cannot be empty or whitespace-only"
  | bpfFilterContainsFlag filterName token =>
    filterName ++ " contains flag " ++ quote token ++ ": BPF filter contains flag which is not allowed"
  | tcpdumpFilterIncompatibleWithSourceDestIPs =>
    "--tcpdump-filter (deprecated) cannot be combined with --source-ips/--destination-ips; use --pcap-filter instead"
  | emptyIP flagName => flagName ++ ": empty entry is not a valid IP address: invalid IP address"
  | invalidIP flagName trimmed => flagName ++ ": " ++ quote trimmed ++ " is not a valid IP address: invalid IP address"
  | fileCountTooSmall => "--file-count must be at least 1"
  | fileCountRequiresMaxSize => "--file-count requires --max-size to be set as per-file size limit"
  | cleanupRequiresRemoteStorage =>
    "--cleanup-after-upload requires remote storage (--blob-upload, --s3-bucket, or --pvc)"
  | translate err => translateText err
  | s3UploadSecret err => "failed to create s3 upload secret: failed to create s3 upload secret: " ++ err
  | unwrapped err => err

structure Opts where
  name : String
  namespaceName : String := ""
  duration : Int64 := 60000000000
  maxSize : Int64 := 100
  fileCount : Int64 := 0
  interfaces : String := ""
  nodeNames : String := ""
  nodeSelectors : String := "kubernetes.io/os=linux"
  podNames : String := ""
  podSelectors : String := ""
  namespaceSelectors : String := ""
  tcpdumpFilter : String := ""
  pcapFilter : String := ""
  sourceIPs : String := ""
  destinationIPs : String := ""
  excludeFilter : String := ""
  includeFilter : String := ""
  hostPath : GoString := ascii "retina"
  hostPathBaseDir : GoString := ascii "/var/log/retina/captures"
  pvc : String := ""
  blobUpload : String := ""
  s3Bucket : String := ""
  s3Region : String := ""
  s3Endpoint : String := ""
  s3Path : String := "retina/captures"
  s3AccessKeyID : String := ""
  s3SecretAccessKey : String := ""
  jobNumLimit : ℤ := 0
  nowait : Bool := true
  cleanUpAfterUpload : Bool := false

def defaultNodeSelectors : String := "kubernetes.io/os=linux"

def hasRemoteDestination (o : Opts) : Bool := o.blobUpload ≠ "" || o.s3Bucket ≠ "" || o.pvc ≠ ""

/-- What the command takes from libraries: `net.ParseIP`, the texts of selectors, `labels.ConvertSelectorToLabelsMap`,
the order of maps, and the seconds of a duration as an integer. -/
structure Tools where
  ip : IPParser
  selectors : SelectorText
  convertSelectorToLabelsMap : String → Except String (List (String × String))
  order : FiniteMap.Order String
  wholeSeconds : Int64 → ℤ

/-! ## Checks of the options -/

def validateBPFFilter (filter filterName : String) : Except CreateError Unit :=
  if filter = "" then .ok ()
  else if trimSpace filter = "" then .error (.bpfFilterEmpty filterName)
  else
    match (fields (trimSpace filter)).find? fun token => token.toList.head? = some '-' with
    | some token => .error (.bpfFilterContainsFlag filterName token)
    | none => .ok ()

def parseIPEntry (ip : IPParser) (flagName entry : String) : Except CreateError String :=
  if trimSpace entry = "" then .error (.emptyIP flagName)
  else if ip.parse (trimSpace entry) = none then .error (.invalidIP flagName (trimSpace entry))
  else .ok (trimSpace entry)

def splitComma (s : String) : List String := (s.toList.splitOn ',').map String.ofList

def parseIPList (ip : IPParser) (ipList flagName : String) : Except CreateError (List String) :=
  if ipList = "" then .ok []
  else (splitComma ipList).mapM (parseIPEntry ip flagName)

structure Selected where
  sourceIPs : List String
  destinationIPs : List String
  nodeLabels : List (String × String)
  podLabels : List (String × String)
  namespaceLabels : List (String × String)

/-- The default of the node selector gives way to any other selection. -/
def effectiveNodeSelectors (o : Opts) : String :=
  if (o.namespaceSelectors ≠ "" ∨ o.podSelectors ≠ "" ∨ o.podNames ≠ "" ∨ o.nodeNames ≠ "") ∧
      o.nodeSelectors = defaultNodeSelectors then ""
  else o.nodeSelectors

def selectedLabels (tools : Tools) (selector : String) : Except CreateError (List (String × String)) :=
  (tools.convertSelectorToLabelsMap selector).mapError .unwrapped

/-- The checks of `createCaptureF`. All of them come before the first `Secret`. -/
def checkOpts (tools : Tools) (o : Opts) : Except CreateError Selected := do
  validateBPFFilter o.tcpdumpFilter "--tcpdump-filter"
  validateBPFFilter o.pcapFilter "--pcap-filter"
  if o.tcpdumpFilter ≠ "" ∧ (o.sourceIPs ≠ "" ∨ o.destinationIPs ≠ "") then
    throw .tcpdumpFilterIncompatibleWithSourceDestIPs
  let sourceIPs ← parseIPList tools.ip o.sourceIPs "--source-ips"
  let destinationIPs ← parseIPList tools.ip o.destinationIPs "--destination-ips"
  let nodeLabels ← selectedLabels tools (effectiveNodeSelectors o)
  let podLabels ← selectedLabels tools o.podSelectors
  let namespaceLabels ← selectedLabels tools o.namespaceSelectors
  if o.fileCount ≠ 0 then
    if o.fileCount < 1 then throw .fileCountTooSmall
    if o.maxSize = 0 then throw .fileCountRequiresMaxSize
  return ⟨sourceIPs,destinationIPs,nodeLabels,podLabels,namespaceLabels⟩

/-! ## The cluster -/

structure OwnerReference where
  apiVersion : String
  kind : String
  name : String
  uid : String
deriving DecidableEq

structure Secret where
  data : List (String × String)
  captureName : String
  ownerReferences : List OwnerReference := []
deriving DecidableEq

structure JobSpec where
  template : String × JobEnv
  ttlSecondsAfterFinished : Option ℤ := none
  activeDeadlineSeconds : Option ℤ := none

structure Job where
  name : String
  uid : String
  spec : JobSpec

structure Cluster where
  secrets : Finmap fun _ : String => Secret
  jobs : List Job
  createdSecrets : List String := []
  createdJobs : List Job := []

/-- What becomes of a request that writes: it is carried out, it is not, or it is carried out and the answer is an error. -/
inductive Outcome (α : Type)
  | done (value : α)
  | refused (err : String)
  | lost (value : α) (err : String)

def Outcome.carriedOut {α : Type} : Outcome α → Bool
  | .refused _ => false
  | _ => true

def Outcome.answered {α : Type} : Outcome α → Bool
  | .done _ => true
  | _ => false

/-- The time of the start, and what becomes of the requests of one invocation. The server completes the name of a
`Secret` and names the jobs; an error is a text. The requests of a loop are counted from zero. The translation sends
its requests to `api`, `captureSecret` and `captureClaim`. -/
structure Answers where
  now : Time
  rawNamespace : Except String String
  createBlobSecret : Outcome String
  createS3Secret : Outcome String
  api : Api
  captureSecret : String → Lookup
  captureClaim : String → Lookup
  createJob : ℕ → Outcome (String × String)
  getSecret : ℕ → Option String
  updateSecret : ℕ → Outcome Unit
  jobRounds : List (ℕ → Option Bool)
  deleteJob : ℕ → Outcome Unit
  deleteSecret : ℕ → Outcome Unit
  listJobs : Except String (List Job)

structure SecretRequest where
  generateName : String
  data : List (String × String)
  answer : Outcome String

section Requests
variable (o : Opts) (a : Answers)

def blobRequest : SecretRequest where
  generateName := "capture-blob-upload-secret"
  data := [("blob-upload-url",o.blobUpload)]
  answer := a.createBlobSecret

def s3Request : SecretRequest where
  generateName := "capture-s3-upload-secret"
  data := [("s3-access-key-id",o.s3AccessKeyID),("s3-secret-access-key",o.s3SecretAccessKey)]
  answer := a.createS3Secret

end Requests

def Cluster.addSecret (captureName : String) (r : SecretRequest) (name : String) (c : Cluster) : Cluster :=
  { c with
    secrets := c.secrets.insert name { data := r.data, captureName := captureName }
    createdSecrets := c.createdSecrets ++ [name] }

def createSecret (captureName : String) (r : SecretRequest) (c : Cluster) : Cluster × Except String String :=
  match r.answer with
  | .refused err => (c,.error err)
  | .done completion =>
    let name := r.generateName ++ completion
    if name ∈ c.secrets then (c,.error ("secrets \"" ++ name ++ "\" already exists"))
    else (c.addSecret captureName r name,.ok name)
  | .lost completion err =>
    let name := r.generateName ++ completion
    if name ∈ c.secrets then (c,.error err) else (c.addSecret captureName r name,.error err)

def deleteSecret (answer : Outcome Unit) (name : String) (c : Cluster) : Cluster × Option String :=
  if name ∉ c.secrets then (c,none)
  else
    match answer with
    | .refused err => (c,some err)
    | .done _ => ({ c with secrets := c.secrets.erase name },none)
    | .lost _ err => ({ c with secrets := c.secrets.erase name },some err)

/-! ## The capture -/

section Command
variable (tools : Tools) (o : Opts) (a : Answers)

def unlessEmpty {α : Type} (s : String) (value : α) : Option α := if s = "" then none else some value

def captureTarget (selected : Selected) : CaptureTarget where
  nodeSelector :=
    if selected.nodeLabels = [] ∧ o.nodeNames = "" then none
    else some ⟨selected.nodeLabels,
      (unlessEmpty o.nodeNames ⟨"kubernetes.io/hostname",.isIn,splitComma o.nodeNames⟩).toList⟩
  namespaceSelector := if selected.namespaceLabels = [] then none else some ⟨selected.namespaceLabels,[]⟩
  podSelector := if selected.podLabels = [] then none else some ⟨selected.podLabels,[]⟩
  podNames := if o.podNames = "" then [] else (splitComma o.podNames).map trimSpace

def captureOf (namespaceName : String) (selected : Selected) (blobUpload : Option String) (s3Upload : Option S3Upload) :
    CaptureObject where
  name := o.name
  namespaceName := namespaceName
  startTime := some a.now
  spec :=
    { target := captureTarget o selected
      duration := if o.duration = 0 then none else some o.duration
      maxCaptureSize := if o.maxSize = 0 then none else some o.maxSize
      fileCount := if o.fileCount = 0 then none else some o.fileCount
      interfaces := if o.interfaces = "" then [] else (splitComma o.interfaces).map trimSpace
      tcpdumpFilter := some o.tcpdumpFilter
      sourceIPs := selected.sourceIPs
      destinationIPs := selected.destinationIPs
      blobUpload := blobUpload
      hostPath := if o.hostPath = [] then none else some o.hostPath
      persistentVolumeClaim := unlessEmpty o.pvc o.pvc
      hasS3Upload := s3Upload.isSome }
  filters :=
    if o.excludeFilter = "" ∧ o.includeFilter = "" then none
    else some ⟨if o.includeFilter = "" then [] else splitComma o.includeFilter,
      if o.excludeFilter = "" then [] else splitComma o.excludeFilter⟩
  pcapFilter := unlessEmpty o.pcapFilter o.pcapFilter
  s3Upload := s3Upload
  hasS3Upload := rfl

def createSecretFromBlobUpload (c : Cluster) : Cluster × Except String String :=
  if o.blobUpload = "" then (c,.ok "") else createSecret o.name (blobRequest o a) c

def createSecretFromS3Upload (c : Cluster) : Cluster × Except String String :=
  createSecret o.name (s3Request o a) c

def s3UploadOf (secretName : String) : S3Upload := ⟨o.s3Endpoint,o.s3Bucket,secretName,o.s3Region,o.s3Path⟩

def blobOutput (c : Cluster) : Cluster × Except CreateError (Option String) :=
  if o.blobUpload ≠ "" then
    match createSecretFromBlobUpload o a c with
    | (c,.error err) => (c,.error (.unwrapped err))
    | (c,.ok secretName) => (c,.ok (some secretName))
  else (c,.ok none)

def s3Output (c : Cluster) : Cluster × Except CreateError (Option S3Upload) :=
  if o.s3Bucket ≠ "" then
    match createSecretFromS3Upload o a c with
    | (c,.error err) => (c,.error (.s3UploadSecret err))
    | (c,.ok secretName) => (c,.ok (some (s3UploadOf o secretName)))
  else (c,.ok none)

def createCaptureF (namespaceName : String) (c : Cluster) : Cluster × Except CreateError CaptureObject :=
  match checkOpts tools o with
  | .error err => (c,.error err)
  | .ok selected =>
    match blobOutput o a c with
    | (c,.error err) => (c,.error err)
    | (c,.ok blobUpload) =>
      match s3Output o a c with
      | (c,.error err) => (c,.error err)
      | (c,.ok s3Upload) => (c,.ok (captureOf o a namespaceName selected blobUpload s3Upload))

def jobTTLSecondsAfterFinished : ℤ := 300

def jobActiveDeadlineBufferSeconds : ℤ := 1800

def prepareJob (spec : JobSpec) : JobSpec where
  template := spec.template
  ttlSecondsAfterFinished :=
    if o.nowait && o.cleanUpAfterUpload && hasRemoteDestination o then some jobTTLSecondsAfterFinished
    else spec.ttlSecondsAfterFinished
  activeDeadlineSeconds :=
    if 0 < o.duration then some (tools.wholeSeconds o.duration + jobActiveDeadlineBufferSeconds)
    else spec.activeDeadlineSeconds

def Cluster.addJob (job : Job) (c : Cluster) : Cluster :=
  { c with jobs := c.jobs ++ [job], createdJobs := c.createdJobs ++ [job] }

def createJobsFrom (i : ℕ) : List JobSpec → List Job → Cluster → Cluster × Except CreateError (List Job)
  | [],jobsCreated,c => (c,.ok jobsCreated)
  | spec :: specs,jobsCreated,c =>
    match a.createJob i with
    | .refused err => (c,.error (.unwrapped err))
    | .done (name,uid) =>
      createJobsFrom (i + 1) specs (jobsCreated ++ [⟨name,uid,prepareJob tools o spec⟩])
        (c.addJob ⟨name,uid,prepareJob tools o spec⟩)
    | .lost (name,uid) err => (c.addJob ⟨name,uid,prepareJob tools o spec⟩,.error (.unwrapped err))

def translator : Translator where
  ip := tools.ip
  selectors := tools.selectors
  api := a.api
  order := tools.order
  secret := a.captureSecret
  persistentVolumeClaim := a.captureClaim
  captureHostPathBaseDir := o.hostPathBaseDir
  captureJobNumLimit := o.jobNumLimit

def createJobs (capture : CaptureObject) (c : Cluster) : Cluster × Except CreateError (List Job) :=
  match (translator tools o a).translateCaptureToJobs capture with
  | .error err => (c,.error (.translate err))
  | .ok jobs => createJobsFrom tools o a 0 (jobs.map fun job => { template := job }) [] c

def Job.ownerReference (job : Job) : OwnerReference := ⟨"batch/v1","Job",job.name,job.uid⟩

/-- References to objects that are among the owners already are left out. -/
def Secret.addOwners (ownerRefs : List OwnerReference) (secret : Secret) : Secret :=
  { secret with
    ownerReferences := secret.ownerReferences ++
      ownerRefs.filter fun ref => !secret.ownerReferences.any fun present => present.uid = ref.uid }

def setOwnersFrom (ownerRefs : List OwnerReference) (i : ℕ) : List String → Cluster → Cluster × Option String
  | [],c => (c,none)
  | secretName :: secretNames,c =>
    match a.getSecret i,c.secrets.lookup secretName with
    | some err,_ => (c,some ("failed to get secret " ++ secretName ++ ": " ++ err))
    | none,none => (c,some ("failed to get secret " ++ secretName ++ ": secrets \"" ++ secretName ++ "\" not found"))
    | none,some secret =>
      let owned := { c with secrets := c.secrets.insert secretName (secret.addOwners ownerRefs) }
      match a.updateSecret i with
      | .refused err => (c,some ("failed to update secret " ++ secretName ++ " with owner references: " ++ err))
      | .lost _ err => (owned,some ("failed to update secret " ++ secretName ++ " with owner references: " ++ err))
      | .done _ => setOwnersFrom ownerRefs (i + 1) secretNames owned

def secretNames (capture : CaptureObject) : List String :=
  capture.spec.blobUpload.toList ++ (capture.s3Upload.toList.map S3Upload.secretName).filter (· ≠ "")

def setSecretOwnerReferences (capture : CaptureObject) (jobs : List Job) (c : Cluster) : Cluster × Option String :=
  if secretNames capture = [] ∨ jobs = [] then (c,none)
  else setOwnersFrom a (jobs.map Job.ownerReference) 0 (secretNames capture) c

/-- A round finds a job completed, finds it running, or does not get it. -/
def waitUntilJobsComplete (jobs : List Job) : Bool :=
  a.jobRounds.any fun round => (List.range jobs.length).all fun i => round i = some true

def deleteJobs (jobs : List Job) (c : Cluster) : Cluster :=
  let deleted := (jobs.zipIdx.filter fun job => (a.deleteJob job.2).carriedOut).map Prod.fst
  { c with jobs := c.jobs.filter fun job => !deleted.any fun gone => gone.uid = job.uid }

def deleteSecretsFrom (i : ℕ) : List String → Cluster → Cluster
  | [],c => c
  | secretName :: secretNames,c =>
    deleteSecretsFrom (i + 1) secretNames (deleteSecret (a.deleteSecret i) secretName c).1

def getCaptureAndPrintCaptureResult : Option CreateError :=
  match a.listJobs with
  | .error err => some (.unwrapped err)
  | .ok _ => none

def runCapture (capture : CaptureObject) (c : Cluster) : Cluster × Option CreateError :=
  if o.cleanUpAfterUpload && !hasRemoteDestination o then (c,some .cleanupRequiresRemoteStorage)
  else
    match createJobs tools o a capture c with
    | (c,.error err) => (c,some err)
    | (c,.ok jobsCreated) =>
      -- An error at the owner references is logged.
      let c := (setSecretOwnerReferences a capture jobsCreated c).1
      if o.nowait then (c,none)
      else if waitUntilJobsComplete a jobsCreated then
        (deleteSecretsFrom a 0 (secretNames capture) (deleteJobs a jobsCreated c),none)
      else (c,getCaptureAndPrintCaptureResult a)

def effectiveNamespace (ns : String) : String := if o.namespaceName = "" then ns else o.namespaceName

def create (c : Cluster) : Cluster × Option CreateError :=
  match a.rawNamespace with
  | .error err => (c,some (.namespaceUnknown err))
  | .ok ns =>
    match createCaptureF tools o a (effectiveNamespace o ns) c with
    | (c,.error err) => (c,some err)
    | (c,.ok capture) => runCapture tools o a capture c

end Command
end Retina.Cli
