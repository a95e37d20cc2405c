import Retina.Capture.FileNames

/-! # Capture files on a node

`TranslateCaptureToJobs` of `pkg/capture/crd_to_job.go` writes the time of the start and the host path of a capture to
the pods of its jobs. `pkg/capture/capture_manager.go` makes the name of the file of them on the node, and
`pkg/capture/outputlocation/hostpath.go` copies the file there. `cli/cmd/capture/download.go` finds it by the
annotations of the pod. The pods of a node copy one after another, and the nodes are Linux ones.
-/
namespace Retina.CaptureFiles
open Capture PosixPath

def isNameByte (b : UInt8) : Bool := (97 ≤ b && b ≤ 122) || isDigit b || b = 45 || b = dot

abbrev ObjectName := { s : GoString // s.all isNameByte }

structure Capture where
  name : ObjectName
  startTime : Option Time
  hostPath : Option GoString

/-! ## The operator -/

structure Annotations where
  filename : GoString
  timestamp : Option GoString
  hostPath : Option GoString

structure Env where
  captureName : GoString
  nodeHostName : GoString := []
  startTimestamp : GoString := []
  hostPath : GoString

structure Job where
  annotations : Annotations
  env : Env

inductive TranslateError where
  | hostPath (e : OutputError)
  | noNodes
  | timestamp

def getPodAnnotationsFromCapture (capture : Capture) (resolvedHostPath : GoString) : Annotations where
  filename := capture.name
  timestamp := capture.startTime.map fun t => timeToString (some t)
  hostPath := if resolvedHostPath ≠ [] then some resolvedHostPath else capture.hostPath

def renderJob (template : Annotations) (envCommon : Env) (nodes : List ObjectName) : Except TranslateError (List Job) :=
  if nodes = [] then .error .noNodes
  else
    let stringTimestamp := template.timestamp.getD []
    match stringToTime stringTimestamp with
    | none => .error .timestamp
    | some captureTimestamp => .ok (nodes.map fun nodeName : ObjectName =>
        ⟨{ template with filename := CaptureFilename.string ⟨envCommon.captureName,nodeName,some captureTimestamp⟩ },
          { envCommon with nodeHostName := nodeName, startTimestamp := stringTimestamp }⟩)

def translateCaptureToJobs (capture : Capture) (captureHostPathBaseDir : GoString) (nodes : List ObjectName) :
    Except TranslateError (List Job) :=
  match resolveHostPath capture.hostPath captureHostPathBaseDir with
  | .error e => .error (.hostPath e)
  | .ok resolvedHostPath =>
    renderJob (getPodAnnotationsFromCapture capture resolvedHostPath)
      { captureName := capture.name, hostPath := resolvedHostPath } nodes

/-! ## The pod of a job -/

abbrev Files := GoString → Option GoString

def tempDir : GoString := ascii "/tmp"

def captureNetwork (env : Env) : Option GoString :=
  (stringToTime env.startTimestamp).map fun startTimestamp =>
    join slash dot [tempDir,CaptureFilename.string ⟨env.captureName,env.nodeHostName,some startTimestamp⟩]

inductive Copy where
  | openFailed
  | createFailed
  | copied (n : ℕ)

def Copy.written (tarball : GoString) : Copy → Option GoString
  | copied n => some (tarball.take n)
  | _ => none

def hostPathOutput (files : Files) (hostPath srcFilePath tarball : GoString) (copy : Copy) : Files :=
  match copy.written tarball with
  | none => files
  | some content => Function.update files (join slash dot [hostPath,base slash dot srcFilePath]) (some content)

/-- The errors of a copy are only logged. -/
def outputCapture (files : Files) (env : Env) (srcDir tarball : GoString) (copy : Copy) : Files :=
  if env.hostPath = [] then files else hostPathOutput files env.hostPath (srcDir ++ ascii ".tar.gz") tarball copy

def workload (files : Files) (env : Env) (tarball : GoString) (copy : Copy) : Files :=
  match captureNetwork env with
  | none => files
  | some srcDir => outputCapture files env srcDir tarball copy

/-! ## The download -/

/-- Bytes that mean themselves between double quotes, for `%q` and for the shell. -/
def isLiteral (b : UInt8) : Bool := 32 ≤ b && b ≤ 126 && b != 34 && b != 36 && b != 92 && b != 96

/-- What the shell reads where a path was written with `%q`. -/
structure Shell where
  read : GoString → GoString
  read_literal : ∀ p : GoString, p.all isLiteral → read p = p

structure DownloadCmd where
  srcFilePath : GoString
  mountPath : GoString

def getDownloadCmd (hostPath fileName : GoString) : DownloadCmd where
  srcFilePath := slash :: join slash dot [ascii "host",hostPath,fileName] ++ ascii ".tar.gz"
  mountPath := slash :: join slash dot [ascii "host",hostPath]

def mounted (files : Files) (hostPath mountPath : GoString) : Files := fun p =>
  if (mountPath ++ [slash]).isPrefixOf p then files (hostPath ++ p.drop mountPath.length) else none

inductive DownloadError where
  | noHostPath
  | fileNotAccessible (srcFilePath : GoString)
  | execFileDownload
  | emptyDownloadOutput

def downloadFileContent (shell : Shell) (files : Files) (hostPath fileName : GoString) :
    Except DownloadError GoString :=
  let cmd := getDownloadCmd hostPath fileName
  let podFiles := mounted files hostPath cmd.mountPath
  -- the file is looked for with a shell, but read without one
  if podFiles (shell.read cmd.srcFilePath) = none then .error (.fileNotAccessible cmd.srcFilePath)
  else
    match podFiles cmd.srcFilePath with
    | none => .error .execFileDownload
    | some content => if content = [] then .error .emptyDownloadOutput else .ok content

def downloadFromCluster (shell : Shell) (files : Files) (annotations : Annotations) : Except DownloadError GoString :=
  match annotations.hostPath with
  | none => .error .noHostPath
  | some hostPath => downloadFileContent shell files hostPath annotations.filename

/-! ## Runs -/

structure Run (node : ObjectName) where
  capture : Capture
  baseDir : GoString
  nodes : List ObjectName
  jobs : List Job
  job : Job
  translated : translateCaptureToJobs capture baseDir nodes = .ok jobs
  mem_jobs : job ∈ jobs
  onNode : job.env.nodeHostName = node
  tarball : GoString
  copy : Copy

variable {node : ObjectName}

def Run.output (files : Files) (r : Run node) : Files := workload files r.job.env r.tarball r.copy

/-- The captures have the same name, time of the start and directory. Their namespaces do not matter. -/
def Run.SameFile (r r' : Run node) : Prop :=
  r.job.env.hostPath = r'.job.env.hostPath ∧ r.capture.name = r'.capture.name ∧
    r.capture.startTime = r'.capture.startTime

instance (r r' : Run node) : Decidable (r.SameFile r') := inferInstanceAs (Decidable (_ ∧ _))

def copies (runs : List (Run node)) (r : Run node) : List GoString :=
  (runs.filter (·.SameFile r)).filterMap fun r' => r'.copy.written r'.tarball

/-- What the operator has written to the pod of a run. -/
theorem Run.cases (r : Run node) :
    ∃ t path, r.capture.startTime = some t ∧ resolveHostPath r.capture.hostPath r.baseDir = .ok path ∧
      r.job.annotations.filename = CaptureFilename.string ⟨r.capture.name,node,some t⟩ ∧
      r.job.annotations.hostPath = (getPodAnnotationsFromCapture r.capture path).hostPath ∧
      r.job.env = ⟨r.capture.name,node,timeToString (some t),path⟩ := by
  have htranslated := r.translated
  have hmem := r.mem_jobs
  have hnode := r.onNode
  unfold translateCaptureToJobs at htranslated
  split at htranslated
  · cases htranslated
  rename_i path hpath
  unfold renderJob at htranslated
  split_ifs at htranslated
  dsimp only at htranslated
  split at htranslated
  · cases htranslated
  rename_i t ht
  rw [← Except.ok.inj htranslated, List.mem_map] at hmem
  obtain ⟨nodeName,-,hjob⟩ := hmem
  obtain rfl : nodeName = node := Subtype.ext (by rw [← hnode, ← hjob])
  cases hstart : r.capture.startTime with
  | none => simp [getPodAnnotationsFromCapture, hstart, stringToTime, parseFields, getnum] at ht
  | some t' =>
    have htimestamp : (getPodAnnotationsFromCapture r.capture path).timestamp = some (timeToString (some t')) := by
      simp [getPodAnnotationsFromCapture, hstart]
    rw [htimestamp, Option.getD_some, stringToTime_timeToString] at ht
    obtain rfl := Option.some.inj ht
    refine ⟨t',path,rfl,hpath,?_,?_,?_⟩ <;> rw [← hjob]
    rw [htimestamp, Option.getD_some]

/-! ## Paths -/

def FileText (s : GoString) : Prop := ∀ b ∈ s, isLiteral b = true ∧ b ≠ slash

theorem FileText.append {s s' : GoString} (h : FileText s) (h' : FileText s') : FileText (s ++ s') :=
  List.forall_mem_append.mpr ⟨h,h'⟩

theorem ObjectName.fileText (name : ObjectName) : FileText name := by
  intro b hb
  have hname := List.all_eq_true.mp name.2 b hb
  grind [isNameByte, isLiteral, isDigit, dot, slash]

theorem fileText_twoDigits {n : ℕ} (h : n < 100) : FileText (twoDigits n) := by
  have hdigit : ∀ d < 10, isLiteral (digit d) = true ∧ digit d ≠ slash := by decide
  simp only [FileText, twoDigits, List.forall_mem_cons, List.not_mem_nil, false_implies, implies_true, and_true]
  exact ⟨hdigit _ (by omega),hdigit _ (by omega)⟩

theorem fileText_timeToString (t : Time) : FileText (timeToString (some t)) := by
  obtain ⟨c,hyear,⟨-,hmonth⟩,⟨-,hday⟩,hhour,hminute,hsecond⟩ := t
  have hdays := daysIn_lt c.month c.year
  have hzone : FileText (ascii "UTC") := by simp [FileText, ascii, isLiteral, slash]
  change FileText (formatTime c)
  rw [formatTime]
  iterate 7 refine (fileText_twoDigits (by omega)).append ?_
  exact hzone

section
variable (name node : ObjectName) (t : Time)

def fileName : GoString := CaptureFilename.string ⟨name,node,some t⟩

def archive : GoString := fileName name node t ++ ascii ".tar.gz"

theorem fileText_fileName : FileText (fileName name node t) := by
  have hhyphen : FileText (ascii "-") := by simp [FileText, ascii, isLiteral, slash]
  exact (((name.fileText.append hhyphen).append node.fileText).append hhyphen).append (fileText_timeToString t)

theorem fileText_archive : FileText (archive name node t) :=
  (fileText_fileName name node t).append (by simp [FileText, ascii, isLiteral, slash])

variable {name node t}

theorem FileText.plain {s : GoString} (h : FileText s) (hlength : 3 ≤ s.length) : Plain slash dot s := by
  refine ⟨⟨?_,?_⟩,?_,fun hmem => (h _ hmem).2 rfl⟩ <;>
  · rintro rfl
    simp at hlength

theorem plain_fileName : Plain slash dot (fileName name node t) := by
  refine (fileText_fileName name node t).plain ?_
  rw [fileName, CaptureFilename.string, List.length_append, length_timeToString]
  omega

theorem plain_archive : Plain slash dot (archive name node t) :=
  (fileText_archive name node t).plain (by simp [archive, ascii])

theorem base_archive (p : GoString) : base slash dot (p ++ slash :: archive name node t) = archive name node t :=
  base_append_cons plain_archive.counts.1 plain_archive.not_mem p

/-- Directory, name and time can be read off the path of a file. -/
theorem path_archive_inj {path path' : GoString} {name' : ObjectName} {t' : Time} :
    path ++ slash :: archive name node t = path' ++ slash :: archive name' node t' ↔
      path = path' ∧ name = name' ∧ t = t' := by
  constructor
  · intro h
    have harchive := congrArg (base slash dot) h
    rw [base_archive, base_archive] at harchive
    obtain ⟨hname,ht⟩ := CaptureFilename.string_inj (List.append_cancel_right harchive)
    rw [harchive] at h
    exact ⟨List.append_cancel_right h,Subtype.ext hname,ht⟩
  · rintro ⟨rfl,rfl,rfl⟩
    rfl

def Below (baseDir p : GoString) : Prop :=
  ∃ segments ≠ [], (∀ s ∈ segments, Plain slash dot s) ∧
    p = render slash dot true (cleanSegments slash dot true (baseOrDefault baseDir) ++ segments)

theorem Below.named {baseDir p : GoString} (h : Below baseDir p) : Named slash dot p := by
  obtain ⟨segments,hne,hplain,rfl⟩ := h
  exact ⟨_,List.append_ne_nil_of_right_ne_nil _ hne,List.forall_mem_append.mpr ⟨cleanSegments_plain _,hplain⟩,rfl⟩

theorem Below.concat {baseDir p s : GoString} (h : Below baseDir p) (hs : Plain slash dot s) :
    Below baseDir (p ++ slash :: s) := by
  obtain ⟨segments,hne,hplain,rfl⟩ := h
  refine ⟨segments ++ [s],by simp,List.forall_mem_append.mpr ⟨hplain,List.forall_mem_singleton.mpr hs⟩,?_⟩
  rw [← List.append_assoc, render_concat (List.append_ne_nil_of_right_ne_nil _ hne)]

theorem resolveHostPath_cases {hostPath : Option GoString} {baseDir path : GoString}
    (h : resolveHostPath hostPath baseDir = .ok path) : path = [] ∨ Below baseDir path := by
  cases hostPath with
  | none => exact .inl (Except.ok.inj h).symm
  | some raw =>
    cases hvalidate : validateHostPath raw baseDir with
    | error e => simp [resolveHostPath, hvalidate, Except.mapError] at h
    | ok path' =>
      obtain rfl : path' = path := by simpa [resolveHostPath, hvalidate, Except.mapError] using h
      obtain ⟨-,-,hparent,hne,-,hpath⟩ := (validateHostPath_eq_ok_iff raw baseDir path').mp hvalidate
      exact .inr ⟨_,hne,plain_of_mem_filter (not_mem_splitOn_of_containsParentSegment hparent),hpath⟩

variable {path : GoString} (hpath : Named slash dot path) (files : Files)
include hpath

theorem workload_eq (tarball : GoString) (copy : Copy) :
    workload files ⟨name,node,timeToString (some t),path⟩ tarball copy =
      (copy.written tarball).elim files fun content =>
        Function.update files (path ++ slash :: archive name node t) (some content) := by
  have htemp : Named slash dot tempDir :=
    ⟨[ascii "tmp"],by simp,List.forall_mem_singleton.mpr ⟨by decide,by decide,by decide⟩,by decide⟩
  have hsrcDir : join slash dot [tempDir,CaptureFilename.string ⟨name,node,some t⟩] ++ ascii ".tar.gz" =
      tempDir ++ slash :: archive name node t := by
    rw [← fileName, htemp.join_name plain_fileName, List.append_assoc]
    rfl
  have hne : path ≠ [] := by
    obtain ⟨segments,-,-,rfl⟩ := hpath
    simp [render]
  simp only [workload, captureNetwork, stringToTime_timeToString, Option.map_some, outputCapture, if_neg hne,
    hostPathOutput, hsrcDir, base_archive, hpath.join_name plain_archive]
  cases copy.written tarball <;> rfl

theorem getDownloadCmd_eq : getDownloadCmd path (fileName name node t) =
    ⟨ascii "/host" ++ path ++ slash :: archive name node t,ascii "/host" ++ path⟩ := by
  have hhost : Plain slash dot (ascii "host") := ⟨by decide,by decide,by decide⟩
  have hfile : join slash dot [ascii "host",path,fileName name node t] =
      join slash dot [ascii "host",path ++ slash :: fileName name node t] := by
    simp [join, List.dropWhile, List.intercalate, ascii]
  rw [getDownloadCmd, hfile, (hpath.concat plain_fileName).join_relative hhost, hpath.join_relative hhost]
  simp [archive, ascii, slash]

/-- The pod of the download finds the file of the node. -/
theorem downloadFileContent_eq (shell : Shell) (hliteral : path.all isLiteral) :
    downloadFileContent shell files path (fileName name node t) =
      match files (path ++ slash :: archive name node t) with
      | none => .error (.fileNotAccessible (getDownloadCmd path (fileName name node t)).srcFilePath)
      | some [] => .error .emptyDownloadOutput
      | some content => .ok content := by
  have hread : shell.read (ascii "/host" ++ path ++ slash :: archive name node t) = _ :=
    shell.read_literal _ (by
      have harchive : (archive name node t).all isLiteral :=
        List.all_eq_true.mpr fun b hb => (fileText_archive name node t b hb).1
      rw [List.all_append, List.all_append, List.all_cons, hliteral, harchive]
      rfl)
  have hmounted : mounted files path (ascii "/host" ++ path) (ascii "/host" ++ path ++ slash :: archive name node t) =
      files (path ++ slash :: archive name node t) := by
    rw [mounted, if_pos (List.isPrefixOf_iff_prefix.mpr ⟨archive name node t,by simp⟩), List.drop_left]
  simp only [downloadFileContent, getDownloadCmd_eq hpath, hread, hmounted]
  rcases files (path ++ slash :: archive name node t) with _ | _ | ⟨b,content⟩ <;> simp

end

/-! ## Downloads after runs -/

theorem Run.output_apply (files : Files) (r' : Run node) {r : Run node} {t : Time} (ht : r.capture.startTime = some t)
    (hpath : r.job.env.hostPath ≠ []) :
    Run.output files r' (r.job.env.hostPath ++ slash :: archive r.capture.name node t) =
      ((if r'.SameFile r then r'.copy.written r'.tarball else none).or
        (files (r.job.env.hostPath ++ slash :: archive r.capture.name node t))) := by
  obtain ⟨t',path',ht',hpath',-,-,henv⟩ := r'.cases
  have hsame : r'.SameFile r ↔ r.job.env.hostPath = path' ∧ r.capture.name = r'.capture.name ∧ t = t' := by
    rw [Run.SameFile, henv, ht, ht', Option.some_inj, eq_comm, eq_comm (a := r'.capture.name), eq_comm (a := t')]
  rw [Run.output, henv]
  rcases resolveHostPath_cases hpath' with rfl | hbelow
  · rw [if_neg fun h => hpath (hsame.mp h).1]
    simp [workload, captureNetwork, stringToTime_timeToString, outputCapture]
  · rw [workload_eq hbelow.named]
    cases r'.copy.written r'.tarball with
    | none => simp
    | some content =>
      rw [Option.elim_some, Function.update_apply]
      simp only [path_archive_inj, hsame]
      split_ifs <;> simp

/-- Every file that the pods have left on a node lies below the base directory of its capture and has the first bytes of
a tarball. -/
theorem copies_confined (runs : List (Run node)) {p content : GoString}
    (h : runs.foldl Run.output (fun _ => none) p = some content) :
    ∃ r ∈ runs, Below r.baseDir p ∧ content <+: r.tarball := by
  induction runs using List.reverseRecOn with
  | nil => cases h
  | append_singleton runs r ih =>
    have hbefore : runs.foldl Run.output (fun _ => none) p = some content →
        ∃ r' ∈ runs ++ [r], Below r'.baseDir p ∧ content <+: r'.tarball := fun hp =>
      (ih hp).imp fun _ hr => ⟨List.mem_append_left _ hr.1,hr.2⟩
    obtain ⟨t,path,-,hresolve,-,-,henv⟩ := r.cases
    rw [List.foldl_append, List.foldl_cons, List.foldl_nil, Run.output, henv] at h
    rcases resolveHostPath_cases hresolve with rfl | hbelow
    · exact hbefore (by simpa [workload, captureNetwork, stringToTime_timeToString, outputCapture] using h)
    · rw [workload_eq hbelow.named] at h
      rcases hcopy : r.copy with _ | _ | n <;> simp only [hcopy, Copy.written, Option.elim] at h
      · exact hbefore h
      · exact hbefore h
      · rw [Function.update_apply] at h
        split_ifs at h with hp
        · obtain rfl := Option.some.inj h
          exact ⟨r,by simp,hp ▸ hbelow.concat plain_archive,List.take_prefix n r.tarball⟩
        · exact hbefore h

/-- Whatever the pods on a node have done: a download gets what the last pod has copied whose capture has the same name,
time of the start and directory, with the bytes that it could write. -/
theorem download_last_copy (shell : Shell) (runs : List (Run node)) (r : Run node) (hpath : r.job.env.hostPath ≠ [])
    (hliteral : r.job.env.hostPath.all isLiteral) :
    downloadFromCluster shell (runs.foldl Run.output fun _ => none) r.job.annotations =
      match (copies runs r).getLast? with
      | none => .error (.fileNotAccessible (getDownloadCmd r.job.env.hostPath r.job.annotations.filename).srcFilePath)
      | some [] => .error .emptyDownloadOutput
      | some content => .ok content := by
  obtain ⟨t,path,ht,hresolve,hfilename,hhostPath,henv⟩ := r.cases
  have hfiles : runs.foldl Run.output (fun _ => none) (r.job.env.hostPath ++ slash :: archive r.capture.name node t) =
      (copies runs r).getLast? := by
    induction runs using List.reverseRecOn with
    | nil => rfl
    | append_singleton runs r' ih =>
      rw [List.foldl_append, List.foldl_cons, List.foldl_nil, Run.output_apply _ r' ht hpath, ih]
      simp only [copies, List.filter_append, List.filterMap_append, List.getLast?_append]
      by_cases hsame : r'.SameFile r
      · cases hwritten : r'.copy.written r'.tarball <;> simp [hsame, hwritten]
      · simp [hsame]
  rw [henv] at hpath hliteral hfiles
  have hnamed := ((resolveHostPath_cases hresolve).resolve_left hpath).named
  have hhostPath : r.job.annotations.hostPath = some path := by
    rw [hhostPath, getPodAnnotationsFromCapture, if_pos hpath]
  rw [downloadFromCluster, hhostPath, hfilename, henv]
  dsimp only
  rw [← fileName, downloadFileContent_eq hnamed _ shell hliteral, hfiles]

def sampleNode : ObjectName := ⟨ascii "n",by decide⟩

def sampleRun (copy : Copy) : Run sampleNode where
  capture := ⟨⟨ascii "c",by decide⟩,some ⟨⟨2024,1,2,3,4,5⟩,by decide⟩,some (ascii "d")⟩
  baseDir := []
  nodes := [sampleNode]
  jobs := [_]
  job := _
  translated := rfl
  mem_jobs := List.mem_singleton_self _
  onNode := rfl
  tarball := [1,2,3]
  copy := copy

theorem copies_confined_once : ∃ r ∈ [sampleRun (.copied 2)],
    Below r.baseDir (ascii "/var/log/retina/captures/d/c-n-20240102030405UTC.tar.gz") ∧ [1,2] <+: r.tarball :=
  copies_confined _ (by rfl)

theorem download_last_copy_twice :
    downloadFromCluster ⟨id,fun _ _ => rfl⟩ ([sampleRun (.copied 3),sampleRun (.copied 2),sampleRun .openFailed].foldl
      Run.output fun _ => none) (sampleRun .openFailed).job.annotations = .ok [1,2] :=
  (download_last_copy _ _ (sampleRun .openFailed) (by decide) (by decide)).trans rfl

end Retina.CaptureFiles
