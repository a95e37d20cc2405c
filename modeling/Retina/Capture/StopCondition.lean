import Retina.Library.Rounding
import Retina.Capture.HostPath
import Retina.Capture.Targets
import Retina.Capture.Filters

/-! # What stops a capture

The way of the duration and of the size of a capture: `validateCapture` and
`obtainCaptureOptionEnv` of `pkg/capture/crd_to_job.go`, the environment of the job,
`captureDuration` and `captureMaxSizeMB` of `pkg/capture/capture_manager.go`, and the timer and
the size check of `CaptureNetworkPacket` of `pkg/capture/provider/network_capture_unix.go`.
-/
namespace Retina.Capture

/-- The spec of a capture, as far as it is validated. Durations are in nanoseconds. -/
structure CaptureSpec where
  target : CaptureTarget
  duration : Option Int64
  maxCaptureSize : Option Int64
  fileCount : Option Int64
  interfaces : List String
  tcpdumpFilter : Option String
  sourceIPs : List String
  destinationIPs : List String
  blobUpload : Option String
  hostPath : Option GoString
  persistentVolumeClaim : Option String
  hasS3Upload : Bool

inductive CaptureError
  | target (e : TargetsError)
  | noStopCondition
  | fileCountRequiresMaxSize
  | noOutput
  | output (e : OutputError)
  | tcpdumpFilterIncompatibleWithSourceDestIPs
  | invalidIPAddress (fieldName ip : String)

def utf8 (s : String) : GoString := s.toUTF8.data.toList

/-- The message of an error; `quote` is `strconv.Quote`. -/
def CaptureError.text (quote : GoString → GoString) : CaptureError → GoString
  | .target e => utf8 e.text
  | .noStopCondition => ascii "Neither duration nor maxCaptureSize is set to stop the capture"
  | .fileCountRequiresMaxSize => ascii "fileCount requires maxCaptureSize to be set as per-file size limit"
  | .noOutput => ascii "At least one output configuration should be set"
  | .output e => e.text quote
  | .tcpdumpFilterIncompatibleWithSourceDestIPs => ascii
    "tcpdumpFilter (deprecated) cannot be combined with sourceIPs/destinationIPs; use pcapFilter instead"
  | .invalidIPAddress fieldName ip => ascii fieldName ++ ascii ": " ++ quote (utf8 ip) ++ ascii " is not a valid IP address"

def validateIPAddresses (parser : IPParser) (ips : List String) (fieldName : String) : Except CaptureError Unit :=
  match ips.find? fun w => (parser.parse w).isNone with
  | some w => .error (.invalidIPAddress fieldName w)
  | none => .ok ()

def validateCapture (parser : IPParser) (captureHostPathBaseDir : GoString) (spec : CaptureSpec) :
    Except CaptureError Unit :=
  match validateTargetSelector spec.target with
  | .error e => .error (.target e)
  | .ok () =>
    if spec.duration.isNone ∧ spec.maxCaptureSize.isNone then .error .noStopCondition
    else if spec.fileCount.isSome ∧ spec.maxCaptureSize.isNone then .error .fileCountRequiresMaxSize
    else if spec.blobUpload.isNone ∧ spec.hostPath.isNone ∧ spec.persistentVolumeClaim.isNone ∧ spec.hasS3Upload = false then
      .error .noOutput
    else
      match resolveHostPath spec.hostPath captureHostPathBaseDir with
      | .error e => .error (.output e)
      | .ok _ =>
        if spec.tcpdumpFilter.getD "" ≠ "" ∧ (spec.sourceIPs ≠ [] ∨ spec.destinationIPs ≠ []) then
          .error .tcpdumpFilterIncompatibleWithSourceDestIPs
        else do
          validateIPAddresses parser spec.sourceIPs "sourceIPs"
          validateIPAddresses parser spec.destinationIPs "destinationIPs"

/-! ## The environment -/

/-- `time.Duration.String` and `time.ParseDuration`. -/
structure DurationText where
  format : Int64 → String
  parse : String → Option Int64
  parse_format : ∀ d, parse (format d) = some d
  format_ne_empty : ∀ d, format d ≠ ""

def itoa (n : Int64) : String := toString n.toInt

def parseInt (s : String) : Option Int64 :=
  match atoi s with
  | none => none
  | some value => if -2 ^ 63 ≤ value ∧ value < 2 ^ 63 then some (.ofInt value) else none

def optionEnv (key : String) (value : Option String) : List (String × String) := (value.map fun v => (key,v)).toList

def obtainCaptureOptionEnv (text : DurationText) (spec : CaptureSpec) : List (String × String) :=
  optionEnv "CAPTURE_DURATION" (spec.duration.map text.format) ++
    (optionEnv "CAPTURE_MAX_SIZE" (spec.maxCaptureSize.map itoa) ++
      (optionEnv "CAPTURE_FILE_COUNT" (spec.fileCount.map itoa) ++
        optionEnv "CAPTURE_INTERFACES" (if spec.interfaces = [] then none else some (",".intercalate spec.interfaces))))

/-- A variable that is not set reads as the empty text. -/
def getenv (env : List (String × String)) (key : String) : String := (env.lookup key).getD ""

/-! ## The capture pod -/

inductive OptionError
  | duration (value : String)
  | maxSize (value : String)
  | fileCount (value : String)
  | negativeFileCount

/-- `Duration.Seconds`, with the rounding of each operation. -/
def seconds (fl : ℚ → ℚ) (d : Int64) : ℚ :=
  fl (fl (d.toInt.tdiv 1000000000) + fl (fl (d.toInt.tmod 1000000000) / 1000000000))

/-- The conversion to an integer drops the fraction. -/
def truncate (q : ℚ) : ℤ := if 0 ≤ q then ⌊q⌋ else ⌈q⌉

def captureDuration (fl : ℚ → ℚ) (text : DurationText) (env : List (String × String)) : Except OptionError ℤ :=
  let captureDurationStr := getenv env "CAPTURE_DURATION"
  if captureDurationStr = "" then .ok 0
  else
    match text.parse captureDurationStr with
    | none => .error (.duration captureDurationStr)
    | some duration => .ok (truncate (seconds fl duration))

def captureMaxSizeMB (env : List (String × String)) : Except OptionError ℤ :=
  let captureMaxSizeMBStr := getenv env "CAPTURE_MAX_SIZE"
  if captureMaxSizeMBStr = "" then .ok 0
  else
    match parseInt captureMaxSizeMBStr with
    | none => .error (.maxSize captureMaxSizeMBStr)
    | some n => .ok n.toInt

def captureFileCount (env : List (String × String)) : Except OptionError ℤ :=
  let captureFileCountStr := getenv env "CAPTURE_FILE_COUNT"
  if captureFileCountStr = "" then .ok 0
  else
    match parseInt captureFileCountStr with
    | none => .error (.fileCount captureFileCountStr)
    | some count => if count.toInt < 0 then .error .negativeFileCount else .ok count.toInt

/-- What `CaptureNetworkPacket` starts besides tcpdump: a timer in seconds, and a check of the size of the
file in megabytes. -/
structure StopConditions where
  timer : Option ℤ
  sizeLimit : Option ℤ

def stopConditions (duration maxSizeMB fileCount : ℤ) : StopConditions where
  timer := if duration ≠ 0 then some duration else none
  sizeLimit := if maxSizeMB ≠ 0 ∧ fileCount = 0 then some maxSizeMB else none

def captureNetwork (fl : ℚ → ℚ) (text : DurationText) (env : List (String × String)) :
    Except OptionError StopConditions := do
  let duration ← captureDuration fl text env
  let maxSizeMB ← captureMaxSizeMB env
  let fileCount ← captureFileCount env
  .ok (stopConditions duration maxSizeMB fileCount)

/-! ## The texts are read back -/

theorem unsignedValue_toDigits (n : ℕ) : unsignedValue (Nat.toDigits 10 n) = some (n : ℤ) := by
  have hdigits : (Nat.toDigits 10 n).all Char.isDigit = true :=
    List.all_eq_true.mpr fun c hc => Nat.isDigit_of_mem_toDigits (by norm_num) (by norm_num) hc
  rw [unsignedValue, if_pos ⟨Nat.toDigits_ne_nil,hdigits⟩, Nat.ofDigitChars_ten_toDigits]

theorem toList_toString (n : ℕ) : (toString n).toList = Nat.toDigits 10 n := by
  rw [Nat.toString_eq_ofList_toDigits, String.toList_ofList]

theorem atoi_toString (z : ℤ) : atoi (toString z) = some z := by
  cases z with
  | ofNat m =>
    have htext : (toString (Int.ofNat m)).toList = Nat.toDigits 10 m := toList_toString m
    have hvalue := unsignedValue_toDigits m
    have hdigits : ∀ c ∈ Nat.toDigits 10 m, c.isDigit = true :=
      fun c hc => Nat.isDigit_of_mem_toDigits (by norm_num) (by norm_num) hc
    unfold atoi
    rw [htext]
    split
    · next ds hds => exact absurd (hdigits '-' (hds ▸ List.mem_cons_self)) (by decide)
    · next ds hds => exact absurd (hdigits '+' (hds ▸ List.mem_cons_self)) (by decide)
    · exact hvalue
  | negSucc m =>
    have htext : (toString (Int.negSucc m)).toList = '-' :: Nat.toDigits 10 (m + 1) := by
      have happend : toString (Int.negSucc m) = "-" ++ toString (m + 1) := rfl
      rw [happend, String.toList_append, toList_toString]
      rfl
    rw [atoi, htext]
    change (unsignedValue (Nat.toDigits 10 (m + 1))).map Neg.neg = _
    rw [unsignedValue_toDigits]
    rfl

theorem parseInt_itoa (n : Int64) : parseInt (itoa n) = some n := by
  have hrange : -2 ^ 63 ≤ n.toInt ∧ n.toInt < 2 ^ 63 := ⟨n.le_toInt,n.toInt_lt⟩
  simp only [parseInt, itoa, atoi_toString]
  rw [if_pos hrange, Int64.ofInt_toInt]

theorem itoa_ne_empty (n : Int64) : itoa n ≠ "" := by
  intro h
  have hparse := parseInt_itoa n
  rw [h] at hparse
  simp [parseInt, atoi, unsignedValue] at hparse

theorem getenv_optionEnv_append (key : String) (value : Option String) (rest : List (String × String)) (key' : String) :
    getenv (optionEnv key value ++ rest) key' = if key' = key then value.getD (getenv rest key) else getenv rest key' := by
  cases value with
  | none => by_cases h : key' = key <;> simp [optionEnv, h]
  | some v =>
    by_cases h : key' = key
    · simp [optionEnv, getenv, h]
    · simp [optionEnv, getenv, List.lookup_cons, beq_eq_false_iff_ne.mpr h, h]

theorem getenv_optionEnv (key : String) (value : Option String) (key' : String) :
    getenv (optionEnv key value) key' = if key' = key then value.getD "" else "" := by
  have happend := getenv_optionEnv_append key value [] key'
  rwa [List.append_nil] at happend

section
variable (text : DurationText) (spec : CaptureSpec)

theorem getenv_duration :
    getenv (obtainCaptureOptionEnv text spec) "CAPTURE_DURATION" = (spec.duration.map text.format).getD "" := by
  simp [obtainCaptureOptionEnv, getenv_optionEnv_append, getenv_optionEnv]

theorem getenv_maxSize :
    getenv (obtainCaptureOptionEnv text spec) "CAPTURE_MAX_SIZE" = (spec.maxCaptureSize.map itoa).getD "" := by
  simp [obtainCaptureOptionEnv, getenv_optionEnv_append, getenv_optionEnv]

theorem getenv_fileCount :
    getenv (obtainCaptureOptionEnv text spec) "CAPTURE_FILE_COUNT" = (spec.fileCount.map itoa).getD "" := by
  simp [obtainCaptureOptionEnv, getenv_optionEnv_append, getenv_optionEnv]

end

/-! ## The seconds of a duration -/

theorem truncate_pos_iff (q : ℚ) : 0 < truncate q ↔ 1 ≤ q := by
  unfold truncate
  split_ifs with h
  · rw [Int.floor_pos]
  · have hle : ⌈q⌉ ≤ 0 := Int.ceil_le.mpr (by push_cast; linarith)
    constructor
    · intro hpos
      omega
    · intro hq
      linarith

/-- Only a duration of a second or more has a positive number of seconds, whatever the rounding does to
longer ones. -/
theorem truncate_seconds_pos_iff {fl : ℚ → ℚ} (hfl : Float64Rounding fl) (d : Int64) :
    0 < truncate (seconds fl d) ↔ 1000000000 ≤ d.toInt := by
  have hlow : -2 ^ 63 ≤ d.toInt := d.le_toInt
  have hhigh : d.toInt < 2 ^ 63 := d.toInt_lt
  rw [truncate_pos_iff, seconds]
  generalize d.toInt = z at *
  have hz := Int.mul_tdiv_add_tmod z 1000000000
  have hless := Int.tmod_lt_of_pos z (show (0 : ℤ) < 1000000000 by norm_num)
  have hmore := Int.tmod_lt_of_pos (-z) (show (0 : ℤ) < 1000000000 by norm_num)
  have hpos : 0 ≤ z → 0 ≤ z.tmod 1000000000 := fun h => Int.tmod_nonneg _ h
  have hneg : z ≤ 0 → 0 ≤ (-z).tmod 1000000000 := fun h => Int.tmod_nonneg _ (by omega)
  rw [Int.neg_tmod] at hmore hneg
  generalize z.tdiv 1000000000 = sec at *
  generalize z.tmod 1000000000 = nsec at *
  have hsec : |sec| ≤ 2 ^ 53 := abs_le.mpr (by omega)
  have hnsec : |nsec| ≤ 2 ^ 53 := abs_le.mpr (by omega)
  rw [hfl.exact_int hsec, hfl.exact_int hnsec]
  constructor
  · -- below a second the sum stays under the number next to one
    intro h
    by_contra hshort
    have hnear := hfl.exact (2 ^ 30 - 1) 30 (by norm_num) (by norm_num)
    have hwhole : (sec : ℚ) ≤ 0 := by exact_mod_cast (by omega : sec ≤ 0)
    have hrest : (nsec : ℚ) ≤ 999999999 := by exact_mod_cast (by omega : nsec ≤ 999999999)
    have hfraction := hfl.mono (show (nsec : ℚ) / 1000000000 ≤ ((2 ^ 30 - 1 : ℤ) : ℚ) / 2 ^ 30 by norm_num; linarith)
    rw [hnear] at hfraction
    have hsum := hfl.mono (show (sec : ℚ) + fl (nsec / 1000000000) ≤ ((2 ^ 30 - 1 : ℤ) : ℚ) / 2 ^ 30 by linarith)
    rw [hnear] at hsum
    norm_num at hsum
    linarith
  · intro hlong
    have hwhole : (1 : ℚ) ≤ sec := by exact_mod_cast (by omega : 1 ≤ sec)
    have hrest : (0 : ℚ) ≤ nsec := by exact_mod_cast (by omega : 0 ≤ nsec)
    have hzero : fl 0 = 0 := by simpa using hfl.exact_int (show |(0 : ℤ)| ≤ 2 ^ 53 by norm_num)
    have hone : fl 1 = 1 := by simpa using hfl.exact_int (show |(1 : ℤ)| ≤ 2 ^ 53 by norm_num)
    have hfraction := hfl.mono (show (0 : ℚ) ≤ nsec / 1000000000 by positivity)
    rw [hzero] at hfraction
    have hsum := hfl.mono (show (1 : ℚ) ≤ sec + fl (nsec / 1000000000) by linarith)
    rwa [hone] at hsum

/-! ## Captures that stop -/

/-- The capture that the environment describes has a timer that runs out or a size that is reached. -/
def StopsItself (fl : ℚ → ℚ) (text : DurationText) (env : List (String × String)) : Prop :=
  ∃ stop, captureNetwork fl text env = .ok stop ∧
    ((∃ s, stop.timer = some s ∧ 0 < s) ∨ ∃ n, stop.sizeLimit = some n ∧ 0 < n)

theorem exists_timer_iff (duration maxSizeMB fileCount : ℤ) :
    (∃ s, (stopConditions duration maxSizeMB fileCount).timer = some s ∧ 0 < s) ↔ 0 < duration := by
  by_cases h : duration = 0 <;> simp [stopConditions, h]

theorem exists_sizeLimit_iff (duration maxSizeMB : ℤ) :
    (∃ n, (stopConditions duration maxSizeMB 0).sizeLimit = some n ∧ 0 < n) ↔ 0 < maxSizeMB := by
  by_cases h : maxSizeMB = 0 <;> simp [stopConditions, h]

theorem captureNetwork_obtainCaptureOptionEnv (fl : ℚ → ℚ) (text : DurationText) {spec : CaptureSpec}
    (hfiles : spec.fileCount = none) :
    captureNetwork fl text (obtainCaptureOptionEnv text spec) =
      .ok (stopConditions (spec.duration.elim 0 fun d => truncate (seconds fl d))
        (spec.maxCaptureSize.elim 0 Int64.toInt) 0) := by
  have hd : captureDuration fl text (obtainCaptureOptionEnv text spec) =
      .ok (spec.duration.elim 0 fun d => truncate (seconds fl d)) := by
    rw [captureDuration, getenv_duration]
    cases spec.duration with
    | none => rfl
    | some d => simp [text.format_ne_empty, text.parse_format]
  have hm : captureMaxSizeMB (obtainCaptureOptionEnv text spec) = .ok (spec.maxCaptureSize.elim 0 Int64.toInt) := by
    rw [captureMaxSizeMB, getenv_maxSize]
    cases spec.maxCaptureSize with
    | none => rfl
    | some n => simp [itoa_ne_empty, parseInt_itoa]
  have hc : captureFileCount (obtainCaptureOptionEnv text spec) = .ok 0 := by
    rw [captureFileCount, getenv_fileCount, hfiles]
    rfl
  rw [captureNetwork, hd, hm, hc]
  rfl

/-- An accepted capture of a single file stops itself exactly if it has a duration of a second or more, or a
positive size. -/
theorem accepted_stopsItself_iff (fl : ℚ → ℚ) (hfl : Float64Rounding fl) (text : DurationText) (parser : IPParser)
    (captureHostPathBaseDir : GoString) (spec : CaptureSpec) (hfiles : spec.fileCount = none) :
    validateCapture parser captureHostPathBaseDir spec = .ok () →
      (StopsItself fl text (obtainCaptureOptionEnv text spec) ↔
        (∃ d, spec.duration = some d ∧ 1000000000 ≤ d.toInt) ∨ ∃ n, spec.maxCaptureSize = some n ∧ 0 < n.toInt) := by
  intro _
  have hcapture := captureNetwork_obtainCaptureOptionEnv fl text hfiles
  have hduration : 0 < (spec.duration.elim 0 fun d => truncate (seconds fl d)) ↔
      ∃ d, spec.duration = some d ∧ 1000000000 ≤ d.toInt := by
    cases spec.duration <;> simp [truncate_seconds_pos_iff hfl]
  have hsize : 0 < spec.maxCaptureSize.elim 0 Int64.toInt ↔ ∃ n, spec.maxCaptureSize = some n ∧ 0 < n.toInt := by
    cases spec.maxCaptureSize <;> simp
  rw [StopsItself, ← hduration, ← hsize]
  constructor
  · rintro ⟨stop,hstop,h⟩
    rw [hcapture] at hstop
    cases hstop
    exact h.imp (exists_timer_iff _ _ _).mp (exists_sizeLimit_iff _ _).mp
  · intro h
    exact ⟨_,hcapture,h.imp (exists_timer_iff _ _ _).mpr (exists_sizeLimit_iff _ _).mpr⟩

def nanoseconds : DurationText where
  format d := itoa d ++ "ns"
  parse s := parseInt (String.ofList s.toList.dropLast.dropLast)
  parse_format d := by
    have hlist : (itoa d ++ "ns").toList.dropLast.dropLast = (itoa d).toList := by
      rw [String.toList_append, show "ns".toList = ['n'] ++ ['s'] from rfl, ← List.append_assoc, List.dropLast_concat,
        List.dropLast_concat]
    rw [hlist, String.ofList_toList, parseInt_itoa]
  format_ne_empty d := by simp

def webCapture (duration maxCaptureSize : Option Int64) : CaptureSpec where
  target := ⟨none,none,some ⟨[("app","web")],[]⟩,[]⟩
  duration := duration
  maxCaptureSize := maxCaptureSize
  fileCount := none
  interfaces := []
  tcpdumpFilter := none
  sourceIPs := []
  destinationIPs := []
  blobUpload := none
  hostPath := none
  persistentVolumeClaim := some "captures"
  hasS3Upload := false

/-- Half a second, and a size of zero. -/
theorem halfSecond_does_not_stop :
    validateCapture ⟨fun _ => none,nofun,nofun⟩ [] (webCapture (some 500000000) (some 0)) = .ok () ∧
      ¬StopsItself id nanoseconds (obtainCaptureOptionEnv nanoseconds (webCapture (some 500000000) (some 0))) := by
  refine ⟨rfl,?_⟩
  rintro ⟨stop,hstop,h⟩
  rw [captureNetwork_obtainCaptureOptionEnv id nanoseconds rfl] at hstop
  cases hstop
  rw [exists_timer_iff, exists_sizeLimit_iff] at h
  rcases h with h | h
  · exact absurd ((truncate_seconds_pos_iff float64Rounding_id 500000000).mp h) (by decide)
  · exact absurd h (by decide)

theorem oneSecond_stops :
    StopsItself id nanoseconds (obtainCaptureOptionEnv nanoseconds (webCapture (some 1000000000) none)) :=
  (accepted_stopsItself_iff id float64Rounding_id nanoseconds ⟨fun _ => none,nofun,nofun⟩ []
    (webCapture (some 1000000000) none) rfl rfl).mpr (.inl ⟨1000000000,rfl,by decide⟩)

end Retina.Capture
