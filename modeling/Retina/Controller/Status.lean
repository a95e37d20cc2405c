import Mathlib

/-! # The status of a capture

The status of a Capture object and of its jobs. The API server keeps times in seconds, while the
controller's clock is finer. A time read from the clock also carries a monotonic reading, so
that it is never deeply equal to a time that was read from the API server.
-/
namespace Retina.Controller

inductive GoTime
  | api (seconds : ℤ)
  | clock (nanos : ℤ)
deriving DecidableEq

def GoTime.nanos : GoTime → ℤ
  | .api seconds => seconds * 1000000000
  | .clock nanos => nanos

def GoTime.stored : GoTime → ℤ
  | .api seconds => seconds
  | .clock nanos => nanos / 1000000000

inductive ConditionType
  | complete
  | error
deriving DecidableEq

structure Condition (τ : Type) where
  type : ConditionType
  status : Bool
  reason : String
  message : String
  lastTransitionTime : τ
deriving DecidableEq

structure Status (τ : Type) where
  conditions : List (Condition τ) := []
  startTime : Option τ := none
  completionTime : Option τ := none
  active : ℕ := 0
  succeeded : ℕ := 0
  failed : ℕ := 0
deriving DecidableEq

section
variable {τ σ : Type}

def Condition.map (f : τ → σ) (c : Condition τ) : Condition σ :=
  { type := c.type, status := c.status, reason := c.reason, message := c.message,
    lastTransitionTime := f c.lastTransitionTime }

def Status.map (f : τ → σ) (s : Status τ) : Status σ :=
  { conditions := s.conditions.map (·.map f), startTime := s.startTime.map f,
    completionTime := s.completionTime.map f, active := s.active, succeeded := s.succeeded, failed := s.failed }

/-- `meta.SetStatusCondition`. The time of the last transition only changes with the status. -/
def setStatusCondition (conditions : List (Condition τ)) (new : Condition τ) : List (Condition τ) :=
  match conditions with
  | [] => [new]
  | c :: rest =>
    if c.type = new.type then
      { new with
        lastTransitionTime := if c.status ≠ new.status then new.lastTransitionTime else c.lastTransitionTime } :: rest
    else c :: setStatusCondition rest new

def isStatusConditionTrue (conditions : List (Condition τ)) (type : ConditionType) : Bool :=
  (conditions.find? (·.type = type)).any (·.status)

def Status.setCondition (s : Status τ) (new : Condition τ) : Status τ :=
  { s with conditions := setStatusCondition s.conditions new }

def Status.holds (s : Status τ) (type : ConditionType) : Bool := isStatusConditionTrue s.conditions type

theorem isStatusConditionTrue_setStatusCondition (conditions : List (Condition τ)) (new : Condition τ)
    (type : ConditionType) :
    isStatusConditionTrue (setStatusCondition conditions new) type =
      if type = new.type then new.status else isStatusConditionTrue conditions type := by
  induction conditions with
  | nil =>
    by_cases h : new.type = type
    · simp [setStatusCondition, isStatusConditionTrue, h]
    · simp [setStatusCondition, isStatusConditionTrue, h, Ne.symm h]
  | cons c rest ih =>
    rw [setStatusCondition]
    by_cases hc : c.type = new.type
    · rw [if_pos hc]
      by_cases h : new.type = type
      · simp [isStatusConditionTrue, h]
      · simp [isStatusConditionTrue, h, Ne.symm h, hc]
    · rw [if_neg hc]
      by_cases h : c.type = type
      · subst h
        simp [isStatusConditionTrue, hc]
      · have hskip : ∀ cs : List (Condition τ), isStatusConditionTrue (c :: cs) type = isStatusConditionTrue cs type :=
          fun cs => by simp [isStatusConditionTrue, h]
        rw [hskip, hskip, ih]

@[simp] theorem Status.holds_setCondition (s : Status τ) (new : Condition τ) (type : ConditionType) :
    (s.setCondition new).holds type = if type = new.type then new.status else s.holds type :=
  isStatusConditionTrue_setStatusCondition s.conditions new type

@[simp] theorem Status.holds_map (f : τ → σ) (s : Status τ) (type : ConditionType) :
    (s.map f).holds type = s.holds type := by
  unfold Status.holds isStatusConditionTrue Status.map
  induction s.conditions with
  | nil => rfl
  | cons c rest ih =>
    rw [List.map_cons]
    by_cases h : c.type = type
    · simp [Condition.map, h]
    · simpa [Condition.map, h] using ih

end

/-- What was read from the API server is stored as it was. -/
@[simp] theorem Status.map_api_stored (s : Status ℤ) : (s.map GoTime.api).map GoTime.stored = s := by
  have hcondition : ∀ c : Condition ℤ, (c.map GoTime.api).map GoTime.stored = c := fun _ => rfl
  cases s
  simp [Status.map, hcondition, Function.comp_def, GoTime.stored]

/-! ## Jobs -/

inductive JobConditionType
  | complete
  | failed
  | other (name : String)
deriving DecidableEq

structure JobCondition where
  type : JobConditionType
  status : Bool
deriving DecidableEq

structure Job where
  node : String
  conditions : List JobCondition := []
  completionTime : Option ℤ := none
deriving DecidableEq

def Job.finishedType (job : Job) : Option JobConditionType :=
  (job.conditions.find? fun c => (c.type = .complete || c.type = .failed) && c.status).map JobCondition.type

def Job.isActive (job : Job) : Bool := job.finishedType.isNone

def Job.isComplete (job : Job) : Bool := job.finishedType = some .complete

def Job.isFailed (job : Job) : Bool := job.finishedType = some .failed

theorem Job.not_isFailed_of_isComplete {job : Job} (h : job.isComplete = true) : job.isFailed = false := by
  simp_all [Job.isComplete, Job.isFailed]

end Retina.Controller
