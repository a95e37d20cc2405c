import Retina.Capture.HostPath

/-! # Names of capture files

`pkg/capture/file`. The name of a capture file has the names of the capture and of the node and the time of the start,
in the form `20060102150405UTC`. The times are those of the API server: they have a year of four digits, and parts of a
second are in none of the texts.
-/
namespace Retina.Capture

structure Civil where
  year : ℕ
  month : ℕ
  day : ℕ
  hour : ℕ
  minute : ℕ
  second : ℕ
deriving DecidableEq

def isLeap (year : ℕ) : Bool := year % 4 = 0 && (year % 100 != 0 || year % 400 = 0)

def daysIn (month year : ℕ) : ℕ :=
  if month = 2 then if isLeap year then 29 else 28
  else if month ∈ [4,6,9,11] then 30
  else 31

def Civil.Valid (c : Civil) : Prop :=
  c.year < 10000 ∧ (1 ≤ c.month ∧ c.month ≤ 12) ∧ (1 ≤ c.day ∧ c.day ≤ daysIn c.month c.year) ∧
    c.hour < 24 ∧ c.minute < 60 ∧ c.second < 60

instance (c : Civil) : Decidable c.Valid := inferInstanceAs (Decidable (_ ∧ _))

abbrev Time := { c : Civil // c.Valid }

/-! ## Texts of times -/

def digit (d : ℕ) : UInt8 := UInt8.ofNat (48 + d)

def isDigit (b : UInt8) : Bool := 48 ≤ b && b ≤ 57

def digitValue (b : UInt8) : ℕ := (b - 48).toNat

def twoDigits (n : ℕ) : GoString := [digit (n / 10),digit (n % 10)]

def formatTime (c : Civil) : GoString :=
  twoDigits (c.year / 100) ++ (twoDigits (c.year % 100) ++ (twoDigits c.month ++ (twoDigits c.day ++
    (twoDigits c.hour ++ (twoDigits c.minute ++ (twoDigits c.second ++ ascii "UTC"))))))

/-- One or two digits, or exactly two, as `getnum` of `time/format.go`. -/
def getnum (fixed : Bool) : GoString → Option (ℕ × GoString)
  | [] => none
  | d :: rest =>
    if !isDigit d then none
    else
      match rest with
      | e :: rest' =>
        if isDigit e then some (10 * digitValue d + digitValue e,rest')
        else if fixed then none
        else some (digitValue d,rest)
      | [] => if fixed then none else some (digitValue d,rest)

/-- A fraction that the layout does not have is read with the seconds. -/
def skipFraction : GoString → GoString
  | mark :: d :: rest =>
    if (mark = dot ∨ mark = 44) ∧ isDigit d then rest.dropWhile isDigit else mark :: d :: rest
  | s => s

/-- The fields of a text, and what follows them. Only the hour may have one digit. -/
def parseFields (s : GoString) : Option (Civil × GoString) := do
  let (century,s) ← getnum true s
  let (yearOfCentury,s) ← getnum true s
  let (month,s) ← getnum true s
  let (day,s) ← getnum true s
  let (hour,s) ← getnum false s
  let (minute,s) ← getnum true s
  let (second,s) ← getnum true s
  some (⟨100 * century + yearOfCentury,month,day,hour,minute,second⟩,skipFraction s)

def stringToTime (timestamp : GoString) : Option Time :=
  (parseFields timestamp).bind fun p =>
    if h : p.1.Valid then if p.2 = ascii "UTC" then some ⟨p.1,h⟩ else none else none

/-- Without a time, the text of the zero time. -/
def timeToString : Option Time → GoString
  | none => formatTime ⟨1,1,1,0,0,0⟩
  | some t => formatTime t.1

theorem daysIn_lt (month year : ℕ) : daysIn month year < 100 := by
  unfold daysIn
  split_ifs <;> decide

theorem digit_spec {d : ℕ} (h : d < 10) : isDigit (digit d) = true ∧ digitValue (digit d) = d := by
  interval_cases d <;> decide

theorem getnum_twoDigits {n : ℕ} (h : n < 100) (fixed : Bool) (rest : GoString) :
    getnum fixed (twoDigits n ++ rest) = some (n,rest) := by
  obtain ⟨hhigh,hhigh'⟩ := digit_spec (show n / 10 < 10 by omega)
  obtain ⟨hlow,hlow'⟩ := digit_spec (show n % 10 < 10 by omega)
  simp only [twoDigits, List.cons_append, List.nil_append, getnum, hhigh, hlow, hhigh', hlow', Bool.not_true,
    Bool.false_eq_true, if_false, if_true]
  rw [Nat.div_add_mod]

theorem parseFields_formatTime (t : Time) : parseFields (formatTime t.1) = some (t.1,ascii "UTC") := by
  obtain ⟨⟨year,month,day,hour,minute,second⟩,hyear,⟨-,hmonth⟩,⟨-,hday⟩,hhour,hminute,hsecond⟩ := t
  dsimp only at hyear hmonth hday hhour hminute hsecond
  have hday : day < 100 := hday.trans_lt (daysIn_lt month year)
  unfold parseFields formatTime
  simp only [getnum_twoDigits (show year / 100 < 100 by omega), getnum_twoDigits (show year % 100 < 100 by omega),
    getnum_twoDigits (show month < 100 by omega), getnum_twoDigits hday, getnum_twoDigits (show hour < 100 by omega),
    getnum_twoDigits (show minute < 100 by omega), getnum_twoDigits (show second < 100 by omega), Option.bind_eq_bind,
    Option.bind_some, Nat.div_add_mod]
  rfl

theorem stringToTime_timeToString (t : Time) : stringToTime (timeToString (some t)) = some t := by
  rw [timeToString, stringToTime, parseFields_formatTime, Option.bind_some, dif_pos t.2, if_pos rfl]

theorem length_timeToString (t : Option Time) : (timeToString t).length = 17 := by
  cases t <;> rfl

theorem timeToString_inj {t t' : Time} (h : timeToString (some t) = timeToString (some t')) : t = t' :=
  Option.some.inj ((stringToTime_timeToString t).symm.trans ((congrArg stringToTime h).trans (stringToTime_timeToString t')))

/-! ## File names -/

structure CaptureFilename where
  captureName : GoString
  nodeHostname : GoString
  startTimestamp : Option Time

def CaptureFilename.string (cf : CaptureFilename) : GoString :=
  cf.captureName ++ ascii "-" ++ cf.nodeHostname ++ ascii "-" ++ timeToString cf.startTimestamp

/-- The file names of two captures on one node. -/
theorem CaptureFilename.string_inj {name name' node : GoString} {t t' : Time}
    (h : CaptureFilename.string ⟨name,node,some t⟩ = CaptureFilename.string ⟨name',node,some t'⟩) :
    name = name' ∧ t = t' := by
  obtain ⟨hnames,htimes⟩ := List.append_inj' h (by rw [length_timeToString, length_timeToString])
  refine ⟨?_,timeToString_inj htimes⟩
  simpa [CaptureFilename.string] using hnames

end Retina.Capture
