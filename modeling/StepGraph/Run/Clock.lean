import StepGraph.Number.Basic

/-!
# The clock of a run

A run has a clock of its own, which counts seconds as a double from the start of the year 2024 and
never goes back. A reading becomes a timestamp by rounding to microseconds, a half to the even
side, and then cutting to milliseconds.
-/

namespace StepGraph

/-- Whether one reading of the clock lies before another. -/
def sooner (a b : Float) : Bool := (Number.float a).less (.float b)

/-- The later of two readings. -/
def later (a b : Float) : Float := if sooner a b then b else a

/-- Why a reading has no timestamp. -/
inductive ClockFault where
  /-- A reading at infinity. -/
  | infinite
  /-- A reading that is no number. -/
  | notANumber
  /-- A number of days beyond a machine word. -/
  | daysBeyondWord
  /-- A number of days beyond any span of time. -/
  | daysBeyondSpan (days : Int)
  /-- A day beyond the calendar. -/
  | beyondCalendar
  deriving DecidableEq, Repr

/-- The wording of a fault of the clock. -/
def ClockFault.message : ClockFault → String
  | .infinite => "cannot convert float infinity to integer"
  | .notANumber => "cannot convert float NaN to integer"
  | .daysBeyondWord => "Python int too large to convert to C int"
  | .daysBeyondSpan days => "days=" ++ toString days ++ "; must have magnitude <= 999999999"
  | .beyondCalendar => "date value out of range"

/-- A point in time, in milliseconds from the start of the clock. -/
structure Timestamp where
  /-- Milliseconds since the start of the year 2024. -/
  milliseconds : Int
  deriving DecidableEq, Repr

/-- The microseconds nearest to a finite reading. The fraction of a second is scaled as a double
before it is rounded. -/
def microseconds (x : Float) : Int :=
  let whole := Binary64.magnitude x / Binary64.unit
  let fraction := Binary64.magnitude x % Binary64.unit
  let scaled := Binary64.nearest false (fraction * 1000000) Binary64.unit
  let size := whole * 1000000 + Binary64.roundHalfEven (Binary64.magnitude scaled) Binary64.unit
  if Binary64.isNegative x then -(size : Int) else size

/-- The first and the last day of the calendar, counted from the start of the clock. -/
def calendarDays : Int × Int := (-738885, 2913173)

/-- The timestamp of a reading. -/
def Timestamp.ofReading (x : Float) : Except ClockFault Timestamp :=
  if Binary64.isNotANumber x then .error .notANumber
  else if Binary64.isInfinite x then .error .infinite
  else
    let size := microseconds x
    let days := size.fdiv (86400 * 1000000)
    if days < -Int.pow 2 31 || Int.pow 2 31 ≤ days then .error .daysBeyondWord
    else if days.natAbs > 999999999 then .error (.daysBeyondSpan days)
    else if days < calendarDays.1 || calendarDays.2 < days then .error .beyondCalendar
    else .ok ⟨size.fdiv 1000⟩

/-- Decimal digits of a number, with zeros before them up to a width. -/
def padded (width n : Nat) : String :=
  let digits := toString n
  String.ofList (List.replicate (width - digits.length) '0') ++ digits

/-- Year, month and day of a day counted from the start of the clock. Years are counted from
March, so that a leap day ends its year. -/
def civilDate (day : Int) : Int × Nat × Nat :=
  let shifted := day + 739191
  let era := shifted.fdiv 146097
  let dayOfEra := (shifted - era * 146097).toNat
  let yearOfEra := (dayOfEra - dayOfEra / 1460 + dayOfEra / 36524 - dayOfEra / 146096) / 365
  let dayOfYear := dayOfEra - (365 * yearOfEra + yearOfEra / 4 - yearOfEra / 100)
  let fromMarch := (5 * dayOfYear + 2) / 153
  let dayOfMonth := dayOfYear - (153 * fromMarch + 2) / 5 + 1
  let month := if fromMarch < 10 then fromMarch + 3 else fromMarch - 9
  let year := (yearOfEra : Int) + era * 400
  (if month ≤ 2 then year + 1 else year, month, dayOfMonth)

/-- The text of a timestamp: date and time of day with milliseconds. -/
def Timestamp.text (t : Timestamp) : String :=
  let day := t.milliseconds.fdiv 86400000
  let inDay := (t.milliseconds - day * 86400000).toNat
  let (year, month, dayOfMonth) := civilDate day
  padded 4 year.toNat ++ "-" ++ padded 2 month ++ "-" ++ padded 2 dayOfMonth ++ "T"
    ++ padded 2 (inDay / 3600000) ++ ":" ++ padded 2 (inDay / 60000 % 60) ++ ":"
    ++ padded 2 (inDay / 1000 % 60) ++ "." ++ padded 3 (inDay % 1000) ++ "Z"

end StepGraph
