import GraphShape.Log.Record
import GraphShape.Settings.Config

/-!
# Times in a log

A line of a log starts with its time, and a log file that is replaced from time to time carries
the start of its period in its name. All times are universal.
-/

namespace GraphShape

structure Moment where
  year : Nat
  month : Nat
  day : Nat
  hour : Nat
  minute : Nat
  second : Nat
  microsecond : Nat
  deriving DecidableEq, Repr

namespace Moment

/-- The days from the first of March of the year zero to the start of 1970. -/
def epochDay : Nat := 719468

/-- The moment after so many microseconds since the start of 1970. Years are taken to start with
March, so that a leap day is the last of its year. -/
def ofMicroseconds (microseconds : Nat) : Moment :=
  let seconds := microseconds / 1000000
  let minutes := seconds / 60
  let hours := minutes / 60
  let days := hours / 24 + epochDay
  let dayOfEra := days % 146097
  let yearOfEra :=
    (dayOfEra - dayOfEra / 1460 + dayOfEra / 36524 - dayOfEra / 146096) / 365
  let dayOfYear := dayOfEra - (365 * yearOfEra + yearOfEra / 4 - yearOfEra / 100)
  let monthOfYear := (5 * dayOfYear + 2) / 153
  let year := 400 * (days / 146097) + yearOfEra
  ⟨if monthOfYear < 10 then year else year + 1,
    if monthOfYear < 10 then monthOfYear + 3 else monthOfYear - 9,
    dayOfYear - (153 * monthOfYear + 2) / 5 + 1,
    hours % 24, minutes % 60, seconds % 60, microseconds % 1000000⟩

def padded (width n : Nat) : String :=
  let digits := Nat.toDigits 10 n
  String.ofList (List.replicate (width - digits.length) '0' ++ digits)

def date (t : Moment) : List String := [padded 4 t.year, padded 2 t.month, padded 2 t.day]

/-- The time as it stands in front of a line. -/
def stamp (t : Moment) : String :=
  "-".intercalate t.date ++ "T" ++
    ":".intercalate [padded 2 t.hour, padded 2 t.minute, padded 2 t.second] ++ "." ++
    padded 6 t.microsecond ++ "Z"

end Moment

/-- The line of a record with its time. The names of the levels end in one column. -/
def Log.Record.stampedLine (r : Log.Record) (t : Moment) : String :=
  t.stamp ++ " " ++ String.ofList (List.replicate (5 - r.level.capitals.length) ' ') ++ r.line

namespace Rotation

/-- The numbers of the period that a moment is in. -/
def period (r : Rotation) (t : Moment) : List String :=
  match r with
  | minutely => t.date ++ [Moment.padded 2 t.hour, Moment.padded 2 t.minute]
  | hourly => t.date ++ [Moment.padded 2 t.hour]
  | daily => t.date
  | never => []

/-- The name of the log file that a moment's records go to. -/
def fileName (r : Rotation) (stem : String) (t : Moment) : String :=
  match r.period t with
  | [] => stem ++ ".log"
  | numbers => stem ++ "." ++ "-".intercalate numbers ++ ".log"

end Rotation

end GraphShape
