import PropertyGraph.Date

/-!
# Moments

A day, a time of day, or what a clock with a calendar shows, where it may be known how far ahead the
clock is; if it is known, two clocks may show one moment in different ways (`Moment.key`).
`Moment.text` is how a message names a moment: zero seconds and zero microseconds at the end are
left off.
-/

namespace PropertyGraph

/-- How many microseconds a day has. -/
def dayLength : Nat := 86400000000

/-- A time of day. -/
structure TimeOfDay where
  hour : Nat
  minute : Nat
  second : Nat
  micro : Nat
deriving DecidableEq, Repr

/-- What a clock with a calendar shows. -/
structure Reading where
  date : Date
  time : TimeOfDay
deriving DecidableEq, Repr

/-- What can be out of range in a reading. -/
inductive Reading.Part where
  | year (given : Int)
  | month
  | day
  | hour
  | minute
  | second
  | micro
deriving DecidableEq, Repr

/-- A moment. -/
inductive Moment where
  | day (d : Date)
  | time (t : TimeOfDay)
  /-- What is shown by a clock that is `offset` seconds ahead. -/
  | reading (r : Reading) (offset : Option Int)
deriving DecidableEq, Repr

namespace Reading

/-- Why a part is out of range, as a sentence. -/
def Part.message : Part → String
  | .year given => "year " ++ toString given ++ " is out of range"
  | .month => "month must be in 1..12"
  | .day => "day is out of range for month"
  | .hour => "hour must be in 0..23"
  | .minute => "minute must be in 0..59"
  | .second => "second must be in 0..59"
  | .micro => "microsecond must be in 0..999999"

/-- The first part of a date that is out of range. -/
def badDatePart? (year month day : Int) : Option Part :=
  if year < 1 ∨ 9999 < year then some (.year year)
  else if month < 1 ∨ 12 < month then some .month
  else if day < 1 ∨ (Date.monthLength year.toNat month.toNat : Int) < day then some .day
  else none

/-- The first part of a time of day that is out of range. -/
def badTimePart? (hour minute second micro : Int) : Option Part :=
  if hour < 0 ∨ 23 < hour then some .hour
  else if minute < 0 ∨ 59 < minute then some .minute
  else if second < 0 ∨ 59 < second then some .second
  else if micro < 0 ∨ 999999 < micro then some .micro
  else none

/-- The microseconds from the start of the year 1 until a clock shows a reading. -/
def micros (r : Reading) : Nat :=
  let t := r.time
  let time := ((t.hour * 60 + t.minute) * 60 + t.second) * 1000000 + t.micro
  r.date.dayNumber * dayLength + time

end Reading

namespace Moment

/-- What a moment is compared by: the microseconds from the start of the year 1, where it is known
how far ahead the clock is, and otherwise the moment itself. -/
inductive Key where
  | shown (m : Moment)
  | passed (micros : Int)
deriving DecidableEq, Repr

def key : Moment → Key
  | .reading r (some offset) => .passed (Int.ofNat r.micros - offset * 1000000)
  | m => .shown m

/-- Parts between parentheses, after a name. -/
def application (name : String) (parts : List String) : String :=
  "datetime." ++ name ++ "(" ++ ", ".intercalate parts ++ ")"

/-- A number of seconds as days, which may be fewer than none, and the seconds that are left. -/
def durationText (seconds : Int) : String :=
  let days := seconds / 86400
  let left := seconds % 86400
  let parts := (if days = 0 then [] else ["days=" ++ toString days]) ++
    (if left = 0 then [] else ["seconds=" ++ toString left])
  application "timedelta" (if parts.isEmpty then ["0"] else parts)

/-- How far ahead a clock is. -/
def zoneText (offset : Int) : String :=
  if offset = 0 then "datetime.timezone.utc" else application "timezone" [durationText offset]

/-- The parts of a day. -/
def dayParts (d : Date) : List String := [d.year, d.month, d.day].map toString

/-- The parts of a time of day. -/
def timeParts (t : TimeOfDay) : List String :=
  let parts :=
    if t.micro ≠ 0 then [t.hour, t.minute, t.second, t.micro]
    else if t.second ≠ 0 then [t.hour, t.minute, t.second]
    else [t.hour, t.minute]
  parts.map toString

/-- A moment as messages name it. -/
def text : Moment → String
  | .day d => application "date" (dayParts d)
  | .time t => application "time" (timeParts t)
  | .reading r offset =>
    let zone := match offset with
      | some seconds => ["tzinfo=" ++ zoneText seconds]
      | none => []
    application "datetime" (dayParts r.date ++ timeParts r.time ++ zone)

/-- The name of the type of a moment, as messages give it. -/
def typeName : Moment → String
  | .day _ => "date"
  | .time _ => "time"
  | .reading _ _ => "datetime"

end Moment

end PropertyGraph
