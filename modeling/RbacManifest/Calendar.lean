/-!
# Dates and times

The days of the Gregorian calendar from the year 1 to the year 9999, times of day, and distances
from universal time. A date or time that does not exist is refused for the first of its parts
that is out of range.
-/

namespace RbacManifest

structure Date where
  year : Nat
  month : Nat
  day : Nat
  deriving DecidableEq, Repr

structure DateTime where
  date : Date
  hour : Nat
  minute : Nat
  second : Nat
  microsecond : Nat
  /-- How many minutes the clock is ahead of universal time, if that is stated. -/
  offset : Option Int
  deriving DecidableEq, Repr

namespace Calendar

/-- The first part of a date or time that is out of range. -/
inductive Fault
  | year (number : Nat)
  | month
  | day
  | hour
  | minute
  | second
  /-- The clock is this many minutes ahead, a day or more in either direction. -/
  | offset (minutes : Int)
  deriving DecidableEq, Repr

/-- A length of time that is not shorter than a day, in days and seconds. -/
def describeDays (minutes : Int) : String :=
  let days := Int.fdiv minutes 1440
  let seconds := Int.fmod minutes 1440 * 60
  if seconds = 0 then s!"datetime.timedelta(days={days})"
  else s!"datetime.timedelta(days={days}, seconds={seconds})"

def Fault.message : Fault → String
  | .year number => s!"year {number} is out of range"
  | .month => "month must be in 1..12"
  | .day => "day is out of range for month"
  | .hour => "hour must be in 0..23"
  | .minute => "minute must be in 0..59"
  | .second => "second must be in 0..59"
  | .offset minutes =>
      "offset must be a timedelta strictly between -timedelta(hours=24) and timedelta(hours=24), "
        ++ s!"not {describeDays minutes}."

def isLeap (year : Nat) : Bool :=
  year % 4 = 0 ∧ (year % 100 ≠ 0 ∨ year % 400 = 0)

def daysIn (year month : Nat) : Nat :=
  if month = 2 then (if isLeap year then 29 else 28)
  else if month = 4 ∨ month = 6 ∨ month = 9 ∨ month = 11 then 30
  else 31

def date (year month day : Nat) : Except Fault Date :=
  if year = 0 ∨ 9999 < year then .error (.year year)
  else if month = 0 ∨ 12 < month then .error .month
  else if day = 0 ∨ daysIn year month < day then .error .day
  else .ok { year, month, day }

def dateTime (year month day hour minute second microsecond : Nat) (offset : Option Int) :
    Except Fault DateTime := do
  if let some minutes := offset then
    if minutes.natAbs ≥ 1440 then throw (.offset minutes)
  let date ← date year month day
  if 23 < hour then throw .hour
  if 59 < minute then throw .minute
  if 59 < second then throw .second
  return { date, hour, minute, second, microsecond, offset }

/-- A number with zeros in front of it, to a given width. -/
def padded (width : Nat) (value : Nat) : String :=
  let digits := (Nat.repr value).toList
  String.ofList (List.replicate (width - digits.length) '0' ++ digits)

/-- The number of days before a day, counted from the first day of the year 1. -/
def dayNumber (date : Date) : Nat :=
  let before := date.year - 1
  let months := (List.range (date.month - 1)).map fun month => daysIn date.year (month + 1)
  before * 365 + before / 4 - before / 100 + before / 400 + months.foldl (· + ·) 0 +
    (date.day - 1)

end Calendar

def Date.text (date : Date) : String :=
  s!"{Calendar.padded 4 date.year}-{Calendar.padded 2 date.month}-{Calendar.padded 2 date.day}"

namespace DateTime

def offsetText : Option Int → String
  | none => ""
  | some minutes =>
      let size := minutes.natAbs
      let sign := if minutes < 0 then "-" else "+"
      s!"{sign}{Calendar.padded 2 (size / 60)}:{Calendar.padded 2 (size % 60)}"

/-- The standard text of a time, with a separator between the day and the time of day. -/
def text (separator : String) (time : DateTime) : String :=
  let clock := String.intercalate ":"
    [Calendar.padded 2 time.hour, Calendar.padded 2 time.minute, Calendar.padded 2 time.second]
  let fraction := if time.microsecond = 0 then "" else "." ++ Calendar.padded 6 time.microsecond
  time.date.text ++ separator ++ clock ++ fraction ++ offsetText time.offset

/-- The microseconds since the beginning of the year 1, in universal time where the distance from
it is stated. -/
def instant (time : DateTime) : Int :=
  let minutes : Int :=
    ((Calendar.dayNumber time.date * 24 + time.hour) * 60 + time.minute : Nat) -
      time.offset.getD 0
  (minutes * 60 + time.second) * 1000000 + time.microsecond

/-- Whether two times are the same instant. A time whose distance from universal time is not
stated is never the same as one whose distance is. -/
def same (left right : DateTime) : Bool :=
  left.offset.isSome = right.offset.isSome ∧ left.instant = right.instant

end DateTime

end RbacManifest
