/-!
# TOML dates and times

A TOML date-time is a date, a time of day, or both, and a full date-time may carry its offset
from UTC. Its text is canonical: the year in four digits and every other field in two, `T`
between date and time, the fraction of a second without trailing zeros (none at all when it is
zero), and the offset as `Z` or a signed `hh:mm`, where an offset of zero minutes is `+00:00`
whichever sign it was written with.
-/

namespace WikiSync.Toml

/-- A calendar date. -/
structure Date where
  /-- The year, from 0 to 9999. -/
  year : Nat
  /-- The month, from 1 to 12. -/
  month : Nat
  /-- The day of the month, from 1. -/
  day : Nat
  deriving Inhabited

/-- A time of day. -/
structure Time where
  /-- The hour, from 0 to 23. -/
  hour : Nat
  /-- The minute, from 0 to 59. -/
  minute : Nat
  /-- The second, from 0 to 60 (a leap second). -/
  second : Nat
  /-- The fraction of the second, in nanoseconds. -/
  nanosecond : Nat
  deriving Inhabited

/-- The offset of a date-time from UTC. -/
inductive Offset where
  /-- UTC itself, written `Z`. -/
  | utc
  /-- A signed number of minutes. -/
  | minutes (m : Int)
  deriving Inhabited

/-- A date, a time of day, or both, with an offset when both are given. -/
structure DateTime where
  /-- The date, if any. -/
  date : Option Date
  /-- The time of day, if any. -/
  time : Option Time
  /-- The offset from UTC, if any. -/
  offset : Option Offset
  deriving Inhabited

/-- Whether a year has a 29th of February. -/
def isLeapYear (y : Nat) : Bool := y % 4 == 0 && (y % 100 != 0 || y % 400 == 0)

/-- The number of days of a month in a year. -/
def daysInMonth (year month : Nat) : Nat :=
  if month == 2 then (if isLeapYear year then 29 else 28)
  else if month == 4 || month == 6 || month == 9 || month == 11 then 30
  else 31

/-- The nanoseconds of the digits of a fraction of a second: digits after the ninth are
dropped, not rounded. -/
def fractionNanos (ds : List Char) : Nat :=
  let ds := ds.take 9
  ds.foldl (fun acc d => acc * 10 + (d.toNat - 48)) 0 * Nat.pow 10 (9 - ds.length)

/-- A number in at least `width` digits, with leading zeros. -/
def padded (width n : Nat) : String :=
  let s := Nat.repr n
  String.ofList (List.replicate (width - s.length) '0') ++ s

/-- The text of a date. -/
def Date.text (d : Date) : String :=
  padded 4 d.year ++ "-" ++ padded 2 d.month ++ "-" ++ padded 2 d.day

/-- The text of a time of day: the fraction, when there is one, without trailing zeros. -/
def Time.text (t : Time) : String :=
  let base := padded 2 t.hour ++ ":" ++ padded 2 t.minute ++ ":" ++ padded 2 t.second
  if t.nanosecond == 0 then base
  else base ++ "." ++ String.ofList ((padded 9 t.nanosecond).toList.reverse.dropWhile (· == '0')).reverse

/-- The text of an offset. -/
def Offset.text : Offset → String
  | .utc => "Z"
  | .minutes m =>
    let sign := if m < 0 then "-" else "+"
    sign ++ padded 2 (m.natAbs / 60) ++ ":" ++ padded 2 (m.natAbs % 60)

/-- The canonical text of a date-time. -/
def DateTime.text (t : DateTime) : String :=
  (t.date.map Date.text).getD "" ++
    (match t.time with
      | some tm => (if t.date.isSome then "T" else "") ++ tm.text
      | none => "") ++
    (t.offset.map Offset.text).getD ""

end WikiSync.Toml
