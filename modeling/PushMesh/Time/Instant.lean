/-!
# Instants of the calendar

An instant is a date and a time of day in UTC, to the nanosecond, in the Gregorian calendar. The
second 60 stands for a leap second.
-/

namespace PushMesh

namespace Calendar

/-- Whether a year has 366 days. -/
def isLeapYear (year : Int) : Bool :=
  year % 4 = 0 && (year % 100 ≠ 0 || year % 400 = 0)

/-- The number of days of a month. -/
def daysIn (year : Int) (month : Nat) : Nat :=
  if month = 2 then if isLeapYear year then 29 else 28
  else if month = 4 ∨ month = 6 ∨ month = 9 ∨ month = 11 then 30
  else 31

/-- The years that are told apart. -/
def isYear (year : Int) : Bool :=
  -262143 ≤ year && year ≤ 262142

/-- Whether the fields make a date and a time of day. -/
def isInstant (year : Int) (month day hour minute second nanos : Nat) : Bool :=
  isYear year && 1 ≤ month && month ≤ 12 && 1 ≤ day && day ≤ daysIn year month
    && hour < 24 && minute < 60 && second ≤ 60 && nanos < 1000000000

end Calendar

/-- A date and a time of day in UTC. -/
structure Instant where
  year : Int
  month : Nat
  day : Nat
  hour : Nat
  minute : Nat
  second : Nat
  nanos : Nat
  /-- The fields lie within the calendar. -/
  valid : Calendar.isInstant year month day hour minute second nanos = true
deriving DecidableEq

namespace Instant

/-- The first instant of the year 1970. -/
def epoch : Instant := ⟨1970, 1, 1, 0, 0, 0, 0, rfl⟩

instance : Inhabited Instant := ⟨epoch⟩

/-- The instant with the given fields, if they lie within the calendar. -/
def ofFields? (year : Int) (month day hour minute second nanos : Nat) : Option Instant :=
  if h : Calendar.isInstant year month day hour minute second nanos = true then
    some ⟨year, month, day, hour, minute, second, nanos, h⟩
  else none

/-- The date one day later. -/
def nextDate (year : Int) (month day : Nat) : Int × Nat × Nat :=
  if day < Calendar.daysIn year month then (year, month, day + 1)
  else if month < 12 then (year, month + 1, 1)
  else (year + 1, 1, 1)

/-- The date one day earlier. -/
def previousDate (year : Int) (month day : Nat) : Int × Nat × Nat :=
  if 1 < day then (year, month, day - 1)
  else if 1 < month then (year, month - 1, Calendar.daysIn year (month - 1))
  else (year - 1, 12, 31)

/-- The instant that a clock shows which is `offset` minutes ahead of UTC, less than a day. -/
def ofLocal? (t : Instant) (offset : Int) : Option Instant :=
  let minutes : Int := (t.hour * 60 + t.minute : Nat) - offset
  let (date, minutes) :=
    if minutes < 0 then (previousDate t.year t.month t.day, minutes + 1440)
    else if minutes < 1440 then ((t.year, t.month, t.day), minutes)
    else (nextDate t.year t.month t.day, minutes - 1440)
  let minutes := minutes.toNat
  ofFields? date.1 date.2.1 date.2.2 (minutes / 60) (minutes % 60) t.second t.nanos

end Instant

end PushMesh
