import SymbolGraph.Text.Basic
set_option autoImplicit false

/-!
# Dates

A date of the calendar, and the number of days that it lies after the start of 1970. A year is
counted from March, so that the day that leap years have more is the last one; four centuries
always have the same number of days.
-/

namespace SymbolGraph

/-- A date. -/
structure Date where
  year : Int
  /-- The month, from 1 for January. -/
  month : Nat
  /-- The day of the month, from 1. -/
  day : Nat
  deriving DecidableEq, Repr

namespace Date

/-- The number of days in four centuries. -/
def cycle : Int := 146097

/-- The number of days from the first of March of the year zero to the start of 1970. -/
def epoch : Int := 719468

/-- The date that lies a number of days after the start of 1970. -/
def ofDays (days : Int) : Date :=
  let centuries := (days + epoch) / cycle
  let rest := ((days + epoch) % cycle).toNat
  let year := (rest - rest / 1460 + rest / 36524 - rest / 146096) / 365
  let yearDay := rest - (365 * year + year / 4 - year / 100)
  let month := (5 * yearDay + 2) / 153
  let late := 10 ≤ month
  { year := 400 * centuries + year + (if late then 1 else 0)
    month := if late then month - 9 else month + 3
    day := yearDay - (153 * month + 2) / 5 + 1 }

/-- The number of days that a date lies after the start of 1970. -/
def days (d : Date) : Int :=
  let year := if d.month ≤ 2 then d.year - 1 else d.year
  let rest := (year % 400).toNat
  let month := if d.month ≤ 2 then d.month + 9 else d.month - 3
  let yearDay := (153 * month + 2) / 5 + d.day - 1
  year / 400 * cycle + (365 * rest + rest / 4 - rest / 100 + yearDay) - epoch

/-- The day of the week, from 0 for Monday. -/
def weekday (d : Date) : Nat := ((d.days + 3) % 7).toNat

/-- The day of the year, from 0. -/
def yearDay (d : Date) : Nat := (d.days - days ⟨d.year, 1, 1⟩).toNat

/-- The number of the week in the year, where weeks start on a day of the week and the first one
is the first to start in the year. -/
def weekFrom (first : Nat) (d : Date) : Nat := (d.yearDay + 7 - (d.weekday + 7 - first) % 7) / 7

/-- The Thursday of the week that a date is in, where weeks start on Mondays. Its year is the
one that the week belongs to. -/
def thursday (d : Date) : Date := ofDays (d.days - d.weekday + 3)

/-- The number of the week in the year that the week belongs to. -/
def week (d : Date) : Nat := d.thursday.yearDay / 7 + 1

/-- The names of the months. -/
def monthNames : List String :=
  ["January", "February", "March", "April", "May", "June", "July", "August", "September",
    "October", "November", "December"]

/-- The names of the days of the week, from Monday. -/
def dayNames : List String :=
  ["Monday", "Tuesday", "Wednesday", "Thursday", "Friday", "Saturday", "Sunday"]

/-- The name of the month. -/
def monthName (d : Date) : Text := (monthNames.getD (d.month - 1) "").toList

/-- The name of the day of the week. -/
def dayName (d : Date) : Text := (dayNames.getD d.weekday "").toList

end Date

/-- The length of a short name of a month or a day. -/
def shortName (name : Text) : Text := name.take 3

end SymbolGraph
