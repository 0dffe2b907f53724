import Replay.Time

/-!
# Calendar times

A date and a time of day, as they stand in the names of files.
-/

set_option autoImplicit false

namespace Replay

/-- A date and a time of day. -/
structure CalendarTime where
  year : Int
  month : Nat
  day : Nat
  hour : Nat
  minute : Nat
  second : Nat
deriving DecidableEq, Repr

namespace CalendarTime

/-- How many days a month of a year has. -/
def daysIn (year : Int) (month : Nat) : Nat :=
  if month = 2 then
    (if year % 4 = 0 ∧ (year % 100 ≠ 0 ∨ year % 400 = 0) then 29 else 28)
  else if month = 4 ∨ month = 6 ∨ month = 9 ∨ month = 11 then 30
  else 31

/-- Whether there is such a time, leap seconds left aside, in the years that a calendar of 18 bits
holds. -/
def isReal (t : CalendarTime) : Bool :=
  decide (-262143 ≤ t.year) && decide (t.year ≤ 262142) &&
    decide (1 ≤ t.month) && decide (t.month ≤ 12) &&
    decide (1 ≤ t.day) && decide (t.day ≤ daysIn t.year t.month) &&
    decide (t.hour < 24) && decide (t.minute < 60) && decide (t.second < 60)

/-- A year with four digits, or with a sign and at least four digits if it has none such. -/
def yearText (year : Int) : List Char :=
  if 0 ≤ year ∧ year ≤ 9999 then Time.padded 4 year.toNat
  else (if year < 0 then '-' else '+') :: Time.padded 4 year.natAbs

/-- Day, month and year, an underscore, and the time of day; single parts are joined by hyphens. -/
def stamp (t : CalendarTime) : List Char :=
  Time.padded 2 t.day ++ '-' :: Time.padded 2 t.month ++ '-' :: yearText t.year ++
    '_' :: Time.padded 2 t.hour ++ '-' :: Time.padded 2 t.minute ++
    '-' :: Time.padded 2 t.second

end CalendarTime

end Replay
