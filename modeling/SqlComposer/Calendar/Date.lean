import SqlComposer.Text.Digits
/-!
Dates of the proleptic Gregorian calendar and their numbering by days, with 1970-01-01 as day zero.

A year is counted from March, so that the leap day is its last day; 400 such years are an era of 146097 days.
-/

namespace SqlComposer

structure Date where
  year : Int
  month : Nat
  day : Nat
deriving DecidableEq, Repr

namespace Date

/-- Days from the first of March to the first of the month `m` months later. -/
def daysBeforeMonth (m : Nat) : Nat := (153 * m + 2) / 5

def daysBeforeYear (y : Nat) : Nat := 365 * y + y / 4 - y / 100

def toDays (date : Date) : Int :=
  let year := if date.month ≤ 2 then date.year - 1 else date.year
  let era := year / 400
  let month := if date.month ≤ 2 then date.month + 9 else date.month - 3
  let dayOfEra := daysBeforeYear (year % 400).toNat + daysBeforeMonth month + (date.day - 1)
  era * 146097 + dayOfEra - 719468

def ofDays (days : Int) : Date :=
  let shifted := days + 719468
  let era := shifted / 146097
  let dayOfEra := (shifted % 146097).toNat
  let yearOfEra := (dayOfEra - dayOfEra / 1460 + dayOfEra / 36524 - dayOfEra / 146096) / 365
  let dayOfYear := dayOfEra - daysBeforeYear yearOfEra
  let month := (5 * dayOfYear + 2) / 153
  let year := (yearOfEra : Int) + era * 400
  { year := if month < 10 then year else year + 1
    month := if month < 10 then month + 3 else month - 9
    day := dayOfYear - daysBeforeMonth month + 1 }

def yearText (year : Int) : String :=
  (if year < 0 then "-" else "") ++ Text.padded 4 year.natAbs

def text (date : Date) : String :=
  yearText date.year ++ "-" ++ Text.padded 2 date.month ++ "-" ++ Text.padded 2 date.day

end Date

end SqlComposer
