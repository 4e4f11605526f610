import SqlComposer.Calendar.Date

namespace SqlComposer

/-- An instant, in nanoseconds since 1970-01-01 00:00:00 UTC, and an offset from UTC in seconds. -/
structure DateTime where
  nanoseconds : Int
  offset : Int
deriving DecidableEq, Repr

structure Clock where
  hour : Nat
  minute : Nat
  second : Nat
  nanosecond : Nat
deriving DecidableEq, Repr

namespace Clock

def toNanoseconds (clock : Clock) : Nat :=
  ((clock.hour * 60 + clock.minute) * 60 + clock.second) * 1000000000 + clock.nanosecond

def ofNanoseconds (n : Nat) : Clock :=
  let seconds := n / 1000000000
  ⟨seconds / 3600, seconds / 60 % 60, seconds % 60, n % 1000000000⟩

def text (clock : Clock) : String :=
  Text.padded 2 clock.hour ++ ":" ++ Text.padded 2 clock.minute ++ ":" ++ Text.padded 2 clock.second

end Clock

namespace DateTime

def nanosecondsPerDay : Nat := 86400000000000

def ofLocal (date : Date) (clock : Clock) (offset : Int) : DateTime :=
  ⟨date.toDays * nanosecondsPerDay + clock.toNanoseconds - offset * 1000000000, offset⟩

def shownAt (time : DateTime) (offset : Int) : Date × Clock :=
  let n := time.nanoseconds + offset * 1000000000
  (.ofDays (n / nanosecondsPerDay), .ofNanoseconds (n % nanosecondsPerDay).toNat)

def same (a b : DateTime) : Bool := a.nanoseconds == b.nanoseconds

def utcText? (time : DateTime) : Option String :=
  let (date, clock) := time.shownAt 0
  if date.year.natAbs ≤ 9999 then
    some (date.text ++ " " ++ clock.text ++ "." ++ Text.padded 6 (clock.nanosecond / 1000))
  else none

def fractionText (nanosecond : Nat) : String :=
  if nanosecond = 0 then ""
  else .ofList ('.' :: ((Text.padded 9 nanosecond).toList.reverse.dropWhile (· == '0')).reverse)

def offsetText (offset : Int) : String :=
  if offset = 0 then "Z"
  else (if offset < 0 then "-" else "+") ++ Text.padded 2 (offset.natAbs / 3600) ++ ":" ++
    Text.padded 2 (offset.natAbs / 60 % 60)

def rfc3339? (time : DateTime) : Option String :=
  let (date, clock) := time.shownAt time.offset
  if 0 ≤ date.year ∧ date.year ≤ 9999 ∧ time.offset % 60 = 0 ∧ time.offset.natAbs < 86400 then
    some (date.text ++ "T" ++ clock.text ++ fractionText clock.nanosecond ++ offsetText time.offset)
  else none

end DateTime

end SqlComposer
