import Marginalia.Text.Digit

namespace Marginalia

/-- A point of local time in microseconds after the start of 1970. -/
structure Moment where
  micros : Int
deriving DecidableEq, Repr, Inhabited

/-- A day of the proleptic Gregorian calendar. -/
structure Day where
  year : Int
  month : Nat
  day : Nat
deriving DecidableEq, Repr

def microsPerSecond : Int := 1000000

def secondsPerDay : Int := 86400

def microsPerDay : Int := secondsPerDay * microsPerSecond

def isLeapYear (year : Int) : Bool :=
  year % 4 == 0 && (year % 100 != 0 || year % 400 == 0)

def monthLength (year : Int) : Nat → Nat
  | 2 => if isLeapYear year then 29 else 28
  | 4 => 30
  | 6 => 30
  | 9 => 30
  | 11 => 30
  | _ => 31

def Day.valid (date : Day) : Bool :=
  1 ≤ date.year && date.year ≤ 9999 && 1 ≤ date.month && date.month ≤ 12 &&
    1 ≤ date.day && date.day ≤ monthLength date.year date.month

/-- Days from the start of 1970 to a day. Years are counted from March, so that the leap day is last. -/
def Day.number (date : Day) : Int :=
  let year := if date.month ≤ 2 then date.year - 1 else date.year
  let era := Int.fdiv year 400
  let yearOfEra := year - era * 400
  let monthFromMarch : Int := ((date.month + 9) % 12 : Nat)
  let dayOfYear := (153 * monthFromMarch + 2) / 5 + date.day - 1
  let dayOfEra := yearOfEra * 365 + yearOfEra / 4 - yearOfEra / 100 + dayOfYear
  era * 146097 + dayOfEra - 719468

def Day.ofNumber (number : Int) : Day :=
  let shifted := number + 719468
  let era := Int.fdiv shifted 146097
  let dayOfEra := shifted - era * 146097
  let yearOfEra := (dayOfEra - dayOfEra / 1460 + dayOfEra / 36524 - dayOfEra / 146096) / 365
  let dayOfYear := dayOfEra - (365 * yearOfEra + yearOfEra / 4 - yearOfEra / 100)
  let monthFromMarch := (5 * dayOfYear + 2) / 153
  let day := dayOfYear - (153 * monthFromMarch + 2) / 5 + 1
  let month := if monthFromMarch < 10 then monthFromMarch + 3 else monthFromMarch - 9
  ⟨yearOfEra + era * 400 + (if month ≤ 2 then 1 else 0), month.toNat, day.toNat⟩

/-- The weekday of a day number, Monday being zero. -/
def weekday (number : Int) : Int :=
  (number + 3) % 7

def Day.start (date : Day) : Moment :=
  ⟨date.number * microsPerDay⟩

def Moment.day (moment : Moment) : Day :=
  .ofNumber (Int.fdiv moment.micros microsPerDay)

/-- The first moment of the year 1, and the first one after the year 9999. -/
def Moment.first : Moment := Day.start ⟨1, 1, 1⟩

def Moment.limit : Moment := Day.start ⟨10000, 1, 1⟩

/-- Whether the moment belongs to the years that can be written. -/
def Moment.inRange (moment : Moment) : Bool :=
  Moment.first.micros ≤ moment.micros && moment.micros < Moment.limit.micros

/-- A signed year filled up to four digits. -/
def yearText (year : Int) : String :=
  if year < 0 then "-" ++ paddedNat 3 year.natAbs else paddedNat 4 year.natAbs

/-- `YYYY-MM-DDTHH:MM:SS`, with six more digits when there is a fraction of a second. -/
def Moment.iso (moment : Moment) : String :=
  let date := moment.day
  let rest := (Int.fmod moment.micros microsPerDay).toNat
  let seconds := rest / 1000000
  let fraction := rest % 1000000
  yearText date.year ++ "-" ++ paddedNat 2 date.month ++ "-" ++ paddedNat 2 date.day ++ "T" ++
    paddedNat 2 (seconds / 3600) ++ ":" ++ paddedNat 2 (seconds / 60 % 60) ++ ":" ++ paddedNat 2 (seconds % 60) ++
    (if fraction == 0 then "" else "." ++ paddedNat 6 fraction)

/-- The day of a moment, the year without leading zeros. -/
def Moment.dayText (moment : Moment) : String :=
  let date := moment.day
  toString date.year ++ "-" ++ paddedNat 2 date.month ++ "-" ++ paddedNat 2 date.day

end Marginalia
