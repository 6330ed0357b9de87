import Marginalia.Calendar.Moment
import Marginalia.Number.Binary64
import Marginalia.Text.Numeral

namespace Marginalia

/-- Why a text or number gives no moment. -/
inductive TimeFault
  /-- The text is not a date, or a part of it lies outside its range. -/
  | malformed
  /-- The year does not lie between 1 and 9999. -/
  | yearOutOfRange
  /-- The count of seconds, or the moment after its time zone is taken off, is out of all bounds. -/
  | overflow
  /-- The year does not fit the system's calendar. -/
  | beyondCalendar
deriving DecidableEq, Repr

def TimeFault.kind : TimeFault → String
  | .malformed => "ValueError"
  | .yearOutOfRange => "ValueError"
  | .overflow => "OverflowError"
  | .beyondCalendar => "OSError"

/-- How the clock of a place goes: what it shows at each second, both counted from the start of 1970. It is always less
than a day ahead of universal time, or behind it. -/
structure Zone where
  clock : Int → Int
  near : ∀ seconds, seconds - secondsPerDay < clock seconds ∧ clock seconds < seconds + secondsPerDay

def Zone.universal : Zone where
  clock seconds := seconds
  near seconds := by simp only [secondsPerDay]; omega

/-- The number with exactly `count` ASCII digits at the start of a text, and what follows them. -/
def fixedDigits? (count : Nat) (text : List Char) : Option (Nat × List Char) :=
  let digits := text.take count
  if digits.length == count && digits.all Char.isDigit then
    some (ofDigits (digits.map fun digit => digit.toNat - '0'.toNat), text.drop count)
  else none

/-- Where the date of a text ends. The fifth and sixth character tell calendar dates from week dates and
the long notation from the short one; a week date without a weekday may be followed by a time at once. -/
def dateLength (text : List Char) : Nat :=
  let isDigitAt (index : Nat) : Bool := text[index]?.any Char.isDigit
  if text.length == 7 then 7
  else if text[4]? == some '-' then
    if text[5]? == some 'W' then
      if text[8]? == some '-' then
        if 10 < text.length && isDigitAt 10 then 8 else 10
      else 8
    else 10
  else if text[4]? == some 'W' then
    let stop := 7 + ((text.drop 7).takeWhile Char.isDigit).length
    if stop < 9 then stop else if stop % 2 == 0 then 7 else 8
  else 8

/-- The Monday of the first week of a year, the week of its first Thursday. -/
def firstMonday (year : Int) : Int :=
  let newYear := Day.number ⟨year, 1, 1⟩
  let first := weekday newYear
  let monday := newYear - first
  if 3 < first then monday + 7 else monday

def weeksInYear (year : Int) : Nat :=
  let first := weekday (Day.number ⟨year, 1, 1⟩)
  if first == 3 || (first == 2 && isLeapYear year) then 53 else 52

def weekDate? (year week day : Nat) : Option Day :=
  if 1 ≤ week ∧ week ≤ weeksInYear year ∧ 1 ≤ day ∧ day ≤ 7 then
    some (.ofNumber (firstMonday year + ((week : Int) - 1) * 7 + day - 1))
  else none

/-- A week date after its year: the week, and a weekday if the date has room for one. -/
def readWeekDate? (year length : Nat) (dashed : Bool) (text : List Char) : Option Day := do
  let (week, rest) ← fixedDigits? 2 text
  let used := if dashed then 8 else 7
  if used < length then
    let rest ← if dashed then (match rest with | '-' :: rest => some rest | _ => none) else some rest
    let (day, _) ← fixedDigits? 1 rest
    weekDate? year week day
  else weekDate? year week 1

/-- The date at the start of a text; it has to take exactly `length` characters. -/
def readDate? (length : Nat) (text : List Char) : Option Day := do
  let (year, rest) ← fixedDigits? 4 text
  let (dashed, rest) := match rest with
    | '-' :: rest => (true, rest)
    | rest => (false, rest)
  match rest with
  | 'W' :: rest => readWeekDate? year length dashed rest
  | rest =>
    let (month, rest) ← fixedDigits? 2 rest
    let rest ← if dashed then (match rest with | '-' :: rest => some rest | _ => none) else some rest
    let (day, _) ← fixedDigits? 2 rest
    if length == (if dashed then 10 else 8) then some ⟨year, month, day⟩ else none

/-- A time of day as read, before its range is checked. -/
structure TimeOfDay where
  hour : Nat := 0
  minute : Nat := 0
  second : Nat := 0
  micro : Nat := 0

/-- The number of bytes of a text in UTF-8. -/
def byteLength (text : List Char) : Nat :=
  text.foldr (fun char total => char.utf8Size + total) 0

/-- What is left of a text, and how many of its bytes belong to the time before its zone. -/
structure TimeCursor where
  rest : List Char
  left : Int

/-- Whether a text goes on. The character zero ends it, whatever stands behind. -/
def goesOn (text : List Char) : Bool :=
  text.head?.any (· != '\x00')

/-- The fraction of a second: up to six digits count, further digits are passed over. The flag tells
whether something follows. -/
def readFraction? (cursor : TimeCursor) : Option (Nat × Bool) := do
  let count := min 6 cursor.left.toNat
  let (value, rest) ← fixedDigits? count cursor.rest
  if count == 0 then none
  else some (value * tenTo (6 - count), goesOn (rest.dropWhile Char.isDigit))

/-- Whether a character follows directly: nothing counts as the end of the text. -/
def TimeCursor.past (cursor : TimeCursor) : TimeCursor :=
  ⟨cursor.rest.drop 1, cursor.left - 1⟩

/-- Hours, minutes and seconds with or without colons, each after the first optional, and a fraction.
The first `stop` bytes belong to it. The flag tells whether something other than the end of the text follows. -/
def readTime? (text : List Char) (stop : Nat) : Option (TimeOfDay × Bool) := do
  let (hour, rest) ← fixedDigits? 2 text
  let colons := rest.head? == some ':'
  let time : TimeOfDay := { hour := hour }
  let cursor : TimeCursor := ⟨rest, (stop : Int) - 2⟩
  if cursor.past.left ≤ 0 then some (time, goesOn rest)
  else
    let fractionNext := rest.head? == some '.' || rest.head? == some ','
    if fractionNext && !colons then
      let (micro, more) ← readFraction? cursor.past
      some ({ time with micro := micro }, more)
    else
      let cursor := if colons then cursor.past else cursor
      let (minute, rest) ← fixedDigits? 2 cursor.rest
      let time := { time with minute := minute }
      let cursor : TimeCursor := ⟨rest, cursor.left - 2⟩
      if cursor.past.left ≤ 0 then some (time, goesOn rest)
      else if rest.head? == some '.' || rest.head? == some ',' then
        let (micro, more) ← readFraction? cursor.past
        some ({ time with micro := micro }, more)
      else if colons && rest.head? != some ':' then none
      else
        let cursor := if colons then cursor.past else cursor
        let (second, rest) ← fixedDigits? 2 cursor.rest
        let time := { time with second := second }
        let cursor : TimeCursor := ⟨rest, cursor.left - 2⟩
        if cursor.past.left ≤ 0 then some (time, goesOn rest)
        else
          let separated := rest.head? == some '.' || rest.head? == some ','
          if colons && !separated && rest.head? != some ':' then none
          else
            let cursor := if separated || colons then cursor.past else cursor
            let (micro, more) ← readFraction? cursor
            some ({ time with micro := micro }, more)

def TimeOfDay.valid (time : TimeOfDay) : Bool :=
  time.hour < 24 && time.minute < 60 && time.second < 60

def TimeOfDay.micros (time : TimeOfDay) : Int :=
  ((time.hour * 3600 + time.minute * 60 + time.second) * 1000000 + time.micro : Nat)

/-- A time of day and what its zone is ahead of universal time, in microseconds. -/
def readZonedTime? (text : List Char) : Option (TimeOfDay × Option Int) := do
  let isZone (char : Char) : Bool := char == '+' || char == '-' || char == 'Z'
  let clock := text.takeWhile fun char => !isZone char
  let (time, more) ← readTime? text (byteLength clock)
  match text.drop clock.length with
  | [] => if more then none else some (time, none)
  | 'Z' :: rest => if goesOn rest then none else some (time, some 0)
  | sign :: rest =>
    let (ahead, more) ← readTime? rest (byteLength rest)
    if more then none
    else
      let seconds := ahead.hour * 3600 + ahead.minute * 60 + ahead.second
      let size : Int := if seconds == 0 then 0 else (seconds * 1000000 + ahead.micro : Nat)
      some (time, some (if sign == '-' then -size else size))

/-- What the clock of a zone shows at a moment of universal time. -/
def Zone.shift (zone : Zone) (universal : Moment) : Moment :=
  let seconds := Int.fdiv universal.micros microsPerSecond
  ⟨universal.micros + (zone.clock seconds - seconds) * microsPerSecond⟩

/-- A moment from a date and a time, which is local time unless it tells what it is ahead of universal time. -/
def writtenMoment (date : Day) (time : TimeOfDay) (ahead : Option Int) (zone : Zone) : Except TimeFault Moment :=
  let moment : Moment := ⟨date.start.micros + time.micros⟩
  if !date.valid || !time.valid then .error .malformed
  else
    match ahead with
    | none => .ok moment
    | some ahead =>
      if microsPerDay ≤ ahead.natAbs then .error .malformed
      else
        let universal : Moment := ⟨moment.micros - ahead⟩
        if universal.inRange && (zone.shift universal).inRange then .ok (zone.shift universal) else .error .overflow

/-- Reads a date, and a time after any one character. A time that tells what it is ahead of universal time is turned into
local time. -/
def Moment.ofIso (text : List Char) (zone : Zone := .universal) : Except TimeFault Moment :=
  if text.length < 7 then .error .malformed
  else
    let length := dateLength text
    match readDate? length text with
    | none => .error .malformed
    | some date =>
      if text.length ≤ length then writtenMoment date {} none zone
      else
        match readZonedTime? (text.drop (length + 1)) with
        | none => .error .malformed
        | some (time, ahead) => writtenMoment date time ahead zone

/-- The seconds of the first and of the last moment whose year, counted from 1900, fits thirty-two bits. -/
def calendarSeconds : Int × Int := (-67768040609740800, 67768036191676799)

/-- Whether a count of seconds has a time: it is not too great itself, and the clock shows a year that some calendar has
and that can be written. -/
def Zone.check (zone : Zone) (seconds : Int) : Except TimeFault Unit :=
  let shown := zone.clock seconds
  if seconds < -(twoTo 63 : Int) ∨ twoTo 63 ≤ seconds then .error .overflow
  else if shown < calendarSeconds.1 ∨ calendarSeconds.2 < shown then .error .beyondCalendar
  else if (Moment.mk (shown * microsPerSecond)).inRange then .ok ()
  else .error .yearOutOfRange

/-- How far the clock was moved since a day before. It is negative where the clock was turned back. -/
def Zone.turned (zone : Zone) (seconds : Int) : Int :=
  zone.clock seconds - zone.clock (seconds - secondsPerDay) - secondsPerDay

/-- When the clock is looked at to tell a time: also a day before, and if it was turned back since then, at the time that
it may have shown twice. -/
def Zone.looks (zone : Zone) (seconds : Int) : List Int :=
  [seconds, seconds - secondsPerDay] ++ if zone.turned seconds < 0 then [seconds + zone.turned seconds] else []

/-- The moment a number of whole seconds after the start of 1970, and some microseconds more. -/
def Moment.ofEpoch (seconds micros : Int) (zone : Zone) : Except TimeFault Moment := do
  (zone.looks seconds).forM zone.check
  return ⟨zone.clock seconds * microsPerSecond + micros⟩

/-- The moment a fractional number of seconds after the start of 1970, to the nearest microsecond. The greatest
count is rounded to a float before it is compared, so 2^63 seconds still count; they are beyond the calendar. -/
def Moment.ofEpochFloat (value : Float) (zone : Zone) : Except TimeFault Moment :=
  match (Binary64.ofFloat value).dyadic? with
  | none => .error (if value.isNaN then .malformed else .overflow)
  | some exact =>
    let whole := exact.truncate
    let wholeFloat := if value < 0 then value.ceil else value.floor
    let micros :=
      match (Binary64.ofFloat ((value - wholeFloat) * 1e6)).dyadic? with
      | some fraction => fraction.roundEven
      | none => 0
    if whole = (twoTo 63 : Int) then .error .beyondCalendar
    else if micros < 0 then Moment.ofEpoch (whole - 1) (micros + microsPerSecond) zone
    else if microsPerSecond ≤ micros then Moment.ofEpoch (whole + 1) (micros - microsPerSecond) zone
    else Moment.ofEpoch whole micros zone

end Marginalia
