import Marginalia.Attribution.Record
import Marginalia.Calendar.Reading
import Marginalia.Json.Display

namespace Marginalia

/-- Why a value of a data file is no record. -/
inductive RecordFault
  /-- The value has no keys, or a line number is neither a number nor a text. -/
  | wrongType
  | missingKey (key : String)
  /-- A line number that is no number. -/
  | notANumber
  | infiniteLine
  | badTime (fault : TimeFault)
deriving DecidableEq, Repr

def RecordFault.kind : RecordFault → String
  | .wrongType => "TypeError"
  | .missingKey _ => "KeyError"
  | .notANumber => "ValueError"
  | .infiniteLine => "OverflowError"
  | .badTime fault => fault.kind

def requiredKey (key : String) (members : List (JsonText × Json)) : Except RecordFault Json :=
  match lookupKey? (key : JsonText) members with
  | some value => .ok value
  | none => .error (.missingKey key)

/-- A line number: fractions are cut off and texts are read. -/
def lineNumber : Json → Except RecordFault Int
  | .bool value => .ok (if value then 1 else 0)
  | .integer value => .ok value
  | .number value =>
    match Binary64.ofFloat value with
    | .notANumber => .error .notANumber
    | .infinite _ => .error .infiniteLine
    | .finite negative mantissa exponent =>
      .ok (Dyadic.truncate ⟨if negative then -(mantissa : Int) else mantissa, exponent⟩)
  | .text value =>
    match value.chars?.bind readInteger? with
    | some number => .ok number
    | none => .error .notANumber
  | .null => .error .wrongType
  | .array _ => .error .wrongType
  | .object _ => .error .wrongType

/-- The characters of a date in words. Half of a pair may stand where the day ends, since any sign may. -/
def dateChars? (date : JsonText) : Option (List Char) :=
  match [7, 8, 10].find? fun place => (date.glyphs[place]?).any Glyph.isHalf with
  | some place => (JsonText.mk (date.glyphs.set place (.char 'T'))).chars?
  | none => date.chars?

/-- A time: seconds after the start of 1970, or a date in words. -/
def recordTime (value : Json) (zone : Zone) : Except RecordFault Moment :=
  let read := match value with
    | .bool value => Moment.ofEpoch (if value then 1 else 0) 0 zone
    | .integer seconds => Moment.ofEpoch seconds 0 zone
    | .number seconds => Moment.ofEpochFloat seconds zone
    | .text date =>
      match dateChars? date with
      | some chars => Moment.ofIso chars zone
      | none => .error .malformed
    | _ => .error .malformed
  read.mapError .badTime

/-- The label of a key that may be left out. -/
def optionalLabel (key : String) (members : List (JsonText × Json)) : String :=
  ((lookupKey? (key : JsonText) members).map Json.label).getD ""

def Record.ofJson (data : Json) (zone : Zone := .universal) : Except RecordFault Record :=
  match data with
  | .object members => do
    let start ← lineNumber (← requiredKey "line_start" members)
    let stop ← lineNumber (← requiredKey "line_end" members)
    let time ← recordTime (← requiredKey "timestamp" members) zone
    return ⟨start, stop, optionalLabel "author" members, time, optionalLabel "identifier" members,
      optionalLabel "message" members⟩
  | _ => .error .wrongType

end Marginalia
