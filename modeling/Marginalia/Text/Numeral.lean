import Marginalia.Text.Blank
import Marginalia.Text.Digit

namespace Marginalia

/-- The longest numeral that is read as an integer, and the longest one that is written. -/
def numeralLimit : Nat := 4300

def isWritable (value : Int) : Bool :=
  (toString value.natAbs).length ≤ numeralLimit

/-- The digit values of a run of decimal digits in which single underscores may separate digits. -/
def digitRun? : List Char → Option (List Nat)
  | [] => none
  | char :: rest =>
    match digitValue? char, rest with
    | none, _ => none
    | some value, [] => some [value]
    | some value, next :: later =>
      if next == '_' then (digitRun? later).map (value :: ·)
      else (digitRun? (next :: later)).map (value :: ·)

/-- The number with the given decimal digits, most significant first. -/
def ofDigits (digits : List Nat) : Nat :=
  digits.foldl (fun total digit => 10 * total + digit) 0

def unsignedNumeral? (text : List Char) : Option Nat := do
  let digits ← digitRun? text
  if digits.length ≤ numeralLimit then some (ofDigits digits) else none

/-- The white space that may stand around a numeral: all but the information separators. -/
def isNumeralBlank (char : Char) : Bool :=
  isBlank char && !(0x1C ≤ char.toNat && char.toNat ≤ 0x1F)

/-- The integer that a text denotes: blanks around it, one sign, and decimal digits of any script. -/
def readInteger? (text : List Char) : Option Int :=
  match trimBy isNumeralBlank text with
  | '-' :: digits => (unsignedNumeral? digits).map fun value => -(value : Int)
  | '+' :: digits => (unsignedNumeral? digits).map fun value => (value : Int)
  | digits => (unsignedNumeral? digits).map fun value => (value : Int)

end Marginalia
