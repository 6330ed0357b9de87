import Marginalia.Family
import Marginalia.Span
import Marginalia.Style.Basic
import Marginalia.Text.Numeral
import Marginalia.Text.Quoted

namespace Marginalia

/-- Why an annotation step cannot be done. -/
inductive Fault
  | invalidSpan (start stop : Int) (style : String)
  | notAColor (literal : String)
  | unknownStyle (name : String)
  | styleConflict (name : String) (known proposed : Style)
  | sealedRegistry (name : String) (version : Option String)
  | overlappingLines (start stop otherStart otherStop : Int)
  | notABracket (text : String)
  | unknownKeyword (text : String)
  | beyondContent (family : Family) (start stop length : Nat)
  | lineOutOfRange (line : Int) (count : Nat)
  /-- A number has more digits than are written. -/
  | longNumeral (value : Int)
  /-- Author styles are wanted, but there is no tint to hand out. -/
  | noTints
  /-- There are matches, but none of them is selected. -/
  | noSelection
  | unknownFamily (name : String)
deriving DecidableEq, Repr

/-- The word that reports use for the kind of a fault. -/
def Fault.kind : Fault → String
  | .invalidSpan .. => "ValueError"
  | .notAColor _ => "ValueError"
  | .unknownStyle _ => "UnknownStyleError"
  | .styleConflict .. => "StyleConflictError"
  | .sealedRegistry .. => "SealedRegistryError"
  | .overlappingLines .. => "OverlappingAttributionError"
  | .notABracket _ => "ValueError"
  | .unknownKeyword _ => "ValueError"
  | .beyondContent .. => "ValueError"
  | .lineOutOfRange .. => "ValueError"
  | .longNumeral _ => "ValueError"
  | .noTints => "ZeroDivisionError"
  | .noSelection => "AttributeError"
  | .unknownFamily _ => "KeyError"

def Family.annotatorName : Family → String
  | .bracket => "BracketColorizer"
  | .color => "ColorCodeHighlighter"
  | .blame => "BlameHighlighter"
  | .lint => "LintHighlighter"
  | .search => "SearchHighlighter"

def extentText (start stop : Int) : String :=
  "[" ++ toString start ++ ", " ++ toString stop ++ ")"

/-- Numbers that go into a text have to be written: the first one that is too long is a fault. -/
def requireWritable (numbers : List Int) : Except Fault Unit :=
  match numbers.find? fun number => !isWritable number with
  | none => .ok ()
  | some number => .error (.longNumeral number)

/-- What takes the place of a wording that cannot be had because a number in it has too many digits. -/
def longNumeralWording : String :=
  "Exceeds the limit (" ++ toString numeralLimit ++ " digits) for integer string conversion; " ++
    "use sys.set_int_max_str_digits() to increase the limit"

/-- The wording of a fault; faults that no one put into words have none. -/
def Fault.message? : Fault → Option String
  | .invalidSpan start stop style =>
    some ("Invalid span " ++ extentText start stop ++ " for style " ++ quoted style)
  | .notAColor literal => some ("Not a hex color literal: " ++ quoted literal)
  | .unknownStyle name => some ("Unknown style id: " ++ quoted name)
  | .styleConflict name known proposed =>
    some ("Style " ++ quoted name ++ " already registered as " ++ known.describe ++ ", not " ++ proposed.describe)
  | .sealedRegistry name version =>
    some ("Cannot register " ++ quoted name ++ ": version " ++ version.getD "None" ++ " is sealed")
  | .overlappingLines start stop otherStart otherStop =>
    some ("lines " ++ extentText start stop ++ " overlap " ++ extentText otherStart otherStop)
  | .notABracket text => some ("Not a bracket type: " ++ quoted text)
  | .unknownKeyword text => some ("Unknown lint keyword: " ++ quoted text)
  | .beyondContent family start stop length =>
    some (family.annotatorName ++ " produced span " ++ extentText start stop ++ " beyond content length " ++
      toString length)
  | .lineOutOfRange line count =>
    if isWritable (line + 1) then
      some ("Line " ++ toString (line + 1) ++ " out of range (1-" ++ toString count ++ ")")
    else some longNumeralWording
  | .longNumeral _ => none
  | .noTints => none
  | .noSelection => none
  | .unknownFamily _ => none

/-- A span from bounds that may be any integers. -/
def Span.ofBounds (start stop : Int) (style : String) (note : Option Note := none) : Except Fault Span :=
  if start < 0 ∨ stop ≤ start then .error (.invalidSpan start stop style)
  else .ok ⟨start.toNat, stop.toNat, style, note⟩

end Marginalia
