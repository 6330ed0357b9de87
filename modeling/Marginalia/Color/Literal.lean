import Marginalia.Color.Basic
import Marginalia.Fault
import Marginalia.Text.LowerCase
import Marginalia.Text.Pattern

namespace Marginalia

structure ColorMatch where
  start : Nat
  stop : Nat
  literal : List Char
deriving DecidableEq, Repr

/-- A number sign and three, four, six or eight hexadecimal digits that end at a word edge. -/
def colorShape : Shape where
  body := .both (.char '#')
    (.either (.both (.times 3 isHexDigit) (.upTo 1 isHexDigit))
      (.either (.times 6 isHexDigit) (.times 8 isHexDigit)))
  tail := .edge

/-- The color literals of a text in order of appearance. -/
def findColors (content : List Char) : List ColorMatch :=
  (colorShape.extents content).map fun (start, stop) => ⟨start, stop, (content.drop start).take (stop - start)⟩

/-- A literal without its number signs. -/
def bareDigits (literal : List Char) : List Char :=
  literal.dropWhile (· == '#')

/-- What tells literals apart: their digits in lower case. -/
def ColorMatch.normalized (color : ColorMatch) : String :=
  String.ofList (lowerCase (bareDigits color.literal))

def ColorMatch.styleId (color : ColorMatch) : String :=
  Family.color.idStart ++ color.normalized

/-- Short literals write each digit once. -/
def expandDigits (digits : List Char) : List Char :=
  if digits.length ≤ 4 then digits.flatMap fun digit => [digit, digit] else digits

/-- The value of two hexadecimal digits, of the pair at a place of a literal. -/
def pairAt (place : Nat) (digits : List Char) : Nat :=
  ((digits.drop (2 * place)).take 2).foldl (fun total digit => total * 16 + (hexValue? digit).getD 0) 0

/-- The color that a literal stands for. Only the forms with four and eight digits say how much it covers. -/
def decodeColor (literal : List Char) : Except Fault Rgba :=
  let digits := bareDigits literal
  if digits.length ∈ [3, 4, 6, 8] ∧ digits.all isHexDigit then
    let expanded := expandDigits digits
    .ok
      { rgb := ⟨pairAt 0 expanded, pairAt 1 expanded, pairAt 2 expanded⟩
        alpha := .part (if digits.length ∈ [4, 8] then Float.ofNat (pairAt 3 expanded) / 255 else 1.0) }
  else .error (.notAColor (String.ofList literal))

def decodeRgb (literal : List Char) : Except Fault Rgb :=
  (decodeColor literal).map (·.rgb)

/-- A literal's own color over the background, under text that can be read on it. -/
def swatch (literal : List Char) (background : Rgb) : Except Fault Style :=
  (decodeColor literal).map fun color =>
    let blended := color.over background
    .pair blended.contrast.hex blended.hex

end Marginalia
