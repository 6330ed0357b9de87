import Marginalia.Json.Basic
import Marginalia.Number.Shortest
import Marginalia.Text.Quoted

namespace Marginalia

/-- In labels numbers without digits are written in lower case. -/
def labelNumbers : SpecialNumbers := ⟨"inf", "nan"⟩

def quotedGlyph (quote : Char) : Glyph → List Char
  | .char char => quotedChar quote char
  | .half unit => numericEscape unit

/-- A text as labels show it inside other values, in quotes and on one line. -/
def JsonText.quoted (text : JsonText) : String :=
  let quote := quoteFor (text.glyphs.filterMap Glyph.char?)
  String.ofList (quote :: (text.glyphs.flatMap (quotedGlyph quote) ++ [quote]))

mutual

/-- The text of a value inside a label; texts stand in quotes. -/
def Json.nestedLabel : Json → String
  | .null => "None"
  | .bool true => "True"
  | .bool false => "False"
  | .integer value => toString value
  | .number value => notateFloat labelNumbers value
  | .text value => value.quoted
  | .array items => "[" ++ String.intercalate ", " (Json.itemLabels items) ++ "]"
  | .object members => "\x7b" ++ String.intercalate ", " (Json.memberLabels members) ++ "\x7d"

def Json.itemLabels : List Json → List String
  | [] => []
  | item :: rest => item.nestedLabel :: Json.itemLabels rest

def Json.memberLabels : List (JsonText × Json) → List String
  | [] => []
  | (key, value) :: rest => (key.quoted ++ ": " ++ value.nestedLabel) :: Json.memberLabels rest

end

/-- The text of a value as a label. A text stands for itself. -/
def Json.label : Json → String
  | .text value => value.lossy
  | value => value.nestedLabel

end Marginalia
