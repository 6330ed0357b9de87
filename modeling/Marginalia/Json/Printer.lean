import Marginalia.Json.Basic
import Marginalia.Number.Shortest
import Marginalia.Text.Digit

namespace Marginalia

/-- Numbers without digits are written as the words of the wider number grammar. -/
def jsonNumbers : SpecialNumbers := ⟨"Infinity", "NaN"⟩

/-- `\u` and four hexadecimal digits. -/
def unicodeEscape (unit : Nat) : List Char :=
  '\\' :: 'u' :: padZeros 4 (hexDigits unit)

/-- One character inside a quoted string. Only printable ASCII stands for itself; characters above
the basic plane are written as two units. -/
def escapeChar (char : Char) : List Char :=
  match char with
  | '"' => ['\\', '"']
  | '\\' => ['\\', '\\']
  | '\n' => ['\\', 'n']
  | '\r' => ['\\', 'r']
  | '\t' => ['\\', 't']
  | '\x08' => ['\\', 'b']
  | '\x0c' => ['\\', 'f']
  | char =>
    let code := char.toNat
    if 0x20 ≤ code ∧ code ≤ 0x7E then [char]
    else if code < 0x10000 then unicodeEscape code
    else unicodeEscape (0xD800 + (code - 0x10000) / 0x400) ++ unicodeEscape (0xDC00 + (code - 0x10000) % 0x400)

def escapeGlyph : Glyph → List Char
  | .char char => escapeChar char
  | .half unit => unicodeEscape unit

def quoteJson (text : JsonText) : String :=
  String.ofList ('"' :: (text.glyphs.flatMap escapeGlyph ++ ['"']))

/-- Where lines break in printed JSON. -/
inductive JsonLayout
  /-- Everything on one line. -/
  | compact
  /-- One item a line, indented by `step` blanks for each level. -/
  | indented (step : Nat)

def JsonLayout.lineBreak (level : Nat) : JsonLayout → String
  | .compact => ""
  | .indented step => "\n" ++ String.ofList (List.replicate (step * level) ' ')

/-- Items between two brackets; a bracket pair without items stays closed up. -/
def JsonLayout.enclose (layout : JsonLayout) (level : Nat) (opening closing : String) (items : List String) :
    String :=
  if items.isEmpty then opening ++ closing
  else
    let inner := layout.lineBreak (level + 1)
    opening ++ inner ++ String.intercalate ("," ++ inner) items ++ layout.lineBreak level ++ closing

mutual

def Json.print (layout : JsonLayout) (level : Nat) : Json → String
  | .null => "null"
  | .bool true => "true"
  | .bool false => "false"
  | .integer value => toString value
  | .number value => notateFloat jsonNumbers value
  | .text value => quoteJson value
  | .array items => layout.enclose level "[" "]" (Json.printItems layout (level + 1) items)
  | .object members => layout.enclose level "\x7b" "\x7d" (Json.printMembers layout (level + 1) members)

def Json.printItems (layout : JsonLayout) (level : Nat) : List Json → List String
  | [] => []
  | item :: rest => item.print layout level :: Json.printItems layout level rest

def Json.printMembers (layout : JsonLayout) (level : Nat) : List (JsonText × Json) → List String
  | [] => []
  | (key, value) :: rest =>
    (quoteJson key ++ ": " ++ value.print layout level) :: Json.printMembers layout level rest

end

def Json.compact (value : Json) : String :=
  value.print .compact 0

/-- The text of a value with one item a line. -/
def Json.indented (value : Json) : String :=
  value.print (.indented 2) 0

end Marginalia
