import Marginalia.Text.Carve

namespace Marginalia

/-- What hides characters from the bracket reader. -/
inductive Lexeme
  | string
  | lineComment
  | blockComment
deriving DecidableEq, Repr

def Lexeme.name : Lexeme → String
  | .string => "string"
  | .lineComment => "line_comment"
  | .blockComment => "block_comment"

def isQuote (char : Char) : Bool :=
  char == '"' || char == '\'' || char == '`'

/-- How far a string goes behind its opening quote: up to and including the next such quote that no
backslash stands directly before, or to the end. -/
def stringLength (quote : Char) (before : Char) : List Char → Nat
  | [] => 0
  | char :: rest => if char = quote ∧ before ≠ '\\' then 1 else stringLength quote char rest + 1

/-- What opens in front of a text, and how far it goes. -/
def lexemeAt : Opener Lexeme
  | _, '/' :: '*' :: rest => some (.blockComment, lengthThrough ['*', '/'] rest + 2)
  | _, '/' :: '/' :: rest => some (.lineComment, lineLength rest + 2)
  | _, char :: rest => if isQuote char then some (.string, stringLength char char rest + 1) else none
  | _, [] => none

/-- Strings, comments and the code characters between them. -/
def lexicalPieces (content : List Char) : List (Piece Lexeme) :=
  carve lexemeAt 0 none content

/-- The strings and comments of a content, in order. -/
def lexicalRegions (content : List Char) : List (Region Lexeme) :=
  (lexicalPieces content).filterMap Piece.region?

/-- The characters outside strings and comments, with their offsets. -/
def codeChars (content : List Char) : List (Nat × Char) :=
  (lexicalPieces content).filterMap Piece.plain?

def Region.holds {κ : Type} (region : Region κ) (offset : Int) : Bool :=
  (region.start : Int) ≤ offset && offset < region.stop

/-- The region that an offset lies in: it can only be the last one that starts at or before the offset. -/
def regionAt? (regions : List (Region Lexeme)) (offset : Int) : Option (Region Lexeme) :=
  (regions.takeWhile fun region => (region.start : Int) ≤ offset).getLast?.filter (·.holds offset)

def isCode (regions : List (Region Lexeme)) (offset : Int) : Bool :=
  (regionAt? regions offset).isNone

end Marginalia
