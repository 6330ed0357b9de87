import Marginalia.Text.Carve
import Marginalia.Text.Pattern

namespace Marginalia

/-- One kind of string or comment: what it looks like, and the style it is shown in. -/
structure RegionRule where
  pattern : Pattern
  style : String

/-- From an opening mark past the next closing mark, or to the end of the text. -/
def Pattern.delimited (opening closing : String) : Pattern :=
  .all [.literal opening, .few fun _ => true, .either (.literal closing) .textEnd]

/-- From a mark to the end of the line. -/
def Pattern.restOfLine (mark : String) : Pattern :=
  .both (.literal mark) (.many (· != '\n'))

/-- What stands for itself between two quotes. Without `lines` no newline does. -/
def standsForItself (quote : Char) (lines : Bool) (char : Char) : Bool :=
  char != quote && char != '\\' && (lines || char != '\n')

/-- A backslash with the character after it, which is no newline, and a run behind them. -/
def Pattern.escape (accepts : Char → Bool) : Pattern :=
  .all [.char '\\', .one (· != '\n'), .many accepts]

/-- What follows an opening quote, up to and including the closing one. -/
def Pattern.quoteTail (quote : Char) (lines : Bool) : Pattern :=
  .all [.many (standsForItself quote lines), .star (.escape (standsForItself quote lines)), .char quote]

/-- Between two quotes, where a backslash takes the character after it along. -/
def Pattern.quoted (quote : Char) (lines : Bool) : Pattern :=
  .both (.char quote) (.quoteTail quote lines)

/-- Between two quotes on a line, where a backslash is a character like any other. -/
def Pattern.quotedPlainly (quote : Char) : Pattern :=
  .all [.char quote, .many fun char => char != quote && char != '\n', .char quote]

/-- A pattern with at most one of some letters in front of it. -/
def Pattern.lettered (letters : String) (pattern : Pattern) : Pattern :=
  .both (.optional (.one (isOneOf letters))) pattern

/-- The first rule that opens a region in front of a text. -/
def openRegion (rules : List RegionRule) : Opener String := fun before text =>
  rules.findSome? fun rule => (rule.pattern.length? before text).map fun length => (rule.style, length)

end Marginalia
