import Marginalia.Text.Digit
import Marginalia.Text.Printable

namespace Marginalia

/-- The quote around a text: double only when the text holds single quotes and no double ones. -/
def quoteFor (text : List Char) : Char :=
  if text.contains '\'' && !text.contains '"' then '"' else '\''

/-- A character that has no visible form, by its number. -/
def numericEscape (code : Nat) : List Char :=
  if code < 0x100 then '\\' :: 'x' :: padZeros 2 (hexDigits code)
  else if code < 0x10000 then '\\' :: 'u' :: padZeros 4 (hexDigits code)
  else '\\' :: 'U' :: padZeros 8 (hexDigits code)

/-- One character between quotes. -/
def quotedChar (quote char : Char) : List Char :=
  if char == quote || char == '\\' then ['\\', char]
  else if char == '\n' then ['\\', 'n']
  else if char == '\r' then ['\\', 'r']
  else if char == '\t' then ['\\', 't']
  else if isPrintable char then [char]
  else numericEscape char.toNat

/-- A text as messages show it, in quotes and on one line. -/
def quoted (text : String) : String :=
  let quote := quoteFor text.toList
  String.ofList (quote :: (text.toList.flatMap (quotedChar quote) ++ [quote]))

end Marginalia
