import Marginalia.Text.Line

namespace Marginalia

inductive LineEnding
  | lf
  | crlf
  | cr
  | mixed
  | none
deriving DecidableEq, Repr

def LineEnding.name : LineEnding → String
  | .lf => "LF"
  | .crlf => "CRLF"
  | .cr => "CR"
  | .mixed => "MIXED"
  | .none => "NONE"

/-- The numbers of the three terminators, read from left to right. -/
structure TerminatorCounts where
  crlf : Nat := 0
  lf : Nat := 0
  cr : Nat := 0
deriving DecidableEq, Repr

/-- How often carriage return and newline follow one another. -/
def countPairs : List Char → Nat
  | '\r' :: '\n' :: rest => countPairs rest + 1
  | _ :: rest => countPairs rest
  | [] => 0

/-- A pair counts once, and takes one newline and one carriage return from the lone ones. -/
def TerminatorCounts.of (text : List Char) : TerminatorCounts :=
  let pairs := countPairs text
  { crlf := pairs, lf := text.count '\n' - pairs, cr := text.count '\r' - pairs }

def TerminatorCounts.kind (counts : TerminatorCounts) : LineEnding :=
  match counts.crlf, counts.lf, counts.cr with
  | 0, 0, 0 => .none
  | _ + 1, 0, 0 => .crlf
  | 0, _ + 1, 0 => .lf
  | 0, 0, _ + 1 => .cr
  | _, _, _ => .mixed

def LineEnding.of (text : List Char) : LineEnding :=
  (TerminatorCounts.of text).kind

/-- Every pair becomes one newline. -/
def joinPairs : List Char → List Char
  | '\r' :: '\n' :: rest => '\n' :: joinPairs rest
  | char :: rest => char :: joinPairs rest
  | [] => []

/-- The text with a newline for each terminator: first for the pairs, then for lone carriage returns. -/
def normalizeLines (text : List Char) : List Char :=
  (joinPairs text).map fun char => if char = '\r' then '\n' else char

/-- The characters that end a line of a report. -/
def isLineBreak (char : Char) : Bool :=
  let code := char.toNat
  (0x0A ≤ code && code ≤ 0x0D) || (0x1C ≤ code && code ≤ 0x1E) || code == 0x85 || code == 0x2028 || code == 0x2029

/-- The lines of a report, ends left out; `line` holds the characters of the first one, last first. A break
at the end of the text starts no further line. -/
def splitLinesFrom (line : List Char) : List Char → List (List Char)
  | [] => if line.isEmpty then [] else [line.reverse]
  | '\r' :: '\n' :: rest => line.reverse :: splitLinesFrom [] rest
  | char :: rest =>
    if isLineBreak char then line.reverse :: splitLinesFrom [] rest
    else splitLinesFrom (char :: line) rest

def splitLines (text : List Char) : List (List Char) :=
  splitLinesFrom [] text

end Marginalia
