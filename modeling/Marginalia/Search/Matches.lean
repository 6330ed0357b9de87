import Marginalia.Search.LineIndex
import Marginalia.Text.CaseFold

namespace Marginalia

/-- An occurrence of a search term, with the line and column of its start, counted from zero. One that is
not found but given may hold any numbers. -/
structure SearchMatch where
  start : Int
  stop : Int
  line : Int
  column : Int
deriving DecidableEq, Repr

/-- The offsets at which a term occurs in a text that starts at `offset`. -/
def termOffsets (term : List Char) (offset : Nat) : Content → List Nat
  | [] => []
  | char :: rest =>
    if startsWithFold term (char :: rest) then offset :: termOffsets term (offset + 1) rest
    else termOffsets term (offset + 1) rest

/-- All occurrences of a term, letter case aside; they may overlap. The empty term has none. -/
def findMatches (content : Content) (term : String) : List SearchMatch :=
  if term.isEmpty then []
  else
    let index := LineIndex.ofContent content
    (termOffsets term.toList 0 content).map fun (start : Nat) =>
      let line := index.lineOf start
      ⟨start, start + term.length, line, start - index.lineStart line⟩

end Marginalia
