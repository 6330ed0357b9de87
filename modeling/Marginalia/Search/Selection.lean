import Marginalia.Fault
import Marginalia.Search.Matches

namespace Marginalia

/-- The matches of the current term and the one that is selected. -/
structure Selection where
  term : String := ""
  found : List SearchMatch := []
  index : Int := -1
deriving DecidableEq, Repr

def Selection.ofTerm (content : Content) (term : String) : Selection :=
  let found := findMatches content term
  ⟨term, found, if found.isEmpty then -1 else 0⟩

def Selection.count (selection : Selection) : Nat :=
  selection.found.length

def Selection.current? (selection : Selection) : Option SearchMatch :=
  if 0 ≤ selection.index then selection.found[selection.index.toNat]? else none

/-- Selects a match. Indexes wrap around at both ends. -/
def Selection.jump (selection : Selection) (index : Int) : Selection :=
  if selection.found.isEmpty then selection else { selection with index := index % selection.count }

def Selection.next (selection : Selection) : Selection :=
  selection.jump (selection.index + 1)

def Selection.previous (selection : Selection) : Selection :=
  selection.jump (selection.index - 1)

def matchStyle : String := "search.match"

def currentStyle : String := "search.current"

def Selection.styleOf (selection : Selection) (index : Int) : String :=
  if index = selection.index then currentStyle else matchStyle

/-- The first line to show, so that `context` lines above the selected match are seen. -/
def Selection.scrollTarget? (selection : Selection) (context : Int) : Option Int :=
  selection.current?.map fun current => max 0 (current.line - context)

def Selection.summary (selection : Selection) : Except Fault String :=
  if selection.term.isEmpty then .ok "/ or Enter: search | n/N: next/prev match"
  else if selection.found.isEmpty then .ok ("No matches found for \"" ++ selection.term ++ "\"")
  else
    match selection.current? with
    | none => .error .noSelection
    | some current =>
      .ok ("Found " ++ toString selection.count ++ " match" ++ (if selection.count = 1 then "" else "es") ++
        " | Current: " ++ toString (selection.index + 1) ++ "/" ++ toString selection.count ++
        " (line " ++ toString (current.line + 1) ++ ")")

/-- The same for any matches; the line of the selected one has to be a number that is written. -/
def Selection.summaryAny (selection : Selection) : Except Fault String :=
  let line := (selection.current?.map (·.line + 1)).getD 0
  if selection.term.isEmpty || isWritable line then selection.summary else .error (.longNumeral line)

end Marginalia
