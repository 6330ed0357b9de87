import Marginalia.Lexical.Region
import Marginalia.Text.Tally

namespace Marginalia

inductive Bracket
  | round
  | square
  | curly
  | angle
deriving DecidableEq, Repr

def Bracket.all : List Bracket :=
  [.round, .square, .curly, .angle]

def Bracket.opener : Bracket → Char
  | .round => '('
  | .square => '['
  | .curly => '{'
  | .angle => '<'

def Bracket.closer : Bracket → Char
  | .round => ')'
  | .square => ']'
  | .curly => '}'
  | .angle => '>'

def Bracket.openedBy? (char : Char) : Option Bracket :=
  Bracket.all.find? fun bracket => bracket.opener == char

def Bracket.closedBy? (char : Char) : Option Bracket :=
  Bracket.all.find? fun bracket => bracket.closer == char

/-- The text that names a bracket type: its opener. -/
def Bracket.name (bracket : Bracket) : String :=
  String.ofList [bracket.opener]

def Bracket.ofName? (name : String) : Option Bracket :=
  Bracket.all.find? fun bracket => bracket.name == name

/-- An opener and the closer that belongs to it. Depth counts the open brackets of the same type around them. -/
structure BracketPair where
  opened : Nat
  closed : Nat
  bracket : Bracket
  depth : Nat
deriving DecidableEq, Repr

/-- The offsets of the openers that wait for their closer, the last one first, for each type. -/
structure OpenBrackets where
  round : List Nat := []
  square : List Nat := []
  curly : List Nat := []
  angle : List Nat := []

def OpenBrackets.get (waiting : OpenBrackets) : Bracket → List Nat
  | .round => waiting.round
  | .square => waiting.square
  | .curly => waiting.curly
  | .angle => waiting.angle

def OpenBrackets.set (waiting : OpenBrackets) (offsets : List Nat) : Bracket → OpenBrackets
  | .round => { waiting with round := offsets }
  | .square => { waiting with square := offsets }
  | .curly => { waiting with curly := offsets }
  | .angle => { waiting with angle := offsets }

/-- Matches each closer with the last waiting opener of its type. A closer without one is passed over. -/
def matchBrackets (waiting : OpenBrackets) : List (Nat × Char) → List BracketPair
  | [] => []
  | (offset, char) :: rest =>
    match Bracket.openedBy? char, Bracket.closedBy? char with
    | some bracket, _ => matchBrackets (waiting.set (offset :: waiting.get bracket) bracket) rest
    | none, some bracket =>
      match waiting.get bracket with
      | [] => matchBrackets waiting rest
      | opened :: outer =>
        ⟨opened, offset, bracket, outer.length⟩ :: matchBrackets (waiting.set outer bracket) rest
    | none, none => matchBrackets waiting rest

/-- The bracket pairs of a content in the order of their closers. -/
def bracketPairs (content : List Char) : List BracketPair :=
  matchBrackets {} (codeChars content)

/-- The number of depth styles, after which they start over. -/
def depthStyles : Nat := 6

def depthStyle (depth : Int) : String :=
  "bracket.depth" ++ toString (depth % depthStyles)

/-- How many pairs a content has, of each type in the order of first closing, and how deep they nest. -/
structure BracketCounts where
  total : Nat
  byType : List (Bracket × Nat)
  maxDepth : Nat
deriving DecidableEq, Repr

def BracketCounts.add (counts : BracketCounts) (pair : BracketPair) : BracketCounts :=
  { total := counts.total + 1
    byType := tally pair.bracket 1 counts.byType
    maxDepth := max counts.maxDepth (pair.depth + 1) }

def countBrackets (content : List Char) : BracketCounts :=
  (bracketPairs content).foldl BracketCounts.add ⟨0, [], 0⟩

theorem OpenBrackets.get_set_self (waiting : OpenBrackets) (offsets : List Nat) (bracket : Bracket) :
    (waiting.set offsets bracket).get bracket = offsets := by
  cases bracket <;> rfl

theorem OpenBrackets.get_set_of_ne (waiting : OpenBrackets) (offsets : List Nat) {bracket other : Bracket}
    (different : other ≠ bracket) : (waiting.set offsets bracket).get other = waiting.get other := by
  cases bracket <;> cases other <;> first | rfl | exact absurd rfl different

end Marginalia
