namespace Marginalia

/-- A stretch of text from `start` up to `stop`. -/
structure Region (κ : Type) where
  start : Nat
  stop : Nat
  kind : κ
deriving DecidableEq, Repr

/-- What a text consists of: regions, and single characters between them. -/
inductive Piece (κ : Type)
  | region (extent : Region κ)
  | plain (offset : Nat) (char : Char)
deriving DecidableEq, Repr

/-- What opens a region in front of a text: its kind and its length. The character before is known. -/
abbrev Opener (κ : Type) := Option Char → List Char → Option (κ × Nat)

/-- Reads a text from left to right. Where a region of at least one character opens it is taken whole,
otherwise one character is passed. -/
def carve {κ : Type} (opener : Opener κ) (offset : Nat) (before : Option Char) : List Char → List (Piece κ)
  | [] => []
  | char :: rest =>
    match opener before (char :: rest) with
    | some (kind, more + 1) =>
      .region ⟨offset, offset + more + 1, kind⟩ ::
        carve opener (offset + more + 1) (some ((rest.take more).getLastD char)) (rest.drop more)
    | _ => .plain offset char :: carve opener (offset + 1) (some char) rest
termination_by text => text.length
decreasing_by
  all_goals simp only [List.length_cons, List.length_drop]; omega

def Piece.region? {κ : Type} : Piece κ → Option (Region κ)
  | .region extent => some extent
  | .plain _ _ => none

def Piece.plain? {κ : Type} : Piece κ → Option (Nat × Char)
  | .region _ => none
  | .plain offset char => some (offset, char)

/-- How far a text goes up to and including a closing mark, or to its end. -/
def lengthThrough (mark : List Char) : List Char → Nat
  | [] => 0
  | char :: rest => if mark.isPrefixOf (char :: rest) then mark.length else lengthThrough mark rest + 1

/-- How far a text goes before its first newline, or to its end. -/
def lineLength (text : List Char) : Nat :=
  (text.takeWhile (· ≠ '\n')).length

end Marginalia
