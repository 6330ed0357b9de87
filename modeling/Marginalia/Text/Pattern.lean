import Marginalia.Text.Digit
import Marginalia.Text.Word

namespace Marginalia

/-- A place in a text: its offset, the character before it and what follows it. -/
structure Cursor where
  offset : Nat
  before : Option Char
  rest : List Char

def Cursor.after (cursor : Cursor) (char : Char) (rest : List Char) : Cursor :=
  ⟨cursor.offset + 1, some char, rest⟩

def Cursor.start (text : List Char) : Cursor :=
  ⟨0, none, text⟩

/-- A shape of text. Alternatives are tried in order; of repetitions the longest comes first, with `few` the
shortest. The first way that lets everything after it succeed is taken. -/
inductive Pattern
  | empty
  | one (accepts : Char → Bool)
  | many (accepts : Char → Bool)
  | few (accepts : Char → Bool)
  | both (first second : Pattern)
  | either (first second : Pattern)
  | star (body : Pattern)
  | edge
  | lineStart
  | textEnd
  | notBefore (rejects : Char → Bool)
  | notBehind (rejects : Char → Bool)

/-- Goes on with `next` behind a run of accepted characters, behind the longest run for which it succeeds. -/
def longestRun {α : Type} (accepts : Char → Bool) (next : Cursor → Option α) (offset : Nat)
    (before : Option Char) : List Char → Option α
  | [] => next ⟨offset, before, []⟩
  | char :: rest =>
    if accepts char then
      match longestRun accepts next (offset + 1) (some char) rest with
      | some found => some found
      | none => next ⟨offset, before, char :: rest⟩
    else next ⟨offset, before, char :: rest⟩

/-- Goes on with `next` behind a run of accepted characters, behind the shortest run for which it succeeds. -/
def shortestRun {α : Type} (accepts : Char → Bool) (next : Cursor → Option α) (offset : Nat)
    (before : Option Char) : List Char → Option α
  | [] => next ⟨offset, before, []⟩
  | char :: rest =>
    match next ⟨offset, before, char :: rest⟩ with
    | some found => some found
    | none => if accepts char then shortestRun accepts next (offset + 1) (some char) rest else none

/-- Goes on with `next` behind a row of bodies, behind the longest row for which it succeeds. A body that reads
nothing is not repeated. -/
def longestRow {α : Type} (body : Cursor → (Cursor → Option α) → Option α) (next : Cursor → Option α)
    (cursor : Cursor) : Option α :=
  match body cursor fun last => if last.rest.length < cursor.rest.length then longestRow body next last else none with
  | some found => some found
  | none => next cursor
termination_by cursor.rest.length

/-- Matches a pattern at a cursor and goes on with `next` at its end. -/
def Pattern.run {α : Type} : Pattern → Cursor → (Cursor → Option α) → Option α
  | .empty, cursor, next => next cursor
  | .one accepts, cursor, next =>
    match cursor.rest with
    | [] => none
    | char :: rest => if accepts char then next (cursor.after char rest) else none
  | .many accepts, cursor, next => longestRun accepts next cursor.offset cursor.before cursor.rest
  | .few accepts, cursor, next => shortestRun accepts next cursor.offset cursor.before cursor.rest
  | .both first second, cursor, next => first.run cursor fun middle => second.run middle next
  | .either first second, cursor, next =>
    match first.run cursor next with
    | some found => some found
    | none => second.run cursor next
  | .star body, cursor, next => longestRow body.run next cursor
  | .edge, cursor, next => if wordEdge cursor.before cursor.rest.head? then next cursor else none
  | .lineStart, cursor, next => if cursor.before.all (· == '\n') then next cursor else none
  | .textEnd, cursor, next => if cursor.rest.isEmpty then next cursor else none
  | .notBefore rejects, cursor, next => if cursor.rest.head?.any rejects then none else next cursor
  | .notBehind rejects, cursor, next => if cursor.before.any rejects then none else next cursor

/-- How far a pattern goes in front of a text. The character before the text is known. -/
def Pattern.length? (pattern : Pattern) (before : Option Char) (text : List Char) : Option Nat :=
  pattern.run ⟨0, before, text⟩ fun last => some last.offset

/-- A pattern between what has to stand before and after it. -/
structure Shape where
  lead : Pattern := .empty
  body : Pattern
  tail : Pattern := .empty

/-- Where a shape was found: the extent of its body, and the place behind its tail. -/
structure Found where
  start : Nat
  stop : Nat
  beyond : Cursor

/-- The match of a shape that starts at a cursor. -/
def Shape.match? (shape : Shape) (cursor : Cursor) : Option Found :=
  shape.lead.run cursor fun first =>
    shape.body.run first fun last =>
      shape.tail.run last fun beyond => some ⟨first.offset, last.offset, beyond⟩

/-- The bodies of the matches of a shape, found from left to right; the search goes on behind each match. -/
def Shape.search (shape : Shape) (offset : Nat) (before : Option Char) (text : List Char) : List (Nat × Nat) :=
  match text with
  | [] => []
  | char :: rest =>
    match shape.match? ⟨offset, before, char :: rest⟩ with
    | some found =>
      if found.beyond.rest.length < rest.length + 1 then
        (found.start, found.stop) :: shape.search found.beyond.offset found.beyond.before found.beyond.rest
      else shape.search (offset + 1) (some char) rest
    | none => shape.search (offset + 1) (some char) rest
termination_by text.length

/-- The extents of the bodies of all matches in a text. -/
def Shape.extents (shape : Shape) (text : List Char) : List (Nat × Nat) :=
  shape.search 0 none text

def isOneOf (chars : String) (char : Char) : Bool :=
  chars.contains char

def Pattern.char (wanted : Char) : Pattern :=
  .one (· == wanted)

def Pattern.literal (word : String) : Pattern :=
  word.toList.foldr (fun char rest => .both (.char char) rest) .empty

/-- One of several words, the first one that fits. -/
def Pattern.words : List String → Pattern
  | [] => .one fun _ => false
  | [word] => .literal word
  | word :: words => .either (.literal word) (.words words)

def Pattern.optional (pattern : Pattern) : Pattern :=
  .either pattern .empty

/-- At least one accepted character. -/
def Pattern.plus (accepts : Char → Bool) : Pattern :=
  .both (.one accepts) (.many accepts)

def Pattern.all : List Pattern → Pattern
  | [] => .empty
  | [pattern] => pattern
  | pattern :: patterns => .both pattern (.all patterns)

/-- At most `count` accepted characters, the more the better. -/
def Pattern.upTo : Nat → (Char → Bool) → Pattern
  | 0, _ => .empty
  | count + 1, accepts => .optional (.both (.one accepts) (.upTo count accepts))

/-- Exactly `count` accepted characters. -/
def Pattern.times (count : Nat) (accepts : Char → Bool) : Pattern :=
  .all (List.replicate count (.one accepts))

end Marginalia
