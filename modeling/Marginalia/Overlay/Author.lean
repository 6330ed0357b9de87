import Marginalia.Fault
import Marginalia.Json.Basic
import Marginalia.Text.Blank
import Marginalia.Text.Word

namespace Marginalia

def authorIdStart : String := "blame.author."

/-- The style of authors without a tint of their own. -/
def unknownAuthorStyle : String := "blame.author.unknown"

/-- One underscore for each run of characters outside words; `inRun` when such a run has begun. -/
def joinWords (inRun : Bool) : List Char → List Char
  | [] => []
  | char :: rest =>
    if isWord char then char :: joinWords false rest
    else if inRun then joinWords true rest
    else '_' :: joinWords true rest

/-- An author's name in lower case, everything outside words replaced; nothing left counts as anonymous. -/
def authorSlug (author : String) : String :=
  let words := joinWords false (lowerCase (trimBlank author.toList))
  let slug := trimBy (· == '_') words
  if slug.isEmpty then "anonymous" else String.ofList slug

def authorStyleId (author : String) : String :=
  authorIdStart ++ authorSlug author

/-- The style id of each author and the definition of each id, both in the order of first appearance. -/
structure AuthorStyles where
  idOf : List (String × String) := []
  styles : StyleList := []
deriving DecidableEq, Repr

/-- Gives an author a style. An id that is seen for the first time takes the next tint; tints start over
when all are used. -/
def AuthorStyles.add (tints : List String) (known : AuthorStyles) (author : String) : Except Fault AuthorStyles :=
  if (lookupKey? author known.idOf).isSome then .ok known
  else
    let id := authorStyleId author
    if (lookupKey? id known.styles).isSome then .ok { known with idOf := known.idOf ++ [(author, id)] }
    else
      match tints[known.styles.length % tints.length]? with
      | some tint =>
        .ok { idOf := known.idOf ++ [(author, id)], styles := known.styles ++ [(id, .paper tint)] }
      | none => .error .noTints

def AuthorStyles.ofAuthors (authors tints : List String) : Except Fault AuthorStyles :=
  authors.foldlM (AuthorStyles.add tints) {}

end Marginalia
