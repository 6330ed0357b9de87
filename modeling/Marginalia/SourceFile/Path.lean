import Marginalia.Text.Field
import Marginalia.Text.LowerCase

namespace Marginalia

inductive PathRoot
  /-- In the current folder. -/
  | here
  /-- At the top of the tree. -/
  | top
  /-- At a top that exactly two slashes set apart. -/
  | apart
deriving DecidableEq, Repr, Inhabited

/-- A path without empty steps and without steps that stay where they are. Steps upward are kept. -/
structure Path where
  root : PathRoot
  steps : List String
deriving DecidableEq, Repr, Inhabited

def PathRoot.ofText (text : List Char) : PathRoot :=
  match (text.takeWhile (· == '/')).length with
  | 0 => .here
  | 2 => .apart
  | _ => .top

def Path.ofText (text : String) : Path :=
  let steps := (fields '/' text.toList).filter fun step => step ≠ [] ∧ step ≠ ['.']
  ⟨PathRoot.ofText text.toList, steps.map String.ofList⟩

def PathRoot.text : PathRoot → String
  | .here => ""
  | .top => "/"
  | .apart => "//"

/-- The text of a path; that of the current folder is a point. -/
def Path.text (path : Path) : String :=
  let text := path.root.text ++ String.intercalate "/" path.steps
  if text.isEmpty then "." else text

/-- The last step, empty for a path without steps. -/
def Path.name (path : Path) : String :=
  path.steps.getLast?.getD ""

def Path.parent (path : Path) : Path :=
  { path with steps := path.steps.dropLast }

/-- What follows the last point of a name, the point included. A point at either end starts no ending. -/
def nameEnding (name : List Char) : List Char :=
  let tail := (name.reverse.takeWhile (· ≠ '.')).reverse
  let stem := name.length - (tail.length + 1)
  if tail.isEmpty ∨ stem = 0 ∨ name.length ≤ tail.length then [] else name.drop stem

def endingFiletypes : List (String × String) :=
  [(".py", "python"), (".pyw", "python"), (".pyi", "python"),
    (".js", "javascript"), (".mjs", "javascript"), (".cjs", "javascript"),
    (".jsx", "jsx"),
    (".ts", "typescript"), (".mts", "typescript"), (".cts", "typescript"),
    (".tsx", "tsx"),
    (".rs", "rust"),
    (".go", "go"),
    (".c", "c"), (".h", "c"),
    (".cpp", "cpp"), (".cc", "cpp"), (".cxx", "cpp"), (".hpp", "cpp"), (".hh", "cpp"),
    (".java", "java"),
    (".rb", "ruby"),
    (".php", "php"),
    (".swift", "swift"),
    (".kt", "kotlin"), (".kts", "kotlin"),
    (".scala", "scala"),
    (".lua", "lua"),
    (".sh", "sh"), (".bash", "bash"),
    (".css", "css"),
    (".scss", "scss"),
    (".html", "html"), (".htm", "html")]

/-- The filetype that the ending of a path tells, in whatever case; empty for an unknown one. -/
def Path.filetype (path : Path) : String :=
  let ending := String.ofList (lowerCase (nameEnding path.name.toList))
  ((endingFiletypes.find? fun entry => entry.1 == ending).map (·.2)).getD ""

end Marginalia
