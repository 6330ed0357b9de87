import Marginalia.Attribution.Index
import Marginalia.Color.Literal
import Marginalia.Json.Basic
import Marginalia.Lexical.Bracket
import Marginalia.Overlay.Author
import Marginalia.Search.Keyword
import Marginalia.Search.Selection

namespace Marginalia

/-- The text that is annotated and the name of its kind. -/
structure Source where
  content : Content
  filetype : String := ""
deriving DecidableEq, Repr

def onOff (enabled : Bool) : String :=
  if enabled then "ON" else "OFF"

/-- What is enabled, with a separator in between. -/
def enabledText (separator : String) (names : List String) : String :=
  let joined := String.intercalate separator names
  if joined.isEmpty then "none" else joined

/-- What is chosen with one item taken out, or put in if it was not. -/
def toggleMember {α : Type} [DecidableEq α] (chosen : List α) (item : α) : List α :=
  if item ∈ chosen then chosen.filter (· ≠ item) else chosen ++ [item]

/-- Shows bracket pairs of the enabled types by their depth. -/
structure BracketAnnotator where
  enabled : Bool := true
  types : List Bracket := Bracket.all
deriving DecidableEq, Repr

def BracketAnnotator.annotate (annotator : BracketAnnotator) (source : Source) : List Span :=
  ((bracketPairs source.content).filter fun pair => pair.bracket ∈ annotator.types).flatMap fun pair =>
    [{ start := pair.opened, stop := pair.opened + 1, style := depthStyle pair.depth, note := some (.depth pair.depth) },
      { start := pair.closed, stop := pair.closed + 1, style := depthStyle pair.depth, note := some (.depth pair.depth) }]

def BracketAnnotator.toggle (annotator : BracketAnnotator) (name : String) : Except Fault BracketAnnotator :=
  match Bracket.ofName? name with
  | some bracket => .ok { annotator with types := toggleMember annotator.types bracket }
  | none => .error (.notABracket name)

def BracketAnnotator.status (annotator : BracketAnnotator) : String :=
  let names := (Bracket.all.filter (· ∈ annotator.types)).map fun bracket =>
    String.ofList [bracket.opener, bracket.closer]
  "Bracket colorizer: " ++ onOff annotator.enabled ++ " | Enabled: " ++ enabledText " " names

/-- Shows color literals in their own color. Their swatches have to be registered before. -/
structure ColorAnnotator where
  enabled : Bool := true
deriving DecidableEq, Repr

def ColorAnnotator.annotate (_ : ColorAnnotator) (source : Source) : List Span :=
  (findColors source.content).map fun color => { start := color.start, stop := color.stop, style := color.styleId }

def ColorAnnotator.status (annotator : ColorAnnotator) : String :=
  "Color highlighting: " ++ onOff annotator.enabled

/-- What is shown for the lines with a record. -/
inductive BlameMode
  | age
  | author
  | both
  | off
deriving DecidableEq, Repr, Inhabited

def BlameMode.all : List BlameMode :=
  [.age, .author, .both, .off]

def BlameMode.name : BlameMode → String
  | .age => "AGE"
  | .author => "AUTHOR"
  | .both => "BOTH"
  | .off => "OFF"

def BlameMode.ofName? (name : String) : Option BlameMode :=
  BlameMode.all.find? fun mode => mode.name == name

def BlameMode.next : BlameMode → BlameMode
  | .age => .author
  | .author => .both
  | .both => .off
  | .off => .age

def BlameMode.showsAge (mode : BlameMode) : Bool :=
  mode = .age || mode = .both

def BlameMode.showsAuthor (mode : BlameMode) : Bool :=
  mode = .author || mode = .both

def BlameMode.describe : BlameMode → String
  | .age => "Age (older = more faded)"
  | .author => "Author colors"
  | .both => "Age + Author"
  | .off => "Off"

def blameFiletypes : List String :=
  ["c", "cpp", "go", "java", "javascript", "jsx", "python", "rust", "tsx", "typescript"]

/-- Tints the lines that have a record by the age of their last change, by its author, or both. -/
structure BlameAnnotator where
  enabled : Bool := true
  attribution : Attribution := {}
  now : Moment
  mode : BlameMode := .age
  authorIds : List (String × String) := []
  filetypes : List String := blameFiletypes
deriving DecidableEq, Repr

def BlameAnnotator.authorStyle (annotator : BlameAnnotator) (author : String) : String :=
  (lookupKey? author annotator.authorIds).getD unknownAuthorStyle

def BlameAnnotator.lineSpans (annotator : BlameAnnotator) (line start stop : Nat) : List Span :=
  if start < stop then
    match annotator.attribution.lookup? line with
    | none => []
    | some record =>
      let span (style : String) : Span :=
        { start := start, stop := stop, style := style, note := some (.blame line record.identifier) }
      (if annotator.mode.showsAge then [span (Age.of record.time annotator.now).style] else []) ++
        (if annotator.mode.showsAuthor then [span (annotator.authorStyle record.author)] else [])
  else []

def BlameAnnotator.annotate (annotator : BlameAnnotator) (source : Source) : List Span :=
  if annotator.mode = .off ∨ source.filetype ∉ annotator.filetypes then []
  else
    (lineRanges source.content).zipIdx.flatMap fun ((start, stop), line) => annotator.lineSpans line start stop

def BlameAnnotator.status (annotator : BlameAnnotator) : String :=
  "Blame mode: " ++ (if annotator.enabled then annotator.mode.describe else "Off")

def lintFiletypes : List String :=
  ["bash", "c", "cpp", "css", "go", "html", "java", "javascript", "jsx", "kotlin", "lua", "php", "python",
    "ruby", "rust", "scala", "scss", "sh", "swift", "tsx", "typescript"]

structure LintAnnotator where
  enabled : Bool := true
  keywords : List Keyword := defaultKeywords
  words : List String := defaultKeywords.map (·.word)
  filetypes : List String := lintFiletypes
deriving DecidableEq, Repr

def LintAnnotator.annotate (annotator : LintAnnotator) (source : Source) : Except Fault (List Span) :=
  if source.filetype ∉ annotator.filetypes ∨ annotator.words = [] then .ok []
  else
    ((findKeywords source.content annotator.keywords).filter fun found => found.word ∈ annotator.words).mapM
      fun found => Span.ofBounds found.start found.stop found.style (some (.line found.line))

def LintAnnotator.known (annotator : LintAnnotator) : List String :=
  annotator.keywords.map (·.word)

def LintAnnotator.toggle (annotator : LintAnnotator) (word : String) : Except Fault LintAnnotator :=
  if word ∈ annotator.known then
    .ok { annotator with words := toggleMember annotator.words word }
  else .error (.unknownKeyword word)

def LintAnnotator.status (annotator : LintAnnotator) : String :=
  "Lint highlighting: " ++ onOff annotator.enabled ++ " | Enabled: " ++
    enabledText ", " (annotator.known.filter (· ∈ annotator.words))

/-- Marks the matches of the search, the selected one in a style of its own. -/
structure SearchAnnotator where
  enabled : Bool := true
  selection : Selection := {}
deriving DecidableEq, Repr

def SearchAnnotator.annotate (annotator : SearchAnnotator) (_ : Source) : Except Fault (List Span) :=
  annotator.selection.found.zipIdx.mapM fun (found, index) =>
    Span.ofBounds found.start found.stop (annotator.selection.styleOf index) (some (.hit index))

inductive Annotator
  | bracket (annotator : BracketAnnotator)
  | color (annotator : ColorAnnotator)
  | blame (annotator : BlameAnnotator)
  | lint (annotator : LintAnnotator)
  | search (annotator : SearchAnnotator)
deriving DecidableEq, Repr

def Annotator.family : Annotator → Family
  | .bracket _ => .bracket
  | .color _ => .color
  | .blame _ => .blame
  | .lint _ => .lint
  | .search _ => .search

def Annotator.enabled : Annotator → Bool
  | .bracket annotator => annotator.enabled
  | .color annotator => annotator.enabled
  | .blame annotator => annotator.enabled
  | .lint annotator => annotator.enabled
  | .search annotator => annotator.enabled

def Annotator.annotate (source : Source) : Annotator → Except Fault (List Span)
  | .bracket annotator => .ok (annotator.annotate source)
  | .color annotator => .ok (annotator.annotate source)
  | .blame annotator => .ok (annotator.annotate source)
  | .lint annotator => annotator.annotate source
  | .search annotator => annotator.annotate source

/-- The spans that an annotator adds: none when it is switched off. -/
def Annotator.added (source : Source) (annotator : Annotator) : Except Fault (List Span) :=
  if annotator.enabled then annotator.annotate source else .ok []

def Annotator.withEnabled (enabled : Bool) : Annotator → Annotator
  | .bracket annotator => .bracket { annotator with enabled := enabled }
  | .color annotator => .color { annotator with enabled := enabled }
  | .blame annotator => .blame { annotator with enabled := enabled }
  | .lint annotator => .lint { annotator with enabled := enabled }
  | .search annotator => .search { annotator with enabled := enabled }

def Annotator.status : Annotator → Except Fault String
  | .bracket annotator => .ok annotator.status
  | .color annotator => .ok annotator.status
  | .blame annotator => .ok annotator.status
  | .lint annotator => .ok annotator.status
  | .search annotator => annotator.selection.summary

end Marginalia
