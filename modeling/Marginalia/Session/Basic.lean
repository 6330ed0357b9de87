import Marginalia.Fingerprint
import Marginalia.Overlay.Compose
import Marginalia.Style.Sheet
import Marginalia.Style.Swatches

namespace Marginalia

structure AnnotatorChoice where
  brackets : Bool := true
  colors : Bool := true
  blame : Bool := true
  lint : Bool := true
  bracketTypes : List Bracket := Bracket.all
  lintWords : List String := defaultKeywords.map (·.word)
  blameMode : BlameMode := .age
  strict : Bool := false
  blameFiletypes : List String := blameFiletypes
  lintFiletypes : List String := lintFiletypes
deriving DecidableEq, Repr

structure SessionConfig where
  styles : StyleList := Sheet.githubDark.styles
  background : String := Sheet.githubDark.background
  tints : List String := Sheet.githubDark.authorTints
  choice : AnnotatorChoice := {}
  clock : Moment
  scrollContext : Int := 3
deriving DecidableEq, Repr

/-- Base spans, and the version and filetype of the content they belong to. -/
structure BaseCache where
  version : String
  filetype : String
  spans : List Span
deriving DecidableEq, Repr

/-- Everything that one viewer knows. -/
structure Session where
  registry : Registry
  background : Rgb
  tints : List String
  strict : Bool
  scrollContext : Int
  clock : Moment
  source : Source := ⟨[], ""⟩
  version : String := ""
  focused : Option Nat := none
  message : String := ""
  generation : Nat := 0
  baseCache : Option BaseCache := none
  bracket : BracketAnnotator
  color : ColorAnnotator
  blame : BlameAnnotator
  lint : LintAnnotator
  search : SearchAnnotator := {}
deriving DecidableEq, Repr

def Session.annotator (session : Session) : Family → Annotator
  | .bracket => .bracket session.bracket
  | .color => .color session.color
  | .blame => .blame session.blame
  | .lint => .lint session.lint
  | .search => .search session.search

def Session.withAnnotator (session : Session) : Annotator → Session
  | .bracket annotator => { session with bracket := annotator }
  | .color annotator => { session with color := annotator }
  | .blame annotator => { session with blame := annotator }
  | .lint annotator => { session with lint := annotator }
  | .search annotator => { session with search := annotator }

def Session.annotators (session : Session) : List Annotator :=
  Family.drawOrder.map session.annotator

def Session.withSelection (session : Session) (selection : Selection) : Session :=
  { session with search := { session.search with selection := selection } }

/-- Reads the clock that ages are measured by. -/
def Session.refreshClock (session : Session) : Session :=
  { session with blame := { session.blame with now := session.clock } }

/-- Searches again for the current term, if there is one. -/
def Session.searchAgain (session : Session) : Session :=
  let term := session.search.selection.term
  if term.isEmpty then session else session.withSelection (.ofTerm session.source.content term)

/-- Replaces the content, and the filetype if one is given. A new version gets its swatches before anything
can look at it. Tells whether the version changed. -/
def Session.setContent (session : Session) (content : Content) (filetype : Option String) :
    Session × Except Fault Bool :=
  let session :=
    { session with source := { content := content, filetype := filetype.getD session.source.filetype } }
  let version := fingerprint content
  let (registry, changed) := session.registry.beginVersion version
  let finish (registry : Registry) : Session :=
    (Session.refreshClock { session with registry := registry, version := version }).searchAgain
  if changed then
    match registry.registerSwatches content session.background with
    | (registry, .error fault) => ({ session with registry := registry }, .error fault)
    | (registry, .ok _) => (finish registry.seal, .ok true)
  else (finish registry, .ok false)

/-- A viewer with an empty content. -/
def Session.ofConfig (config : SessionConfig) : Except Fault Session := do
  let (registry, registered) := Registry.ofStyles config.styles
  registered
  let background ← decodeRgb config.background.toList
  let session : Session :=
    { registry := registry
      background := background
      tints := config.tints
      strict := config.choice.strict
      scrollContext := config.scrollContext
      clock := config.clock
      bracket := { enabled := config.choice.brackets, types := config.choice.bracketTypes }
      color := { enabled := config.choice.colors }
      blame :=
        { enabled := config.choice.blame, now := config.clock, mode := config.choice.blameMode
          filetypes := config.choice.blameFiletypes }
      lint :=
        { enabled := config.choice.lint, words := config.choice.lintWords
          filetypes := config.choice.lintFiletypes } }
  let (session, opened) := session.setContent [] (some "")
  discard opened
  return session

end Marginalia
