import Marginalia.Session.Basic

namespace Marginalia

/-- What can happen to a viewer. -/
inductive Event
  | setContent (content : Content) (filetype : Option String)
  | setFiletype (filetype : String)
  | toggleFamily (family : Family)
  | toggleBracket (name : String)
  | toggleKeyword (word : String)
  | cycleBlameMode
  | setAttribution (records : List Record)
  | setClock (now : Moment)
  | refreshClock
  | setSearchTerm (term : String)
  | clearSearch
  | nextMatch
  | previousMatch
  | jumpToMatch (index : Int)
  | jumpToLine (line : Int)
deriving DecidableEq, Repr

inductive Reply
  | done
  | flag (value : Bool)
  | mode (mode : BlameMode)
  | scrollTo (line : Option Int)
  | text (text : String)
  | attribution (attribution : Attribution)
deriving DecidableEq, Repr

/-- The viewer after a step, and its answer. A viewer keeps what a step changed before its fault. -/
abbrev Outcome := Session × Except Fault Reply

/-- Shows the state of a family in the message line, and answers. -/
def Session.report (session : Session) (family : Family) (reply : Reply) : Outcome :=
  match (session.annotator family).status with
  | .ok message => ({ session with message := message }, .ok reply)
  | .error fault => (session, .error fault)

/-- Switches a family on or off. Answers whether it is on. -/
def Session.toggleFamily (session : Session) (family : Family) : Outcome :=
  let annotator := session.annotator family
  (session.withAnnotator (annotator.withEnabled !annotator.enabled)).report family (.flag !annotator.enabled)

/-- Switches one bracket type. Answers whether it is shown. -/
def Session.toggleBracket (session : Session) (name : String) : Outcome :=
  match session.bracket.toggle name with
  | .error fault => (session, .error fault)
  | .ok annotator =>
    Session.report { session with bracket := annotator } .bracket
      (.flag ((annotator.types.map (·.name)).contains name))

/-- Switches one keyword. Answers whether it is flagged. -/
def Session.toggleKeyword (session : Session) (word : String) : Outcome :=
  match session.lint.toggle word with
  | .error fault => (session, .error fault)
  | .ok annotator =>
    Session.report { session with lint := annotator } .lint (.flag (annotator.words.contains word))

def Session.cycleBlameMode (session : Session) : Outcome :=
  let mode := session.blame.mode.next
  Session.report { session with blame := { session.blame with mode := mode } } .blame (.mode mode)

/-- Installs records and the styles of their authors. -/
def Session.setAttribution (session : Session) (records : List Record) : Outcome :=
  match Attribution.ofRecords records session.strict with
  | .error fault => (session, .error fault)
  | .ok attribution =>
    match AuthorStyles.ofAuthors (attribution.records.map (·.author)) session.tints with
    | .error fault => (session, .error fault)
    | .ok authors =>
      match session.registry.registerAll .permanent authors.styles with
      | (registry, .error fault) => ({ session with registry := registry }, .error fault)
      | (registry, .ok _) =>
        ({ session with
            registry := registry
            blame :=
              { session.blame with
                  attribution := attribution
                  authorIds := authors.idOf
                  now := session.clock } }, .ok (.attribution attribution))

/-- Takes over a selection, shows its state, and answers the line to scroll to. -/
def Session.select (session : Session) (selection : Selection) : Outcome :=
  let session := session.withSelection selection
  session.report .search (.scrollTo (selection.scrollTarget? session.scrollContext))

def Session.setSearchTerm (session : Session) (term : String) : Outcome :=
  session.select (.ofTerm session.source.content term)

def Session.clearSearch (session : Session) : Outcome :=
  (session.withSelection {}).report .search .done

/-- Focuses a line of the content, counted from zero, and describes who changed it. -/
def Session.jumpToLine (session : Session) (line : Int) : Outcome :=
  let count := lineCount session.source.content
  if 0 ≤ line ∧ line < count then
    let message := session.blame.attribution.describe line session.blame.now
    ({ session with focused := some line.toNat, message := message }, .ok (.text message))
  else (session, .error (.lineOutOfRange line count))

def Session.step (session : Session) : Event → Outcome
  | .setContent content filetype =>
    let (session, changed) := session.setContent content filetype
    (session, changed.map .flag)
  | .setFiletype filetype =>
    ({ session with source := { session.source with filetype := filetype } }, .ok .done)
  | .toggleFamily family => session.toggleFamily family
  | .toggleBracket name => session.toggleBracket name
  | .toggleKeyword word => session.toggleKeyword word
  | .cycleBlameMode => session.cycleBlameMode
  | .setAttribution records => session.setAttribution records
  | .setClock now => ({ session with clock := now }, .ok .done)
  | .refreshClock => (session.refreshClock, .ok .done)
  | .setSearchTerm term => session.setSearchTerm term
  | .clearSearch => session.clearSearch
  | .nextMatch => session.select session.search.selection.next
  | .previousMatch => session.select session.search.selection.previous
  | .jumpToMatch index => session.select (session.search.selection.jump index)
  | .jumpToLine line => session.jumpToLine line

/-- The viewer after some events, whether or not they met a fault. -/
def Session.run (session : Session) (events : List Event) : Session :=
  events.foldl (fun session event => (session.step event).1) session

/-- Goes to a line counted from one; a line outside the content is passed over. -/
def Session.requestLine (session : Session) (line : Int) : Session × Bool :=
  match session.jumpToLine (line - 1) with
  | (session, .ok _) => (session, true)
  | (session, .error _) => (session, false)

/-- The lines that tell the states of all families, in drawing order. -/
def Session.statusLines (session : Session) : Except Fault (List String) :=
  session.annotators.mapM Annotator.status

end Marginalia
