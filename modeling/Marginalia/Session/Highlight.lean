import Marginalia.Session.Event
import Marginalia.Token.Tokenize

namespace Marginalia

/-- The base spans kept for the current version and filetype. -/
def Session.cachedBase? (session : Session) : Option (List Span) :=
  match session.baseCache with
  | some cache =>
    if cache.version = session.version ∧ cache.filetype = session.source.filetype then some cache.spans else none
  | none => none

/-- The base spans of the content, read from it if they are not kept. -/
def Session.baseSpans (session : Session) : Session × List Span :=
  match session.cachedBase? with
  | some spans => (session, spans)
  | none =>
    let spans := tokenize session.source.content session.source.filetype
    ({ session with baseCache := some ⟨session.version, session.source.filetype, spans⟩ }, spans)

/-- All spans to draw, over the given base or the content's own. -/
def Session.highlight (session : Session) (base : Option (List Span)) : Session × Except Fault (List Span) :=
  let (session, base) := match base with
    | some base => (session, base)
    | none => session.baseSpans
  (session, compose session.registry session.source base session.annotators)

/-- All that a highlighting pass needs, as it was when the pass was asked for. -/
structure Ticket where
  generation : Nat
  version : String
  source : Source
  registry : Registry
  annotators : List Annotator
  base : Option (List Span)
deriving DecidableEq, Repr

/-- What a pass made of its ticket. -/
structure Pass where
  ticket : Ticket
  spans : List Span
  base : List Span
deriving DecidableEq, Repr

def Ticket.run (ticket : Ticket) : Except Fault Pass :=
  let base := ticket.base.getD (tokenize ticket.source.content ticket.source.filetype)
  (compose ticket.registry ticket.source base ticket.annotators).map fun spans => ⟨ticket, spans, base⟩

/-- Asks for a pass. Earlier tickets become stale. -/
def Session.requestPass (session : Session) (base : Option (List Span)) : Session × Ticket :=
  let session := { session with generation := session.generation + 1 }
  (session,
    { generation := session.generation
      version := session.version
      source := session.source
      registry := session.registry.snapshot
      annotators := session.annotators
      base := base.or session.cachedBase? })

/-- Whether no later pass was asked for. -/
def Session.isCurrent (session : Session) (ticket : Ticket) : Bool :=
  ticket.generation == session.generation

/-- Keeps the base spans of a finished pass, if the pass read them itself and they still belong to the content. -/
def Session.keepBase (session : Session) (pass : Pass) : Session :=
  if pass.ticket.base.isNone ∧ pass.ticket.version = session.version ∧
      pass.ticket.source.filetype = session.source.filetype then
    { session with baseCache := some ⟨pass.ticket.version, pass.ticket.source.filetype, pass.base⟩ }
  else session

/-- Takes a finished pass. Answers whether it is the latest one. -/
def Session.accept (session : Session) (pass : Pass) : Session × Bool :=
  (session.keepBase pass, session.isCurrent pass.ticket)

end Marginalia
