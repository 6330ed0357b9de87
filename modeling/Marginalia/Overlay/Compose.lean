import Marginalia.Overlay.Annotator
import Marginalia.Style.Registry

namespace Marginalia

/-- The base spans followed by what the annotators add, one after the other. Each enabled annotator comes
after the ones before it, so that its spans are drawn over theirs. -/
def annotateAll (source : Source) (base : List Span) (annotators : List Annotator) : Except Fault (List Span) :=
  annotators.foldlM (fun spans annotator => (annotator.added source).map (spans ++ ·)) base

/-- A span that was added has to use a known style, and to lie inside the content. -/
def checkSpan (registry : Registry) (length : Nat) (family : Family) (span : Span) : Except Fault Unit :=
  if registry.contains span.style then
    if span.fits length then .ok () else .error (.beyondContent family span.start span.stop length)
  else .error (.unknownStyle span.style)

/-- Adds the spans of one annotator, if all of them pass. -/
def composeOne (registry : Registry) (source : Source) (spans : List Span) (annotator : Annotator) :
    Except Fault (List Span) := do
  let added ← annotator.added source
  added.forM (checkSpan registry source.content.length annotator.family)
  return spans ++ added

/-- The base spans followed by the checked spans of all annotators. The base itself is not checked. -/
def compose (registry : Registry) (source : Source) (base : List Span) (annotators : List Annotator) :
    Except Fault (List Span) :=
  annotators.foldlM (composeOne registry source) base

end Marginalia
