import Marginalia.Span
import Marginalia.Token.Language

namespace Marginalia

/-- The strings and comments of a content. -/
def Language.regionSpans (language : Language) (content : List Char) : List Span :=
  (carve (openRegion language.regions) 0 none content).filterMap fun piece =>
    piece.region?.map fun region => { start := region.start, stop := region.stop, style := region.kind }

/-- The spans that the matches of a rule ask for, from left to right. -/
def TokenRule.candidates (rule : TokenRule) (content : List Char) : List Span :=
  (rule.shape.extents content).map fun (start, stop) => { start := start, stop := stop, style := rule.style }

/-- Adds a span if it covers something and shares no character with a span that was there before. -/
def placeIfFree (spans : List Span) (span : Span) : List Span :=
  if span.start < span.stop ∧ ¬ spans.any span.overlaps then spans ++ [span] else spans

/-- All spans in the order in which they take their places: regions, then rule after rule. -/
def Language.placedSpans (language : Language) (content : List Char) : List Span :=
  (language.tokens.flatMap fun rule => rule.candidates content).foldl placeIfFree (language.regionSpans content)

/-- The base spans of a content in the order of their starts; a filetype without a language has none. -/
def tokenize (content : List Char) (filetype : String) : List Span :=
  match Language.ofFiletype? filetype with
  | none => []
  | some language => (language.placedSpans content).mergeSort fun left right => left.start ≤ right.start

end Marginalia
