import Marginalia.Session.Event

namespace Marginalia

/-- Counts of authors, the greatest first; equal counts stay in order of appearance. -/
def authorsByLines (stats : AttributionStats) : List (String × Int) :=
  stats.byAuthor.mergeSort fun left right => left.2 ≥ right.2

def bracketReport (content : Content) : List String :=
  let counts := countBrackets content
  ("Brackets: " ++ toString counts.total ++ " pair(s), max depth " ++ toString counts.maxDepth) ::
    counts.byType.map fun (bracket, count) => "  " ++ bracket.name ++ ": " ++ toString count

def keywordReport (content : Content) (keywords : List Keyword) : List String :=
  "Lint keywords:" ::
    (countKeywords content keywords).map fun (word, count) => "  " ++ word ++ ": " ++ toString count

/-- The lines on authors and ages, if any line has a record. The total has to be a number that is written;
then so is every part of it. -/
def blameReport (annotator : BlameAnnotator) : Except Fault (List String) :=
  let stats := annotator.attribution.stats annotator.now
  if annotator.attribution.records.isEmpty then .ok []
  else if !isWritable stats.total then .error (.longNumeral stats.total)
  else
    .ok (("Blame: " ++ toString stats.total ++ " attributed line(s)") ::
      ((authorsByLines stats).map fun (author, count) => "  " ++ author ++ ": " ++ toString count) ++
      stats.byAge.map fun (age, count) => "  [" ++ age.label ++ "] " ++ toString count)

def searchReport (selection : Selection) : Except Fault (List String) :=
  if selection.term.isEmpty then .ok [] else selection.summary.map fun summary => [summary]

/-- The statistics of a viewer's content, one line each. -/
def Session.statistics (session : Session) : Except Fault String := do
  let content := session.source.content
  let blame ← blameReport session.blame
  let search ← searchReport session.search.selection
  let lines := bracketReport content ++ keywordReport content session.lint.keywords ++ blame ++ search
  return String.join (lines.map (· ++ "\n"))

end Marginalia
