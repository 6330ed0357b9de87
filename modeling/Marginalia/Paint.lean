import Marginalia.Span
import Marginalia.Style.Registry
import Marginalia.Text.Line
import Marginalia.Text.Unit16

namespace Marginalia

/-- A part of one line, counted in characters from its start, and the format to lay over it. -/
structure Stroke where
  line : Nat
  start : Nat
  stop : Nat
  format : Format
deriving DecidableEq, Repr

/-- The line of an offset: the last one that starts at or before it. -/
def lineOfOffset (starts : List Nat) (offset : Nat) : Nat :=
  (starts.takeWhile (· ≤ offset)).length - 1

/-- The strokes of a span, one for each line it touches. Its end may lie beyond the end of a line. -/
def spanStrokes (starts : List Nat) (span : Span) (format : Format) : List Stroke :=
  let first := lineOfOffset starts span.start
  let last := lineOfOffset starts (span.stop - 1)
  (List.range' first (last + 1 - first)).map fun line =>
    let lineStart := starts.getD line 0
    { line := line, start := max span.start lineStart - lineStart, stop := span.stop - lineStart, format := format }

/-- The strokes of all spans in order. Formats are taken from the registry, which may refuse one. -/
def collectStrokes (registry : Registry) (starts : List Nat) : List Span → Registry × Except Fault (List Stroke)
  | [] => (registry, .ok [])
  | span :: rest =>
    match registry.format span.style with
    | (registry, .error fault) => (registry, .error fault)
    | (registry, .ok format) =>
      let (registry, later) := collectStrokes registry starts rest
      (registry, later.map (spanStrokes starts span format ++ ·))

/-- The formats of the units of one line of a document. -/
abbrev PaintedLine := List Format

/-- Lays a format over some units of a line, beginning at one of them, where the format below is read. -/
def layOver (start count : Nat) (format : Format) (line : PaintedLine) : PaintedLine :=
  let merged := (line.getD start {}).merge format
  line.mapIdx fun unit below => if start ≤ unit ∧ unit < start + count then merged else below

/-- Lays a format over one character of a line, all its units. -/
def paintChar (offsets : Option (List Nat)) (format : Format) (line : PaintedLine) (place : Nat) : PaintedLine :=
  match offsets with
  | none => layOver place 1 format line
  | some offsets =>
    let start := offsets.getD place 0
    layOver start (offsets.getD (place + 1) 0 - start) format line

def paintStroke (text : Content) (line : PaintedLine) (stroke : Stroke) : PaintedLine :=
  let stop := min stroke.stop text.length
  (List.range' stroke.start (stop - stroke.start)).foldl (paintChar (unitOffsets? text) stroke.format) line

/-- Paints a line anew: from no format at all, stroke after stroke. -/
def paintLine (text : Content) (strokes : List Stroke) : PaintedLine :=
  strokes.foldl (paintStroke text) (List.replicate (unitLength text) {})

/-- A document and what was last painted on it. -/
structure Canvas where
  content : Content
  strokes : List Stroke := []
  lines : List PaintedLine

/-- Paints every line with the strokes that belong to it. -/
def Canvas.repaint (canvas : Canvas) : Canvas :=
  { canvas with
      lines := (lineTexts canvas.content).zipIdx.map fun (text, line) =>
        paintLine text (canvas.strokes.filter (·.line = line)) }

def Canvas.blank (content : Content) : Canvas :=
  Canvas.repaint { content := content, lines := [] }

/-- Replaces what is painted by spans. When a style is unknown the painting stays as it was. -/
def Canvas.setSpans (canvas : Canvas) (registry : Registry) (spans : List Span) :
    Canvas × Registry × Except Fault Unit :=
  match collectStrokes registry (lineStarts canvas.content) spans with
  | (registry, .ok strokes) => (Canvas.repaint { canvas with strokes := strokes }, registry, .ok ())
  | (registry, .error fault) => (canvas, registry, .error fault)

def Canvas.clear (canvas : Canvas) : Canvas :=
  Canvas.repaint { canvas with strokes := [] }

/-- Units next to one another with the same format: the first unit, their number and the format. -/
structure Run where
  start : Nat
  length : Nat
  format : Format
deriving DecidableEq, Repr

/-- The runs of a line that starts at `unit`; units without a format belong to none. -/
def runsFrom (unit : Nat) : PaintedLine → List Run
  | [] => []
  | format :: rest =>
    let later := runsFrom (unit + 1) rest
    if format.isEmpty then later
    else
      match later with
      | run :: runs =>
        if run.start = unit + 1 ∧ run.format = format then ⟨unit, run.length + 1, format⟩ :: runs
        else ⟨unit, 1, format⟩ :: run :: runs
      | [] => [⟨unit, 1, format⟩]

def Canvas.runs (canvas : Canvas) : List (List Run) :=
  canvas.lines.map (runsFrom 0)

end Marginalia
