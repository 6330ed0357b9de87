import Marginalia.Proofs.KnownStyles
import Marginalia.Proofs.LinePlaces
import Marginalia.Proofs.SpreadFormats

namespace Marginalia

/-- The places that a span goes over. -/
def Span.Covers (span : Span) (place : Nat) : Prop :=
  span.start ≤ place ∧ place < span.stop

instance Span.decidableCovers (span : Span) (place : Nat) : Decidable (span.Covers place) :=
  inferInstanceAs (Decidable (_ ∧ _))

/-- What spans put on a place: the formats of those over it, one merged onto the other. -/
def mergedFormat (registry : Registry) (spans : List Span) (place : Nat) : Format :=
  ((spans.filter (·.Covers place)).map fun span => registry.formatOf span.style).foldl Format.merge {}

/-- The format on a unit of the character at a place. -/
def Canvas.unitFormat? (canvas : Canvas) (place unit : Nat) : Option Format :=
  canvas.lines[lineAt canvas.content place]?.bind
    (·[unitLength (lineTextBefore canvas.content place) + unit]?)

/-- The strokes of known spans are those of each span in turn. -/
theorem collectStrokes_of_known {registry : Registry} {spans : List Span}
    (known : ∀ span ∈ spans, registry.contains span.style = true) (starts : List Nat) :
    ∃ registry', collectStrokes registry starts spans =
      (registry', .ok (spans.flatMap fun span => spanStrokes starts span (registry.formatOf span.style))) := by
  induction spans generalizing registry with
  | nil => exact ⟨registry, rfl⟩
  | cons span rest ih =>
    rw [List.forall_mem_cons] at known
    obtain ⟨registry', format_eq, same_get, same_format⟩ := Registry.format_of_contains known.1
    have known' : ∀ span ∈ rest, registry'.contains span.style = true := by
      simpa only [Registry.contains, same_get] using known.2
    obtain ⟨registry'', later⟩ := ih known'
    refine ⟨registry'', ?_⟩
    rw [collectStrokes, format_eq]
    dsimp only
    rw [later, same_format]
    rfl

/-- Of the strokes of a span, the one on the line of a place goes over the place if the span does. -/
theorem spanStrokes_at {content : Content} {place : Nat} (within : place ≤ content.length) (span : Span)
    (format : Format) :
    ((((spanStrokes (lineStarts content) span format).filter (·.line = lineAt content place)).filter
        (·.Covers (lineTextBefore content place).length)).map (·.format)) =
      if span.Covers place then [format] else [] := by
  have ends := lineStarts_at within
  have single (first count line : Nat) : (List.range' first count).filter (· = line) =
      if line ∈ List.range' first count then [line] else [] := by
    rw [List.filter_eq, List.Nodup.count List.nodup_range']
    split <;> rfl
  rw [spanStrokes, lineOfOffset_lineStarts, lineOfOffset_lineStarts, List.filter_map]
  have onLine : (fun stroke : Stroke => decide (stroke.line = lineAt content place)) ∘ (fun line =>
      { line := line, start := max span.start ((lineStarts content).getD line 0) - (lineStarts content).getD line 0,
        stop := span.stop - (lineStarts content).getD line 0, format := format }) =
      fun line => decide (line = lineAt content place) := rfl
  dsimp only
  rw [onLine, single]
  simp only [List.mem_range'_1]
  by_cases covers : span.Covers place
  · obtain ⟨starts, stops⟩ := covers
    have lower := lineAt_mono content starts
    have upper := lineAt_mono content (show place ≤ span.stop - 1 by omega)
    rw [if_pos (by omega), if_pos ⟨starts, stops⟩, List.map_cons, List.map_nil, List.filter_cons_of_pos]
    · rfl
    · refine decide_eq_true ⟨?_, ?_⟩
      · dsimp only
        omega
      · dsimp only
        omega
  · rw [if_neg covers]
    split
    · rw [List.map_cons, List.map_nil, List.filter_cons_of_neg]
      · rfl
      · rw [decide_eq_true_eq]
        rintro ⟨starts, stops⟩
        dsimp only at starts stops
        exact covers ⟨by omega, by omega⟩
    · rfl

/-- The strokes that go over a place are the formats of the spans over it. -/
theorem strokes_at {content : Content} {place : Nat} (within : place ≤ content.length) (spans : List Span)
    (formatOf : String → Format) :
    ((((spans.flatMap fun span => spanStrokes (lineStarts content) span (formatOf span.style)).filter
      (·.line = lineAt content place)).filter (·.Covers (lineTextBefore content place).length)).map (·.format)) =
      (spans.filter (·.Covers place)).map fun span => formatOf span.style := by
  induction spans with
  | nil => rfl
  | cons span rest ih =>
    rw [List.flatMap_cons, List.filter_append, List.filter_append, List.map_append, spanStrokes_at within, ih]
    by_cases covers : span.Covers place
    · rw [if_pos covers, List.filter_cons_of_pos (by simpa using covers)]
      rfl
    · rw [if_neg covers, List.filter_cons_of_neg (by simpa using covers)]
      rfl

theorem Canvas.lines_repaint (canvas : Canvas) (line : Nat) :
    canvas.repaint.lines[line]? = (lineTexts canvas.content)[line]?.map fun text =>
      paintLine text (canvas.strokes.filter (·.line = line)) := by
  rw [repaint]
  dsimp only
  rw [List.getElem?_map, List.getElem?_zipIdx, Nat.zero_add]
  cases (lineTexts canvas.content)[line]? <;> rfl

theorem Canvas.length_lines_repaint (canvas : Canvas) :
    canvas.repaint.lines.map List.length = (lineTexts canvas.content).map unitLength := by
  apply List.ext_getElem?
  intro line
  rw [List.getElem?_map, lines_repaint, List.getElem?_map, Option.map_map]
  cases (lineTexts canvas.content)[line]? with
  | none => rfl
  | some text =>
    rw [Option.map_some, Function.comp, paintLine_eq_spread, length_spread]
    rfl

/-- On a repainted canvas every unit of a character has the formats of the strokes over the character. -/
theorem Canvas.unitFormat?_repaint {canvas : Canvas} {place : Nat} {char : Char}
    (found : canvas.content[place]? = some char) (printed : char ≠ '\n') {unit : Nat} (within : unit < units16 char) :
    canvas.repaint.unitFormat? place unit =
      some ((((canvas.strokes.filter (·.line = lineAt canvas.content place)).filter
        (·.Covers (lineTextBefore canvas.content place).length)).map (·.format)).foldl Format.merge {}) := by
  obtain ⟨below, rfl⟩ := List.getElem?_eq_some_iff.mp found
  have onLine : (lineTextBefore canvas.content place ++ (canvas.content.drop place).takeWhile (· ≠ '\n'))[
      (lineTextBefore canvas.content place).length]? = some canvas.content[place] := by
    rw [List.getElem?_append_right (Nat.le_refl _), Nat.sub_self, ← List.getElem_cons_drop below,
      List.takeWhile_cons_of_pos (by simpa using printed)]
    rfl
  have before : (lineTextBefore canvas.content place ++ (canvas.content.drop place).takeWhile (· ≠ '\n')).take
      (lineTextBefore canvas.content place).length = lineTextBefore canvas.content place := List.take_left
  have inLine (formatAt : Nat → Format) := @spread_unit formatAt 0 _ _ _ onLine _ within
  rw [before] at inLine
  unfold unitFormat?
  rw [show canvas.repaint.content = canvas.content from rfl, lines_repaint, lineTexts_at (Nat.le_of_lt below),
    Option.map_some, Option.bind_some, paintLine_eq_spread, inLine, Nat.zero_add]

/-- What setting known spans makes of a canvas: it is painted with the strokes of each span in turn. -/
def Canvas.painted (canvas : Canvas) (registry : Registry) (spans : List Span) : Canvas :=
  repaint { canvas with
    strokes := spans.flatMap fun span =>
      spanStrokes (lineStarts canvas.content) span (registry.formatOf span.style) }

theorem Canvas.setSpans_of_known (canvas : Canvas) {registry : Registry} {spans : List Span}
    (known : ∀ span ∈ spans, registry.contains span.style = true) :
    ∃ registry', canvas.setSpans registry spans = (canvas.painted registry spans, registry', .ok ()) := by
  obtain ⟨registry', collected⟩ := collectStrokes_of_known known (lineStarts canvas.content)
  exact ⟨registry', by rw [setSpans, collected]; rfl⟩

theorem Canvas.unitFormat?_painted {canvas : Canvas} {place : Nat} {char : Char}
    (found : canvas.content[place]? = some char) (printed : char ≠ '\n') {unit : Nat} (within : unit < units16 char)
    (registry : Registry) (spans : List Span) :
    (canvas.painted registry spans).unitFormat? place unit = some (mergedFormat registry spans place) := by
  have below := (List.getElem?_eq_some_iff.mp found).1
  refine (unitFormat?_repaint (by exact found) printed within).trans ?_
  dsimp only
  rw [strokes_at (Nat.le_of_lt below), mergedFormat]

/-- Whatever was painted before, setting known spans leaves on every unit of every character just the formats of the
spans over the character, merged in the order of the spans. -/
theorem Canvas.setSpans_paints (canvas : Canvas) (registry : Registry) (spans : List Span)
    (known : ∀ span ∈ spans, registry.contains span.style = true) :
    ∃ painted registry', canvas.setSpans registry spans = (painted, registry', .ok ()) ∧
      painted.content = canvas.content ∧
      painted.lines.map List.length = (lineTexts canvas.content).map unitLength ∧
      ∀ place char, canvas.content[place]? = some char → char ≠ '\n' → ∀ unit < units16 char,
        painted.unitFormat? place unit = some (mergedFormat registry spans place) := by
  obtain ⟨registry', set⟩ := canvas.setSpans_of_known known
  refine ⟨canvas.painted registry spans, registry', set, rfl, length_lines_repaint _, ?_⟩
  exact fun place char found printed unit within => unitFormat?_painted found printed within registry spans

/-- Both units of a character get the formats of the two spans over it, one of which goes on behind a newline. -/
theorem Canvas.setSpans_paints_crossing :
    ∃ painted registry',
      (Canvas.blank ['a', '😀', '\n', 'b']).setSpans
          { permanent := [("ink", .ink "#ff0000"), ("paper", .paper "#00ff00")] }
          [⟨0, 2, "ink", none⟩, ⟨1, 4, "paper", none⟩] = (painted, registry', .ok ()) ∧
        ∀ unit < 2, painted.unitFormat? 1 unit =
          some { foreground := some "#ff0000", background := some "#00ff00" } := by
  obtain ⟨painted, registry', set, _, _, units⟩ := Canvas.setSpans_paints (Canvas.blank ['a', '😀', '\n', 'b'])
    { permanent := [("ink", .ink "#ff0000"), ("paper", .paper "#00ff00")] }
    [⟨0, 2, "ink", none⟩, ⟨1, 4, "paper", none⟩] (by decide)
  exact ⟨painted, registry', set, fun unit within => units 1 '😀' rfl (by decide) unit within⟩

end Marginalia
