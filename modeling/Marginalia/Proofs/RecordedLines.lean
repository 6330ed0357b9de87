import Marginalia.Overlay.Annotator
import Marginalia.Proofs.LineNumbers
import Mathlib.Data.List.Basic

namespace Marginalia

/-- A line with something on it, and its record. -/
structure RecordedLine where
  line : Nat
  start : Nat
  stop : Nat
  record : Record
deriving DecidableEq, Repr

/-- A line stands in a content over just the characters that are on it, and an attribution has its record. -/
structure RecordedLine.Stands (recorded : RecordedLine) (attribution : Attribution) (content : Content) : Prop where
  found : attribution.lookup? recorded.line = some recorded.record
  nonempty : recorded.start < recorded.stop
  covers : ∀ place, recorded.start ≤ place ∧ place < recorded.stop ↔
    ∃ char, content[place]? = some char ∧ char ≠ '\n' ∧ lineAt content place = recorded.line

/-- The lines of a content that are not empty and have a record, from the first one to the last one. -/
def Attribution.recordedLines (attribution : Attribution) (content : Content) : List RecordedLine :=
  (lineRanges content).zipIdx.filterMap fun ((start, stop), line) =>
    if start < stop then (attribution.lookup? line).map fun record => ⟨line, start, stop, record⟩ else none

def RecordedLine.span (recorded : RecordedLine) (style : String) : Span :=
  { start := recorded.start, stop := recorded.stop, style := style
    note := some (.blame recorded.line recorded.record.identifier) }

/-- The span of a line in the style of its age. -/
def BlameAnnotator.ageSpan (annotator : BlameAnnotator) (recorded : RecordedLine) : Span :=
  recorded.span (Age.of recorded.record.time annotator.now).style

/-- The span of a line in the style of its author. -/
def BlameAnnotator.authorSpan (annotator : BlameAnnotator) (recorded : RecordedLine) : Span :=
  recorded.span (annotator.authorStyle recorded.record.author)

/-- The spans of a line in a mode. -/
def BlameMode.spans (annotator : BlameAnnotator) (recorded : RecordedLine) : BlameMode → List Span
  | .age => [annotator.ageSpan recorded]
  | .author => [annotator.authorSpan recorded]
  | .both => [annotator.ageSpan recorded, annotator.authorSpan recorded]
  | .off => []

def IsAgeStyle (name : String) : Prop :=
  ∃ age : Age, name = age.style

instance (name : String) : Decidable (IsAgeStyle name) :=
  decidable_of_iff (name ∈ [Age.ancient, .old, .medium, .recent, .fresh, .new].map Age.style) <| by
    rw [List.mem_map]
    constructor
    · rintro ⟨age, _, rfl⟩
      exact ⟨age, rfl⟩
    · rintro ⟨age, rfl⟩
      exact ⟨age, by cases age <;> decide, rfl⟩

variable {content : Content} {place line start stop : Nat} {attribution : Attribution} {recorded : RecordedLine}

/-- There is no newline on a line. -/
theorem LineGoes.ne_newline (goes : LineGoes content line start stop) (behind : start ≤ place) (inFront : place < stop) :
    ∃ char, content[place]? = some char ∧ char ≠ '\n' := by
  have below : place < content.length := inFront.trans_le (stop_le_of_mem_lineRanges (List.mem_of_getElem? goes))
  refine ⟨content[place], List.getElem?_eq_getElem below, fun newline => ?_⟩
  -- behind a newline there would be the next line, but this line goes on
  have here := goes.lineAt_eq behind inFront.le
  have next : lineAt content (place + 1) = line := goes.lineAt_eq (Nat.le_succ_of_le behind) inFront
  have counted : lineAt content (place + 1) = lineAt content place + 1 := by
    rw [lineAt, lineAt, List.take_add_one, List.getElem?_eq_getElem below, newline, List.count_append]
    rfl
  omega

/-- A line covers just the characters between its newlines. -/
theorem LineGoes.covers_iff (goes : LineGoes content line start stop) :
    start ≤ place ∧ place < stop ↔ ∃ char, content[place]? = some char ∧ char ≠ '\n' ∧ lineAt content place = line := by
  constructor
  · rintro ⟨behind, inFront⟩
    obtain ⟨char, found, printed⟩ := goes.ne_newline behind inFront
    exact ⟨char, found, printed, goes.lineAt_eq behind inFront.le⟩
  · rintro ⟨char, found, printed, rfl⟩
    obtain ⟨below, rfl⟩ := List.getElem?_eq_some_iff.mp found
    obtain ⟨first, goesHere, before⟩ := lineRanges_at below.le
    obtain ⟨rfl, rfl⟩ := Prod.mk.inj (Option.some.inj (goes.symm.trans goesHere))
    rw [lineLength, ← List.getElem_cons_drop below, List.takeWhile_cons_of_pos (by simpa using printed), List.length_cons]
    omega

theorem exists_lineGoes {char : Char} (found : content[place]? = some char) :
    ∃ start stop, LineGoes content (lineAt content place) start stop := by
  obtain ⟨below, _⟩ := List.getElem?_eq_some_iff.mp found
  obtain ⟨start, goes, _⟩ := lineRanges_at below.le
  exact ⟨start, _, goes⟩

/-- Extents with the same places are the same, if there is a place. -/
theorem extent_eq {first last : Nat} (nonempty : start < stop)
    (same : ∀ place, start ≤ place ∧ place < stop ↔ first ≤ place ∧ place < last) : first = start ∧ last = stop := by
  have atStart := same start
  have atStop := same (stop - 1)
  have atFirst := same first
  have atLast := same (last - 1)
  omega

theorem Attribution.mem_recordedLines_iff :
    recorded ∈ attribution.recordedLines content ↔ recorded.Stands attribution content := by
  unfold recordedLines
  rw [List.mem_filterMap]
  constructor
  · rintro ⟨⟨⟨start, stop⟩, line⟩, member, taken⟩
    have goes : LineGoes content line start stop := List.mk_mem_zipIdx_iff_getElem?.mp member
    obtain ⟨nonempty, taken⟩ := Option.ite_none_right_eq_some.mp taken
    obtain ⟨record, found, rfl⟩ := Option.map_eq_some_iff.mp taken
    exact ⟨found, nonempty, fun place => goes.covers_iff⟩
  · rintro ⟨found, nonempty, covers⟩
    obtain ⟨char, atStart, _, sameLine⟩ := (covers recorded.start).mp ⟨le_rfl, nonempty⟩
    obtain ⟨start, stop, goes⟩ := exists_lineGoes atStart
    rw [sameLine] at goes
    obtain ⟨rfl, rfl⟩ := extent_eq nonempty fun place => (covers place).trans goes.covers_iff.symm
    refine ⟨((recorded.start, recorded.stop), recorded.line), List.mk_mem_zipIdx_iff_getElem?.mpr goes, ?_⟩
    dsimp only
    rw [if_pos nonempty, found]
    rfl

theorem Attribution.increasing_recordedLines (attribution : Attribution) (content : Content) :
    (attribution.recordedLines content).Pairwise fun first second => first.line < second.line := by
  have numbers : (lineRanges content).zipIdx.Pairwise fun first second => first.2 < second.2 := by
    rw [← List.pairwise_map, List.zipIdx_map_snd]
    exact List.pairwise_lt_range'
  refine numbers.filterMap _ fun left right order first atFirst second atSecond => ?_
  obtain ⟨_, taken⟩ := Option.ite_none_right_eq_some.mp atFirst
  obtain ⟨_, _, rfl⟩ := Option.map_eq_some_iff.mp taken
  obtain ⟨_, taken⟩ := Option.ite_none_right_eq_some.mp atSecond
  obtain ⟨_, _, rfl⟩ := Option.map_eq_some_iff.mp taken
  exact order

/-- The annotator gives the spans of its mode for each recorded line in turn. -/
theorem BlameAnnotator.annotate_eq (annotator : BlameAnnotator) {source : Source}
    (allowed : source.filetype ∈ annotator.filetypes) :
    annotator.annotate source =
      (annotator.attribution.recordedLines source.content).flatMap (annotator.mode.spans annotator) := by
  unfold annotate Attribution.recordedLines
  rw [List.filterMap_eq_flatMap_toList, List.flatMap_assoc]
  by_cases silent : annotator.mode = .off
  · rw [if_pos (Or.inl silent), silent]
    simp [BlameMode.spans]
  · rw [if_neg (not_or.mpr ⟨silent, not_not.mpr allowed⟩)]
    refine List.flatMap_congr fun ⟨⟨start, stop⟩, line⟩ _ => ?_
    dsimp only
    unfold lineSpans
    split
    · cases annotator.attribution.lookup? line with
      | none => rfl
      | some record => cases annotator.mode <;> rfl
    · rfl

/-- Of items in pairs the even places have the first ones and the odd places have the second ones. -/
theorem getElem?_flatMap_pair {α β : Type} (first second : α → β) (items : List α) (index : Nat) :
    (items.flatMap fun item => [first item, second item])[2 * index]? = (items.map first)[index]? ∧
      (items.flatMap fun item => [first item, second item])[2 * index + 1]? = (items.map second)[index]? := by
  induction items generalizing index with
  | nil => exact ⟨rfl, rfl⟩
  | cons item rest ih =>
    cases index with
    | zero => exact ⟨rfl, rfl⟩
    | succ index => exact ih index

/-- In the modes of ages and of authors each recorded line has a span over its characters, in the style of its age or of
its author; in the mode of both it has one after the other, so what is left without the ones is what the mode of the
others gives. Nothing else is annotated, and nothing at all when the annotator is off or not made for the filetype. -/
theorem BlameAnnotator.annotate_lines (annotator : BlameAnnotator) (source : Source) :
    let inMode (mode : BlameMode) : List Span := { annotator with mode := mode }.annotate source
    inMode .off = [] ∧
    (source.filetype ∉ annotator.filetypes → ∀ mode, inMode mode = []) ∧
    (source.filetype ∈ annotator.filetypes → ∃ lines : List RecordedLine,
      (lines.Pairwise fun first second => first.line < second.line) ∧
      (∀ recorded, recorded ∈ lines ↔ recorded.Stands annotator.attribution source.content) ∧
      inMode .age = lines.map annotator.ageSpan ∧
      inMode .author = lines.map annotator.authorSpan ∧
      inMode .both = lines.flatMap (fun recorded => [annotator.ageSpan recorded, annotator.authorSpan recorded]) ∧
      (∀ index, (inMode .both)[2 * index]? = (inMode .age)[index]? ∧
        (inMode .both)[2 * index + 1]? = (inMode .author)[index]?) ∧
      ((∀ span ∈ inMode .author, ¬IsAgeStyle span.style) →
        (inMode .both).filter (IsAgeStyle ·.style) = inMode .age ∧
        (inMode .both).filter (¬IsAgeStyle ·.style) = inMode .author)) := by
  intro inMode
  refine ⟨if_pos (Or.inl rfl), fun foreign mode => if_pos (Or.inr foreign), fun allowed => ?_⟩
  have shown (mode : BlameMode) : inMode mode =
      (annotator.attribution.recordedLines source.content).flatMap (mode.spans annotator) :=
    BlameAnnotator.annotate_eq { annotator with mode := mode } allowed
  have age : inMode .age = (annotator.attribution.recordedLines source.content).map annotator.ageSpan :=
    (shown .age).trans List.map_eq_flatMap.symm
  have author : inMode .author = (annotator.attribution.recordedLines source.content).map annotator.authorSpan :=
    (shown .author).trans List.map_eq_flatMap.symm
  refine ⟨_, annotator.attribution.increasing_recordedLines source.content,
    fun recorded => Attribution.mem_recordedLines_iff, age, author, shown .both, fun index => ?_, fun apart => ?_⟩
  · rw [shown .both, age, author]
    exact getElem?_flatMap_pair annotator.ageSpan annotator.authorSpan _ index
  · have isAge (recorded : RecordedLine) : IsAgeStyle (annotator.ageSpan recorded).style := ⟨_, rfl⟩
    rw [author, List.forall_mem_map] at apart
    rw [shown .both, age, author, List.filter_flatMap, List.filter_flatMap, List.map_eq_flatMap, List.map_eq_flatMap]
    exact ⟨List.flatMap_congr fun recorded member => by simp [BlameMode.spans, isAge, apart recorded member],
      List.flatMap_congr fun recorded member => by simp [BlameMode.spans, isAge, apart recorded member]⟩

/-- Of five lines, the fourth one is empty, the third one has no record, the last one has no newline, and its record goes
on behind it. -/
def gappedLines : Source :=
  { content := "if a:\n    b\nc\n\nd".toList, filetype := "python" }

def gappedAnnotator : BlameAnnotator where
  attribution := { records := [⟨0, 2, "ada", ⟨0⟩, "1", ""⟩, ⟨3, 9, "bob", ⟨86400000000⟩, "2", ""⟩] }
  now := ⟨864000000000⟩
  authorIds := [("ada", "blame.author.ada")]

theorem BlameAnnotator.annotate_lines_gaps : gappedLines.filetype ∈ gappedAnnotator.filetypes ∧
    (∀ span ∈ { gappedAnnotator with mode := .author }.annotate gappedLines, ¬IsAgeStyle span.style) ∧
    ∃ lines : List RecordedLine,
      lines.map gappedAnnotator.ageSpan =
        [⟨0, 5, "blame.fresh", some (.blame 0 "1")⟩, ⟨6, 11, "blame.fresh", some (.blame 1 "1")⟩,
          ⟨15, 16, "blame.fresh", some (.blame 4 "2")⟩] ∧
      lines.map gappedAnnotator.authorSpan =
        [⟨0, 5, "blame.author.ada", some (.blame 0 "1")⟩, ⟨6, 11, "blame.author.ada", some (.blame 1 "1")⟩,
          ⟨15, 16, "blame.author.unknown", some (.blame 4 "2")⟩] ∧
      ({ gappedAnnotator with mode := .both }.annotate gappedLines).filter (IsAgeStyle ·.style) =
        lines.map gappedAnnotator.ageSpan := by
  have allowed : gappedLines.filetype ∈ gappedAnnotator.filetypes := by decide
  have apart : ∀ span ∈ { gappedAnnotator with mode := .author }.annotate gappedLines, ¬IsAgeStyle span.style := by
    decide +kernel
  obtain ⟨lines, _, _, age, author, _, _, dropped⟩ :=
    (BlameAnnotator.annotate_lines gappedAnnotator gappedLines).2.2 allowed
  exact ⟨allowed, apart, lines, age.symm.trans (by decide +kernel), author.symm.trans (by decide +kernel),
    (dropped apart).1.trans age⟩

end Marginalia
