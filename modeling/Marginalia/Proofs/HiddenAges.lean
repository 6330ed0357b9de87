import Marginalia.Proofs.CurrentMatches
import Marginalia.Proofs.PaintedAuthors
import Marginalia.Proofs.RedatedRecords

namespace Marginalia

/-- A session that shows just the authors of lines. -/
def Session.authorsOnly (session : Session) : Session :=
  { session with blame := { session.blame with mode := .author } }

/-- Spans that can be painted and look alike on every canvas: each unit of each character gets the same format. -/
def Registry.PaintsAlike (registry : Registry) (left right : List Span) : Prop :=
  ∀ canvas : Canvas, ∃ painted repainted afterLeft afterRight,
    canvas.setSpans registry left = (painted, afterLeft, .ok ()) ∧
    canvas.setSpans registry right = (repainted, afterRight, .ok ()) ∧
    ∀ place char, canvas.content[place]? = some char → char ≠ '\n' → ∀ unit < units16 char,
      painted.unitFormat? place unit = repainted.unitFormat? place unit

/-- The recorded lines that an annotator shows, if it is on. -/
def BlameAnnotator.lines (annotator : BlameAnnotator) (source : Source) : List RecordedLine :=
  if annotator.enabled = true ∧ source.filetype ∈ annotator.filetypes then
    annotator.attribution.recordedLines source.content
  else []

/-- The families that are drawn over the blame tints. -/
def Family.overBlame : List Family :=
  [.bracket, .color, .lint, .search]

/-- What a span makes of the format at a place. -/
def Registry.lay (registry : Registry) (place : Nat) (format : Format) (span : Span) : Format :=
  if span.Covers place then format.merge (registry.formatOf span.style) else format

variable {session : Session} {registry : Registry} {source : Source} {sheet : Sheet} {config : SessionConfig}
  {spans left right front behind : List Span} {place : Nat} {uses : List Use} {upper lower : Style}

/-- A tint hides the one below it. -/
theorem Style.IsTint.hides (isTint : upper.IsTint) (under : lower.IsTint) (format : Format) :
    (format.merge lower.format).merge upper.format = format.merge upper.format := by
  obtain ⟨color, colored, rfl⟩ := isTint
  obtain ⟨other, _, rfl⟩ := under
  have set : setColor (some color) = some color := Option.filter_eq_some_iff.mpr ⟨rfl, by simpa using colored⟩
  have unset : setColor none = none := rfl
  simp [Format.merge, Style.format, Style.paper, set, unset]

theorem mergedFormat_eq_foldl (registry : Registry) (spans : List Span) (place : Nat) :
    mergedFormat registry spans place = spans.foldl (registry.lay place) {} := by
  rw [mergedFormat, List.foldl_map, List.foldl_filter]
  simp only [decide_eq_true_eq]
  rfl

/-- Where spans come in pairs over the same places, of which the second one hides the first one, the first ones are not
seen. -/
theorem mergedFormat_pairs {lines : List RecordedLine} {lower upper : RecordedLine → Span}
    (together : ∀ recorded ∈ lines, (lower recorded).Covers place ↔ (upper recorded).Covers place)
    (hides : ∀ recorded ∈ lines, ∀ format : Format,
      (format.merge (registry.formatOf (lower recorded).style)).merge (registry.formatOf (upper recorded).style) =
        format.merge (registry.formatOf (upper recorded).style)) (front behind : List Span) :
    mergedFormat registry (front ++ lines.flatMap (fun recorded => [lower recorded, upper recorded]) ++ behind) place =
      mergedFormat registry (front ++ lines.map upper ++ behind) place := by
  have pairs (format : Format) :
      (lines.flatMap fun recorded => [lower recorded, upper recorded]).foldl (registry.lay place) format =
        (lines.map upper).foldl (registry.lay place) format := by
    rw [List.foldl_flatMap, List.foldl_map]
    refine List.foldl_ext _ _ _ fun format recorded member => ?_
    rw [List.foldl_cons, List.foldl_cons, List.foldl_nil, Registry.lay, Registry.lay, Registry.lay]
    by_cases covers : (upper recorded).Covers place
    · rw [if_pos covers, if_pos covers, if_pos ((together recorded member).mpr covers), hides recorded member]
    · rw [if_neg covers, if_neg covers, if_neg (mt (together recorded member).mp covers)]
  simp only [mergedFormat_eq_foldl, List.foldl_append, pairs]

theorem Registry.paintsAlike_of_mergedFormat (known : ∀ span ∈ left, registry.contains span.style = true)
    (alsoKnown : ∀ span ∈ right, registry.contains span.style = true)
    (same : ∀ place, mergedFormat registry left place = mergedFormat registry right place) :
    registry.PaintsAlike left right := by
  intro canvas
  obtain ⟨afterLeft, setLeft⟩ := canvas.setSpans_of_known known
  obtain ⟨afterRight, setRight⟩ := canvas.setSpans_of_known alsoKnown
  refine ⟨_, _, afterLeft, afterRight, setLeft, setRight, fun place char found printed unit within => ?_⟩
  rw [Canvas.unitFormat?_painted found printed within, Canvas.unitFormat?_painted found printed within, same]

theorem BlameAnnotator.spans_eq (annotator : BlameAnnotator) (source : Source) :
    (Annotator.blame annotator).spans source =
      (annotator.lines source).flatMap (annotator.mode.spans annotator) := by
  unfold lines
  cases enabled : annotator.enabled with
  | false =>
    have off : (Annotator.blame annotator).enabled = false := enabled
    rw [Annotator.spans_of_disabled off]
    rfl
  | true =>
    have on : (Annotator.blame annotator).enabled = true := enabled
    rw [Annotator.spans_of_enabled on rfl]
    by_cases allowed : source.filetype ∈ annotator.filetypes
    · rw [if_pos ⟨rfl, allowed⟩, annotator.annotate_eq allowed]
    · rw [if_neg (fun both => allowed both.2)]
      exact if_pos (Or.inr allowed)

theorem Session.annotators_eq (session : Session) :
    session.annotators = .blame session.blame :: Family.overBlame.map session.annotator :=
  rfl

/-- What is drawn around the spans of the blame annotator does not depend on it. -/
theorem Session.Standard.exists_around (standard : session.Standard) (drawn : (session.highlight none).2 = .ok spans) :
    ∃ front behind, spans = front ++ (Annotator.blame session.blame).spans session.source ++ behind ∧
      (∀ span ∈ (Annotator.blame session.blame).spans session.source,
        span.Passes session.registry session.source) ∧
      ∀ annotator : BlameAnnotator,
        (∀ span ∈ (Annotator.blame annotator).spans session.source, span.Passes session.registry session.source) →
        (Session.highlight { session with blame := annotator } none).2 =
          .ok (front ++ (Annotator.blame annotator).spans session.source ++ behind) := by
  have added : ∀ annotator ∈ session.annotators,
      annotator.added session.source = .ok (annotator.spans session.source) := by
    intro annotator member
    obtain ⟨family, _, rfl⟩ := List.mem_map.mp member
    exact ((standard family).added session.source).1
  rw [Session.highlight_none] at drawn
  obtain ⟨rfl, passes⟩ := compose_eq_ok added drawn
  rw [session.annotators_eq, List.flatMap_cons] at passes ⊢
  rw [session.annotators_eq, List.forall_mem_cons] at added
  refine ⟨session.baseSpans.2, (Family.overBlame.map session.annotator).flatMap (Annotator.spans session.source),
    (List.append_assoc ..).symm, fun span member => passes span (List.mem_append_left _ member),
    fun annotator passesToo => ?_⟩
  have base : (Session.baseSpans { session with blame := annotator }).2 = session.baseSpans.2 :=
    Session.baseSpans_congr rfl rfl rfl
  have addedToo : (Annotator.blame annotator).added session.source =
      .ok ((Annotator.blame annotator).spans session.source) := Annotator.added_eq fun _ => rfl
  have changed : Session.annotators { session with blame := annotator } =
      .blame annotator :: Family.overBlame.map session.annotator := rfl
  rw [Session.highlight_none, base, changed, List.append_assoc]
  refine compose_eq (List.forall_mem_cons.mpr ⟨addedToo, added.2⟩) (List.forall_mem_cons.mpr ⟨passesToo, ?_⟩) _
  intro other member span inSpans
  exact passes span (List.mem_append_right _ (List.mem_flatMap.mpr ⟨other, member, inSpans⟩))

/-- The spans of lines in the mode of both, with the ages that they have at some times. -/
def BlameAnnotator.datedSpans (annotator : BlameAnnotator) (times : Record → Moment) (recorded : RecordedLine) :
    List Span :=
  [annotator.ageSpan (recorded.redated times), annotator.authorSpan recorded]

theorem BlameAnnotator.spans_redated (annotator : BlameAnnotator) (both : annotator.mode = .both)
    (times : Record → Moment) (source : Source) :
    (Annotator.blame { annotator with attribution := annotator.attribution.redated times }).spans source =
      (annotator.lines source).flatMap (annotator.datedSpans times) := by
  have lines : BlameAnnotator.lines { annotator with attribution := annotator.attribution.redated times } source =
      (annotator.lines source).map (RecordedLine.redated times) := by
    unfold BlameAnnotator.lines
    dsimp only
    rw [Attribution.recordedLines_redated]
    split <;> rfl
  rw [spans_eq, lines, both, List.flatMap_map]
  rfl

theorem BlameAnnotator.spans_of_both (annotator : BlameAnnotator) (both : annotator.mode = .both) (source : Source) :
    (Annotator.blame annotator).spans source =
      (annotator.lines source).flatMap (annotator.datedSpans (·.time)) := by
  rw [spans_eq, both]
  rfl

theorem BlameAnnotator.authorSpan_mem_spans {annotator : BlameAnnotator} (both : annotator.mode = .both)
    {recorded : RecordedLine} (member : recorded ∈ annotator.lines source) :
    annotator.authorSpan recorded ∈ (Annotator.blame annotator).spans source := by
  rw [annotator.spans_of_both both]
  exact List.mem_flatMap.mpr ⟨recorded, member, List.mem_cons_of_mem _ (List.mem_singleton.mpr rfl)⟩

theorem BlameAnnotator.spans_authorsOnly (annotator : BlameAnnotator) (source : Source) :
    (Annotator.blame { annotator with mode := .author }).spans source =
      (annotator.lines source).map annotator.authorSpan := by
  rw [spans_eq, List.map_eq_flatMap]
  rfl

theorem Session.Painted.hides {given : List (List Record)} (painted : session.Painted sheet config given)
    (some : config.tints ≠ []) (colored : "" ∉ config.tints) {lowest highest : Span} (owned : Family.blame.Owns lowest.style)
    (known : session.registry.contains lowest.style = true) (ownedToo : Family.blame.Owns highest.style)
    (knownToo : session.registry.contains highest.style = true) (format : Format) :
    (format.merge (session.registry.formatOf lowest.style)).merge (session.registry.formatOf highest.style) =
      format.merge (session.registry.formatOf highest.style) := by
  obtain ⟨lower, lowerTint, lowerFormat⟩ := painted.formatOf_blame some colored owned known
  obtain ⟨upper, upperTint, upperFormat⟩ := painted.formatOf_blame some colored ownedToo knownToo
  rw [lowerFormat, upperFormat]
  exact upperTint.hides lowerTint format

/-- Whatever ages the lines have, their authors hide them. -/
theorem Session.Painted.mergedFormat_dated {given : List (List Record)}
    (painted : session.Painted sheet config given) (some : config.tints ≠ []) (colored : "" ∉ config.tints)
    {lines : List RecordedLine} (owned : ∀ recorded ∈ lines, Family.blame.Owns (session.blame.authorSpan recorded).style)
    (known : ∀ recorded ∈ lines, session.registry.contains (session.blame.authorSpan recorded).style = true)
    (agesKnown : ∀ age : Age, session.registry.contains age.style = true) (times : Record → Moment)
    (front behind : List Span) (place : Nat) :
    mergedFormat session.registry (front ++ lines.flatMap (session.blame.datedSpans times) ++ behind) place =
      mergedFormat session.registry (front ++ lines.map session.blame.authorSpan ++ behind) place := by
  have together : ∀ recorded ∈ lines, (session.blame.ageSpan (recorded.redated times)).Covers place ↔
      (session.blame.authorSpan recorded).Covers place := fun recorded _ => Iff.rfl
  refine mergedFormat_pairs together (fun recorded member => ?_) front behind
  exact painted.hides some colored (defines_ageStyle _).owned (agesKnown _) (owned recorded member)
    (known recorded member)

/-- However a viewer with a shipped sheet and with colors for all authors was used and painted: in the mode of both, what
is drawn is painted as if only the authors were shown, and as if the records had any other times, as they have when they
are set anew. -/
theorem Desk.hiddenAges_run {config : SessionConfig} (shipped : config.styles = sheet.styles)
    (some : config.tints ≠ []) (colored : "" ∉ config.tints) (built : Session.ofConfig config = .ok session)
    (paints : Desk.PaintsOnly { session := session } uses) :
    let viewer := (Desk.run { session := session } uses).session
    (FingerprintsApart (usedContents uses) → ∃ spans, (viewer.highlight none).2 = .ok spans) ∧
    (∀ records reply times, (viewer.step (.setAttribution records)).2 = .ok reply →
      (viewer.step (.setAttribution (records.map (Record.redated times)))).1 =
        (viewer.step (.setAttribution records)).1.redated times) ∧
    (viewer.blame.mode = .both → ∀ spans, (viewer.highlight none).2 = .ok spans →
      (∃ plain, (viewer.authorsOnly.highlight none).2 = .ok plain ∧ viewer.registry.PaintsAlike spans plain) ∧
      ∀ times, ∃ others, ((viewer.redated times).highlight none).2 = .ok others ∧
        viewer.registry.PaintsAlike spans others) := by
  intro viewer
  obtain ⟨stocked, _, coherent⟩ := Desk.stocked_run shipped built paints
  have painted := Desk.painted_run built shipped paints
  have standard : (Desk.run { session := session } uses).Standard := Desk.standard_run built uses
  refine ⟨fun apart => ⟨_, (coherent apart).session.highlight apart⟩,
    fun records reply times answered => Session.setAttribution_redated answered times, fun both spans drawn => ?_⟩
  have known := standard.known stocked drawn
  have agesKnown (age : Age) : viewer.registry.contains age.style = true :=
    stocked.contains_of_isSheetId (defines_ageStyle age).isSheetId
  obtain ⟨front, behind, rfl, passes, draws⟩ := standard.annotators.exists_around drawn
  have owned := ((standard.annotators .blame).added viewer.source).2
  have inSpans (recorded : RecordedLine) (member : recorded ∈ viewer.blame.lines viewer.source) :=
    BlameAnnotator.authorSpan_mem_spans both member
  have hidden := painted.mergedFormat_dated some colored (fun recorded member => owned _ (inSpans recorded member))
    (fun recorded member => (passes _ (inSpans recorded member)).1) agesKnown
  have around {added : List Span} (pass : ∀ span ∈ added, span.Passes viewer.registry viewer.source) :
      ∀ span ∈ front ++ added ++ behind, viewer.registry.contains span.style = true := by
    simp only [List.forall_mem_append] at known ⊢
    exact ⟨⟨known.1.1, fun span member => (pass span member).1⟩, known.2⟩
  rw [viewer.blame.spans_of_both both] at known ⊢
  constructor
  · have pass : ∀ span ∈ (Annotator.blame { viewer.blame with mode := .author }).spans viewer.source,
        span.Passes viewer.registry viewer.source := by
      rw [BlameAnnotator.spans_authorsOnly, List.forall_mem_map]
      exact fun recorded member => passes _ (inSpans recorded member)
    refine ⟨_, draws _ pass, Registry.paintsAlike_of_mergedFormat known (around pass) fun place => ?_⟩
    rw [BlameAnnotator.spans_authorsOnly, hidden]
  · intro times
    have pass : ∀ span ∈ (Annotator.blame { viewer.blame with
        attribution := viewer.blame.attribution.redated times }).spans viewer.source,
        span.Passes viewer.registry viewer.source := by
      rw [BlameAnnotator.spans_redated _ both, List.forall_mem_flatMap]
      intro recorded member
      have author := passes _ (inSpans recorded member)
      simp only [BlameAnnotator.datedSpans, List.forall_mem_cons]
      exact ⟨⟨agesKnown _, author.2⟩, author, nofun⟩
    refine ⟨_, draws _ pass, Registry.paintsAlike_of_mergedFormat known (around pass) fun place => ?_⟩
    rw [BlameAnnotator.spans_redated _ both, hidden, hidden]

def twoYearsAgo : Moment :=
  ⟨-63072000000000⟩

/-- The only line has an author and a time, and both are shown. -/
def datedUses (time : Moment) : List Use :=
  [.event (.setContent "x".toList (some "go")),
    .event (.setAttribution [{ start := 0, stop := 1, author := "alice", time := time }]), .event .cycleBlameMode,
    .event .cycleBlameMode]

theorem Desk.hiddenAges_run_dated : ∃ session, Session.ofConfig { clock := ⟨0⟩ } = .ok session ∧
    let viewer := (Desk.run { session := session } (datedUses ⟨0⟩)).session
    viewer.blame.mode = .both ∧ ∃ spans plain others, (viewer.highlight none).2 = .ok spans ∧
      (viewer.authorsOnly.highlight none).2 = .ok plain ∧ viewer.registry.PaintsAlike spans plain ∧
      ((viewer.redated fun _ => twoYearsAgo).highlight none).2 = .ok others ∧
      viewer.registry.PaintsAlike spans others := by
  have shipped : SessionConfig.styles { clock := ⟨0⟩ } = Sheet.githubDark.styles := rfl
  have apart : FingerprintsApart (usedContents (datedUses ⟨0⟩)) := by
    unfold FingerprintsApart
    decide +kernel
  have seen : ((Session.ofConfig { clock := ⟨0⟩ }).toOption.any fun session =>
      decide ((Desk.run { session := session } (datedUses ⟨0⟩)).session.blame.mode = .both)) = true := by
    decide +kernel
  obtain ⟨session, built, shown⟩ := Session.exists_of_any seen
  have both := of_decide_eq_true shown
  have paints : Desk.PaintsOnly { session := session } (datedUses ⟨0⟩) := ⟨nofun, nofun, nofun, nofun, trivial⟩
  obtain ⟨drawing, _, hidden⟩ := Desk.hiddenAges_run shipped (by decide) (by decide) built paints
  obtain ⟨spans, drawn⟩ := drawing apart
  obtain ⟨⟨plain, drawnPlain, likeAuthors⟩, ages⟩ := hidden both spans drawn
  obtain ⟨others, drawnOthers, likeOthers⟩ := ages fun _ => twoYearsAgo
  exact ⟨session, built, both, spans, plain, others, drawn, drawnPlain, likeAuthors, drawnOthers, likeOthers⟩

/-- The line was changed now, or two years ago, but both ages are painted alike. -/
theorem Desk.hiddenAges_run_masked : ∃ session, Session.ofConfig { clock := ⟨0⟩ } = .ok session ∧
    let fresh := (Desk.run { session := session } (datedUses ⟨0⟩)).session
    let aged := (Desk.run { session := session } (datedUses twoYearsAgo)).session
    aged = fresh.redated (fun _ => twoYearsAgo) ∧ fresh.blame.mode = .both ∧ fresh.blame.enabled = true ∧
    fresh.source.filetype ∈ fresh.blame.filetypes ∧ Age.of ⟨0⟩ fresh.blame.now ≠ Age.of twoYearsAgo aged.blame.now ∧
    (fresh.blame.attribution.recordedLines fresh.source.content).map (·.line) = [0] ∧
    ∃ spans others, (fresh.highlight none).2 = .ok spans ∧ (aged.highlight none).2 = .ok others ∧ spans ≠ others ∧
      ((Canvas.blank fresh.source.content).setSpans fresh.registry spans).1.lines =
        ((Canvas.blank aged.source.content).setSpans aged.registry others).1.lines ∧
      ((Canvas.blank fresh.source.content).setSpans fresh.registry spans).2.2 = .ok () ∧
      ((Canvas.blank aged.source.content).setSpans aged.registry others).2.2 = .ok () := by
  have seen : ((Session.ofConfig { clock := ⟨0⟩ }).toOption.any fun session =>
      let fresh := (Desk.run { session := session } (datedUses ⟨0⟩)).session
      let aged := (Desk.run { session := session } (datedUses twoYearsAgo)).session
      decide (aged = fresh.redated (fun _ => twoYearsAgo) ∧ fresh.blame.mode = .both ∧ fresh.blame.enabled = true ∧
        fresh.source.filetype ∈ fresh.blame.filetypes ∧
        Age.of ⟨0⟩ fresh.blame.now ≠ Age.of twoYearsAgo aged.blame.now ∧
        (fresh.blame.attribution.recordedLines fresh.source.content).map (·.line) = [0]) &&
      (fresh.highlight none).2.toOption.any fun spans => (aged.highlight none).2.toOption.any fun others =>
        decide (spans ≠ others ∧
          ((Canvas.blank fresh.source.content).setSpans fresh.registry spans).1.lines =
            ((Canvas.blank aged.source.content).setSpans aged.registry others).1.lines ∧
          ((Canvas.blank fresh.source.content).setSpans fresh.registry spans).2.2 = .ok () ∧
          ((Canvas.blank aged.source.content).setSpans aged.registry others).2.2 = .ok ())) = true := by
    decide +kernel
  obtain ⟨session, built, shown⟩ := Session.exists_of_any seen
  obtain ⟨shown, drawn⟩ := Bool.and_eq_true_iff.mp shown
  obtain ⟨redated, both, enabled, allowed, different, lines⟩ := of_decide_eq_true shown
  obtain ⟨spans, drawn, drawnToo⟩ := exists_ok_of_any drawn
  obtain ⟨others, drawnToo, alike⟩ := exists_ok_of_any drawnToo
  exact ⟨session, built, redated, both, enabled, allowed, different, lines, spans, others, drawn, drawnToo,
    of_decide_eq_true alike⟩

end Marginalia
