import Marginalia.Proofs.BaseCache
import Marginalia.Proofs.SessionCoherence

namespace Marginalia

/-- A span that can be painted over a content with the styles of a registry. -/
def Span.Paintable (span : Span) (registry : Registry) (content : Content) : Prop :=
  span.LiesIn content ∧ registry.contains span.style = true

variable {contents : List Content} {session : Session}

theorem Session.Coherent.anchored (coherent : session.Coherent contents) : session.Anchored contents :=
  ⟨coherent.shown, coherent.version, coherent.cache⟩

theorem Session.Coherent.contains_of_isSheetId (coherent : session.Coherent contents) {name : String}
    (isSheetId : IsSheetId name) : session.registry.contains name = true :=
  Registry.contains_iff.mpr (Or.inl (coherent.sheet name (isSheetId .githubDark)))

theorem Session.Coherent.annotate (coherent : session.Coherent contents) (family : Family) :
    ∃ spans, (session.annotator family).annotate session.source = .ok spans ∧
      ∀ span ∈ spans, span.Paintable session.registry session.source.content := by
  cases family with
  | bracket =>
    refine ⟨_, rfl, fun span member => ?_⟩
    obtain ⟨lies, style⟩ := BracketAnnotator.mem_annotate member
    exact ⟨lies, coherent.contains_of_isSheetId style.isSheetId⟩
  | color =>
    refine ⟨_, rfl, fun span member => ?_⟩
    obtain ⟨lies, color, found, style⟩ := ColorAnnotator.mem_annotate member
    refine ⟨lies, Registry.contains_iff.mpr (Or.inr ?_)⟩
    rw [style, coherent.swatches]
    exact styleId_mem_swatchTable session.background found
  | blame =>
    refine ⟨_, rfl, fun span member => ?_⟩
    obtain ⟨lies, style | style⟩ := BlameAnnotator.mem_annotate member
    · exact ⟨lies, coherent.contains_of_isSheetId style.isSheetId⟩
    · exact ⟨lies, Registry.contains_iff.mpr (Or.inl (coherent.authors _ style))⟩
  | lint =>
    obtain ⟨spans, annotated, sound⟩ := LintAnnotator.annotate_ok coherent.keywords session.source
    exact ⟨spans, annotated, fun span member =>
      ⟨(sound span member).1, coherent.contains_of_isSheetId (sound span member).2.isSheetId⟩⟩
  | search =>
    obtain ⟨spans, annotated, sound⟩ := SearchAnnotator.annotate_ok coherent.found session.source
    exact ⟨spans, annotated, fun span member =>
      ⟨(sound span member).1, coherent.contains_of_isSheetId (sound span member).2.isSheetId⟩⟩

/-- No annotator of a coherent session fails, and all their spans can be painted. -/
theorem Session.Coherent.added (coherent : session.Coherent contents) {annotator : Annotator}
    (member : annotator ∈ session.annotators) :
    annotator.added session.source = .ok (annotator.spans session.source) ∧
      ∀ span ∈ annotator.spans session.source, span.Paintable session.registry session.source.content := by
  obtain ⟨family, _, rfl⟩ := List.mem_map.mp member
  obtain ⟨spans, annotated, paintable⟩ := coherent.annotate family
  unfold Annotator.spans Annotator.added
  split
  · rw [annotated]
    exact ⟨rfl, paintable⟩
  · exact ⟨rfl, fun span none => absurd none List.not_mem_nil⟩

/-- Drawing a coherent session gives the base spans and then the spans of its annotators. -/
theorem Session.Coherent.highlight (coherent : session.Coherent contents) (apart : FingerprintsApart contents) :
    (session.highlight none).2 = .ok (tokenize session.source.content session.source.filetype ++
      session.annotators.flatMap (Annotator.spans session.source)) := by
  obtain ⟨cache, based⟩ := coherent.anchored.baseSpans apart
  unfold Session.highlight
  dsimp only
  rw [based]
  refine compose_eq (fun annotator member => (coherent.added member).1) (fun annotator member span inSpans => ?_) _
  obtain ⟨lies, known⟩ := (coherent.added member).2 span inSpans
  exact ⟨known, lies.2⟩

theorem Session.Coherent.paintable (coherent : session.Coherent contents) {span : Span}
    (member : span ∈ tokenize session.source.content session.source.filetype ++
      session.annotators.flatMap (Annotator.spans session.source)) :
    span.Paintable session.registry session.source.content := by
  rcases List.mem_append.mp member with base | added
  · obtain ⟨nonempty, within, style⟩ := tokenize_spec base
    exact ⟨⟨nonempty, within⟩, coherent.contains_of_isSheetId style⟩
  · obtain ⟨annotator, inAnnotators, inSpans⟩ := List.mem_flatMap.mp added
    exact (coherent.added inAnnotators).2 span inSpans

/-- After any events, with or without faults, a session can be drawn, and each span covers some of the content in
a style that the session knows. -/
theorem Session.highlight_run {config : SessionConfig} (built : Session.ofConfig config = .ok session)
    (sheet : ∀ name ∈ Sheet.githubDark.styles.map (·.1), name ∈ config.styles.map (·.1))
    (colorless : ∀ name ∈ config.styles.map (·.1), ¬IsColorId name) (events : List Event)
    (apart : FingerprintsApart (runContents events)) :
    ∃ spans, ((session.run events).highlight none).2 = .ok spans ∧
      ∀ span ∈ spans, span.Paintable (session.run events).registry (session.run events).source.content := by
  have started : session.Coherent (runContents events) :=
    Session.coherent_of_ofConfig built sheet colorless (List.mem_cons_self ..)
  have coherent := started.run apart fun content member => List.mem_cons_of_mem _ member
  exact ⟨_, coherent.highlight apart, fun span member => coherent.paintable member⟩

/-- Two of these events meet a fault: there is no bracket of that name, and no such line. -/
theorem Session.highlight_run_faults :
    ∃ session, Session.ofConfig { clock := ⟨0⟩ } = .ok session ∧
      ∃ spans, ((session.run [.setContent "(#fff) TODO".toList (some "python"), .setSearchTerm "o",
          .toggleBracket "x", .jumpToLine 7, .setContent "o".toList none]).highlight none).2 = .ok spans ∧
        ∀ span ∈ spans, span.Paintable
          (session.run [.setContent "(#fff) TODO".toList (some "python"), .setSearchTerm "o",
            .toggleBracket "x", .jumpToLine 7, .setContent "o".toList none]).registry
          (session.run [.setContent "(#fff) TODO".toList (some "python"), .setSearchTerm "o",
            .toggleBracket "x", .jumpToLine 7, .setContent "o".toList none]).source.content := by
  cases built : Session.ofConfig { clock := ⟨0⟩ } with
  | error fault =>
    have starts : (Session.ofConfig { clock := ⟨0⟩ }).isOk = true := by decide +kernel
    rw [built] at starts
    cases starts
  | ok session =>
    refine ⟨session, rfl, Session.highlight_run built (fun name member => member) ?_ _ ?_⟩
    · unfold IsColorId
      decide +kernel
    · unfold FingerprintsApart
      decide +kernel

end Marginalia
