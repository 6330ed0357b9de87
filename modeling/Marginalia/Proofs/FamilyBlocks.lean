import Marginalia.Proofs.AttributionStyles
import Marginalia.Proofs.SessionHighlight
import Marginalia.Proofs.StandardViewers

namespace Marginalia

/-- The spans in the styles of a family. -/
def Family.block (family : Family) (spans : List Span) : List Span :=
  spans.filter (family.Owns ·.style)

/-- The base spans of the content of a session. -/
def Session.base (session : Session) : List Span :=
  tokenize session.source.content session.source.filetype

/-- What is drawn of a session: the base spans, and then a block for each family with the spans of its annotator. -/
structure Session.Drawn (session : Session) (spans : List Span) : Prop where
  highlight : (session.highlight none).2 = .ok spans
  ordered : spans = session.base ++ Family.drawOrder.flatMap (Family.block · spans)
  blocks : ∀ family : Family, family.block spans = (session.annotator family).spans session.source

variable {contents : List Content} {session after : Session} {desk : Desk} {event : Event} {family : Family}
  {spans later : List Span}

theorem Sheet.ids_subset (sheet : Sheet) :
    ∀ name ∈ Sheet.githubDark.styles.map (·.1), name ∈ sheet.styles.map (·.1) := by
  cases sheet <;> decide +kernel

/-- A viewer in use whose session is coherent, and whose tickets and passes belong to contents that were shown. -/
structure Desk.Coherent (contents : List Content) (desk : Desk) : Prop where
  anchored : desk.Anchored contents
  session : desk.session.Coherent contents

theorem Desk.Coherent.use (coherent : desk.Coherent contents) (apart : FingerprintsApart contents) {use : Use}
    (brought : ∀ content ∈ use.content?, content ∈ contents) (unstyled : ∀ registry, use ≠ .restyle registry)
    (taken : desk.takes use = true) : (desk.use use).Coherent contents := by
  have anchored := coherent.anchored.use brought taken
  refine ⟨anchored, ?_⟩
  rcases use.kinds with ⟨event, rfl⟩ | ⟨registry, rfl⟩ | ⟨eventless, _⟩
  · exact coherent.session.step apart brought
  · exact absurd rfl (unstyled registry)
  · obtain ⟨cache, frame⟩ := desk.use_frame eventless unstyled
    have kept := anchored.session.cache
    rw [frame] at kept ⊢
    exact { coherent.session with cache := kept }

theorem Desk.coherent_of_ofConfig {config : SessionConfig} {sheet : Sheet} (shipped : config.styles = sheet.styles)
    (built : Session.ofConfig config = .ok session) (started : [] ∈ contents) :
    Desk.Coherent contents { session := session } := by
  have fresh : session.Coherent contents :=
    Session.coherent_of_ofConfig built (shipped ▸ sheet.ids_subset) (shipped ▸ sheet.colorless) started
  exact
    { anchored :=
        { session := fresh.anchored
          tickets := fun ticket none => absurd none List.not_mem_nil
          passes := fun pass none => absurd none List.not_mem_nil }
      session := fresh }

/-- However a viewer with a shipped sheet was used, its version, its swatches and its matches are those of its
content. -/
theorem Desk.coherent_run {config : SessionConfig} {sheet : Sheet} (shipped : config.styles = sheet.styles)
    (built : Session.ofConfig config = .ok session) {uses : List Use}
    (unstyled : ∀ registry, Use.restyle registry ∉ uses) (apart : FingerprintsApart (usedContents uses)) :
    (Desk.run { session := session } uses).Coherent (usedContents uses) := by
  have started : Desk.Coherent (usedContents uses) { session := session } :=
    Desk.coherent_of_ofConfig shipped built (List.mem_cons_self ..)
  have colorless : Session.Colorless (Desk.session { session := session }) := started.session.colorless
  have taken := Desk.takesAll_of_colorless colorless unstyled
  refine Desk.run_keeps_of_takesAll (fun desk use member here coherent => ?_) taken started
  exact coherent.use apart (fun content => mem_usedContents member)
    (fun registry same => unstyled registry (same ▸ member)) here

theorem Family.block_base (family : Family) (session : Session) : family.block session.base = [] :=
  List.filter_eq_nil_iff.mpr fun _ member owns => not_owns_of_mem_tokenize member family (of_decide_eq_true owns)

theorem Session.Coherent.drawn (coherent : session.Coherent contents) (apart : FingerprintsApart contents)
    (standard : session.Standard) : ∃ spans, session.Drawn spans := by
  have blocks (family : Family) : family.block (session.base ++
      session.annotators.flatMap (Annotator.spans session.source)) = (session.annotator family).spans session.source :=
    standard.filter_owns (fun span => not_owns_of_mem_tokenize) family
  refine ⟨_, coherent.highlight apart, ?_, blocks⟩
  rw [Session.annotators, List.flatMap_map]
  refine congrArg (session.base ++ ·) (List.flatMap_congr fun family _ => ?_)
  rw [← List.flatMap_map, ← Session.annotators]
  exact (blocks family).symm

/-- Where only the annotator of one family changes, only the block of that family does. -/
theorem Session.Drawn.eq_filter (earlier : session.Drawn spans) (drawn : after.Drawn later)
    (source : after.source = session.source)
    (others : ∀ other, other ≠ family → after.annotator other = session.annotator other) {keeps : Span → Bool}
    (foreign : ∀ span : Span, ¬family.Owns span.style → keeps span = true)
    (own : (after.annotator family).spans session.source =
      ((session.annotator family).spans session.source).filter keeps) : later = spans.filter keeps := by
  have base : after.base = session.base := by rw [base, source, Session.base]
  have keptBase : session.base.filter keeps = session.base :=
    List.filter_eq_self.mpr fun span member => foreign span (not_owns_of_mem_tokenize member family)
  -- the spans of another family are foreign to this one, so its block is kept whole
  have keptBlocks (other : Family) : other.block later = (other.block spans).filter keeps := by
    rw [drawn.blocks, earlier.blocks, source]
    by_cases same : other = family
    · rw [same]
      exact own
    · rw [others other same, ← earlier.blocks, eq_comm, List.filter_eq_self]
      intro span member
      exact foreign span fun owns => same ((of_decide_eq_true (List.mem_filter.mp member).2).unique owns)
  calc
    later = session.base ++ Family.drawOrder.flatMap (Family.block · later) := by
      rw [← base]
      exact drawn.ordered
    _ = session.base.filter keeps ++ Family.drawOrder.flatMap (fun other => (other.block spans).filter keeps) := by
      rw [keptBase]
      exact congrArg (session.base ++ ·) (List.flatMap_congr fun other _ => keptBlocks other)
    _ = (session.base ++ Family.drawOrder.flatMap (Family.block · spans)).filter keeps := by
      rw [List.filter_append, List.filter_flatMap]
    _ = spans.filter keeps := by rw [← earlier.ordered]

/-- An event of a family leaves the content, the filetype and the annotators of the other families. -/
theorem Session.Moves.others (moved : session.Moves event after) (owner : event.family? = some family) :
    after.source = session.source ∧ ∀ other, other ≠ family → after.annotator other = session.annotator other := by
  cases moved with
  | beside unowned => cases owner.symm.trans unowned
  | @within own annotator added ownerOfThis follows areIds message =>
    obtain rfl : own = family := Option.some.inj (ownerOfThis.symm.trans owner)
    refine ⟨by cases annotator <;> rfl, fun other different => ?_⟩
    rw [annotator_adjusted, follows.family_eq, family_annotator, if_neg different.symm]

/-- Whether a span starts at a bracket of a type. -/
def Bracket.begins (bracket : Bracket) (content : Content) (span : Span) : Bool :=
  content[span.start]?.any bracket.owns

theorem mem_toggleMember {α : Type} [DecidableEq α] {chosen : List α} {item member : α} :
    member ∈ toggleMember chosen item ↔ (member ∈ chosen ↔ member ≠ item) := by
  by_cases known : item ∈ chosen
  · rw [toggleMember, if_pos known, List.mem_filter]
    by_cases same : member = item <;> simp [same, known]
  · rw [toggleMember, if_neg known, List.mem_append, List.mem_singleton]
    by_cases same : member = item <;> simp [same, known]

theorem mem_toggleMember_of_not_mem {α : Type} [DecidableEq α] {chosen : List α} {item member : α}
    (off : item ∉ toggleMember chosen item) :
    member ∈ toggleMember chosen item ↔ member ∈ chosen ∧ member ≠ item := by
  by_cases same : member = item
  · subst same
    exact iff_of_false off fun kept => kept.2 rfl
  · rw [mem_toggleMember]
    simp [same]

theorem Bracket.name_of_ofName? {name : String} {bracket : Bracket} (found : Bracket.ofName? name = some bracket) :
    bracket.name = name := by
  unfold ofName? at found
  simpa using List.find?_some found

theorem Bracket.owns_opener (bracket other : Bracket) : bracket.owns other.opener = decide (other = bracket) := by
  cases bracket <;> cases other <;> decide

theorem Bracket.owns_closer (bracket other : Bracket) : bracket.owns other.closer = decide (other = bracket) := by
  cases bracket <;> cases other <;> decide

theorem flatMap_filter_eq {α β : Type} {items : List α} {values : α → List β} {chosen : α → Bool} {keeps : β → Bool}
    (same : ∀ item ∈ items, ∀ value ∈ values item, keeps value = chosen item) :
    (items.filter chosen).flatMap values = (items.flatMap values).filter keeps := by
  induction items with
  | nil => rfl
  | cons item rest ih =>
    obtain ⟨here, later⟩ := List.forall_mem_cons.mp same
    rw [List.flatMap_cons, List.filter_append, ← ih later]
    cases chose : chosen item with
    | true =>
      rw [List.filter_cons_of_pos chose, List.flatMap_cons, List.filter_eq_self.mpr fun value member =>
        (here value member).trans chose]
    | false =>
      have none : (values item).filter keeps = [] :=
        List.filter_eq_nil_iff.mpr fun value member => by rw [here value member, chose]; decide
      rw [List.filter_cons_of_neg (by rw [chose]; decide), none, List.nil_append]

/-- Without one type, the bracket spans are those that do not start at a bracket of the type. -/
theorem BracketAnnotator.annotate_without {annotator next : BracketAnnotator} {bracket : Bracket}
    (without : ∀ other, other ∈ next.types ↔ other ∈ annotator.types ∧ other ≠ bracket) (source : Source) :
    next.annotate source = (annotator.annotate source).filter (!bracket.begins source.content ·) := by
  have types : (bracketPairs source.content).filter (fun pair => pair.bracket ∈ next.types) =
      ((bracketPairs source.content).filter fun pair => pair.bracket ∈ annotator.types).filter
        fun pair => pair.bracket ≠ bracket := by
    rw [List.filter_filter]
    refine List.filter_congr fun pair _ => ?_
    simp [without, Bool.and_comm]
  unfold annotate
  rw [types]
  refine flatMap_filter_eq fun pair member span inSpans => ?_
  have encloses := encloses_of_mem (List.mem_filter.mp member).1
  have start : source.content[span.start]? = some pair.bracket.opener ∨
      source.content[span.start]? = some pair.bracket.closer := by
    simp only [List.mem_cons, List.not_mem_nil, or_false] at inSpans
    rcases inSpans with rfl | rfl
    · exact Or.inl encloses.atOpened
    · exact Or.inr encloses.atClosed
  unfold Bracket.begins
  rcases start with start | start
  · rw [start, Option.any_some, Bracket.owns_opener, decide_not]
  · rw [start, Option.any_some, Bracket.owns_closer, decide_not]

/-- Each keyword has a style of its own. -/
theorem Keyword.style_eq_iff {keyword other : Keyword} (known : keyword ∈ defaultKeywords)
    (otherKnown : other ∈ defaultKeywords) : other.style = keyword.style ↔ other.word = keyword.word := by
  have apart : ∀ keyword ∈ defaultKeywords, ∀ other ∈ defaultKeywords,
      (other.style = keyword.style ↔ other.word = keyword.word) := by decide
  exact apart keyword known other otherKnown

/-- Without one keyword, the keyword spans are those in the styles of the others. -/
theorem LintAnnotator.annotate_without {annotator next : LintAnnotator} {keyword : Keyword} (source : Source)
    (standard : annotator.keywords = defaultKeywords) (kept : next.keywords = annotator.keywords)
    (filetypes : next.filetypes = annotator.filetypes) (known : keyword ∈ defaultKeywords)
    (without : ∀ other ∈ defaultKeywords,
      other.word ∈ next.words ↔ other.word ∈ annotator.words ∧ other.word ≠ keyword.word) :
    next.annotate source = (annotator.annotate source).map (List.filter (·.style ≠ keyword.style)) := by
  have flagged (annotator : LintAnnotator) (standard : annotator.keywords = defaultKeywords) :
      annotator.annotate source = .ok (if source.filetype ∉ annotator.filetypes then []
        else ((findKeywords source.content defaultKeywords).filter fun found => found.word ∈ annotator.words).map
          KeywordMatch.span) := by
    rw [annotate_eq standard]
    by_cases empty : annotator.words = [] <;> by_cases foreign : source.filetype ∉ annotator.filetypes <;>
      simp [empty, foreign]
  rw [flagged next (kept.trans standard), flagged annotator standard, filetypes, Except.map]
  refine congrArg Except.ok ?_
  split
  · rfl
  · rw [List.filter_map, List.filter_filter]
    refine congrArg (List.map KeywordMatch.span) (List.filter_congr fun found member => ?_)
    obtain ⟨other, otherKnown, inMatches⟩ := mem_findKeywords.mp member
    obtain ⟨start, _, rfl⟩ := List.mem_map.mp inMatches
    have style := Keyword.style_eq_iff known otherKnown
    simp [KeywordMatch.span, without other otherKnown, style, Bool.and_comm]

/-- A bracket type that is switched off is the one of that name, and goes from the types that are shown. -/
theorem Session.toggleBracket_off {name : String} (answered : (session.toggleBracket name).2 = .ok (.flag false)) :
    ∃ bracket annotator message, Bracket.ofName? name = some bracket ∧ annotator.enabled = session.bracket.enabled ∧
      (∀ other, other ∈ annotator.types ↔ other ∈ session.bracket.types ∧ other ≠ bracket) ∧
      (session.toggleBracket name).1 = session.adjusted (.bracket annotator) [] message := by
  unfold toggleBracket at answered ⊢
  cases toggled : session.bracket.toggle name with
  | error fault =>
    rw [toggled] at answered
    cases answered
  | ok annotator =>
    rw [toggled] at answered
    obtain ⟨message, shown⟩ := session.report_withAnnotator (.bracket annotator) trivial
      (.flag ((annotator.types.map (·.name)).contains name))
    obtain ⟨bracket, found, rfl⟩ := BracketAnnotator.toggle_eq_ok toggled
    refine ⟨bracket, { session.bracket with types := toggleMember session.bracket.types bracket }, message,
      found, rfl, fun other => ?_, congrArg Prod.fst shown⟩
    have flag := Reply.flag.inj (Except.ok.inj ((congrArg Prod.snd shown).symm.trans answered))
    have named : bracket.name = name := Bracket.name_of_ofName? found
    -- the answer tells that no shown type has the name any more, so the type was taken out
    refine mem_toggleMember_of_not_mem fun member => ?_
    have contained := List.mem_map_of_mem (f := Bracket.name) member
    rw [named] at contained
    cases flag.symm.trans (List.contains_iff_mem.mpr contained)

theorem Session.toggleKeyword_off {word : String} (standard : session.lint.keywords = defaultKeywords)
    (answered : (session.toggleKeyword word).2 = .ok (.flag false)) :
    ∃ keyword ∈ defaultKeywords, ∃ annotator message, keyword.word = word ∧
      annotator.enabled = session.lint.enabled ∧ annotator.keywords = session.lint.keywords ∧
      annotator.filetypes = session.lint.filetypes ∧
      (∀ other ∈ defaultKeywords,
        other.word ∈ annotator.words ↔ other.word ∈ session.lint.words ∧ other.word ≠ keyword.word) ∧
      (session.toggleKeyword word).1 = session.adjusted (.lint annotator) [] message := by
  unfold toggleKeyword at answered ⊢
  cases toggled : session.lint.toggle word with
  | error fault =>
    rw [toggled] at answered
    cases answered
  | ok annotator =>
    rw [toggled] at answered
    obtain ⟨known, rfl⟩ := LintAnnotator.toggle_eq_ok toggled
    obtain ⟨message, shown⟩ := session.report_withAnnotator
      (.lint { session.lint with words := toggleMember session.lint.words word }) standard
      (.flag ((toggleMember session.lint.words word).contains word))
    rw [LintAnnotator.known, standard] at known
    obtain ⟨keyword, inDefaults, rfl⟩ := List.mem_map.mp known
    refine ⟨keyword, inDefaults, { session.lint with
      words := toggleMember session.lint.words keyword.word }, message, rfl, rfl, rfl, rfl,
      fun other _ => ?_, congrArg Prod.fst shown⟩
    have flag := Reply.flag.inj (Except.ok.inj ((congrArg Prod.snd shown).symm.trans answered))
    refine mem_toggleMember_of_not_mem fun member => ?_
    cases flag.symm.trans (List.contains_iff_mem.mpr member)

theorem Event.content?_of_family? (owner : event.family? = some family) : event.content? = none := by
  cases event with
  | setContent => cases owner
  | _ => rfl

theorem Session.Drawn.step_eq_filter (earlier : session.Drawn spans) (owner : event.family? = some family)
    (drawn : (session.step event).1.Drawn later) {keeps : Span → Bool}
    (foreign : ∀ span : Span, ¬family.Owns span.style → keeps span = true)
    (own : ((session.step event).1.annotator family).spans session.source =
      ((session.annotator family).spans session.source).filter keeps) : later = spans.filter keeps := by
  obtain ⟨source, others⟩ := (session.moves_step (Event.content?_of_family? owner)).others owner
  exact earlier.eq_filter drawn source others foreign own

theorem Session.Drawn.switchedOff (earlier : session.Drawn spans) (standard : session.Standard)
    (drawn : (session.step (.toggleFamily family)).1.Drawn later)
    (answered : (session.step (.toggleFamily family)).2 = .ok (.flag false)) :
    later = spans.filter fun span => ¬family.Owns span.style := by
  refine earlier.step_eq_filter rfl drawn (fun span foreign => decide_eq_true foreign) ?_
  obtain ⟨message, shown⟩ := standard.toggleFamily family
  have off := Reply.flag.inj (Except.ok.inj ((congrArg Prod.snd shown).symm.trans answered))
  have family_withEnabled (enabled : Bool) : ((session.annotator family).withEnabled enabled).family = family := by
    cases family <;> rfl
  have disabled : ((session.annotator family).withEnabled false).enabled = false := by cases family <;> rfl
  have owned := ((standard family).added session.source).2
  rw [family_annotator] at owned
  rw [Session.step, shown, annotator_adjusted, if_pos (family_withEnabled _), off, Annotator.spans_of_disabled disabled,
    eq_comm, List.filter_eq_nil_iff]
  intro span member kept
  exact of_decide_eq_true kept (owned span member)

theorem Annotator.spans_eq_filter {annotator next : Annotator} {source : Source} {keeps : Span → Bool}
    (enabled : next.enabled = annotator.enabled)
    (annotated : next.annotate source = (annotator.annotate source).map (List.filter keeps)) :
    next.spans source = (annotator.spans source).filter keeps := by
  unfold Annotator.spans added
  rw [enabled, annotated]
  split
  · cases annotator.annotate source <;> rfl
  · rfl

theorem Session.Drawn.bracketOff {name : String} (earlier : session.Drawn spans) (standard : session.Standard)
    (drawn : (session.step (.toggleBracket name)).1.Drawn later)
    (answered : (session.step (.toggleBracket name)).2 = .ok (.flag false)) :
    ∃ bracket, Bracket.ofName? name = some bracket ∧ later = spans.filter fun span =>
      ¬(Family.bracket.Owns span.style ∧ bracket.begins session.source.content span = true) := by
  obtain ⟨bracket, annotator, message, found, enabled, without, shown⟩ := Session.toggleBracket_off answered
  have owner : (Event.toggleBracket name).family? = some .bracket := rfl
  refine ⟨bracket, found, earlier.step_eq_filter owner drawn
    (fun span foreign => decide_eq_true fun both => foreign both.1) ?_⟩
  have owned : ∀ span ∈ (session.annotator .bracket).spans session.source, Family.bracket.Owns span.style :=
    ((standard .bracket).added session.source).2
  have keeps : ∀ span ∈ (session.annotator .bracket).spans session.source,
      (decide ¬(Family.bracket.Owns span.style ∧ bracket.begins session.source.content span = true)) =
        !bracket.begins session.source.content span := by
    intro span member
    simp [owned span member]
  rw [Session.step, shown, List.filter_congr keeps]
  have annotated := BracketAnnotator.annotate_without without session.source
  exact Annotator.spans_eq_filter enabled (congrArg Except.ok annotated)

theorem Session.Drawn.keywordOff {word : String} (earlier : session.Drawn spans) (standard : session.Standard)
    (drawn : (session.step (.toggleKeyword word)).1.Drawn later)
    (answered : (session.step (.toggleKeyword word)).2 = .ok (.flag false)) :
    ∃ keyword ∈ defaultKeywords, keyword.word = word ∧ later = spans.filter (·.style ≠ keyword.style) := by
  have keywords : session.lint.keywords = defaultKeywords := standard .lint
  obtain ⟨keyword, known, annotator, message, named, enabled, kept, filetypes, without, shown⟩ :=
    Session.toggleKeyword_off keywords answered
  have owner : (Event.toggleKeyword word).family? = some .lint := rfl
  refine ⟨keyword, known, named, earlier.step_eq_filter owner drawn (fun span foreign => ?_) ?_⟩
  · refine decide_eq_true fun same => foreign ?_
    rw [same]
    exact (defines_keywordStyle known).owned
  · rw [Session.step, shown]
    exact Annotator.spans_eq_filter enabled
      (LintAnnotator.annotate_without session.source keywords kept filetypes known without)

/-- The block of a family is what its annotator adds: all its spans while it is switched on, and none otherwise. -/
theorem Session.Drawn.annotated (drawn : session.Drawn spans) (standard : session.Standard) (family : Family) :
    if (session.annotator family).enabled then
      (session.annotator family).annotate session.source = .ok (family.block spans)
    else family.block spans = [] := by
  have added := ((standard family).added session.source).1
  rw [← drawn.blocks family] at added
  unfold Annotator.added at added
  split_ifs at added ⊢
  · exact added
  · exact (Except.ok.inj added).symm

/-- However a viewer with a shipped sheet was used, what is drawn are the base spans and then a block for each family in
drawing order, with what the annotator of the family adds. An event of a family leaves the base and the blocks of the
other families. Switching a family off takes its block out of the drawing; switching a bracket type or a keyword off takes
just its spans out. -/
theorem Desk.families_run {config : SessionConfig} {sheet : Sheet} (shipped : config.styles = sheet.styles)
    (built : Session.ofConfig config = .ok session) {uses : List Use}
    (unstyled : ∀ registry, Use.restyle registry ∉ uses) (apart : FingerprintsApart (usedContents uses)) :
    let viewer := (Desk.run { session := session } uses).session
    ∃ spans, (viewer.highlight none).2 = .ok spans ∧
      spans = viewer.base ++ Family.drawOrder.flatMap (Family.block · spans) ∧
      (∀ family : Family, family.block viewer.base = []) ∧
      (∀ family : Family, if (viewer.annotator family).enabled then
        (viewer.annotator family).annotate viewer.source = .ok (family.block spans) else family.block spans = []) ∧
      (∀ event family, event.family? = some family →
        (viewer.step event).1.base = viewer.base ∧
        ∃ later, ((viewer.step event).1.highlight none).2 = .ok later ∧
          later = viewer.base ++ Family.drawOrder.flatMap (Family.block · later) ∧
          ∀ other, other ≠ family → other.block later = other.block spans) ∧
      (∀ family, (viewer.step (.toggleFamily family)).2 = .ok (.flag false) →
        ((viewer.step (.toggleFamily family)).1.highlight none).2 =
          .ok (spans.filter fun span => ¬family.Owns span.style)) ∧
      (∀ name, (viewer.step (.toggleBracket name)).2 = .ok (.flag false) →
        ∃ bracket, Bracket.ofName? name = some bracket ∧
          ((viewer.step (.toggleBracket name)).1.highlight none).2 = .ok (spans.filter fun span =>
            ¬(Family.bracket.Owns span.style ∧ bracket.begins viewer.source.content span = true))) ∧
      ∀ word, (viewer.step (.toggleKeyword word)).2 = .ok (.flag false) →
        ∃ keyword ∈ defaultKeywords, keyword.word = word ∧
          ((viewer.step (.toggleKeyword word)).1.highlight none).2 =
            .ok (spans.filter fun span => span.style ≠ keyword.style) := by
  intro viewer
  have coherent : viewer.Coherent (usedContents uses) := (Desk.coherent_run shipped built unstyled apart).session
  have standard : viewer.Standard := (Desk.standard_run built uses).annotators
  obtain ⟨spans, drawn⟩ := coherent.drawn apart standard
  have next (event : Event) (contentless : event.content? = none) : ∃ later, (viewer.step event).1.Drawn later :=
    (coherent.step apart (by simp [contentless])).drawn apart (standard.step event)
  refine ⟨spans, drawn.highlight, drawn.ordered, fun family => family.block_base viewer, drawn.annotated standard, ?_, ?_,
    ?_, ?_⟩
  · intro event family owner
    have contentless := Event.content?_of_family? owner
    obtain ⟨later, drawnLater⟩ := next event contentless
    obtain ⟨source, others⟩ := (viewer.moves_step contentless).others owner
    have base : (viewer.step event).1.base = viewer.base := by
      rw [Session.base, source]
      rfl
    refine ⟨base, later, drawnLater.highlight, base ▸ drawnLater.ordered, fun other different => ?_⟩
    rw [drawnLater.blocks, drawn.blocks, others other different, source]
  · intro family answered
    obtain ⟨later, drawnLater⟩ := next (.toggleFamily family) rfl
    rw [drawnLater.highlight, drawn.switchedOff standard drawnLater answered]
  · intro name answered
    obtain ⟨later, drawnLater⟩ := next (.toggleBracket name) rfl
    obtain ⟨bracket, found, without⟩ := drawn.bracketOff standard drawnLater answered
    exact ⟨bracket, found, by rw [drawnLater.highlight, without]⟩
  · intro word answered
    obtain ⟨later, drawnLater⟩ := next (.toggleKeyword word) rfl
    obtain ⟨keyword, known, named, without⟩ := drawn.keywordOff standard drawnLater answered
    exact ⟨keyword, known, named, by rw [drawnLater.highlight, without]⟩

/-- All families have something to show: an author, brackets of two types, a color, two keywords, and matches. -/
def annotatedUses : List Use :=
  [.event (.setContent "([#fff]) # TODO note".toList (some "python")), .event (.setAttribution (linesOf ["alice"])),
    .event .cycleBlameMode, .event (.setSearchTerm "o"), .highlight none, .event .nextMatch]

/-- Round brackets and the keyword for tasks are switched off in turn. -/
theorem Desk.families_run_annotated :
    ∃ session, Session.ofConfig { clock := ⟨0⟩ } = .ok session ∧
      let viewer := (Desk.run { session := session } annotatedUses).session
      ∃ spans, (viewer.highlight none).2 = .ok spans ∧
        spans = viewer.base ++ Family.drawOrder.flatMap (Family.block · spans) ∧
        ((viewer.step (.toggleFamily .search)).1.highlight none).2 =
          .ok (spans.filter fun span => ¬Family.search.Owns span.style) ∧
        ((viewer.step (.toggleBracket "(")).1.highlight none).2 = .ok (spans.filter fun span =>
          ¬(Family.bracket.Owns span.style ∧ Bracket.round.begins viewer.source.content span = true)) ∧
        ((viewer.step (.toggleKeyword "TODO")).1.highlight none).2 =
          .ok (spans.filter fun span => span.style ≠ "lint.todo") := by
  have apart : FingerprintsApart (usedContents annotatedUses) := by
    unfold FingerprintsApart
    decide +kernel
  have unstyled : ∀ registry, Use.restyle registry ∉ annotatedUses := by simp [annotatedUses]
  have shipped : SessionConfig.styles { clock := ⟨0⟩ } = Sheet.githubDark.styles := rfl
  have seen : ((Session.ofConfig { clock := ⟨0⟩ }).toOption.any fun session =>
      let viewer := (Desk.run { session := session } annotatedUses).session
      decide ((viewer.step (.toggleFamily .search)).2 = .ok (.flag false) ∧
        (viewer.step (.toggleBracket "(")).2 = .ok (.flag false) ∧
        (viewer.step (.toggleKeyword "TODO")).2 = .ok (.flag false))) = true := by decide +kernel
  obtain ⟨session, built, shown⟩ := Session.exists_of_any seen
  obtain ⟨searchOff, roundOff, todoOff⟩ := of_decide_eq_true shown
  obtain ⟨spans, drawn, ordered, _, _, _, families, brackets, keywords⟩ := Desk.families_run shipped built unstyled apart
  obtain ⟨bracket, found, withoutRound⟩ := brackets "(" roundOff
  obtain ⟨keyword, known, named, withoutTodo⟩ := keywords "TODO" todoOff
  obtain rfl : Bracket.round = bracket := Option.some.inj found
  have style : keyword.style = "lint.todo" := by
    have todo : (⟨"TODO", "lint.todo", "Task to be done"⟩ : Keyword) ∈ defaultKeywords := by decide
    exact (Keyword.style_eq_iff todo known).mpr named
  rw [style] at withoutTodo
  exact ⟨session, built, spans, drawn, ordered, families .search searchOff, withoutRound, withoutTodo⟩

end Marginalia
