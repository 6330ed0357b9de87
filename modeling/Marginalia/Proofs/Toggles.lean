import Marginalia.Proofs.FamilyBlocks

namespace Marginalia

/-- The events that toggle a family, a bracket type, a known keyword, or the mode of the blame tints. -/
inductive Event.IsToggle : Event → Prop
  | family (family : Family) : IsToggle (.toggleFamily family)
  | bracket (bracket : Bracket) : IsToggle (.toggleBracket bracket.name)
  | keyword {word : String} (known : word ∈ defaultKeywords.map (·.word)) : IsToggle (.toggleKeyword word)
  | mode : IsToggle .cycleBlameMode

/-- Equal are the parities of how often everything is toggled, and for the mode, which comes back after four events, the
numbers modulo four. -/
structure SameToggles (events others : List Event) : Prop where
  parities : ∀ event, event ≠ .cycleBlameMode → events.count event % 2 = others.count event % 2
  modes : events.count .cycleBlameMode % 4 = others.count .cycleBlameMode % 4

instance (events others : List Event) : Decidable (SameToggles events others) :=
  decidable_of_iff ((∀ event ∈ events ++ others, event ≠ .cycleBlameMode →
      events.count event % 2 = others.count event % 2) ∧
    events.count .cycleBlameMode % 4 = others.count .cycleBlameMode % 4) <| by
    constructor
    · rintro ⟨parities, modes⟩
      refine ⟨fun event noMode => ?_, modes⟩
      by_cases member : event ∈ events ++ others
      · exact parities event member noMode
      · rw [List.mem_append, not_or] at member
        rw [List.count_eq_zero.mpr member.1, List.count_eq_zero.mpr member.2]
    · exact fun same => ⟨fun event _ => same.parities event, same.modes⟩

/-- A session without its message and without all that can be toggled. -/
def Session.untoggled (session : Session) : Session :=
  { session with
    message := ""
    bracket := {}
    color := {}
    blame := { session.blame with enabled := true, mode := .age }
    lint := { session.lint with enabled := true, words := [] }
    search := { session.search with enabled := true } }

/-- What toggles make of a session: families, bracket types and keywords stay as they are just when they are toggled an
even number of times, and the mode moves on each time. -/
structure Session.Toggled (session : Session) (events : List Event) (after : Session) : Prop where
  untoggled : after.untoggled = session.untoggled
  enabled : ∀ family, (after.annotator family).enabled = true ↔
    ((session.annotator family).enabled = true ↔ Even (events.count (.toggleFamily family)))
  types : ∀ bracket, bracket ∈ after.bracket.types ↔
    (bracket ∈ session.bracket.types ↔ Even (events.count (.toggleBracket bracket.name)))
  words : ∀ word, word ∈ after.lint.words ↔ (word ∈ session.lint.words ↔ Even (events.count (.toggleKeyword word)))
  mode : after.blame.mode = BlameMode.next^[events.count .cycleBlameMode] session.blame.mode

/-- Annotators that are the same, whatever the order of their bracket types and keywords. -/
inductive Annotator.Alike : Annotator → Annotator → Prop
  | same (annotator : Annotator) : Alike annotator annotator
  | types (annotator : BracketAnnotator) {types : List Bracket}
      (same : ∀ bracket, bracket ∈ annotator.types ↔ bracket ∈ types) :
      Alike (.bracket annotator) (.bracket { annotator with types := types })
  | words (annotator : LintAnnotator) {words : List String} (same : ∀ word, word ∈ annotator.words ↔ word ∈ words) :
      Alike (.lint annotator) (.lint { annotator with words := words })

variable {session middle after left right : Session} {event : Event} {events others rest : List Event}
  {annotator other : Annotator}

theorem BlameMode.next_iterate_mod (mode : BlameMode) (count : Nat) :
    BlameMode.next^[count % 4] mode = BlameMode.next^[count] mode := by
  have comesBack : Function.IsPeriodicPt BlameMode.next 4 mode := by cases mode <;> rfl
  exact comesBack.iterate_mod_apply count

theorem Session.adjusted_nil (session : Session) (annotator : Annotator) (message : String) :
    session.adjusted annotator [] message = { session.withAnnotator annotator with message := message } := by
  rw [adjusted, Registry.withPermanent_nil]
  cases annotator <;> rfl

theorem Bracket.ofName?_name (bracket : Bracket) : Bracket.ofName? bracket.name = some bracket := by
  cases bracket <;> decide

theorem Bracket.name_injective {bracket other : Bracket} (same : bracket.name = other.name) : bracket = other :=
  Option.some.inj <| by rw [← bracket.ofName?_name, ← other.ofName?_name, same]

theorem Session.Toggled.nil (session : Session) : session.Toggled [] session where
  untoggled := rfl
  enabled := by simp
  types := by simp
  words := by simp
  mode := rfl

theorem Session.Toggled.append (first : session.Toggled events middle) (second : middle.Toggled rest after) :
    session.Toggled (events ++ rest) after where
  untoggled := second.untoggled.trans first.untoggled
  enabled family := by
    rw [second.enabled, first.enabled, List.count_append, Nat.even_add]
    exact iff_assoc
  types bracket := by
    rw [second.types, first.types, List.count_append, Nat.even_add]
    exact iff_assoc
  words word := by
    rw [second.words, first.words, List.count_append, Nat.even_add]
    exact iff_assoc
  mode := by rw [second.mode, first.mode, List.count_append, Nat.add_comm, Function.iterate_add_apply]

theorem Annotator.enabled_withEnabled (annotator : Annotator) (enabled : Bool) :
    (annotator.withEnabled enabled).enabled = enabled := by
  cases annotator <;> rfl

theorem Session.Standard.toggled_family (standard : session.Standard) (family : Family) :
    ∃ reply, (session.step (.toggleFamily family)).2 = .ok reply ∧
      session.Toggled [.toggleFamily family] (session.step (.toggleFamily family)).1 := by
  obtain ⟨message, shown⟩ := standard.toggleFamily family
  rw [Session.step, shown]
  refine ⟨_, rfl, ?_, fun other => ?_, ?_, ?_, ?_⟩
  · rw [adjusted_nil]
    cases family <;> rfl
  · have owner : ((session.annotator family).withEnabled !(session.annotator family).enabled).family = family := by
      cases family <;> rfl
    rw [annotator_adjusted, owner]
    by_cases same : family = other
    · subst same
      simp [Annotator.enabled_withEnabled]
    · simp [same]
  · have kept : (session.adjusted ((session.annotator family).withEnabled !(session.annotator family).enabled) []
        message).bracket.types = session.bracket.types := by
      cases family <;> rfl
    simp [kept]
  · have kept : (session.adjusted ((session.annotator family).withEnabled !(session.annotator family).enabled) []
        message).lint.words = session.lint.words := by
      cases family <;> rfl
    simp [kept]
  · cases family <;> rfl

theorem Session.toggled_bracket (session : Session) (bracket : Bracket) :
    ∃ reply, (session.step (.toggleBracket bracket.name)).2 = .ok reply ∧
      session.Toggled [.toggleBracket bracket.name] (session.step (.toggleBracket bracket.name)).1 := by
  obtain ⟨message, reply, shown⟩ : ∃ message reply, session.step (.toggleBracket bracket.name) =
      ({ session with
          bracket := { session.bracket with types := toggleMember session.bracket.types bracket }
          message := message }, .ok reply) := by
    rw [Session.step, toggleBracket, BracketAnnotator.toggle, bracket.ofName?_name]
    exact ⟨_, _, rfl⟩
  rw [shown]
  refine ⟨reply, rfl, rfl, fun family => ?_, fun other => ?_, by simp, rfl⟩
  · cases family <;> simp [Session.annotator, Annotator.enabled]
  · rw [mem_toggleMember]
    by_cases same : other = bracket
    · simp [same]
    · have never : Event.toggleBracket other.name ∉ [Event.toggleBracket bracket.name] := fun member =>
        same (Bracket.name_injective (Event.toggleBracket.inj (List.mem_singleton.mp member)))
      simp [same, List.count_eq_zero.mpr never]

theorem Session.Standard.toggled_keyword (standard : session.Standard) {word : String}
    (known : word ∈ defaultKeywords.map (·.word)) :
    ∃ reply, (session.step (.toggleKeyword word)).2 = .ok reply ∧
      session.Toggled [.toggleKeyword word] (session.step (.toggleKeyword word)).1 := by
  have keywords : session.lint.keywords = defaultKeywords := standard .lint
  rw [← keywords] at known
  obtain ⟨message, reply, shown⟩ : ∃ message reply, session.step (.toggleKeyword word) =
      ({ session with
          lint := { session.lint with words := toggleMember session.lint.words word }
          message := message }, .ok reply) := by
    rw [Session.step, toggleKeyword, LintAnnotator.toggle, LintAnnotator.known, if_pos known]
    exact ⟨_, _, rfl⟩
  rw [shown]
  refine ⟨reply, rfl, rfl, fun family => ?_, by simp, fun other => ?_, rfl⟩
  · cases family <;> simp [Session.annotator, Annotator.enabled]
  · rw [mem_toggleMember]
    by_cases same : other = word
    · simp [same]
    · simp [same, Ne.symm same]

theorem Session.toggled_mode (session : Session) :
    ∃ reply, (session.step .cycleBlameMode).2 = .ok reply ∧
      session.Toggled [.cycleBlameMode] (session.step .cycleBlameMode).1 := by
  obtain ⟨message, reply, shown⟩ : ∃ message reply, session.step .cycleBlameMode =
      ({ session with
          blame := { session.blame with mode := session.blame.mode.next }
          message := message }, .ok reply) := ⟨_, _, rfl⟩
  rw [shown]
  refine ⟨reply, rfl, rfl, fun family => ?_, by simp, by simp, rfl⟩
  cases family <;> simp [Session.annotator, Annotator.enabled]

theorem Session.Standard.toggled_step (standard : session.Standard) (toggle : event.IsToggle) :
    ∃ reply, (session.step event).2 = .ok reply ∧ session.Toggled [event] (session.step event).1 := by
  cases toggle with
  | family family => exact standard.toggled_family family
  | bracket bracket => exact session.toggled_bracket bracket
  | keyword known => exact standard.toggled_keyword known
  | mode => exact session.toggled_mode

/-- No toggle meets a fault. -/
theorem Session.Standard.toggled_run (standard : session.Standard) (toggles : ∀ event ∈ events, event.IsToggle) :
    session.Toggled events (session.run events) ∧
      ∀ before event rest, events = before ++ event :: rest →
        ∃ reply, ((session.run before).step event).2 = .ok reply := by
  induction events generalizing session with
  | nil => exact ⟨.nil session, fun before event rest split => by simp at split⟩
  | cons first later ih =>
    obtain ⟨here, toggles⟩ := List.forall_mem_cons.mp toggles
    obtain ⟨reply, answered, toggled⟩ := standard.toggled_step here
    obtain ⟨run, replies⟩ := ih (standard.step first) toggles
    refine ⟨toggled.append run, fun before event rest split => ?_⟩
    cases before with
    | nil =>
      obtain ⟨rfl, _⟩ := List.cons_eq_cons.mp split
      exact ⟨reply, answered⟩
    | cons front before =>
      obtain ⟨rfl, behind⟩ := List.cons_eq_cons.mp split
      exact replies before event rest behind

theorem filter_mem_congr {α β : Type} [DecidableEq β] {chosen kept : List β} (same : ∀ item, item ∈ chosen ↔ item ∈ kept)
    (key : α → β) (items : List α) : items.filter (key · ∈ chosen) = items.filter (key · ∈ kept) :=
  List.filter_congr fun item _ => decide_eq_decide.mpr (same (key item))

theorem Annotator.Alike.family_eq (alike : annotator.Alike other) : annotator.family = other.family := by
  cases alike <;> rfl

theorem Annotator.Alike.added_eq (alike : annotator.Alike other) (source : Source) :
    annotator.added source = other.added source := by
  cases alike with
  | same => rfl
  | types bracket same =>
    simp only [Annotator.added, Annotator.annotate, BracketAnnotator.annotate]
    rw [filter_mem_congr same BracketPair.bracket]
    rfl
  | @words lint words same =>
    have none : lint.words = [] ↔ words = [] := by
      rw [List.eq_nil_iff_forall_not_mem, List.eq_nil_iff_forall_not_mem]
      exact forall_congr' fun word => not_congr (same word)
    have annotated : lint.annotate source = { lint with words := words }.annotate source := by
      unfold LintAnnotator.annotate
      rw [filter_mem_congr same KeywordMatch.word]
      exact if_congr (or_congr Iff.rfl none) rfl rfl
    rw [Annotator.added, Annotator.annotate, annotated]
    rfl

theorem BracketAnnotator.status_congr {annotator other : BracketAnnotator} (enabled : annotator.enabled = other.enabled)
    (same : ∀ bracket, bracket ∈ annotator.types ↔ bracket ∈ other.types) : annotator.status = other.status := by
  have shown : Bracket.all.filter (· ∈ annotator.types) = Bracket.all.filter (· ∈ other.types) :=
    List.filter_congr fun bracket _ => decide_eq_decide.mpr (same bracket)
  unfold status
  rw [enabled, shown]

theorem LintAnnotator.status_congr {annotator other : LintAnnotator} (enabled : annotator.enabled = other.enabled)
    (keywords : annotator.keywords = other.keywords)
    (same : ∀ word, word ∈ annotator.words ↔ word ∈ other.words) : annotator.status = other.status := by
  have shown : annotator.known.filter (· ∈ annotator.words) = annotator.known.filter (· ∈ other.words) :=
    List.filter_congr fun word _ => decide_eq_decide.mpr (same word)
  unfold status
  rw [enabled, shown, known, known, keywords]

theorem Annotator.Alike.status_eq (alike : annotator.Alike other) : annotator.status = other.status := by
  cases alike with
  | same => rfl
  | types bracket same => exact congrArg Except.ok (BracketAnnotator.status_congr rfl same)
  | words lint same => exact congrArg Except.ok (LintAnnotator.status_congr rfl rfl same)

theorem Session.statusLines_of_alike (alike : ∀ family, (left.annotator family).Alike (right.annotator family)) :
    left.statusLines = right.statusLines := by
  have each : Annotator.status ∘ left.annotator = Annotator.status ∘ right.annotator :=
    funext fun family => (alike family).status_eq
  rw [statusLines, statusLines, annotators, annotators, List.mapM_map, List.mapM_map, each]

/-- What is drawn depends on toggles by the annotators only. -/
theorem Session.highlight_eq (session : Session) (base : Option (List Span)) : (session.highlight base).2 =
    compose session.untoggled.registry session.untoggled.source (base.getD session.untoggled.baseSpans.2)
      session.annotators := by
  cases base with
  | some base => rfl
  | none =>
    have base : session.untoggled.baseSpans.2 = session.baseSpans.2 := baseSpans_congr rfl rfl rfl
    rw [highlight_none, Option.getD_none, base]
    rfl

theorem compose_of_alike (registry : Registry) (source : Source) (base : List Span)
    (alike : ∀ family, (left.annotator family).Alike (right.annotator family)) :
    compose registry source base left.annotators = compose registry source base right.annotators := by
  have each (spans : List Span) (family : Family) : composeOne registry source spans (left.annotator family) =
      composeOne registry source spans (right.annotator family) := by
    rw [composeOne, composeOne, (alike family).added_eq, (alike family).family_eq]
  rw [compose, compose, Session.annotators, Session.annotators, List.foldlM_map, List.foldlM_map]
  simp only [each]

theorem Session.highlight_of_alike (untoggled : left.untoggled = right.untoggled)
    (alike : ∀ family, (left.annotator family).Alike (right.annotator family)) (base : Option (List Span)) :
    (left.highlight base).2 = (right.highlight base).2 := by
  rw [highlight_eq, highlight_eq, untoggled, compose_of_alike _ _ _ alike]

/-- The same toggles lead to the same annotators. -/
theorem Session.Toggled.alike (toLeft : session.Toggled events left) (toRight : session.Toggled others right)
    (same : SameToggles events others) (family : Family) : (left.annotator family).Alike (right.annotator family) := by
  have untoggled : left.untoggled = right.untoggled := toLeft.untoggled.trans toRight.untoggled.symm
  have even {toggle : Event} (noMode : toggle ≠ .cycleBlameMode) :
      Even (events.count toggle) ↔ Even (others.count toggle) := by
    rw [Nat.even_iff, Nat.even_iff, same.parities toggle noMode]
  have enabled (family : Family) : (left.annotator family).enabled = (right.annotator family).enabled := by
    rw [Bool.eq_iff_iff, toLeft.enabled, toRight.enabled, even (by simp)]
  have enabledBracket : left.bracket.enabled = right.bracket.enabled := enabled .bracket
  have enabledColor : left.color.enabled = right.color.enabled := enabled .color
  have enabledBlame : left.blame.enabled = right.blame.enabled := enabled .blame
  have enabledLint : left.lint.enabled = right.lint.enabled := enabled .lint
  have enabledSearch : left.search.enabled = right.search.enabled := enabled .search
  cases family with
  | bracket =>
    have others : right.bracket = { left.bracket with types := right.bracket.types } :=
      calc right.bracket
        _ = { enabled := right.bracket.enabled, types := right.bracket.types } := rfl
        _ = { enabled := left.bracket.enabled, types := right.bracket.types } := by rw [enabledBracket]
    rw [Session.annotator, Session.annotator, others]
    exact .types left.bracket fun bracket => by rw [toLeft.types, toRight.types, even (by simp)]
  | color =>
    have alike : left.color = right.color := congrArg ColorAnnotator.mk enabledColor
    rw [Session.annotator, Session.annotator, alike]
    exact .same _
  | blame =>
    have mode : left.blame.mode = right.blame.mode := by
      rw [toLeft.mode, toRight.mode, ← BlameMode.next_iterate_mod, same.modes, BlameMode.next_iterate_mod]
    have alike : left.blame = right.blame :=
      calc left.blame
        _ = { left.untoggled.blame with enabled := left.blame.enabled, mode := left.blame.mode } := rfl
        _ = { right.untoggled.blame with enabled := right.blame.enabled, mode := right.blame.mode } := by
          rw [untoggled, enabledBlame, mode]
        _ = right.blame := rfl
    rw [Session.annotator, Session.annotator, alike]
    exact .same _
  | lint =>
    have others : right.lint = { left.lint with words := right.lint.words } :=
      calc right.lint
        _ = { right.untoggled.lint with enabled := right.lint.enabled, words := right.lint.words } := rfl
        _ = { left.untoggled.lint with enabled := left.lint.enabled, words := right.lint.words } := by
          rw [untoggled, enabledLint]
    rw [Session.annotator, Session.annotator, others]
    exact .words left.lint fun word => by rw [toLeft.words, toRight.words, even (by simp)]
  | search =>
    have alike : left.search = right.search :=
      calc left.search
        _ = { left.untoggled.search with enabled := left.search.enabled } := rfl
        _ = { right.untoggled.search with enabled := right.search.enabled } := by rw [untoggled, enabledSearch]
        _ = right.search := rfl
    rw [Session.annotator, Session.annotator, alike]
    exact .same _

theorem SameToggles.of_perm (perm : events.Perm others) : SameToggles events others :=
  ⟨fun event _ => by rw [perm.count_eq], by rw [perm.count_eq]⟩

/-- However a viewer was used, toggles meet no fault and leave everything but the annotators and the message alone. They
switch what is toggled an odd number of times, and the mode moves on. The same toggles in another order lead to the same
annotators, status lines and drawings, and so do toggles of the same parities and, for the mode, of the same number modulo
four. -/
theorem Desk.toggles_run {config : SessionConfig} (built : Session.ofConfig config = .ok session) (uses : List Use)
    (toggles : ∀ event ∈ events, event.IsToggle) :
    let viewer := (Desk.run { session := session } uses).session
    let toggled := viewer.run events
    (∀ before event rest, events = before ++ event :: rest →
      ∃ reply, ((viewer.run before).step event).2 = .ok reply) ∧
    viewer.Toggled events toggled ∧
    (toggled.registry = viewer.registry ∧ toggled.search.selection = viewer.search.selection ∧
      toggled.source = viewer.source ∧ toggled.baseCache = viewer.baseCache) ∧
    ∀ others, events.Perm others ∨ ((∀ event ∈ others, event.IsToggle) ∧ SameToggles events others) →
      (∀ family, (toggled.annotator family).Alike ((viewer.run others).annotator family)) ∧
      toggled.statusLines = (viewer.run others).statusLines ∧
      ∀ base, (toggled.highlight base).2 = ((viewer.run others).highlight base).2 := by
  intro viewer toggled
  have standard : viewer.Standard := (Desk.standard_run built uses).annotators
  obtain ⟨run, replies⟩ := standard.toggled_run toggles
  refine ⟨replies, run, ?_, fun others given => ?_⟩
  · exact ⟨(congrArg Session.registry run.untoggled :), (congrArg (·.search.selection) run.untoggled :),
      (congrArg Session.source run.untoggled :), (congrArg Session.baseCache run.untoggled :)⟩
  · obtain ⟨alsoToggles, same⟩ : (∀ event ∈ others, event.IsToggle) ∧ SameToggles events others :=
      given.elim (fun perm => ⟨fun event member => toggles event (perm.mem_iff.mpr member), .of_perm perm⟩) id
    have other := (standard.toggled_run alsoToggles).1
    have alike := run.alike other same
    exact ⟨alike, Session.statusLines_of_alike alike,
      Session.highlight_of_alike (run.untoggled.trans other.untoggled.symm) alike⟩

/-- The mode goes all the way round, brackets are switched off and on, and round ones and the keyword for tasks once. -/
def mixedToggles : List Event :=
  [.cycleBlameMode, .toggleFamily .bracket, .toggleBracket "(", .cycleBlameMode, .toggleKeyword "TODO",
    .toggleFamily .bracket, .cycleBlameMode, .cycleBlameMode]

def remainingToggles : List Event :=
  [.toggleKeyword "TODO", .toggleBracket "("]

theorem Desk.toggles_run_mixed : ∃ session, Session.ofConfig { clock := ⟨0⟩ } = .ok session ∧
    (∀ event ∈ mixedToggles, event.IsToggle) ∧
    let viewer := (Desk.run { session := session } annotatedUses).session
    viewer.Toggled mixedToggles (viewer.run mixedToggles) ∧
    ((viewer.run mixedToggles).highlight none).2 = ((viewer.run mixedToggles.reverse).highlight none).2 ∧
    (viewer.run mixedToggles).statusLines = (viewer.run remainingToggles).statusLines := by
  have todo : Event.IsToggle (.toggleKeyword "TODO") := .keyword (by decide)
  have round : Event.IsToggle (.toggleBracket "(") := .bracket .round
  have toggles : ∀ event ∈ mixedToggles, event.IsToggle := by
    simp [mixedToggles, todo, round, Event.IsToggle.family, Event.IsToggle.mode]
  have remaining : ∀ event ∈ remainingToggles, event.IsToggle := by simp [remainingToggles, todo, round]
  have seen : ((Session.ofConfig { clock := ⟨0⟩ }).toOption.any fun _ => true) = true := by decide +kernel
  obtain ⟨session, built, _⟩ := Session.exists_of_any seen
  obtain ⟨_, toggled, _, same⟩ := Desk.toggles_run built annotatedUses toggles
  have parities : SameToggles mixedToggles remainingToggles := by decide +kernel
  exact ⟨session, built, toggles, toggled, (same _ (.inl mixedToggles.reverse_perm.symm)).2.2 none,
    (same _ (.inr ⟨remaining, parities⟩)).2.1⟩

end Marginalia
