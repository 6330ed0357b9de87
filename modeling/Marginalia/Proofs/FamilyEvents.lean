import Marginalia.Proofs.FamilyIds
import Marginalia.Proofs.StyleConflicts

namespace Marginalia

/-- The content that an event brings. -/
def Event.content? : Event → Option Content
  | .setContent content _ => some content
  | _ => none

/-- The family that an event is about. -/
def Event.family? : Event → Option Family
  | .toggleFamily family => some family
  | .toggleBracket _ => some .bracket
  | .toggleKeyword _ => some .lint
  | .cycleBlameMode => some .blame
  | .setAttribution _ => some .blame
  | .refreshClock => some .blame
  | .setSearchTerm _ => some .search
  | .clearSearch => some .search
  | .nextMatch => some .search
  | .previousMatch => some .search
  | .jumpToMatch _ => some .search
  | _ => none

/-- What becomes of a selection when another content is shown. -/
def Selection.again (content : Content) (selection : Selection) : Selection :=
  if selection.term.isEmpty then selection else .ofTerm content selection.term

/-- What can become of a selection while a content is shown. -/
inductive Selection.Follows (content : Content) (selection : Selection) : Selection → Prop
  | searched (term : String) : Follows content selection (.ofTerm content term)
  | cleared : Follows content selection {}
  | jumped (index : Int) : Follows content selection (selection.jump index)

/-- What the events of a family make of its annotator while a content is shown. The ids that authors are given are
defined in the registry afterwards. -/
inductive Annotator.Follows (content : Content) (registry : Registry) : Annotator → Annotator → Prop
  | kept (annotator : Annotator) : Follows content registry annotator annotator
  | switched (annotator : Annotator) (enabled : Bool) :
      Follows content registry annotator (annotator.withEnabled enabled)
  | typed (annotator : BracketAnnotator) (types : List Bracket) :
      Follows content registry (.bracket annotator) (.bracket { annotator with types := types })
  | worded (annotator : LintAnnotator) (words : List String) :
      Follows content registry (.lint annotator) (.lint { annotator with words := words })
  | moded (annotator : BlameAnnotator) (mode : BlameMode) :
      Follows content registry (.blame annotator) (.blame { annotator with mode := mode })
  | timed (annotator : BlameAnnotator) (now : Moment) :
      Follows content registry (.blame annotator) (.blame { annotator with now := now })
  | attributed (annotator : BlameAnnotator) (attribution : Attribution) {ids : List (String × String)}
      (known : ∀ name ∈ ids.map (·.2), IsAuthorId name ∧ registry.contains name = true) (now : Moment) :
      Follows content registry (.blame annotator)
        (.blame { annotator with attribution := attribution, authorIds := ids, now := now })
  | selected (annotator : SearchAnnotator) {selection : Selection}
      (follows : annotator.selection.Follows content selection) :
      Follows content registry (.search annotator) (.search { annotator with selection := selection })

/-- A session with another annotator, more permanent styles, and another message. -/
def Session.adjusted (session : Session) (annotator : Annotator) (added : StyleList) (message : String) : Session :=
  { session.withAnnotator annotator with
    registry := session.registry.withPermanent added
    message := message }

/-- What an event that brings no content makes of a session. Within a family it changes the annotator of the family,
and what it registers are styles of authors; beside the families it leaves all annotators alone. -/
inductive Session.Moves (session : Session) (event : Event) : Session → Prop
  | within {family : Family} {annotator : Annotator} {added : StyleList} (owner : event.family? = some family)
      (follows : Annotator.Follows session.source.content (session.registry.withPermanent added)
        (session.annotator family) annotator)
      (areIds : ∀ name ∈ added.map (·.1), IsAuthorId name) (message : String) :
      Moves session event (session.adjusted annotator added message)
  | beside (unowned : event.family? = none) (filetype : String) (clock : Moment) (focused : Option Nat)
      (message : String) :
      Moves session event { session with
        source := { session.source with filetype := filetype }
        clock := clock
        focused := focused
        message := message }

variable {session after : Session} {content : Content} {registry : Registry} {annotator next : Annotator}
  {family : Family} {event : Event}

theorem Session.family_annotator (session : Session) (family : Family) :
    (session.annotator family).family = family := by
  cases family <;> rfl

theorem Session.withAnnotator_annotator (session : Session) (family : Family) :
    session.withAnnotator (session.annotator family) = session := by
  cases family <;> rfl

theorem Registry.withPermanent_nil (registry : Registry) : registry.withPermanent [] = registry := by
  rw [withPermanent, List.append_nil]

theorem Annotator.Follows.family_eq (follows : Annotator.Follows content registry annotator next) :
    next.family = annotator.family := by
  cases follows with
  | switched _ enabled => cases annotator <;> rfl
  | _ => rfl

theorem Session.annotator_withAnnotator (session : Session) (annotator : Annotator) (family : Family) :
    (session.withAnnotator annotator).annotator family =
      if annotator.family = family then annotator else session.annotator family := by
  cases annotator <;> cases family <;> rfl

theorem Session.annotator_adjusted (session : Session) (annotator : Annotator) (added : StyleList) (message : String)
    (family : Family) :
    (session.adjusted annotator added message).annotator family =
      if annotator.family = family then annotator else session.annotator family := by
  cases annotator <;> cases family <;> rfl

theorem BracketAnnotator.toggle_eq_ok {annotator next : BracketAnnotator} {name : String}
    (toggled : annotator.toggle name = .ok next) :
    ∃ bracket, Bracket.ofName? name = some bracket ∧
      next = { annotator with types := toggleMember annotator.types bracket } := by
  unfold toggle at toggled
  split at toggled
  · rename_i bracket found
    exact ⟨bracket, found, (Except.ok.inj toggled).symm⟩
  · cases toggled

theorem LintAnnotator.toggle_eq_ok {annotator next : LintAnnotator} {word : String}
    (toggled : annotator.toggle word = .ok next) :
    word ∈ annotator.known ∧
      next = { annotator with words := toggleMember annotator.words word } := by
  unfold toggle at toggled
  split at toggled
  · rename_i known
    exact ⟨known, (Except.ok.inj toggled).symm⟩
  · cases toggled

theorem Session.searchAgain_eq (session : Session) :
    session.searchAgain = session.withSelection (session.search.selection.again session.source.content) := by
  unfold searchAgain Selection.again
  dsimp only
  split <;> rfl

theorem Selection.found_eq_nil {selection : Selection} {content : Content}
    (found : selection.found = findMatches content selection.term) (blank : selection.term = "") :
    selection.found = [] := by
  rw [found, blank]
  rfl

theorem Selection.again_found {selection : Selection} (content : Content)
    (idle : selection.term = "" → selection.found = []) :
    (selection.again content).found = findMatches content (selection.again content).term := by
  unfold again
  split
  · rename_i empty
    have blank : selection.term = "" := String.isEmpty_iff.mp empty
    rw [idle blank, blank]
    rfl
  · rfl

theorem Selection.jump_found (selection : Selection) (index : Int) :
    (selection.jump index).found = selection.found ∧ (selection.jump index).term = selection.term := by
  unfold jump
  split
  · exact ⟨rfl, rfl⟩
  · exact ⟨rfl, rfl⟩

/-- Matches that are searched, cleared or passed through are those of the content that is shown, or were found before. -/
theorem Selection.Follows.foundIn {selection next : Selection} {earlier : Content}
    (follows : selection.Follows content next) (found : selection.FoundIn earlier) :
    next.FoundIn content ∨ next.FoundIn earlier := by
  cases follows with
  | searched term => exact Or.inl rfl
  | cleared => exact Or.inl rfl
  | jumped index =>
    obtain ⟨kept, term⟩ := selection.jump_found index
    refine Or.inr ?_
    rw [FoundIn, kept, term]
    exact found

theorem Selection.Follows.standard {selection next : Selection} (follows : selection.Follows content next)
    (standard : selection.Standard) : next.Standard := by
  obtain ⟨stands, earlier, found⟩ := standard
  refine ⟨?_, (follows.foundIn found).elim (⟨_, ·⟩) (⟨_, ·⟩)⟩
  cases follows with
  | searched term => exact stands_ofTerm ..
  | cleared => exact stands_empty
  | jumped index => exact stands.jump index

theorem Selection.Stands.again {selection : Selection} (stands : selection.Stands) (content : Content) :
    (selection.again content).Stands := by
  unfold Selection.again
  split
  · exact stands
  · exact stands_ofTerm ..

theorem Selection.Standard.again {selection : Selection} (standard : selection.Standard) (content : Content) :
    (selection.again content).Standard := by
  unfold Selection.again
  split
  · exact standard
  · exact ⟨Selection.stands_ofTerm .., content, rfl⟩

/-- Whatever the events of a family do, its annotator stays a standard one. -/
theorem Annotator.Follows.standard (follows : Annotator.Follows content registry annotator next)
    (standard : annotator.Standard) : next.Standard := by
  cases follows with
  | kept _ => exact standard
  | switched _ enabled => cases annotator <;> exact standard
  | typed annotator types => trivial
  | worded annotator words => exact standard
  | moded annotator mode => exact standard
  | timed annotator now => exact standard
  | attributed annotator attribution known now => exact fun name member => (known name member).1
  | selected annotator follows => exact follows.standard standard

theorem Session.Moves.of_report (owner : event.family? = some family)
    (follows : Annotator.Follows session.source.content session.registry (session.annotator family) annotator)
    (reported : Family) (reply : Reply) :
    session.Moves event ((session.withAnnotator annotator).report reported reply).1 := by
  have moved (message : String) : session.Moves event { session.withAnnotator annotator with message := message } := by
    have adjusted : session.Moves event (session.adjusted annotator [] message) :=
      .within owner (by rwa [Registry.withPermanent_nil]) (by simp) _
    rw [Session.adjusted, Registry.withPermanent_nil] at adjusted
    cases annotator <;> exact adjusted
  unfold Session.report
  split
  · exact moved _
  · exact moved (session.withAnnotator annotator).message

theorem Session.Moves.of_selection {selection : Selection} (owner : event.family? = some .search)
    (follows : session.search.selection.Follows session.source.content selection) (reply : Reply) :
    session.Moves event ((session.withSelection selection).report .search reply).1 := by
  have selected : Annotator.Follows session.source.content session.registry (session.annotator .search)
    (.search { session.search with selection := selection }) := .selected session.search follows
  exact .of_report owner selected ..

theorem Session.Moves.of_kept (owner : event.family? = some family) : session.Moves event session := by
  have adjusted : session.Moves event (session.adjusted (session.annotator family) [] session.message) :=
    .within owner (.kept _) (by simp) _
  rwa [Session.adjusted, Registry.withPermanent_nil, withAnnotator_annotator] at adjusted

theorem Session.moves_setAttribution (session : Session) (records : List Record) :
    session.Moves (.setAttribution records) (session.setAttribution records).1 := by
  have owner : (Event.setAttribution records).family? = some .blame := rfl
  unfold setAttribution
  split
  · exact .of_kept owner
  · split
    · exact .of_kept owner
    · rename_i _ attribution _ _ authors built
      have sound := AuthorStyles.sound_of_ofAuthors built
      obtain ⟨added, result, subset, complete⟩ := session.registry.registerAll_permanent authors.styles
      have areIds : ∀ name ∈ added.map (·.1), IsAuthorId name := by
        intro name member
        obtain ⟨entry, inAdded, rfl⟩ := List.mem_map.mp member
        exact sound.authorIds _ (List.mem_map_of_mem (subset entry inAdded))
      split
      · rename_i registry fault failed
        -- the authors in front of the refused one keep their styles, the attribution is not taken
        rw [failed] at result
        obtain rfl : registry = session.registry.withPermanent added := result
        exact .within owner (.kept _) areIds session.message
      · rename_i registry _ registered
        rw [registered] at result complete
        obtain rfl : registry = session.registry.withPermanent added := result
        have known : ∀ name ∈ authors.idOf.map (·.2),
            IsAuthorId name ∧ (session.registry.withPermanent added).contains name = true := by
          intro name member
          obtain ⟨entry, inIds, rfl⟩ := List.mem_map.mp member
          have defined := sound.defined entry inIds
          exact ⟨sound.authorIds _ defined, complete rfl _ defined⟩
        exact .within owner (.attributed _ attribution known session.clock) areIds session.message

/-- All that events without a content do, with or without a fault. -/
theorem Session.moves_step (session : Session) (contentless : event.content? = none) :
    session.Moves event (session.step event).1 := by
  cases event with
  | setContent content filetype => cases contentless
  | setFiletype filetype => exact .beside rfl filetype session.clock session.focused session.message
  | toggleFamily family => exact .of_report rfl (.switched _ _) ..
  | toggleBracket name =>
    unfold Session.step toggleBracket
    dsimp only
    split
    · exact .of_kept rfl
    · rename_i annotator toggled
      obtain ⟨bracket, _, rfl⟩ := BracketAnnotator.toggle_eq_ok toggled
      have typed : Annotator.Follows session.source.content session.registry (session.annotator .bracket) (.bracket
        { session.bracket with types := toggleMember session.bracket.types bracket }) := .typed ..
      exact .of_report rfl typed ..
  | toggleKeyword word =>
    unfold Session.step toggleKeyword
    dsimp only
    split
    · exact .of_kept rfl
    · rename_i annotator toggled
      obtain ⟨_, rfl⟩ := LintAnnotator.toggle_eq_ok toggled
      have worded : Annotator.Follows session.source.content session.registry (session.annotator .lint) (.lint
        { session.lint with words := toggleMember session.lint.words word }) := .worded ..
      exact .of_report rfl worded ..
  | cycleBlameMode =>
    have cycled : Annotator.Follows session.source.content session.registry (session.annotator .blame)
      (.blame { session.blame with mode := session.blame.mode.next }) := .moded ..
    exact .of_report rfl cycled ..
  | setAttribution records => exact session.moves_setAttribution records
  | setClock now => exact .beside rfl session.source.filetype now session.focused session.message
  | refreshClock =>
    have timed : session.Moves .refreshClock
        (session.adjusted (.blame { session.blame with now := session.clock }) [] session.message) :=
      .within rfl (.timed session.blame session.clock) (by simp) _
    rwa [Session.adjusted, Registry.withPermanent_nil] at timed
  | setSearchTerm term => exact .of_selection rfl (.searched term) _
  | clearSearch => exact .of_selection rfl .cleared _
  | nextMatch => exact .of_selection rfl (.jumped _) _
  | previousMatch => exact .of_selection rfl (.jumped _) _
  | jumpToMatch index => exact .of_selection rfl (.jumped index) _
  | jumpToLine line =>
    unfold Session.step jumpToLine
    dsimp only
    split
    · exact .beside rfl session.source.filetype session.clock _ _
    · exact .beside rfl session.source.filetype session.clock session.focused session.message

/-- What the events of a family keep of its annotator, they keep of all annotators. -/
theorem Session.Moves.annotators {motive : Annotator → Prop} (moved : session.Moves event after)
    (each : ∀ {annotator next}, Annotator.Follows session.source.content after.registry annotator next →
      motive annotator → motive next)
    (all : ∀ family, motive (session.annotator family)) (family : Family) : motive (after.annotator family) := by
  cases moved with
  | beside =>
    have kept := all family
    cases family <;> exact kept
  | within owner follows areIds message =>
    -- the annotator of the family follows the one before, all others are the same
    rw [annotator_adjusted]
    split
    · exact each follows (all _)
    · exact all family

theorem Session.Standard.of_moves (standard : session.Standard) (moved : session.Moves event after) :
    after.Standard :=
  moved.annotators (fun follows standard => follows.standard standard) standard

/-- Matches of a search annotator that were found in a content. -/
def Annotator.FoundIn (content : Content) : Annotator → Prop
  | .search annotator => annotator.selection.FoundIn content
  | _ => True

theorem Annotator.Follows.foundIn (follows : Annotator.Follows content registry annotator next)
    (found : annotator.FoundIn content) : next.FoundIn content := by
  cases follows with
  | kept _ => exact found
  | switched _ enabled => cases annotator <;> exact found
  | selected annotator follows => exact (follows.foundIn found).elim id id
  | _ => trivial

/-- While a content is shown, the matches stay those of the content. -/
theorem Session.Moves.foundIn (moved : session.Moves event after)
    (found : session.search.selection.FoundIn session.source.content) :
    after.search.selection.FoundIn session.source.content := by
  have all : ∀ family, (session.annotator family).FoundIn session.source.content := by
    intro family
    cases family with
    | search => exact found
    | _ => trivial
  exact moved.annotators (fun follows found => follows.foundIn found) all .search

end Marginalia
