import Marginalia.Proofs.DeskCache

namespace Marginalia

/-- A viewer in use has standard annotators, keeps base spans that were read from some content, and takes passes that
were made of their tickets. -/
structure Desk.Standard (desk : Desk) : Prop where
  annotators : desk.session.Standard
  cache : ∀ cache ∈ desk.session.baseCache, ∃ content, cache.spans = tokenize content cache.filetype
  passes : ∀ pass ∈ desk.passes, pass.ticket.run = .ok pass

variable {session after : Session} {desk : Desk} {event : Event}

/-- The state of a standard annotator can be shown. -/
theorem Session.report_withAnnotator (session : Session) (annotator : Annotator) (standard : annotator.Standard)
    (reply : Reply) : ∃ message, (session.withAnnotator annotator).report annotator.family reply =
      (session.adjusted annotator [] message, .ok reply) := by
  obtain ⟨message, shown⟩ := standard.status
  refine ⟨message, ?_⟩
  rw [report, annotator_withAnnotator, if_pos rfl, shown, adjusted, Registry.withPermanent_nil]
  cases annotator <;> rfl

theorem Session.Standard.of_annotator_eq (standard : session.Standard)
    (same : ∀ family, after.annotator family = session.annotator family) : after.Standard := by
  intro family
  rw [same]
  exact standard family

theorem Session.Standard.setContent (standard : session.Standard) (content : Content) (filetype : Option String) :
    (session.setContent content filetype).1.Standard := by
  rcases session.setContent_cases content filetype with ⟨registry, changed, shown⟩ | ⟨registry, fault, refused⟩
  · rw [shown, showing_eq]
    intro family
    cases family with
    | search => exact (standard .search : session.search.selection.Standard).again content
    | bracket => exact standard .bracket
    | color => exact standard .color
    | blame => exact standard .blame
    | lint => exact standard .lint
  · rw [refused]
    exact standard.of_annotator_eq fun family => by cases family <;> rfl

theorem Session.Standard.step (standard : session.Standard) (event : Event) : (session.step event).1.Standard := by
  cases event with
  | setContent content filetype => exact standard.setContent content filetype
  | _ => exact standard.of_moves (session.moves_step rfl)

theorem Session.Standard.toggleFamily (standard : session.Standard) (family : Family) :
    ∃ message, session.toggleFamily family =
      (session.adjusted ((session.annotator family).withEnabled !(session.annotator family).enabled) [] message,
        .ok (.flag !(session.annotator family).enabled)) := by
  have follows : Annotator.Follows session.source.content session.registry (session.annotator family)
    ((session.annotator family).withEnabled !(session.annotator family).enabled) := .switched ..
  obtain ⟨message, shown⟩ := session.report_withAnnotator _ (follows.standard (standard family))
    (.flag !(session.annotator family).enabled)
  rw [follows.family_eq, family_annotator] at shown
  exact ⟨message, shown⟩

theorem Session.Standard.statusLines (standard : session.Standard) : ∃ lines, session.statusLines = .ok lines := by
  have each : ∀ annotator ∈ session.annotators, annotator.status = .ok (annotator.status.toOption.getD "") := by
    intro annotator member
    obtain ⟨family, _, rfl⟩ := List.mem_map.mp member
    obtain ⟨text, shown⟩ := (standard family).status
    rw [shown]
    rfl
  exact ⟨_, mapM_eq_ok each⟩

theorem Session.standard_of_ofConfig {config : SessionConfig} (built : Session.ofConfig config = .ok session) :
    session.Standard ∧ session.baseCache = none := by
  obtain ⟨initial, starts, changed, opened⟩ := Session.ofConfig_eq_ok built
  have standard : initial.Standard := by
    intro family
    cases family with
    | bracket => trivial
    | color => trivial
    | blame =>
      intro name member
      rw [starts.authors] at member
      cases member
    | lint => exact starts.keywords
    | search =>
      have selection : initial.search.selection.Standard := by
        rw [starts.selection]
        exact ⟨Selection.stands_empty, [], rfl⟩
      exact selection
  have kept := standard.setContent [] (some "")
  have cache := initial.baseCache_step (.setContent [] (some ""))
  rw [Session.step, opened] at cache
  rw [opened] at kept
  exact ⟨kept, cache.trans starts.cache⟩

/-- The base spans are those of some content, whether they were kept or are read now. -/
theorem Desk.Standard.baseSpans (standard : desk.Standard) :
    ∃ content, desk.session.baseSpans.2 = tokenize content desk.session.source.filetype := by
  rcases desk.session.baseSpans_cases with ⟨spans, cached, kept⟩ | read
  · obtain ⟨cache, found, _, filetype, rfl⟩ := Session.cachedBase?_eq_some cached
    obtain ⟨content, read⟩ := standard.cache cache found
    rw [kept]
    exact ⟨content, filetype ▸ read⟩
  · rw [read]
    exact ⟨_, rfl⟩

theorem Desk.Standard.of_baseSpans (standard : desk.Standard) :
    Desk.Standard { desk with session := desk.session.baseSpans.1 } := by
  rcases desk.session.baseSpans_cases with ⟨_, _, kept⟩ | read
  · rw [kept]
    exact standard
  · rw [read]
    refine ⟨standard.annotators.of_annotator_eq fun family => by cases family <;> rfl, fun cache kept => ?_,
      standard.passes⟩
    cases kept
    exact ⟨_, rfl⟩

theorem Desk.Standard.runTicket (standard : desk.Standard) (place : Nat) : (desk.runTicket place).Standard := by
  rcases desk.runTicket_cases place with same | ⟨pass, _, made, same⟩
  · rw [same]
    exact standard
  · rw [same]
    refine ⟨standard.annotators, standard.cache, fun other member => ?_⟩
    rcases List.mem_append.mp member with old | new
    · exact standard.passes other old
    · rw [List.mem_singleton.mp new]
      exact made

theorem Desk.Standard.acceptPass (standard : desk.Standard) (place : Nat) : (desk.acceptPass place).Standard := by
  rcases desk.acceptPass_cases place with same | ⟨pass, held, same⟩
  · rw [same]
    exact standard
  · rw [same]
    rcases desk.session.accept_cases pass with kept | ⟨own, kept⟩
    · rw [kept]
      exact standard
    · rw [kept]
      refine ⟨standard.annotators.of_annotator_eq fun family => by cases family <;> rfl, fun cache kept => ?_,
        standard.passes⟩
      cases kept
      exact ⟨_, Ticket.base_run (standard.passes pass held) own⟩

/-- Whatever is done with a viewer, with or without a fault, it stays a standard one. -/
theorem Desk.Standard.use (standard : desk.Standard) (use : Use) : (desk.use use).Standard := by
  cases use with
  | event event =>
    refine ⟨standard.annotators.step event, fun cache kept => standard.cache cache ?_, standard.passes⟩
    rwa [← desk.session.baseCache_step event]
  | restyle registry =>
    exact ⟨standard.annotators.of_annotator_eq fun family => by cases family <;> rfl, standard.cache, standard.passes⟩
  | baseSpans => exact standard.of_baseSpans
  | highlight base =>
    cases base with
    | none => exact standard.of_baseSpans
    | some base => exact standard
  | request base =>
    exact ⟨standard.annotators.of_annotator_eq fun family => by cases family <;> rfl, standard.cache, standard.passes⟩
  | run place => exact standard.runTicket place
  | accept place => exact standard.acceptPass place

theorem Desk.standard_run {config : SessionConfig} (built : Session.ofConfig config = .ok session) (uses : List Use) :
    (Desk.run { session := session } uses).Standard := by
  obtain ⟨annotators, cache⟩ := Session.standard_of_ofConfig built
  have started : Desk.Standard { session := session } :=
    { annotators := annotators
      cache := fun kept member => by rw [cache] at member; cases member
      passes := fun pass none => absurd none List.not_mem_nil }
  exact Desk.run_keeps (fun desk use _ standard => standard.use use) started

/-- What is drawn without a base is the base spans of some content, and then the spans of the annotators, all of which
pass. -/
theorem Desk.Standard.highlight (standard : desk.Standard) {spans : List Span}
    (drawn : (desk.session.highlight none).2 = .ok spans) :
    ∃ content, spans = tokenize content desk.session.source.filetype ++
        desk.session.annotators.flatMap (Annotator.spans desk.session.source) ∧
      ∀ span ∈ desk.session.annotators.flatMap (Annotator.spans desk.session.source),
        span.Passes desk.session.registry desk.session.source := by
  obtain ⟨content, read⟩ := standard.baseSpans
  rw [Session.highlight_none, read] at drawn
  refine ⟨content, compose_eq_ok (fun annotator member => ?_) drawn⟩
  obtain ⟨family, _, rfl⟩ := List.mem_map.mp member
  exact ((standard.annotators family).added _).1

end Marginalia
