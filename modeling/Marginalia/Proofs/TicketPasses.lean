import Marginalia.Session.Highlight

namespace Marginalia

/-- Formats that were built once are of no concern to a pass. -/
theorem compose_snapshot (registry : Registry) (source : Source) (base : List Span) (annotators : List Annotator) :
    compose registry.snapshot source base annotators = compose registry source base annotators := rfl

theorem Ticket.spans_run (ticket : Ticket) :
    ticket.run.map (·.spans) = compose ticket.registry ticket.source
      (ticket.base.getD (tokenize ticket.source.content ticket.source.filetype)) ticket.annotators := by
  unfold run
  dsimp only
  cases compose ticket.registry ticket.source
    (ticket.base.getD (tokenize ticket.source.content ticket.source.filetype)) ticket.annotators <;> rfl

theorem Ticket.run_eq_ok {ticket : Ticket} {pass : Pass} (made : ticket.run = .ok pass) :
    pass.ticket = ticket ∧
      pass.base = ticket.base.getD (tokenize ticket.source.content ticket.source.filetype) := by
  unfold run at made
  dsimp only at made
  cases composed : compose ticket.registry ticket.source
      (ticket.base.getD (tokenize ticket.source.content ticket.source.filetype)) ticket.annotators with
  | error fault =>
    rw [composed] at made
    cases made
  | ok spans =>
    rw [composed] at made
    cases made
    exact ⟨rfl, rfl⟩

/-- A pass whose ticket came without a base has read that of its content. -/
theorem Ticket.base_run {pass : Pass} (made : pass.ticket.run = .ok pass) (own : pass.ticket.base = none) :
    pass.base = tokenize pass.ticket.source.content pass.ticket.source.filetype := by
  have base := (Ticket.run_eq_ok made).2
  rwa [own] at base

theorem Session.cachedBase?_eq_some {session : Session} {spans : List Span} (kept : session.cachedBase? = some spans) :
    ∃ cache ∈ session.baseCache, cache.version = session.version ∧ cache.filetype = session.source.filetype ∧
      cache.spans = spans := by
  unfold cachedBase? at kept
  split at kept
  · rename_i cache found
    obtain ⟨⟨current, filetype⟩, same⟩ := Option.ite_none_right_eq_some.mp kept
    exact ⟨cache, found, current, filetype, Option.some.inj same⟩
  · cases kept

/-- The base spans are those that are kept, or they are read now and then kept. -/
theorem Session.baseSpans_cases (session : Session) :
    let read := tokenize session.source.content session.source.filetype
    (∃ spans, session.cachedBase? = some spans ∧ session.baseSpans = (session, spans)) ∨
      session.baseSpans =
        ({ session with baseCache := some ⟨session.version, session.source.filetype, read⟩ }, read) := by
  unfold baseSpans
  cases kept : session.cachedBase? with
  | some spans => exact Or.inl ⟨spans, rfl, rfl⟩
  | none => exact Or.inr rfl

/-- Reading the base spans changes nothing but those that are kept. -/
theorem Session.baseSpans_frame (session : Session) :
    ∃ cache, session.baseSpans.1 = { session with baseCache := cache } := by
  rcases session.baseSpans_cases with ⟨_, _, kept⟩ | read
  · rw [kept]
    exact ⟨session.baseCache, rfl⟩
  · rw [read]
    exact ⟨_, rfl⟩

theorem Session.baseSpans_congr {session other : Session} (source : session.source = other.source)
    (version : session.version = other.version) (cache : session.baseCache = other.baseCache) :
    session.baseSpans.2 = other.baseSpans.2 := by
  have cached : session.cachedBase? = other.cachedBase? := by rw [cachedBase?, cachedBase?, source, version, cache]
  unfold baseSpans
  rw [cached, source]
  cases other.cachedBase? <;> rfl

theorem Session.highlight_none (session : Session) : (session.highlight none).2 =
    compose session.registry session.source session.baseSpans.2 session.annotators := by
  obtain ⟨cache, frame⟩ := session.baseSpans_frame
  unfold highlight
  dsimp only
  rw [frame]
  rfl

/-- Handing a pass over changes nothing, or it leaves base spans that the pass has read itself. -/
theorem Session.accept_cases (session : Session) (pass : Pass) : (session.accept pass).1 = session ∨
    pass.ticket.base = none ∧ (session.accept pass).1 =
      { session with baseCache := some ⟨pass.ticket.version, pass.ticket.source.filetype, pass.base⟩ } := by
  unfold accept keepBase
  dsimp only
  split
  · rename_i own
    exact Or.inr ⟨Option.isNone_iff_eq_none.mp own.1, rfl⟩
  · exact Or.inl rfl

theorem Session.accept_frame (session : Session) (pass : Pass) :
    ∃ cache, (session.accept pass).1 = { session with baseCache := cache } := by
  rcases session.accept_cases pass with same | ⟨_, kept⟩
  · exact ⟨session.baseCache, same⟩
  · exact ⟨_, kept⟩

/-- A pass over a base that it was given leaves nothing. -/
theorem Session.accept_of_isSome (session : Session) {pass : Pass} (given : pass.ticket.base.isSome = true) :
    (session.accept pass).1 = session := by
  rcases session.accept_cases pass with same | ⟨own, _⟩
  · exact same
  · rw [own] at given
    cases given

end Marginalia
