import Marginalia.Proofs.FamilyEvents

namespace Marginalia

/-- Different contents have different fingerprints. -/
def FingerprintsApart (contents : List Content) : Prop :=
  ∀ left ∈ contents, ∀ right ∈ contents, fingerprint left = fingerprint right → left = right

/-- A session that goes on with the content, the version, the generation and the base spans of another one; its
permanent styles are those of the other one and styles of authors. -/
structure Session.Continues (before after : Session) : Prop where
  content : after.source.content = before.source.content
  version : after.version = before.version
  generation : after.generation = before.generation
  cache : after.baseCache = before.baseCache
  styles : ∀ name ∈ after.registry.permanent.map (·.1),
    name ∈ before.registry.permanent.map (·.1) ∨ IsAuthorId name

variable {session before after : Session} {event : Event}

theorem Session.Moves.continues (moved : before.Moves event after) : before.Continues after := by
  cases moved with
  | beside => exact ⟨rfl, rfl, rfl, rfl, fun _ member => Or.inl member⟩
  | @within family annotator added owner follows areIds message =>
    have styles : ∀ name ∈ (before.registry.withPermanent added).permanent.map (·.1),
        name ∈ before.registry.permanent.map (·.1) ∨ IsAuthorId name := by
      intro name member
      rw [Registry.withPermanent, List.map_append] at member
      exact (List.mem_append.mp member).imp_right (areIds name)
    cases annotator <;> exact ⟨rfl, rfl, rfl, rfl, styles⟩

theorem Session.Moves.permanent_subset (moved : before.Moves event after) :
    before.registry.permanent.map (·.1) ⊆ after.registry.permanent.map (·.1) := by
  cases moved with
  | beside => exact List.Subset.refl _
  | within =>
    rw [adjusted, Registry.withPermanent, List.map_append]
    exact List.subset_append_left ..

/-- Only a new content interrupts a session. -/
theorem Session.continues_step (session : Session) (contentless : event.content? = none) :
    session.Continues (session.step event).1 :=
  (session.moves_step contentless).continues

/-- A session that has taken over a source, with a registry for it. -/
def Session.showing (session : Session) (source : Source) (registry : Registry) : Session :=
  (Session.refreshClock { session with
    source := source, registry := registry, version := fingerprint source.content }).searchAgain

/-- Beside what it takes over, such a session has only read the clock and searched again. -/
theorem Session.showing_eq (session : Session) (source : Source) (registry : Registry) :
    session.showing source registry = { session with
      source := source
      registry := registry
      version := fingerprint source.content
      blame := { session.blame with now := session.clock }
      search := { session.search with selection := session.search.selection.again source.content } } := by
  rw [showing, searchAgain_eq]
  rfl

theorem Session.continues_showing (session : Session) (source : Source) (registry : Registry) :
    Session.Continues { session with
      source := source, registry := registry, version := fingerprint source.content }
      (session.showing source registry) := by
  rw [showing_eq]
  exact ⟨rfl, rfl, rfl, rfl, fun _ member => Or.inl member⟩

/-- A content is shown, or it meets a fault and only replaces the one before it. -/
theorem Session.setContent_cases (session : Session) (content : Content) (filetype : Option String) :
    let source : Source := ⟨content, filetype.getD session.source.filetype⟩
    (∃ registry changed, session.setContent content filetype = (session.showing source registry, .ok changed)) ∨
      ∃ registry fault, session.setContent content filetype =
        ({ session with source := source, registry := registry }, .error fault) := by
  unfold Session.setContent
  dsimp only
  split
  · split
    · exact Or.inr ⟨_, _, rfl⟩
    · exact Or.inl ⟨_, _, rfl⟩
  · exact Or.inl ⟨_, _, rfl⟩

theorem Session.setContent_eq_ok {content : Content} {filetype : Option String} {changed : Bool}
    (taken : before.setContent content filetype = (after, .ok changed)) :
    ∃ registry, after = before.showing ⟨content, filetype.getD before.source.filetype⟩ registry := by
  rcases before.setContent_cases content filetype with ⟨registry, _, shown⟩ | ⟨_, _, refused⟩
  · exact ⟨registry, congrArg Prod.fst (taken.symm.trans shown)⟩
  · cases congrArg Prod.snd (taken.symm.trans refused)

/-- A registry of some styles has all of their ids and no other style. -/
theorem Registry.ofStyles_ok {styles : StyleList} {registry : Registry}
    (built : Registry.ofStyles styles = (registry, .ok ())) :
    registry.version = none ∧ registry.versioned = [] ∧ registry.permanent ⊆ styles ∧
      styles.map (·.1) ⊆ registry.permanent.map (·.1) := by
  obtain ⟨added, result, subset, complete⟩ := Registry.registerAll_permanent {} styles
  have outcome : Registry.registerAll {} .permanent styles = (registry, .ok ()) := built
  rw [outcome] at result complete
  dsimp only at result complete
  subst result
  refine ⟨rfl, rfl, fun entry member => subset entry member, fun name member => ?_⟩
  rcases Registry.contains_iff.mp (complete rfl name member) with permanent | versioned
  · exact permanent
  · cases versioned

/-- A session with the styles and the settings of a configuration, before it takes a content. -/
structure Session.Starts (config : SessionConfig) (session : Session) : Prop where
  registered : Registry.ofStyles config.styles = (session.registry, .ok ())
  tints : session.tints = config.tints
  strict : session.strict = config.choice.strict
  focused : session.focused = none
  authors : session.blame.authorIds = []
  keywords : session.lint.keywords = defaultKeywords
  selection : session.search.selection = {}
  cache : session.baseCache = none

/-- A new session is one that starts with its configuration and has taken the empty content. -/
theorem Session.ofConfig_eq_ok {config : SessionConfig} (built : Session.ofConfig config = .ok session) :
    ∃ initial : Session, initial.Starts config ∧
      ∃ changed, initial.setContent [] (some "") = (session, .ok changed) := by
  unfold Session.ofConfig at built
  cases registered : Registry.ofStyles config.styles with
  | mk registry outcome =>
    rw [registered] at built
    cases outcome with
    | error fault => cases built
    | ok _ =>
      cases decoded : decodeRgb config.background.toList with
      | error fault =>
        rw [decoded] at built
        cases built
      | ok background =>
        rw [decoded] at built
        have opens (initial : Session) (built : (do
            discard (initial.setContent [] (some "")).2
            return (initial.setContent [] (some "")).1) = Except.ok session) :
            ∃ changed, initial.setContent [] (some "") = (session, .ok changed) := by
          cases opened : initial.setContent [] (some "") with
          | mk after outcome =>
            rw [opened] at built
            cases outcome with
            | error fault => cases built
            | ok changed =>
              cases built
              exact ⟨changed, rfl⟩
        exact ⟨_, ⟨registered, rfl, rfl, rfl, rfl, rfl, rfl, rfl⟩, opens _ built⟩

theorem Session.generation_setContent (session : Session) (content : Content) (filetype : Option String) :
    (session.setContent content filetype).1.generation = session.generation := by
  rcases session.setContent_cases content filetype with ⟨_, _, shown⟩ | ⟨_, _, refused⟩
  · rw [shown]
    exact (session.continues_showing ..).generation
  · rw [refused]

/-- No event asks for a pass. -/
theorem Session.generation_step (session : Session) (event : Event) :
    (session.step event).1.generation = session.generation := by
  cases event with
  | setContent content filetype => exact session.generation_setContent content filetype
  | _ => exact (session.continues_step rfl).generation

theorem Session.baseCache_step (session : Session) (event : Event) :
    (session.step event).1.baseCache = session.baseCache := by
  cases event with
  | setContent content filetype =>
    rcases session.setContent_cases content filetype with ⟨_, _, shown⟩ | ⟨_, _, refused⟩
    · rw [Session.step, shown]
      exact (session.continues_showing ..).cache
    · rw [Session.step, refused]
  | _ => exact (session.continues_step rfl).cache

end Marginalia
