import Marginalia.Proofs.SessionFrames

namespace Marginalia

/-- No permanent style of a session has an id that a color literal can take. -/
def Session.Colorless (session : Session) : Prop :=
  ∀ name ∈ session.registry.permanent.map (·.1), ¬IsColorId name

/-- The registry of a session belongs to the content that is shown: it is sealed under the version of the content, with
the swatches of the content. -/
structure Session.Swatched (contents : List Content) (session : Session) : Prop where
  colorless : session.Colorless
  shown : session.source.content ∈ contents
  version : session.version = fingerprint session.source.content
  current : session.registry.version = some session.version
  isSealed : session.registry.isSealed = true
  swatches : session.registry.versioned = swatchTable session.source.content session.background

variable {contents : List Content} {session before after : Session} {event : Event}

theorem Session.Colorless.of_continues (colorless : before.Colorless) (continued : before.Continues after) :
    after.Colorless := by
  intro name member
  rcases continued.styles name member with old | isAuthorId
  · exact colorless name old
  · exact isAuthorId.not_isColorId

/-- A content can only meet a fault where a permanent style has the id of one of its swatches. Otherwise it is shown:
with the registry as it was if that has its version, and else with a registry of its version and its swatches. -/
theorem Session.Colorless.setContent_cases (colorless : session.Colorless) (content : Content)
    (filetype : Option String) :
    let source : Source := ⟨content, filetype.getD session.source.filetype⟩
    (session.registry.version = some (fingerprint content) ∧
      session.setContent content filetype = (session.showing source session.registry, .ok false)) ∨
    session.registry.version ≠ some (fingerprint content) ∧ ∃ registry,
      session.setContent content filetype = (session.showing source registry, .ok true) ∧
      registry.permanent = session.registry.permanent ∧ registry.version = some (fingerprint content) ∧
      registry.isSealed = true ∧ registry.versioned = swatchTable content session.background := by
  unfold Session.setContent
  dsimp only
  by_cases same : session.registry.version = some (fingerprint content)
  · rw [Registry.beginVersion_of_eq same]
    exact Or.inl ⟨same, rfl⟩
  · obtain ⟨opened, begun, permanent, fresh, current, unsealed⟩ := Registry.beginVersion_of_ne same
    rw [begun]
    dsimp only
    have names : opened.names = session.registry.permanent.map (·.1) := by
      rw [Registry.names, permanent, fresh, List.map_nil, List.append_nil]
    rw [if_pos rfl, Registry.registerSwatches_eq unsealed (names ▸ colorless), fresh]
    exact Or.inr ⟨same, _, rfl, permanent, current, rfl, rfl⟩

/-- Of the registry only the versioned styles change: they stay, or are the swatches of the content. -/
theorem Session.Colorless.setContent_eq (colorless : session.Colorless) (content : Content)
    (filetype : Option String) :
    ∃ registry changed, session.setContent content filetype =
        (session.showing ⟨content, filetype.getD session.source.filetype⟩ registry, .ok changed) ∧
      registry.permanent = session.registry.permanent ∧
      (registry.versioned = session.registry.versioned ∨
        registry.versioned = swatchTable content session.background) := by
  rcases colorless.setContent_cases content filetype with ⟨_, shown⟩ | ⟨_, registry, shown, permanent, _, _, swatches⟩
  · exact ⟨_, _, shown, rfl, Or.inl rfl⟩
  · exact ⟨registry, _, shown, permanent, Or.inr swatches⟩

theorem Session.Colorless.showing (colorless : session.Colorless) (source : Source) {registry : Registry}
    (permanent : registry.permanent = session.registry.permanent) : (session.showing source registry).Colorless := by
  have opened : Session.Colorless { session with
      source := source, registry := registry, version := fingerprint source.content } := by
    intro name member
    change name ∈ registry.permanent.map (·.1) at member
    rw [permanent] at member
    exact colorless name member
  exact opened.of_continues (session.continues_showing ..)

theorem Session.Colorless.setContent (colorless : session.Colorless) (content : Content) (filetype : Option String) :
    ∃ after changed, session.setContent content filetype = (after, .ok changed) ∧ after.Colorless := by
  obtain ⟨registry, changed, taken, permanent, _⟩ := colorless.setContent_eq content filetype
  exact ⟨_, changed, taken, colorless.showing _ permanent⟩

theorem Session.Colorless.swatched_showing (colorless : session.Colorless) {source : Source} {registry : Registry}
    (shown : source.content ∈ contents) (permanent : registry.permanent = session.registry.permanent)
    (current : registry.version = some (fingerprint source.content)) (isSealed : registry.isSealed = true)
    (swatches : registry.versioned = swatchTable source.content session.background) :
    (session.showing source registry).Swatched contents := by
  have kept := colorless.showing source permanent
  rw [showing_eq] at kept ⊢
  exact ⟨kept, shown, rfl, current, isSealed, swatches⟩

theorem Session.Swatched.of_moves (swatched : session.Swatched contents) (moved : session.Moves event after) :
    after.Swatched contents := by
  have colorless := swatched.colorless.of_continues moved.continues
  cases moved with
  | beside => exact ⟨colorless, swatched.shown, swatched.version, swatched.current, swatched.isSealed, swatched.swatches⟩
  | @within family annotator added owner follows areIds message =>
    cases annotator <;>
      exact ⟨colorless, swatched.shown, swatched.version, swatched.current, swatched.isSealed, swatched.swatches⟩

/-- A content is taken over, and the answer tells whether it is another one. -/
theorem Session.Swatched.setContent (swatched : session.Swatched contents) (apart : FingerprintsApart contents)
    {content : Content} (inContents : content ∈ contents) (filetype : Option String) :
    (session.setContent content filetype).1.Swatched contents ∧
      (session.setContent content filetype).2 = .ok (decide (content ≠ session.source.content)) := by
  rcases swatched.colorless.setContent_cases content filetype with
    ⟨same, shown⟩ | ⟨different, registry, shown, permanent, current, isSealed, swatches⟩
  -- a content of the version at hand is the shown one, whose swatches stay
  · have versions : fingerprint session.source.content = fingerprint content := by
      rw [← swatched.version]
      exact Option.some.inj (swatched.current.symm.trans same)
    obtain rfl := apart _ swatched.shown _ inContents versions
    rw [shown]
    exact ⟨swatched.colorless.swatched_showing inContents rfl same swatched.isSealed swatched.swatches, by simp⟩
  · have other : content ≠ session.source.content := by
      rintro rfl
      exact different (swatched.version ▸ swatched.current)
    rw [shown]
    exact ⟨swatched.colorless.swatched_showing inContents permanent current isSealed swatches, by simp [other]⟩

theorem Session.Swatched.step (swatched : session.Swatched contents) (apart : FingerprintsApart contents)
    (brought : ∀ content ∈ event.content?, content ∈ contents) : (session.step event).1.Swatched contents := by
  cases event with
  | setContent content filetype => exact (swatched.setContent apart (brought content rfl) filetype).1
  | _ => exact swatched.of_moves (session.moves_step rfl)

/-- A new session is sealed under the version of the empty content, which was new to its registry. -/
theorem Session.swatched_of_ofConfig {config : SessionConfig} (built : Session.ofConfig config = .ok session)
    (colorless : ∀ name ∈ config.styles.map (·.1), ¬IsColorId name) (started : [] ∈ contents) :
    session.Swatched contents ∧
      ∃ initial : Session, initial.Starts config ∧ initial.setContent [] (some "") = (session, .ok true) := by
  obtain ⟨initial, starts, _, opened⟩ := Session.ofConfig_eq_ok built
  obtain ⟨unversioned, _, added, _⟩ := Registry.ofStyles_ok starts.registered
  have bare : initial.Colorless := fun name member => colorless name (List.map_subset _ added member)
  rcases bare.setContent_cases [] (some "") with ⟨same, _⟩ | ⟨_, registry, shown, permanent, current, isSealed, swatches⟩
  · cases unversioned.symm.trans same
  · obtain ⟨rfl, _⟩ := Prod.mk.inj (opened.symm.trans shown)
    exact ⟨bare.swatched_showing started permanent current isSealed swatches, initial, starts, shown⟩

end Marginalia
