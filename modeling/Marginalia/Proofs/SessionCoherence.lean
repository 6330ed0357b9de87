import Marginalia.Proofs.SwatchedSessions

namespace Marginalia

/-- Everything that a run shows: the empty content at first, then what its events bring. -/
def runContents (events : List Event) : List Content :=
  [] :: events.filterMap Event.content?

/-- What holds of a session before and after its content is known. -/
structure Session.Prepared (contents : List Content) (session : Session) : Prop where
  sheet : ∀ name ∈ Sheet.githubDark.styles.map (·.1), name ∈ session.registry.permanent.map (·.1)
  colorless : ∀ name ∈ session.registry.permanent.map (·.1), ¬IsColorId name
  authors : ∀ name ∈ session.blame.authorIds.map (·.2), name ∈ session.registry.permanent.map (·.1)
  keywords : session.lint.keywords = defaultKeywords
  idle : session.search.selection.term = "" → session.search.selection.found = []
  cache : ∀ cache ∈ session.baseCache, ∃ content ∈ contents,
    cache.version = fingerprint content ∧ cache.spans = tokenize content cache.filetype

/-- The version, the swatches and the matches of a session are those of its content. -/
structure Session.Coherent (contents : List Content) (session : Session) : Prop
    extends Session.Prepared contents session where
  shown : session.source.content ∈ contents
  version : session.version = fingerprint session.source.content
  current : session.registry.version = some session.version
  isSealed : session.registry.isSealed = true
  swatches : session.registry.versioned = swatchTable session.source.content session.background
  found : session.search.selection.found =
    findMatches session.source.content session.search.selection.term

/-- The ids of authors of an annotator are permanent styles, and its keywords are those that the sheets know. -/
def Annotator.Backed (registry : Registry) : Annotator → Prop
  | .blame annotator => ∀ name ∈ annotator.authorIds.map (·.2), name ∈ registry.permanent.map (·.1)
  | .lint annotator => annotator.keywords = defaultKeywords
  | _ => True

variable {contents : List Content} {session after : Session} {event : Event}

theorem Annotator.Backed.mono {before after : Registry} {annotator : Annotator} (backed : annotator.Backed before)
    (grown : before.permanent.map (·.1) ⊆ after.permanent.map (·.1)) : annotator.Backed after := by
  cases annotator with
  | blame annotator => exact fun name member => grown (backed name member)
  | _ => exact backed

/-- The ids that authors are given are no swatches, so they are permanent styles. -/
theorem Annotator.Follows.backed {content : Content} {registry : Registry} {annotator next : Annotator}
    (follows : Annotator.Follows content registry annotator next)
    (swatches : ∀ name ∈ registry.versioned.map (·.1), IsColorId name) (backed : annotator.Backed registry) :
    next.Backed registry := by
  cases follows with
  | kept _ => exact backed
  | switched _ enabled => cases annotator <;> exact backed
  | worded annotator words => exact backed
  | moded annotator mode => exact backed
  | timed annotator now => exact backed
  | attributed annotator attribution known now =>
    intro name member
    obtain ⟨isAuthorId, defined⟩ := known name member
    rcases Registry.contains_iff.mp defined with permanent | versioned
    · exact permanent
    · exact absurd (swatches name versioned) isAuthorId.not_isColorId
  | _ => trivial

theorem Session.Coherent.swatched (coherent : session.Coherent contents) : session.Swatched contents :=
  ⟨coherent.colorless, coherent.shown, coherent.version, coherent.current, coherent.isSealed, coherent.swatches⟩

theorem Session.Coherent.backed (coherent : session.Coherent contents) (family : Family) :
    (session.annotator family).Backed session.registry := by
  cases family with
  | blame => exact coherent.authors
  | lint => exact coherent.keywords
  | _ => trivial

theorem Session.Swatched.coherent (swatched : session.Swatched contents)
    (sheet : ∀ name ∈ Sheet.githubDark.styles.map (·.1), name ∈ session.registry.permanent.map (·.1))
    (backed : ∀ family, (session.annotator family).Backed session.registry)
    (found : session.search.selection.FoundIn session.source.content)
    (cache : ∀ cache ∈ session.baseCache, ∃ content ∈ contents,
      cache.version = fingerprint content ∧ cache.spans = tokenize content cache.filetype) :
    session.Coherent contents :=
  { sheet := sheet
    colorless := swatched.colorless
    authors := backed .blame
    keywords := backed .lint
    idle := Selection.found_eq_nil found
    cache := cache
    shown := swatched.shown
    version := swatched.version
    current := swatched.current
    isSealed := swatched.isSealed
    swatches := swatched.swatches
    found := found }

/-- While a content is shown, a session stays coherent, also when an author cannot be added. -/
theorem Session.Coherent.of_moves (coherent : session.Coherent contents) (moved : session.Moves event after) :
    after.Coherent contents := by
  have continued := moved.continues
  have swatched := coherent.swatched.of_moves moved
  have grown := moved.permanent_subset
  have swatches : ∀ name ∈ after.registry.versioned.map (·.1), IsColorId name := by
    rw [swatched.swatches]
    exact fun name => swatchTable_isColorId
  refine swatched.coherent (fun name member => grown (coherent.sheet name member)) ?_ ?_ ?_
  · exact moved.annotators (fun follows => follows.backed swatches) fun family => (coherent.backed family).mono grown
  · rw [continued.content]
    exact moved.foundIn coherent.found
  · rw [continued.cache]
    exact coherent.cache

theorem Session.Prepared.showing (prepared : session.Prepared contents) {source : Source} {registry : Registry}
    (permanent : registry.permanent = session.registry.permanent)
    (swatched : (session.showing source registry).Swatched contents) :
    (session.showing source registry).Coherent contents := by
  have found := Selection.again_found source.content prepared.idle
  have authors : ∀ name ∈ session.blame.authorIds.map (·.2), name ∈ registry.permanent.map (·.1) :=
    permanent ▸ prepared.authors
  rw [showing_eq] at swatched ⊢
  refine swatched.coherent (permanent ▸ prepared.sheet) (fun family => ?_) found prepared.cache
  cases family with
  | blame => exact authors
  | lint => exact prepared.keywords
  | _ => trivial

theorem Session.Coherent.setContent (coherent : session.Coherent contents) (apart : FingerprintsApart contents)
    {content : Content} (inContents : content ∈ contents) (filetype : Option String) :
    (session.setContent content filetype).1.Coherent contents := by
  obtain ⟨registry, changed, shown, permanent, _⟩ := coherent.swatched.colorless.setContent_eq content filetype
  have swatched := (coherent.swatched.setContent apart inContents filetype).1
  rw [shown] at swatched ⊢
  exact coherent.toPrepared.showing permanent swatched

/-- A new session shows the empty content. -/
theorem Session.coherent_of_ofConfig {config : SessionConfig} (built : Session.ofConfig config = .ok session)
    (sheet : ∀ name ∈ Sheet.githubDark.styles.map (·.1), name ∈ config.styles.map (·.1))
    (colorless : ∀ name ∈ config.styles.map (·.1), ¬IsColorId name) (started : [] ∈ contents) :
    session.Coherent contents := by
  obtain ⟨swatched, initial, starts, opened⟩ := Session.swatched_of_ofConfig built colorless started
  obtain ⟨_, _, added, kept⟩ := Registry.ofStyles_ok starts.registered
  have prepared : initial.Prepared contents :=
    { sheet := fun name member => kept (sheet name member)
      colorless := fun name member => colorless name (List.map_subset _ added member)
      authors := fun name member => by rw [starts.authors] at member; cases member
      keywords := starts.keywords
      idle := fun _ => by rw [starts.selection]
      cache := fun kept member => by rw [starts.cache] at member; cases member }
  have bare : initial.Colorless := prepared.colorless
  obtain ⟨registry, _, shown, permanent, _⟩ := bare.setContent_eq [] (some "")
  obtain ⟨rfl, _⟩ := Prod.mk.inj (opened.symm.trans shown)
  exact prepared.showing permanent swatched

/-- Whatever happens, with or without a fault, a session stays coherent. -/
theorem Session.Coherent.step (coherent : session.Coherent contents) (apart : FingerprintsApart contents)
    {event : Event} (brought : ∀ content ∈ event.content?, content ∈ contents) :
    (session.step event).1.Coherent contents := by
  cases event with
  | setContent content filetype => exact coherent.setContent apart (brought content rfl) filetype
  | _ => exact coherent.of_moves (session.moves_step rfl)

theorem Session.Coherent.run (coherent : session.Coherent contents) (apart : FingerprintsApart contents)
    {events : List Event} (brought : ∀ content ∈ events.filterMap Event.content?, content ∈ contents) :
    (session.run events).Coherent contents := by
  induction events generalizing session with
  | nil => exact coherent
  | cons event rest ih =>
    refine ih (coherent.step apart fun content member => ?_) fun content member => ?_
    · exact brought content (List.mem_filterMap.mpr ⟨event, List.mem_cons_self .., member⟩)
    · obtain ⟨other, inRest, found⟩ := List.mem_filterMap.mp member
      exact brought content (List.mem_filterMap.mpr ⟨other, List.mem_cons_of_mem _ inRest, found⟩)

end Marginalia
