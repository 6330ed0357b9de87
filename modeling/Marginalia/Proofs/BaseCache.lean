import Marginalia.Proofs.SessionFrames
import Marginalia.Proofs.TicketPasses

namespace Marginalia

/-- Base spans that were read from one of some contents, kept under its version. -/
def BaseCache.ReadFrom (contents : List Content) (cache : BaseCache) : Prop :=
  ∃ content ∈ contents, cache.version = fingerprint content ∧ cache.spans = tokenize content cache.filetype

/-- The version of a session is that of its content, and the base spans that it keeps were read from a content that
was shown. -/
structure Session.Anchored (contents : List Content) (session : Session) : Prop where
  shown : session.source.content ∈ contents
  version : session.version = fingerprint session.source.content
  cache : ∀ cache ∈ session.baseCache, cache.ReadFrom contents

variable {contents : List Content} {session before after : Session}

theorem Session.Anchored.of_continues (anchored : before.Anchored contents) (continued : before.Continues after) :
    after.Anchored contents := by
  refine ⟨?_, ?_, ?_⟩
  · rw [continued.content]
    exact anchored.shown
  · rw [continued.version, continued.content]
    exact anchored.version
  · rw [continued.cache]
    exact anchored.cache

/-- Base spans that are kept for the current version and filetype are those of the current content. -/
theorem Session.Anchored.cachedBase? (anchored : session.Anchored contents) (apart : FingerprintsApart contents)
    {spans : List Span} (kept : session.cachedBase? = some spans) :
    spans = tokenize session.source.content session.source.filetype := by
  obtain ⟨cache, found, current, filetype, rfl⟩ := Session.cachedBase?_eq_some kept
  obtain ⟨content, inContents, version, read⟩ := anchored.cache cache found
  have versions : fingerprint content = fingerprint session.source.content := by
    rw [← version, current, anchored.version]
  obtain rfl := apart _ inContents _ anchored.shown versions
  rw [read, filetype]

/-- The base spans are those of the content, whether they were kept or are read now. -/
theorem Session.Anchored.baseSpans (anchored : session.Anchored contents) (apart : FingerprintsApart contents) :
    ∃ cache, session.baseSpans = ({ session with baseCache := cache },
      tokenize session.source.content session.source.filetype) := by
  rcases session.baseSpans_cases with ⟨spans, cached, kept⟩ | read
  · rw [kept, anchored.cachedBase? apart cached]
    exact ⟨session.baseCache, rfl⟩
  · exact ⟨_, read⟩

theorem Session.Anchored.of_baseSpans (anchored : session.Anchored contents) :
    session.baseSpans.1.Anchored contents := by
  rcases session.baseSpans_cases with ⟨_, _, kept⟩ | read
  · rw [kept]
    exact anchored
  · rw [read]
    refine ⟨anchored.shown, anchored.version, fun cache kept => ?_⟩
    cases kept
    exact ⟨_, anchored.shown, anchored.version, rfl⟩

theorem Session.Anchored.of_highlight (anchored : session.Anchored contents) (base : Option (List Span)) :
    (session.highlight base).1.Anchored contents := by
  cases base with
  | none => exact anchored.of_baseSpans
  | some base => exact anchored

/-- A content that is shown brings its own version along. -/
theorem Session.anchored_showing (cache : ∀ cache ∈ session.baseCache, cache.ReadFrom contents) {source : Source}
    (inContents : source.content ∈ contents) (registry : Registry) :
    (session.showing source registry).Anchored contents := by
  rw [showing_eq]
  exact ⟨inContents, rfl, cache⟩

/-- A new session has the version of the empty content and keeps no base spans. -/
theorem Session.anchored_of_ofConfig {config : SessionConfig} (built : Session.ofConfig config = .ok session)
    (started : [] ∈ contents) : session.Anchored contents := by
  obtain ⟨initial, starts, _, opened⟩ := Session.ofConfig_eq_ok built
  obtain ⟨registry, rfl⟩ := Session.setContent_eq_ok opened
  refine Session.anchored_showing (fun cache kept => ?_) started registry
  rw [starts.cache] at kept
  cases kept

end Marginalia
