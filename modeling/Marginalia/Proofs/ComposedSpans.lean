import Marginalia.Overlay.Compose
import Marginalia.Proofs.FaultSteps
import Marginalia.Style.Sheet

namespace Marginalia

/-- A span that may be added: its style is known, and it ends inside the content. -/
def Span.Passes (span : Span) (registry : Registry) (source : Source) : Prop :=
  registry.contains span.style = true ∧ span.stop ≤ source.content.length

instance (span : Span) (registry : Registry) (source : Source) : Decidable (span.Passes registry source) :=
  inferInstanceAs (Decidable (_ ∧ _))

/-- Why a span may not be added: its style is not known, or else it ends beyond the content. -/
def Span.refusal (span : Span) (registry : Registry) (source : Source) (family : Family) : Fault :=
  if registry.contains span.style then .beyondContent family span.start span.stop source.content.length
  else .unknownStyle span.style

/-- The spans that an annotator has for a source, if it has no fault. -/
def Annotator.spans (source : Source) (annotator : Annotator) : List Span :=
  (annotator.added source).toOption.getD []

/-- The spans of the enabled annotators, one annotator after the other, each with its family. -/
def emissions (source : Source) (annotators : List Annotator) : List (Family × Span) :=
  (annotators.filter (·.enabled)).flatMap fun annotator => (annotator.spans source).map (annotator.family, ·)

variable {registry : Registry} {source : Source} {annotator : Annotator} {annotators : List Annotator}

theorem checkSpan_eq (family : Family) (span : Span) :
    checkSpan registry source.content.length family span =
      if span.Passes registry source then .ok () else .error (span.refusal registry source family) := by
  unfold checkSpan Span.Passes Span.refusal Span.fits
  by_cases known : registry.contains span.style = true
  · by_cases fits : span.stop ≤ source.content.length
    · simp [known, fits]
    · simp [known, fits]
  · simp [known]

theorem Annotator.spans_of_disabled (disabled : annotator.enabled = false) : annotator.spans source = [] := by
  unfold spans added
  rw [disabled]
  rfl

theorem Annotator.spans_of_enabled (enabled : annotator.enabled = true) {spans : List Span}
    (annotated : annotator.annotate source = .ok spans) : annotator.spans source = spans := by
  unfold Annotator.spans added
  rw [if_pos enabled, annotated]
  rfl

theorem Annotator.added_eq (annotated : annotator.enabled = true → (annotator.annotate source).isOk = true) :
    annotator.added source = .ok (annotator.spans source) := by
  unfold spans added
  split
  · rename_i enabled
    cases made : annotator.annotate source with
    | error fault =>
      have succeeds := annotated enabled
      rw [made] at succeeds
      cases succeeds
    | ok spans => rfl
  · rfl

theorem emissions_cons (source : Source) (annotator : Annotator) (rest : List Annotator) :
    emissions source (annotator :: rest) =
      (annotator.spans source).map (annotator.family, ·) ++ emissions source rest := by
  unfold emissions
  cases enabled : annotator.enabled with
  | true => rw [List.filter_cons_of_pos enabled, List.flatMap_cons]
  | false => simp [enabled, Annotator.spans_of_disabled enabled]

theorem map_snd_emissions (source : Source) (annotators : List Annotator) :
    (emissions source annotators).map (·.2) = annotators.flatMap (Annotator.spans source) := by
  induction annotators with
  | nil => rfl
  | cons annotator rest ih =>
    rw [emissions_cons, List.map_append, List.map_map, ih, List.flatMap_cons]
    exact congrArg (· ++ _) (List.map_id _)

/-- If no annotator fails, all their spans are checked in order and then follow the base. -/
theorem compose_eq_forM (annotated : ∀ annotator ∈ annotators, annotator.added source = .ok (annotator.spans source))
    (base : List Span) :
    compose registry source base annotators =
      ((emissions source annotators).forM fun (family, span) =>
        checkSpan registry source.content.length family span).map fun _ =>
          base ++ annotators.flatMap (Annotator.spans source) := by
  unfold compose
  -- over any base, since the spans of one annotator join the base of the next
  induction annotators generalizing base with
  | nil => simp [emissions, pure, Except.pure, Except.map]
  | cons annotator rest ih =>
    rw [List.forall_mem_cons] at annotated
    have one : composeOne registry source base annotator =
        ((annotator.spans source).forM (checkSpan registry source.content.length annotator.family)).map fun _ =>
          base ++ annotator.spans source := by
      unfold composeOne
      rw [annotated.1]
      rfl
    rw [List.foldlM_cons, one, emissions_cons, List.flatMap_cons, ← List.append_assoc]
    simp only [List.forM_eq_forM, List.forM_append, List.forM_map]
    cases forM (annotator.spans source) (checkSpan registry source.content.length annotator.family) with
    | error fault => rfl
    | ok _ => exact ih annotated.2 _

/-- The first span that may not be added is told; if there is none, all spans follow the base. -/
theorem compose_eq_find? (annotated : ∀ annotator ∈ annotators, annotator.added source = .ok (annotator.spans source))
    (base : List Span) :
    compose registry source base annotators =
      match (emissions source annotators).find? fun emitted => ¬emitted.2.Passes registry source with
      | none => .ok (base ++ annotators.flatMap (Annotator.spans source))
      | some (family, span) => .error (span.refusal registry source family) := by
  have each (emitted : Family × Span) : checkSpan registry source.content.length emitted.1 emitted.2 =
      if emitted.2.Passes registry source then .ok () else .error (emitted.2.refusal registry source emitted.1) :=
    checkSpan_eq ..
  have checked : ((emissions source annotators).forM fun emitted =>
      checkSpan registry source.content.length emitted.1 emitted.2) = _ := forM_eq_find? each
  rw [compose_eq_forM annotated, checked]
  cases (emissions source annotators).find? fun emitted => ¬emitted.2.Passes registry source <;> rfl

/-- If every annotator succeeds and all its spans pass, they follow the base in the order of the annotators. -/
theorem compose_eq (annotated : ∀ annotator ∈ annotators, annotator.added source = .ok (annotator.spans source))
    (passes : ∀ annotator ∈ annotators, ∀ span ∈ annotator.spans source, span.Passes registry source)
    (base : List Span) :
    compose registry source base annotators = .ok (base ++ annotators.flatMap (Annotator.spans source)) := by
  have none : ((emissions source annotators).find? fun emitted => ¬emitted.2.Passes registry source) = none := by
    rw [List.find?_eq_none]
    intro emitted member
    have inSpans : emitted.2 ∈ annotators.flatMap (Annotator.spans source) := by
      rw [← map_snd_emissions]
      exact List.mem_map_of_mem member
    obtain ⟨annotator, inAnnotators, inSpans⟩ := List.mem_flatMap.mp inSpans
    simpa using passes annotator inAnnotators _ inSpans
  rw [compose_eq_find? annotated, none]

theorem compose_eq_ok (annotated : ∀ annotator ∈ annotators, annotator.added source = .ok (annotator.spans source))
    {base spans : List Span} (composed : compose registry source base annotators = .ok spans) :
    spans = base ++ annotators.flatMap (Annotator.spans source) ∧
      ∀ span ∈ annotators.flatMap (Annotator.spans source), span.Passes registry source := by
  rw [compose_eq_find? annotated] at composed
  split at composed
  · rename_i none
    refine ⟨(Except.ok.inj composed).symm, ?_⟩
    rw [← map_snd_emissions, List.forall_mem_map]
    exact fun emitted member => by simpa using List.find?_eq_none.mp none emitted member
  · cases composed

theorem emissions_filter_enabled (source : Source) (annotators : List Annotator) :
    emissions source (annotators.filter (·.enabled)) = emissions source annotators := by
  simp [emissions]

/-- The spans of the enabled annotators settle a composition: the first one in order that may not be added is told, for
its style if that is not known and else for its end, and if there is none they follow the base. The base itself is not
looked at, and annotators that are switched off can be left out. -/
theorem compose_settled (annotated : ∀ annotator ∈ annotators, annotator.enabled = true →
      (annotator.annotate source).isOk = true) (base : List Span) :
    compose registry source base annotators =
      (match (emissions source annotators).find? fun emitted => ¬emitted.2.Passes registry source with
      | none => .ok (base ++ (emissions source annotators).map (·.2))
      | some (family, span) => .error (if registry.contains span.style
          then .beyondContent family span.start span.stop source.content.length else .unknownStyle span.style)) ∧
    compose registry source base annotators = (compose registry source [] annotators).map (base ++ ·) ∧
    compose registry source base (annotators.filter (·.enabled)) = compose registry source base annotators := by
  have added : ∀ annotator ∈ annotators, annotator.added source = .ok (annotator.spans source) :=
    fun annotator member => Annotator.added_eq (annotated annotator member)
  have addedEnabled : ∀ annotator ∈ annotators.filter (·.enabled),
      annotator.added source = .ok (annotator.spans source) :=
    fun annotator member => added annotator (List.mem_filter.mp member).1
  refine ⟨?_, ?_, ?_⟩
  · rw [compose_eq_find? added, map_snd_emissions]
    rfl
  · rw [compose_eq_find? added, compose_eq_find? added]
    cases (emissions source annotators).find? fun emitted => ¬emitted.2.Passes registry source <;> rfl
  · rw [compose_eq_find? addedEnabled, compose_eq_find? added, emissions_filter_enabled, ← map_snd_emissions,
      ← map_snd_emissions, emissions_filter_enabled]

/-- Brackets are switched off, keywords are known, a match of the search was found in a longer text, and no swatch is
registered. -/
def mixedAnnotators : List Annotator :=
  [.bracket { enabled := false }, .lint {}, .search { selection := { term := "x", found := [⟨20, 21, 1, 2⟩] } },
    .color {}]

/-- The match is told: the span in front of it passes, and the literal behind it is not looked at any more. -/
theorem compose_settled_beyond :
    (∀ annotator ∈ mixedAnnotators, annotator.enabled = true →
      (annotator.annotate ⟨"(#fff) TODO".toList, "python"⟩).isOk = true) ∧
    compose { permanent := Sheet.githubDark.styles } ⟨"(#fff) TODO".toList, "python"⟩ [⟨0, 90, "unheard-of", none⟩]
      mixedAnnotators = .error (.beyondContent .search 20 21 11) := by
  have annotated : ∀ annotator ∈ mixedAnnotators, annotator.enabled = true →
      (annotator.annotate ⟨"(#fff) TODO".toList, "python"⟩).isOk = true := by decide +kernel
  refine ⟨annotated, (compose_settled annotated _).1.trans ?_⟩
  decide +kernel

end Marginalia
