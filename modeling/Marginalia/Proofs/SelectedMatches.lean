import Marginalia.Proofs.StandardViewers

namespace Marginalia

variable {session after : Session} {desk : Desk} {event : Event} {selection : Selection} {content : Content}

theorem Selection.style_span_eq_currentStyle_iff (selection : Selection) (entry : SearchMatch × Nat) :
    (selection.span entry).style = currentStyle ↔ (entry.2 : Int) = selection.index := by
  unfold span styleOf
  dsimp only
  by_cases here : (entry.2 : Int) = selection.index <;> simp [here, currentStyle, matchStyle]

theorem Selection.style_span_eq_matchStyle_iff (selection : Selection) (entry : SearchMatch × Nat) :
    (selection.span entry).style = matchStyle ↔ ¬(selection.span entry).style = currentStyle := by
  unfold span styleOf
  dsimp only
  split <;> simp [currentStyle, matchStyle]

/-- A place of a list is there once. -/
theorem filter_zipIdx {α : Type} [DecidableEq α] {items : List α} {item : α} {place : Nat}
    (found : items[place]? = some item) :
    items.zipIdx.filter (fun entry => decide (entry.2 = place)) = [(item, place)] := by
  have once : items.zipIdx.count (item, place) = 1 :=
    List.count_eq_one_of_mem (List.Nodup.of_map _ (List.nodup_zipIdx_map_snd items))
      (List.mk_mem_zipIdx_iff_getElem?.mpr found)
  have same : ∀ entry ∈ items.zipIdx, decide (entry.2 = place) = decide (entry = (item, place)) := by
    rintro ⟨other, index⟩ member
    have atIndex := List.mk_mem_zipIdx_iff_getElem?.mp member
    by_cases here : index = place
    · subst here
      rw [Option.some.inj (atIndex.symm.trans found)]
      simp
    · simp [here]
  rw [List.filter_congr same, List.filter_eq, once]
  rfl

/-- The spans of the search have the style of the selected match at that match only. -/
theorem Selection.filter_current {current : SearchMatch} (stood : selection.current? = some current) :
    (selection.found.zipIdx.map selection.span).filter (·.style = currentStyle) =
      [selection.span (current, selection.index.toNat)] := by
  obtain ⟨lower, found⟩ := Option.ite_none_right_eq_some.mp stood
  have place : (fun span : Span => decide (span.style = currentStyle)) ∘ selection.span =
      fun entry => decide (entry.2 = selection.index.toNat) := by
    funext entry
    refine decide_eq_decide.mpr ((selection.style_span_eq_currentStyle_iff entry).trans ?_)
    omega
  rw [List.filter_map, place, filter_zipIdx found]
  rfl

theorem Selection.countP_match {current : SearchMatch} (stood : selection.current? = some current) :
    (selection.found.zipIdx.map selection.span).countP (·.style = matchStyle) + 1 = selection.count := by
  have all := List.length_eq_countP_add_countP (·.style = currentStyle)
    (l := selection.found.zipIdx.map selection.span)
  have one : (selection.found.zipIdx.map selection.span).countP (·.style = currentStyle) = 1 := by
    rw [List.countP_eq_length_filter, filter_current stood]
    rfl
  have others : (selection.found.zipIdx.map selection.span).countP (·.style = matchStyle) =
      (selection.found.zipIdx.map selection.span).countP fun span => decide ¬decide (span.style = currentStyle) = true := by
    refine List.countP_congr fun span member => ?_
    obtain ⟨entry, _, rfl⟩ := List.mem_map.mp member
    simpa using selection.style_span_eq_matchStyle_iff entry
  rw [List.length_map, List.length_zipIdx] at all
  unfold count
  omega

theorem Session.foundIn_step (found : session.search.selection.FoundIn session.source.content)
    (contentless : event.content? = none) :
    (session.step event).1.search.selection.FoundIn (session.step event).1.source.content := by
  rw [(session.continues_step contentless).content]
  exact (session.moves_step contentless).foundIn found

/-- Unless a content meets a fault, the matches stay those of the content that is shown. -/
theorem Desk.foundIn_use (found : desk.session.search.selection.FoundIn desk.session.source.content) {use : Use}
    (taken : desk.takes use = true) :
    (desk.use use).session.search.selection.FoundIn (desk.use use).session.source.content := by
  rcases use.kinds with ⟨event, rfl⟩ | ⟨registry, rfl⟩ | ⟨eventless, unstyled⟩
  · cases event with
    | setContent content filetype =>
      -- a refused content is shown without another search
      obtain ⟨registry, shown⟩ := Desk.exists_showing_of_takes taken
      rw [Desk.use, shown, Session.showing_eq]
      exact Selection.again_found content (Selection.found_eq_nil found)
    | _ => exact Session.foundIn_step found rfl
  · exact found
  · obtain ⟨cache, frame⟩ := desk.use_frame eventless unstyled
    rw [frame]
    exact found

theorem Session.foundIn_of_ofConfig {config : SessionConfig} (built : Session.ofConfig config = .ok session) :
    session.search.selection.FoundIn session.source.content := by
  obtain ⟨initial, starts, _, opened⟩ := Session.ofConfig_eq_ok built
  obtain ⟨registry, rfl⟩ := Session.setContent_eq_ok opened
  rw [showing_eq]
  refine Selection.again_found [] fun _ => ?_
  rw [starts.selection]

theorem SearchAnnotator.spans_eq {annotator : SearchAnnotator} (standard : annotator.selection.Standard)
    (enabled : annotator.enabled = true) (source : Source) :
    (Annotator.search annotator).spans source = annotator.selection.found.zipIdx.map annotator.selection.span := by
  obtain ⟨content, found⟩ := standard.found
  have on : (Annotator.search annotator).enabled = true := enabled
  exact Annotator.spans_of_enabled on (annotate_eq found source)

/-- What is drawn in the styles of the search are the spans of its matches. -/
theorem Desk.Standard.filter_search (standard : desk.Standard) (enabled : desk.session.search.enabled = true)
    {spans : List Span} (drawn : (desk.session.highlight none).2 = .ok spans) :
    spans.filter (Family.search.Owns ·.style) =
      desk.session.search.selection.found.zipIdx.map desk.session.search.selection.span := by
  obtain ⟨content, rfl, _⟩ := standard.highlight drawn
  rw [standard.annotators.filter_owns (fun span => not_owns_of_mem_tokenize) .search]
  exact SearchAnnotator.spans_eq (standard.annotators .search) enabled _

theorem Selection.Standard.current_nonneg (standard : selection.Standard) {current : SearchMatch}
    (stood : selection.current? = some current) : 0 ≤ current.start ∧ 0 ≤ current.stop := by
  obtain ⟨content, found⟩ := standard.found
  obtain ⟨_, atIndex⟩ := Option.ite_none_right_eq_some.mp stood
  have member := List.mem_of_getElem? atIndex
  rw [found] at member
  obtain ⟨lower, nonempty, _⟩ := findMatches_within member
  exact ⟨lower, lower.trans nonempty.le⟩

/-- However a viewer was used, its search stands at one of its matches, or nowhere when there is none, so that it can
always be described and switched; and what is drawn has all its matches, exactly the one where it stands in the style
for that. As long as no content meets a fault, the matches are those of the content. -/
theorem Desk.search_run {config : SessionConfig} (built : Session.ofConfig config = .ok session) (uses : List Use) :
    let viewer := (Desk.run { session := session } uses).session
    let selection := viewer.search.selection
    (Desk.takesAll { session := session } uses = true →
      selection.found = findMatches viewer.source.content selection.term) ∧
    (selection.found = [] → selection.index = -1) ∧
    (selection.found ≠ [] → 0 ≤ selection.index ∧ selection.index < selection.count) ∧
    (∃ text, selection.summary = .ok text) ∧ (∃ lines, viewer.statusLines = .ok lines) ∧
    (viewer.toggleFamily .search).2 = .ok (.flag !viewer.search.enabled) ∧
    (viewer.search.enabled = true → selection.found ≠ [] → ∀ spans, (viewer.highlight none).2 = .ok spans →
      ∃ current span, selection.current? = some current ∧ spans.filter (·.style = currentStyle) = [span] ∧
        (span.start : Int) = current.start ∧ (span.stop : Int) = current.stop ∧
        spans.countP (·.style = matchStyle) + 1 = selection.count) := by
  intro viewer selection
  have desk : (Desk.run { session := session } uses).Standard := Desk.standard_run built uses
  have standard : selection.Standard := desk.annotators .search
  refine ⟨fun taken => ?_, standard.stands.nowhere, standard.stands.inside, standard.stands.summary,
    desk.annotators.statusLines, ?_, fun enabled some spans drawn => ?_⟩
  · refine Desk.run_keeps_of_takesAll (motive := fun desk =>
      desk.session.search.selection.FoundIn desk.session.source.content) ?_ taken (Session.foundIn_of_ofConfig built)
    exact fun desk use _ here found => Desk.foundIn_use found here
  · obtain ⟨message, shown⟩ := desk.annotators.toggleFamily .search
    rw [shown]
    rfl
  · obtain ⟨current, stood⟩ := standard.stands.exists_current some
    obtain ⟨start, stop⟩ := standard.current_nonneg stood
    have matched := desk.filter_search enabled drawn
    have currentOwned : Family.search.Owns currentStyle := by decide
    have matchOwned : Family.search.Owns matchStyle := by decide
    refine ⟨current, selection.span (current, selection.index.toNat), stood, ?_, Int.toNat_of_nonneg start,
      Int.toNat_of_nonneg stop, ?_⟩
    · rw [filter_style_of_owns currentOwned, matched]
      exact Selection.filter_current stood
    · rw [List.countP_eq_length_filter, filter_style_of_owns matchOwned, matched, ← List.countP_eq_length_filter]
      exact Selection.countP_match stood

/-- The search goes back past the first match, the content is replaced, and the search is switched off and on. -/
def searchingUses : List Use :=
  [.event (.setContent "x\ny".toList none), .event (.setSearchTerm "X"), .event .previousMatch,
    .event (.setContent "(x) xX".toList none), .event (.jumpToMatch (-2)), .event (.toggleFamily .search),
    .highlight none, .event (.toggleFamily .search)]

/-- The search stands at the second of three matches, and that one is drawn in its style. -/
theorem Desk.search_run_wrapping :
    ∃ session, Session.ofConfig { clock := ⟨0⟩ } = .ok session ∧
      let viewer := (Desk.run { session := session } searchingUses).session
      viewer.search.selection.found = findMatches "(x) xX".toList "X" ∧
      ∃ spans span, (viewer.highlight none).2 = .ok spans ∧ spans.filter (·.style = currentStyle) = [span] ∧
        span.start = 4 ∧ spans.countP (·.style = matchStyle) = 2 := by
  have seen : ((Session.ofConfig { clock := ⟨0⟩ }).toOption.any fun session =>
      let viewer := (Desk.run { session := session } searchingUses).session
      decide (Desk.takesAll { session := session } searchingUses = true ∧
        viewer.source.content = "(x) xX".toList ∧ viewer.search.enabled = true ∧
        viewer.search.selection = ⟨"X", [⟨1, 2, 0, 1⟩, ⟨4, 5, 0, 4⟩, ⟨5, 6, 0, 5⟩], 1⟩) &&
        (viewer.highlight none).2.toOption.any fun _ => true) = true := by decide +kernel
  obtain ⟨session, built, shown⟩ := Session.exists_of_any seen
  obtain ⟨shown, succeeds⟩ := Bool.and_eq_true_iff.mp shown
  obtain ⟨taken, content, enabled, selection⟩ := of_decide_eq_true shown
  obtain ⟨spans, drawn, _⟩ := exists_ok_of_any succeeds
  obtain ⟨matched, _, _, _, _, _, drawing⟩ := Desk.search_run built searchingUses
  have searched := matched taken
  obtain ⟨current, span, stood, only, start, _, others⟩ := drawing enabled (by rw [selection]; simp) spans drawn
  rw [content, selection] at searched
  rw [selection] at stood others
  refine ⟨session, built, ?_, spans, span, drawn, only, ?_, ?_⟩
  · rw [selection]
    exact searched
  · obtain rfl : ⟨4, 5, 0, 4⟩ = current := Option.some.inj stood
    exact Int.ofNat_inj.mp start
  · exact Nat.succ.inj others

/-- The last content has the literal that the sheet has a style for, so that it is refused; it is shown all the same. -/
def unsearchedUses : List Use :=
  [.event (.setContent "a".toList none), .event (.setSearchTerm "a"), .event (.setContent "#f00".toList none)]

/-- After a refused content the matches are those of the content before it. -/
theorem Desk.search_run_refused :
    ∃ session, Session.ofConfig { styles := literalStyles, clock := ⟨0⟩ } = .ok session ∧
      let viewer := (Desk.run { session := session } unsearchedUses).session
      viewer.source.content = "#f00".toList ∧ viewer.search.selection.term = "a" ∧
      viewer.search.selection.found ≠ findMatches viewer.source.content viewer.search.selection.term := by
  have seen : ((Session.ofConfig { styles := literalStyles, clock := ⟨0⟩ }).toOption.any fun session =>
      let viewer := (Desk.run { session := session } unsearchedUses).session
      decide (viewer.source.content = "#f00".toList ∧ viewer.search.selection.term = "a" ∧
        viewer.search.selection.found ≠ findMatches viewer.source.content viewer.search.selection.term)) = true := by
    decide +kernel
  obtain ⟨session, built, shown⟩ := Session.exists_of_any seen
  exact ⟨session, built, of_decide_eq_true shown⟩

end Marginalia
