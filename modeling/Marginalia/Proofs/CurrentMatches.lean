import Marginalia.Proofs.KeptFormats

namespace Marginalia

/-- A format with the colors of a style. -/
def Format.Wears (format : Format) (style : Style) : Prop :=
  format.foreground = style.foreground ∧ format.background = style.background

instance (format : Format) (style : Style) : Decidable (format.Wears style) :=
  inferInstanceAs (Decidable (_ ∧ _))

/-- A style whose format has both its colors, so that they hide the colors below. -/
structure Style.Solid (style : Style) : Prop where
  foreground : style.foreground.isSome = true
  background : style.background.isSome = true
  worn : style.format.Wears style

/-- The places that a match goes over. -/
def SearchMatch.Covers (hit : SearchMatch) (place : Nat) : Prop :=
  hit.start ≤ place ∧ place < hit.stop

instance (hit : SearchMatch) (place : Nat) : Decidable (hit.Covers place) :=
  inferInstanceAs (Decidable (_ ∧ _))

/-- The matches behind the one where a selection stands. -/
def Selection.later (selection : Selection) : List SearchMatch :=
  selection.found.drop (selection.index.toNat + 1)

/-- The spans of those. -/
def Selection.laterSpans (selection : Selection) : List Span :=
  (selection.later.zipIdx (selection.index.toNat + 1)).map selection.span

variable {sheet : Sheet} {style other : Style} {selection : Selection} {registry : Registry} {session : Session}
  {desk : Desk} {uses : List Use} {spans : List Span} {current : SearchMatch} {place : Nat}

theorem Format.Wears.merge {lower upper : Format} (wears : upper.Wears style) (solid : style.Solid) :
    (lower.merge upper).Wears style := by
  obtain ⟨foreground, background⟩ := wears
  refine ⟨?_, ?_⟩
  · rw [Format.merge, foreground, Option.or_of_isSome solid.foreground]
  · rw [Format.merge, background, Option.or_of_isSome solid.background]

/-- Where spans of the same colors go over a place, they hide all spans in front of them. -/
theorem mergedFormat_wears (solid : style.Solid) {front behind : List Span} (some : ∃ span ∈ behind, span.Covers place)
    (same : ∀ span ∈ behind, span.Covers place → (registry.formatOf span.style).Wears style) :
    (mergedFormat registry (front ++ behind) place).Wears style := by
  have covering : behind.filter (·.Covers place) ≠ [] := by
    obtain ⟨span, member, covers⟩ := some
    exact List.ne_nil_of_mem (List.mem_filter.mpr ⟨member, decide_eq_true covers⟩)
  obtain ⟨under, top, split⟩ := (List.eq_nil_or_concat' (behind.filter (·.Covers place))).resolve_left covering
  obtain ⟨member, covers⟩ := List.mem_filter.mp (split ▸ List.mem_append_right under (List.mem_singleton.mpr rfl))
  rw [mergedFormat, List.filter_append, split, ← List.append_assoc, List.map_append, List.foldl_append]
  exact (same top member (of_decide_eq_true covers)).merge solid

theorem Selection.Standard.pairwise (standard : selection.Standard) : selection.found.Pairwise (·.start < ·.start) := by
  obtain ⟨content, found⟩ := standard.found
  rw [found]
  exact pairwise_findMatches ..

theorem Selection.found_eq (stood : selection.current? = some current) :
    selection.found = selection.found.take selection.index.toNat ++ current :: selection.later := by
  obtain ⟨_, atIndex⟩ := Option.ite_none_right_eq_some.mp stood
  obtain ⟨inside, rfl⟩ := List.getElem?_eq_some_iff.mp atIndex
  rw [later, List.getElem_cons_drop, List.take_append_drop]

/-- The later matches start behind the start of the selected one. -/
theorem Selection.Standard.start_lt (standard : selection.Standard) (stood : selection.current? = some current) :
    ∀ later ∈ selection.later, current.start < later.start := by
  have sorted := standard.pairwise
  rw [selection.found_eq stood, List.pairwise_append] at sorted
  exact fun later member => List.rel_of_pairwise_cons sorted.2.1 member

theorem Selection.span_covers_iff (selection : Selection) (entry : SearchMatch × Nat) :
    (selection.span entry).Covers place ↔ entry.1.Covers place := by
  unfold span Span.Covers SearchMatch.Covers
  dsimp only
  rw [Int.toNat_le, Int.lt_toNat]

theorem Selection.laterSpans_cover_iff (selection : Selection) :
    (∃ span ∈ selection.laterSpans, span.Covers place) ↔ ∃ later ∈ selection.later, later.Covers place := by
  constructor
  · rintro ⟨span, member, covers⟩
    obtain ⟨entry, inLater, rfl⟩ := List.mem_map.mp member
    exact ⟨entry.1, List.fst_mem_of_mem_zipIdx inLater, (selection.span_covers_iff entry).mp covers⟩
  · rintro ⟨later, member, covers⟩
    rw [← List.zipIdx_map_fst (selection.index.toNat + 1) selection.later] at member
    obtain ⟨entry, inLater, rfl⟩ := List.mem_map.mp member
    exact ⟨_, List.mem_map_of_mem inLater, (selection.span_covers_iff entry).mpr covers⟩

theorem Selection.style_of_mem_laterSpans {span : Span} (member : span ∈ selection.laterSpans) :
    span.style = matchStyle := by
  obtain ⟨entry, inLater, rfl⟩ := List.mem_map.mp member
  have behind := List.le_snd_of_mem_zipIdx inLater
  rw [style_span_eq_matchStyle_iff, style_span_eq_currentStyle_iff]
  omega

/-- Where no later match goes over the selected one, it has the colors for that. -/
theorem Selection.wears_current (solid : style.Solid) (worn : (registry.formatOf currentStyle).Wears style)
    (nonneg : 0 ≤ selection.index) (covers : current.Covers place)
    (clear : ∀ later ∈ selection.later, ¬later.Covers place) (front : List Span) :
    (mergedFormat registry (front ++ selection.span (current, selection.index.toNat) :: selection.laterSpans)
      place).Wears style := by
  refine mergedFormat_wears solid ⟨_, List.mem_cons_self .., (selection.span_covers_iff _).mpr covers⟩ ?_
  intro span member above
  rcases List.mem_cons.mp member with rfl | behind
  · rwa [(selection.style_span_eq_currentStyle_iff _).mpr (Int.toNat_of_nonneg nonneg)]
  · obtain ⟨later, inLater, hides⟩ := selection.laterSpans_cover_iff.mp ⟨span, behind, above⟩
    exact absurd hides (clear later inLater)

/-- Where a later match goes over the selected one, it has the colors of all the others. -/
theorem Selection.wears_match (solid : other.Solid) (worn : (registry.formatOf matchStyle).Wears other)
    (hidden : ∃ later ∈ selection.later, later.Covers place) (front : List Span) :
    (mergedFormat registry (front ++ selection.laterSpans) place).Wears other := by
  refine mergedFormat_wears solid (selection.laterSpans_cover_iff.mpr hidden) fun span member _ => ?_
  rwa [style_of_mem_laterSpans member]

theorem Sheet.exists_searchStyles (sheet : Sheet) :
    ∃ current other, (currentStyle, current) ∈ sheet.styles ∧ (matchStyle, other) ∈ sheet.styles ∧
      current.Solid ∧ other.Solid ∧ current.background ≠ other.background := by
  cases sheet
  · exact ⟨(Style.pair "#000000" "#FF8C00").heavy, .pair "#000000" "#E3B341", by decide, by decide,
      ⟨rfl, rfl, by decide⟩, ⟨rfl, rfl, by decide⟩, by decide⟩
  · exact ⟨(Style.pair "#000000" "#FF9632").heavy, .pair "#000000" "#FFFF00", by decide, by decide,
      ⟨rfl, rfl, by decide⟩, ⟨rfl, rfl, by decide⟩, by decide⟩

theorem not_isAuthorId_of_owns {name : String} (owned : Family.search.Owns name) : ¬IsAuthorId name := by
  intro isAuthorId
  have same : Family.search = .blame := owned.unique isAuthorId.owned
  cases same

/-- Every span that is drawn has a style that is known. -/
theorem Desk.Standard.known (standard : desk.Standard) (stocked : desk.session.Stocked sheet)
    (drawn : (desk.session.highlight none).2 = .ok spans) :
    ∀ span ∈ spans, desk.session.registry.contains span.style = true := by
  obtain ⟨content, rfl, passes⟩ := standard.highlight drawn
  intro span member
  rcases List.mem_append.mp member with base | added
  · exact stocked.contains_of_isSheetId (tokenize_spec base).2.2
  · exact (passes span added).1

/-- The matches of the search are drawn last, the later ones over the selected one. -/
theorem Desk.Standard.spans_eq (standard : desk.Standard) (enabled : desk.session.search.enabled = true)
    (stood : desk.session.search.selection.current? = some current)
    (drawn : (desk.session.highlight none).2 = .ok spans) :
    let selection := desk.session.search.selection
    ∃ front, spans = front ++ selection.span (current, selection.index.toNat) :: selection.laterSpans := by
  intro selection
  obtain ⟨content, rfl, _⟩ := standard.highlight drawn
  have last : desk.session.annotators = [Family.blame, .bracket, .color, .lint].map desk.session.annotator ++
      [.search desk.session.search] := rfl
  have inside : selection.index.toNat ≤ selection.found.length := by
    obtain ⟨_, atIndex⟩ := Option.ite_none_right_eq_some.mp stood
    exact (List.getElem?_eq_some_iff.mp atIndex).1.le
  have split : selection.found.zipIdx = (selection.found.take selection.index.toNat).zipIdx ++
      (current, selection.index.toNat) :: selection.later.zipIdx (selection.index.toNat + 1) := by
    conv_lhs => rw [selection.found_eq stood]
    rw [List.zipIdx_append, List.zipIdx_cons, List.length_take_of_le inside, Nat.zero_add]
  rw [last, List.flatMap_append, List.flatMap_singleton, SearchAnnotator.spans_eq (standard.annotators .search) enabled,
    split, List.map_append, List.map_cons, ← List.append_assoc, ← List.append_assoc]
  exact ⟨_, rfl⟩

/-- However a viewer with a shipped sheet was used and painted, its matches are those of its content, and it can be drawn;
and when it is painted, the selected match has the colors for that where no later match goes over it, as at its start,
and those of the others elsewhere. -/
theorem Desk.current_run {config : SessionConfig} (shipped : config.styles = sheet.styles)
    (built : Session.ofConfig config = .ok session) (paints : Desk.PaintsOnly { session := session } uses) :
    let viewer := (Desk.run { session := session } uses).session
    let selection := viewer.search.selection
    selection.found = findMatches viewer.source.content selection.term ∧
    (FingerprintsApart (usedContents uses) → ∃ spans, (viewer.highlight none).2 = .ok spans) ∧
    (viewer.search.enabled = true → selection.found ≠ [] → ∀ spans, (viewer.highlight none).2 = .ok spans →
      ∀ canvas : Canvas, ∃ current style other painted registry, selection.current? = some current ∧
        viewer.registry.get? currentStyle = some style ∧ viewer.registry.get? matchStyle = some other ∧
        canvas.setSpans viewer.registry spans = (painted, registry, .ok ()) ∧
        ∀ place char, current.Covers place → canvas.content[place]? = some char → char ≠ '\n' →
          ∀ unit < units16 char, ∃ format, painted.unitFormat? place unit = some format ∧
            (format.Wears style ∨ format.Wears other) ∧
            (format.Wears style ↔ ∀ later ∈ selection.later, ¬later.Covers place) ∧
            (place = current.start → format.Wears style)) := by
  intro viewer selection
  obtain ⟨stocked, found, coherent⟩ := Desk.stocked_run shipped built paints
  have desk : (Desk.run { session := session } uses).Standard := Desk.standard_run built uses
  have standard : selection.Standard := desk.annotators .search
  refine ⟨found, fun apart => ⟨_, (coherent apart).session.highlight apart⟩, fun enabled some spans drawn canvas => ?_⟩
  obtain ⟨current, stood⟩ := standard.stands.exists_current some
  obtain ⟨style, other, currentDefined, otherDefined, currentSolid, otherSolid, different⟩ := sheet.exists_searchStyles
  obtain ⟨currentKnown, currentFormat⟩ := stocked.formatOf currentDefined (not_isAuthorId_of_owns (by decide))
  obtain ⟨otherKnown, otherFormat⟩ := stocked.formatOf otherDefined (not_isAuthorId_of_owns (by decide))
  obtain ⟨registry, set⟩ := canvas.setSpans_of_known (desk.known stocked drawn)
  refine ⟨current, style, other, _, registry, stood, currentKnown, otherKnown, set, ?_⟩
  intro place char covers atPlace printed unit within
  refine ⟨_, Canvas.unitFormat?_painted atPlace printed within .., ?_⟩
  obtain ⟨front, rfl⟩ := desk.spans_eq enabled stood drawn
  by_cases hidden : ∃ later ∈ selection.later, later.Covers place
  · have wears := Selection.wears_match otherSolid (otherFormat ▸ otherSolid.worn) hidden
      (front ++ [selection.span (current, selection.index.toNat)])
    rw [← List.append_cons] at wears
    obtain ⟨later, member, above⟩ := hidden
    have behind := standard.start_lt stood later member
    have reached := above.1
    refine ⟨Or.inr wears, ⟨fun also => ?_, fun clear => ?_⟩, fun start => ?_⟩
    · exact absurd (also.2.symm.trans wears.2) different
    · exact absurd above (clear later member)
    · omega
  · have clear : ∀ later ∈ selection.later, ¬later.Covers place := by simpa using hidden
    have wears := Selection.wears_current currentSolid (currentFormat ▸ currentSolid.worn)
      (standard.stands.inside some).1 covers clear front
    exact ⟨Or.inl wears, iff_of_true wears clear, fun _ => wears⟩

/-- The painting of what a viewer draws. -/
def Desk.painting (desk : Desk) : Use :=
  .restyle ((Canvas.blank desk.session.source.content).setSpans desk.session.registry
    ((desk.session.highlight none).2.toOption.getD [])).2.1

/-- Matches go over one another, and over a string, a color, brackets and the line of an author; what is drawn is
painted before the second match is selected. -/
def crowdedUses (session : Session) : List Use :=
  let uses := [.event (.setContent "('#ffffff')".toList (some "python")),
    .event (.setAttribution (linesOf ["alice"])), .event (.setSearchTerm "fff")]
  uses ++ [(Desk.run { session := session } uses).painting, .event .nextMatch]

/-- The second of four matches has its colors at its start, and those of the third match behind that. -/
theorem Desk.current_run_crowded :
    ∃ session, Session.ofConfig { clock := ⟨0⟩ } = .ok session ∧
      let viewer := (Desk.run { session := session } (crowdedUses session)).session
      ∃ spans style other painted registry start next, viewer.search.selection.current? = some ⟨4, 7, 0, 4⟩ ∧
        (viewer.highlight none).2 = .ok spans ∧ viewer.registry.get? currentStyle = some style ∧
        viewer.registry.get? matchStyle = some other ∧
        (Canvas.blank "('#ffffff')".toList).setSpans viewer.registry spans = (painted, registry, .ok ()) ∧
        painted.unitFormat? 4 0 = some start ∧ start.Wears style ∧
        painted.unitFormat? 5 0 = some next ∧ next.Wears other ∧ ¬next.Wears style := by
  have shipped : SessionConfig.styles { clock := ⟨0⟩ } = Sheet.githubDark.styles := rfl
  have apart : FingerprintsApart [[], "('#ffffff')".toList] := by
    unfold FingerprintsApart
    decide +kernel
  have seen : ((Session.ofConfig { clock := ⟨0⟩ }).toOption.any fun session =>
      let viewer := (Desk.run { session := session } (crowdedUses session)).session
      decide (viewer.search.enabled = true ∧
        viewer.search.selection = ⟨"fff", [⟨3, 6, 0, 3⟩, ⟨4, 7, 0, 4⟩, ⟨5, 8, 0, 5⟩, ⟨6, 9, 0, 6⟩], 1⟩)) = true := by
    decide +kernel
  obtain ⟨session, built, shown⟩ := Session.exists_of_any seen
  obtain ⟨enabled, selection⟩ := of_decide_eq_true shown
  have paints : Desk.PaintsOnly { session := session } (crowdedUses session) :=
    ⟨nofun, nofun, nofun, fun registry same => ⟨_, _, Use.restyle.inj same⟩, nofun, trivial⟩
  obtain ⟨_, drawing, painting⟩ := Desk.current_run shipped built paints
  obtain ⟨spans, drawn⟩ := drawing apart
  rw [selection] at painting
  obtain ⟨current, style, other, painted, registry, stood, currentKnown, otherKnown, set, units⟩ :=
    painting enabled (List.cons_ne_nil _ _) spans drawn (Canvas.blank "('#ffffff')".toList)
  obtain rfl : ⟨4, 7, 0, 4⟩ = current := Option.some.inj stood
  obtain ⟨start, atStart, _, _, first⟩ := units 4 'f' (by decide) rfl (by decide) 0 (by decide)
  obtain ⟨next, atNext, either, unhidden, _⟩ := units 5 'f' (by decide) rfl (by decide) 0 (by decide)
  have hidden : ¬next.Wears style := fun wears => absurd (unhidden.mp wears) (by decide)
  refine ⟨session, built, spans, style, other, painted, registry, start, next, ?_, drawn, currentKnown, otherKnown, set,
    atStart, first rfl, atNext, either.resolve_left hidden, hidden⟩
  rw [selection]
  exact stood

/-- Two matches go over the middle of the content, the first of them selected. -/
def overlappingUses : List Use :=
  [.event (.setContent "aaa".toList none), .event (.setSearchTerm "aa")]

/-- The second character belongs to the selected match, but has the background of the other one. -/
theorem Desk.current_run_overlapped :
    ∃ session, Session.ofConfig { clock := ⟨0⟩ } = .ok session ∧
      let viewer := (Desk.run { session := session } overlappingUses).session
      viewer.search.enabled = true ∧ viewer.search.selection.current? = some ⟨0, 2, 0, 0⟩ ∧
      (viewer.registry.get? currentStyle).map (·.background) = some (some "#FF8C00") ∧
      ∃ spans, (viewer.highlight none).2 = .ok spans ∧
        let outcome := (Canvas.blank viewer.source.content).setSpans viewer.registry spans
        outcome.2.2 = .ok () ∧
          (outcome.1.unitFormat? 1 0).map (·.background) = some (some "#E3B341") := by
  have seen : ((Session.ofConfig { clock := ⟨0⟩ }).toOption.any fun session =>
      let viewer := (Desk.run { session := session } overlappingUses).session
      decide (viewer.search.enabled = true ∧ viewer.search.selection.current? = some ⟨0, 2, 0, 0⟩ ∧
        (viewer.registry.get? currentStyle).map (·.background) = some (some "#FF8C00")) &&
        (viewer.highlight none).2.toOption.any fun spans =>
          let outcome := (Canvas.blank viewer.source.content).setSpans viewer.registry spans
          decide (outcome.2.2 = .ok () ∧
            (outcome.1.unitFormat? 1 0).map (·.background) = some (some "#E3B341"))) = true := by decide +kernel
  obtain ⟨session, built, shown⟩ := Session.exists_of_any seen
  obtain ⟨shown, drawn⟩ := Bool.and_eq_true_iff.mp shown
  obtain ⟨enabled, stood, known⟩ := of_decide_eq_true shown
  obtain ⟨spans, drawn, hidden⟩ := exists_ok_of_any drawn
  exact ⟨session, built, enabled, stood, known, spans, drawn, of_decide_eq_true hidden⟩

end Marginalia
