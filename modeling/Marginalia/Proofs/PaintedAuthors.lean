import Marginalia.Proofs.KeptFormats

namespace Marginalia

/-- A style that sets a background and nothing else. -/
def Style.IsTint (style : Style) : Prop :=
  ∃ color, color ≠ "" ∧ style = .paper color

instance (style : Style) : Decidable style.IsTint :=
  decidable_of_iff (style.background.getD "" ≠ "" ∧ style = .paper (style.background.getD "")) <| by
    constructor
    · rintro ⟨colored, same⟩
      exact ⟨_, colored, same⟩
    · rintro ⟨color, colored, rfl⟩
      exact ⟨colored, rfl⟩

/-- The permanent styles of a session are those of a sheet and of authors, and the formats that it has kept are those of
permanent styles or belong to colors. -/
structure Session.Painted (sheet : Sheet) (config : SessionConfig) (given : List (List Record)) (session : Session) :
    Prop extends session.Dressed sheet config given where
  formats : ∀ entry ∈ session.registry.formats,
    (∃ style, (entry.1, style) ∈ session.registry.permanent ∧ entry.2 = style.format) ∨ IsColorId entry.1

variable {sheet : Sheet} {config : SessionConfig} {given : List (List Record)} {session : Session}
  {registry : Registry} {records : List Record} {desk : Desk} {uses : List Use} {name : String}

theorem Session.Painted.setContent (painted : session.Painted sheet config given) (content : Content)
    (filetype : Option String) : (session.setContent content filetype).1.Painted sheet config given := by
  obtain ⟨after, changed, taken, dressed⟩ := painted.toDressed.setContent content filetype
  have formats := session.formats_setContent content filetype
  obtain ⟨registry, _, shown, permanent, _⟩ := painted.colorless.setContent_eq content filetype
  have kept : (session.setContent content filetype).1.registry.permanent = session.registry.permanent := by
    rw [shown, showing_eq]
    exact permanent
  rw [taken] at formats kept ⊢
  exact { dressed with formats := fun entry member => kept ▸ painted.formats entry (formats member) }

theorem Session.Painted.setAttribution (painted : session.Painted sheet config given) (inGiven : records ∈ given) :
    (session.setAttribution records).1.Painted sheet config given := by
  have dressed := painted.toDressed.setAttribution inGiven
  obtain ⟨added, formats, permanent⟩ : ∃ added,
      (session.setAttribution records).1.registry.formats = session.registry.formats ∧
      (session.setAttribution records).1.registry.permanent = session.registry.permanent ++ added := by
    cases session.attributes_setAttribution records with
    | broken _ kept => exact ⟨[], by rw [kept], by rw [kept, List.append_nil]⟩
    | refused _ kept => exact ⟨[], by rw [kept], by rw [kept, List.append_nil]⟩
    | conflict _ _ _ _ kept => exact ⟨_, by rw [kept]; rfl, by rw [kept]; rfl⟩
    | installed _ _ changed => exact ⟨_, by rw [changed]; rfl, by rw [changed]; rfl⟩
  refine { dressed with formats := fun entry member => ?_ }
  rw [formats] at member
  rw [permanent]
  exact (painted.formats entry member).imp_left fun ⟨style, known, same⟩ => ⟨style, List.mem_append_left _ known, same⟩

theorem Session.Painted.of_proceeds (painted : session.Painted sheet config given) {outcome : Outcome}
    (proceeds : session.Proceeds outcome) : outcome.1.Painted sheet config given := by
  have dressed := painted.toDressed.of_proceeds proceeds
  cases proceeds with
  | refused kept =>
    rw [kept]
    exact painted
  | answered retained =>
    refine { dressed with formats := ?_ }
    rw [retained.registry]
    exact painted.formats

theorem Session.Painted.step (painted : session.Painted sheet config given) {event : Event}
    (brought : ∀ records ∈ event.records?, records ∈ given) : (session.step event).1.Painted sheet config given := by
  cases event with
  | setContent content filetype => exact painted.setContent content filetype
  | setAttribution records => exact painted.setAttribution (brought records rfl)
  | _ => exact painted.of_proceeds (Session.proceeds_step painted.selection rfl rfl)

theorem Session.Painted.of_keeps (painted : session.Painted sheet config given)
    (kept : session.registry.Keeps registry) :
    Session.Painted sheet config given { session with registry := registry } := by
  obtain ⟨formats, rfl, sound⟩ := kept
  refine { painted with formats := fun entry member => ?_ }
  rcases sound entry member with old | ⟨style, found, same⟩
  · exact painted.formats entry old
  · rcases Registry.mem_of_get? found with permanent | versioned
    · exact Or.inl ⟨style, permanent, same⟩
    · exact Or.inr (painted.versioned _ (List.mem_map_of_mem versioned))

theorem Desk.painted_use (painted : desk.session.Painted sheet config given) {use : Use} (paints : desk.Paints use)
    (brought : ∀ records ∈ use.records?, records ∈ given) : (desk.use use).session.Painted sheet config given := by
  rcases use.kinds with ⟨event, rfl⟩ | ⟨registry, rfl⟩ | ⟨eventless, unstyled⟩
  · exact painted.step brought
  · exact painted.of_keeps paints.keeps
  · obtain ⟨cache, frame⟩ := desk.use_frame eventless unstyled
    rw [frame]
    exact { painted with }

theorem Session.painted_of_ofConfig (built : Session.ofConfig config = .ok session)
    (shipped : config.styles = sheet.styles) : session.Painted sheet config given := by
  obtain ⟨initial, starts, changed, opened⟩ := Session.ofConfig_eq_ok built
  have unformatted : session.registry.formats = [] := by
    have kept := initial.formats_setContent [] (some "")
    rw [opened, starts.formats_eq_nil] at kept
    exact List.subset_nil.mp kept
  have dressed : session.Dressed sheet config given := Session.dressed_of_ofConfig built shipped
  exact { dressed with formats := by simp [unformatted] }

/-- However a viewer with a shipped sheet was used and painted, its formats are those of its styles. -/
theorem Desk.painted_run (built : Session.ofConfig config = .ok session) (shipped : config.styles = sheet.styles)
    (paints : Desk.PaintsOnly { session := session } uses) :
    (Desk.run { session := session } uses).session.Painted sheet config (uses.filterMap Use.records?) := by
  refine Desk.run_keeps_of_paints (motive := fun desk => desk.session.Painted sheet config _) ?_ paints
    (Session.painted_of_ofConfig built shipped)
  intro desk use member paints painted
  exact Desk.painted_use painted paints fun records brings => List.mem_filterMap.mpr ⟨use, member, brings⟩

/-- The format of a known style is that of a permanent one, unless the style belongs to a color. -/
theorem Session.Painted.formatOf (painted : session.Painted sheet config given)
    (known : session.registry.contains name = true) (colorless : ¬IsColorId name) :
    ∃ style, (name, style) ∈ session.registry.permanent ∧ session.registry.formatOf name = style.format := by
  rw [Registry.formatOf_eq]
  cases kept : lookupKey? name session.registry.formats with
  | some format =>
    obtain ⟨style, permanent, same⟩ := (painted.formats _ (mem_of_lookupKey? kept)).resolve_right colorless
    exact ⟨style, permanent, same⟩
  | none =>
    obtain ⟨style, found⟩ := Option.isSome_iff_exists.mp known
    rw [found]
    rcases Registry.mem_of_get? found with permanent | versioned
    · exact ⟨style, permanent, rfl⟩
    · exact absurd (painted.versioned name (List.mem_map_of_mem versioned)) colorless

theorem Sheet.isTint_of_owns (sheet : Sheet) :
    ∀ entry ∈ sheet.styles, Family.blame.Owns entry.1 → entry.2.IsTint := by
  cases sheet <;> decide +kernel

theorem isTint_of_mem_recordStyles {tints : List String} (some : tints ≠ []) (colored : "" ∉ tints)
    {entry : String × Style} (member : entry ∈ recordStyles tints records) : entry.2.IsTint := by
  obtain ⟨⟨id, place⟩, _, rfl⟩ := List.mem_map.mp member
  have inside : place % tints.length < tints.length := Nat.mod_lt _ (List.length_pos_iff.mpr some)
  refine ⟨tints.getD (place % tints.length) "", fun empty => colored ?_, rfl⟩
  rw [← empty, List.getD_eq_getElem _ _ inside]
  exact List.getElem_mem inside

/-- Ages and authors are drawn in tints. -/
theorem Session.Painted.formatOf_blame (painted : session.Painted sheet config given) (some : config.tints ≠ [])
    (colored : "" ∉ config.tints) (owned : Family.blame.Owns name) (known : session.registry.contains name = true) :
    ∃ style : Style, style.IsTint ∧ session.registry.formatOf name = style.format := by
  have colorless : ¬IsColorId name := by
    intro isColorId
    have same : Family.blame = .color := owned.unique isColorId
    cases same
  obtain ⟨style, permanent, same⟩ := painted.formatOf known colorless
  refine ⟨style, ?_, same⟩
  rcases painted.permanent _ permanent with fromSheet | ⟨records, _, fromRecords⟩
  · exact sheet.isTint_of_owns _ fromSheet owned
  · exact isTint_of_mem_recordStyles some colored fromRecords

end Marginalia
