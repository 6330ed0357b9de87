import Marginalia.Proofs.CurrentFormats
import Marginalia.Proofs.FamilyBlocks
import Marginalia.Proofs.PaintedSpans
import Marginalia.Proofs.SelectedMatches

namespace Marginalia

/-- Whether a use changes the styles from outside at most as painting in them does. -/
def Desk.Paints (desk : Desk) (use : Use) : Prop :=
  ∀ registry, use = .restyle registry →
    ∃ (canvas : Canvas) (spans : List Span), (canvas.setSpans desk.session.registry spans).2.1 = registry

/-- Whether all changes of the styles from outside on the way are due to paintings. -/
def Desk.PaintsOnly (desk : Desk) : List Use → Prop
  | [] => True
  | use :: rest => desk.Paints use ∧ (desk.use use).PaintsOnly rest

/-- All styles of a sheet are known, and every other style and format belongs to an author or to a color. -/
structure Session.Stocked (sheet : Sheet) (session : Session) : Prop where
  complete : ∀ name ∈ sheet.styles.map (·.1), name ∈ session.registry.permanent.map (·.1)
  permanent : ∀ entry ∈ session.registry.permanent, entry ∈ sheet.styles ∨ IsAuthorId entry.1
  versioned : ∀ name ∈ session.registry.versioned.map (·.1), IsColorId name
  formats : ∀ entry ∈ session.registry.formats,
    (∃ style, (entry.1, style) ∈ sheet.styles ∧ entry.2 = style.format) ∨ IsAuthorId entry.1 ∨ IsColorId entry.1

variable {after : Registry} {session next : Session} {sheet : Sheet} {desk : Desk} {event : Event}
  {contents : List Content} {uses : List Use}

theorem Registry.keeps_collectStrokes (registry : Registry) (starts : List Nat) (spans : List Span) :
    registry.Keeps (collectStrokes registry starts spans).1 := by
  induction spans generalizing registry with
  | nil => exact .refl registry
  | cons span rest ih =>
    have first := registry.keeps_format span.style
    rw [collectStrokes]
    split
    · rename_i next fault asked
      rw [asked] at first
      exact first
    · rename_i next format asked
      rw [asked] at first
      exact first.trans (ih next)

/-- Painting keeps formats of the styles that it asks for, also when it stops at an unknown one. -/
theorem Canvas.keeps_setSpans (canvas : Canvas) (registry : Registry) (spans : List Span) :
    registry.Keeps (canvas.setSpans registry spans).2.1 := by
  have kept := registry.keeps_collectStrokes (lineStarts canvas.content) spans
  unfold setSpans
  split
  · rename_i asked
    rwa [asked] at kept
  · rename_i asked
    rwa [asked] at kept

theorem Registry.formats_registerColors (registry : Registry) (background : Rgb) (done : List String)
    (colors : List ColorMatch) : (registry.registerColors background done colors).1.formats = registry.formats := by
  induction colors generalizing registry done with
  | nil => rfl
  | cons color rest ih =>
    rw [registerColors]
    split
    · exact ih registry done
    · split
      · exact ih registry done
      · split
        · rename_i registered
          rw [ih, formats_register registered]
        · rfl

/-- A new content brings no formats. -/
theorem Session.formats_setContent (session : Session) (content : Content) (filetype : Option String) :
    (session.setContent content filetype).1.registry.formats ⊆ session.registry.formats := by
  have begun := session.registry.formats_beginVersion (fingerprint content)
  have same : ((session.registry.beginVersion (fingerprint content)).1.registerSwatches content
      session.background).1.formats = (session.registry.beginVersion (fingerprint content)).1.formats :=
    Registry.formats_registerColors ..
  unfold Session.setContent
  dsimp only
  split
  · split
    · rename_i registered
      rw [registered] at same
      exact same ▸ begun
    · rename_i registered
      rw [registered] at same
      rw [searchAgain_eq]
      exact same ▸ begun
  · rw [searchAgain_eq]
    exact begun

theorem Session.Stocked.colorless (stocked : session.Stocked sheet) : session.Colorless := by
  intro name member
  obtain ⟨entry, permanent, rfl⟩ := List.mem_map.mp member
  rcases stocked.permanent entry permanent with fromSheet | isAuthorId
  · exact sheet.colorless _ (List.mem_map_of_mem fromSheet)
  · exact isAuthorId.not_isColorId

theorem Session.Stocked.of_moves (stocked : session.Stocked sheet) (moved : session.Moves event next) :
    next.Stocked sheet := by
  cases moved with
  | beside => exact { stocked with }
  | @within family annotator added owner follows areIds message =>
    have grown : Session.Stocked sheet { session with registry := session.registry.withPermanent added } :=
      { stocked with
        complete := fun name member => by
          rw [Registry.withPermanent, List.map_append]
          exact List.mem_append_left _ (stocked.complete name member)
        permanent := fun entry member => by
          rcases List.mem_append.mp member with old | new
          · exact stocked.permanent entry old
          · exact Or.inr (areIds entry.1 (List.mem_map_of_mem new)) }
    cases annotator <;> exact { grown with }

theorem Session.Stocked.setContent (stocked : session.Stocked sheet) (content : Content) (filetype : Option String) :
    (∃ changed, (session.setContent content filetype).2 = .ok changed) ∧
      (session.setContent content filetype).1.Stocked sheet := by
  have formats := session.formats_setContent content filetype
  obtain ⟨registry, changed, shown, permanent, versioned⟩ := stocked.colorless.setContent_eq content filetype
  rw [shown] at formats ⊢
  rw [showing_eq] at formats ⊢
  refine ⟨⟨changed, rfl⟩, ?_⟩
  exact
    { complete := permanent ▸ stocked.complete
      permanent := permanent ▸ stocked.permanent
      versioned := by
        intro name member
        rcases versioned with same | swatches
        · exact stocked.versioned name (same ▸ member)
        · exact swatchTable_isColorId (swatches ▸ member)
      formats := fun entry member => stocked.formats entry (formats member) }

/-- Painting finds the style of each format that it keeps in the sheet, unless the style belongs to an author or to a
color. -/
theorem Session.Stocked.of_keeps (stocked : session.Stocked sheet) (kept : session.registry.Keeps after) :
    Session.Stocked sheet { session with registry := after } := by
  obtain ⟨formats, rfl, sound⟩ := kept
  refine { stocked with formats := fun entry member => ?_ }
  rcases sound entry member with old | ⟨style, found, same⟩
  · exact stocked.formats entry old
  · rcases Registry.mem_of_get? found with permanent | versioned
    · rcases stocked.permanent _ permanent with fromSheet | isAuthorId
      · exact Or.inl ⟨style, fromSheet, same⟩
      · exact Or.inr (Or.inl isAuthorId)
    · exact Or.inr (Or.inr (stocked.versioned _ (List.mem_map_of_mem versioned)))

theorem Sheet.nodup_ids (sheet : Sheet) : (sheet.styles.map (·.1)).Nodup := by
  cases sheet <;> decide +kernel

theorem Sheet.style_eq {name : String} {style other : Style} (defined : (name, style) ∈ sheet.styles)
    (otherDefined : (name, other) ∈ sheet.styles) : style = other :=
  congrArg Prod.snd (List.inj_on_of_nodup_map sheet.nodup_ids defined otherDefined rfl)

theorem Session.Stocked.contains_of_isSheetId (stocked : session.Stocked sheet) {name : String}
    (isSheetId : IsSheetId name) : session.registry.contains name = true :=
  Registry.contains_iff.mpr (Or.inl (stocked.complete name (isSheetId sheet)))

/-- A style of the sheet that no author has is known as the sheet defines it, and drawn so. -/
theorem Session.Stocked.formatOf (stocked : session.Stocked sheet) {name : String} {style : Style}
    (defined : (name, style) ∈ sheet.styles) (unauthored : ¬IsAuthorId name) :
    session.registry.get? name = some style ∧ session.registry.formatOf name = style.format := by
  have inSheet : name ∈ sheet.styles.map (·.1) := List.mem_map_of_mem defined
  have colorless := sheet.colorless name inSheet
  have known : session.registry.get? name = some style := by
    obtain ⟨other, found⟩ := Option.isSome_iff_exists.mp
      (Registry.contains_iff.mpr (Or.inl (stocked.complete name inSheet)))
    rcases Registry.mem_of_get? found with permanent | versioned
    · rcases stocked.permanent _ permanent with fromSheet | isAuthorId
      · rw [found, Sheet.style_eq fromSheet defined]
      · exact absurd isAuthorId unauthored
    · exact absurd (stocked.versioned name (List.mem_map_of_mem versioned)) colorless
  refine ⟨known, ?_⟩
  rw [Registry.formatOf_eq, known]
  cases kept : lookupKey? name session.registry.formats with
  | none => rfl
  | some format =>
    rcases stocked.formats _ (mem_of_lookupKey? kept) with ⟨other, fromSheet, built⟩ | isAuthorId | isColorId
    · rw [Sheet.style_eq fromSheet defined] at built
      exact built
    · exact absurd isAuthorId unauthored
    · exact absurd isColorId colorless

theorem Desk.Paints.keeps {registry : Registry} (paints : desk.Paints (.restyle registry)) :
    desk.session.registry.Keeps registry := by
  obtain ⟨canvas, spans, rfl⟩ := paints registry rfl
  exact canvas.keeps_setSpans ..

theorem Desk.stocked_use (stocked : desk.session.Stocked sheet) {use : Use} (paints : desk.Paints use) :
    desk.takes use = true ∧ (desk.use use).session.Stocked sheet := by
  rcases use.kinds with ⟨event, rfl⟩ | ⟨registry, rfl⟩ | ⟨eventless, unstyled⟩
  · cases event with
    | setContent content filetype =>
      obtain ⟨⟨changed, taken⟩, kept⟩ := stocked.setContent content filetype
      exact ⟨by rw [takes, taken]; rfl, kept⟩
    | _ => exact ⟨rfl, stocked.of_moves (desk.session.moves_step rfl)⟩
  · exact ⟨rfl, stocked.of_keeps paints.keeps⟩
  · obtain ⟨cache, frame⟩ := desk.use_frame eventless unstyled
    rw [frame]
    refine ⟨?_, { stocked with }⟩
    cases use with
    | event event => exact absurd rfl (eventless event)
    | _ => rfl

/-- What every use keeps that changes no styles but by painting, all of them keep. -/
theorem Desk.run_keeps_of_paints {motive : Desk → Prop}
    (each : ∀ desk, ∀ use ∈ uses, desk.Paints use → motive desk → motive (desk.use use)) (paints : desk.PaintsOnly uses)
    (started : motive desk) : motive (desk.run uses) := by
  induction uses generalizing desk with
  | nil => exact started
  | cons use rest ih =>
    obtain ⟨here, later⟩ := paints
    obtain ⟨first, others⟩ := List.forall_mem_cons.mp fun use member desk => each desk use member
    exact ih (fun desk use member => others use member desk) later (first desk here started)

theorem Session.Starts.formats_eq_nil {config : SessionConfig} (starts : session.Starts config) :
    session.registry.formats = [] := by
  obtain ⟨added, result, _⟩ := Registry.registerAll_permanent {} config.styles
  have registered : Registry.registerAll {} .permanent config.styles = (session.registry, .ok ()) := starts.registered
  rw [registered] at result
  exact congrArg Registry.formats result

theorem Session.stocked_of_ofConfig {config : SessionConfig} (built : Session.ofConfig config = .ok session)
    (shipped : config.styles = sheet.styles) : session.Stocked sheet := by
  obtain ⟨initial, starts, changed, opened⟩ := Session.ofConfig_eq_ok built
  obtain ⟨_, unversioned, added, complete⟩ := Registry.ofStyles_ok starts.registered
  have stocked : initial.Stocked sheet :=
    { complete := fun name member => complete (shipped ▸ member)
      permanent := fun entry member => Or.inl (shipped ▸ added member)
      versioned := by simp [unversioned]
      formats := by simp [starts.formats_eq_nil] }
  have kept := (stocked.setContent [] (some "")).2
  rwa [opened] at kept

theorem Desk.Coherent.of_paints (coherent : desk.Coherent contents) (stocked : desk.session.Stocked sheet)
    (apart : FingerprintsApart contents) {use : Use} (brought : ∀ content ∈ use.content?, content ∈ contents)
    (paints : desk.Paints use) : (desk.use use).Coherent contents := by
  have taken := (Desk.stocked_use stocked paints).1
  rcases use.kinds with ⟨event, rfl⟩ | ⟨registry, rfl⟩ | ⟨_, unstyled⟩
  · exact coherent.use apart brought (by simp) taken
  · refine ⟨coherent.anchored.use brought taken, ?_⟩
    obtain ⟨formats, rfl, _⟩ := paints.keeps
    exact { coherent.session with }
  · exact coherent.use apart brought unstyled taken

/-- However a viewer with a shipped sheet was used and painted, its styles are those of the sheet, of authors and of
colors, and its matches are those of its content. Unless two contents share a fingerprint, so are its version and its
swatches. -/
theorem Desk.stocked_run {config : SessionConfig} (shipped : config.styles = sheet.styles)
    (built : Session.ofConfig config = .ok session) (paints : Desk.PaintsOnly { session := session } uses) :
    let desk := Desk.run { session := session } uses
    desk.session.Stocked sheet ∧ desk.session.search.selection.FoundIn desk.session.source.content ∧
      (FingerprintsApart (usedContents uses) → desk.Coherent (usedContents uses)) := by
  refine Desk.run_keeps_of_paints (motive := fun desk => desk.session.Stocked sheet ∧
    desk.session.search.selection.FoundIn desk.session.source.content ∧
    (FingerprintsApart (usedContents uses) → desk.Coherent (usedContents uses))) ?_ paints
    ⟨Session.stocked_of_ofConfig built shipped, Session.foundIn_of_ofConfig built,
      fun _ => Desk.coherent_of_ofConfig shipped built (List.mem_cons_self ..)⟩
  rintro desk use member paints ⟨stocked, found, coherent⟩
  obtain ⟨taken, kept⟩ := Desk.stocked_use stocked paints
  refine ⟨kept, Desk.foundIn_use found taken, fun apart => ?_⟩
  exact (coherent apart).of_paints stocked apart (fun content => mem_usedContents member) paints

end Marginalia
