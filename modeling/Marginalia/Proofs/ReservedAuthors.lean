import Marginalia.Proofs.KeptFormats
import Marginalia.Proofs.PermanentStyles

namespace Marginalia

/-- An id takes the tint whose turn it is at the place of the id; ids stand in the order in which they first appear. -/
def TakesTint (tints ids : List String) (id tint : String) : Prop :=
  ∃ place, ids.eraseDups[place]? = some id ∧ tints[place % tints.length]? = some tint

variable {sheet : Sheet} {config : SessionConfig} {session : Session} {registry after : Registry}
  {records : List Record} {styles : StyleList} {name : String} {style : Style} {tints ids : List String}

theorem mem_tintedIds_iff (tinted : tints ≠ []) :
    (name, style) ∈ tintedIds tints ids ↔ ∃ tint, TakesTint tints ids name tint ∧ style = .paper tint := by
  simp only [tintedIds, List.mem_map, Prod.mk.injEq]
  constructor
  · rintro ⟨⟨id, place⟩, member, rfl, rfl⟩
    exact ⟨_, ⟨place, List.mk_mem_zipIdx_iff_getElem?.mp member, getElem?_turn tinted place⟩, rfl⟩
  · rintro ⟨tint, ⟨place, atPlace, inTurn⟩, rfl⟩
    refine ⟨(name, place), List.mk_mem_zipIdx_iff_getElem?.mpr atPlace, rfl, ?_⟩
    rw [Option.some.inj ((getElem?_turn tinted place).symm.trans inTurn)]

/-- Styles that are registered together without a fault are known as they are defined. -/
theorem Registry.get?_of_registerAll {scope : Scope} (registered : registry.registerAll scope styles = (after, .ok ()))
    (member : (name, style) ∈ styles) : after.get? name = some style := by
  induction styles generalizing registry with
  | nil => cases member
  | cons entry rest ih =>
    obtain ⟨first, firstStyle⟩ := entry
    rw [registerAll] at registered
    cases taken : registry.register first firstStyle scope with
    | error fault =>
      rw [taken] at registered
      cases registered
    | ok next =>
      rw [taken] at registered
      rcases List.mem_cons.mp member with same | later
      · cases same
        have extended : next.Extends (next.perform (.registerAll rest scope)).1 := extends_perform (by simp [StaysFor])
        have outcome : (next.perform (.registerAll rest scope)).1 = after := congrArg Prod.fst registered
        exact outcome ▸ extended.known _ _ (get?_of_register taken)
      · exact ih registered later

theorem Registry.registerAll_of_agree (distinct : (styles.map (·.1)).Nodup)
    (agree : ∀ entry ∈ styles, registry.Agrees entry) :
    registry.registerAll .permanent styles = (registry.withPermanent (registry.unknown styles), .ok ()) := by
  have registers := registry.registers_registerAll distinct
  generalize registry.registerAll .permanent styles = outcome at registers ⊢
  cases registers with
  | all => rfl
  | @upTo front name proposed rest known split _ found different =>
    have member : (name, proposed) ∈ styles := by
      rw [split]
      exact List.mem_append_right _ (List.mem_cons_self ..)
    exact absurd (agree _ member known found) different

theorem isAuthorId_unknownAuthorStyle : IsAuthorId unknownAuthorStyle := by
  unfold IsAuthorId
  decide

/-- A new viewer has the style of its sheet for authors without a tint. -/
theorem Session.mem_sheet_of_get?_unknown (built : Session.ofConfig config = .ok session)
    (shipped : config.styles = sheet.styles) (found : session.registry.get? unknownAuthorStyle = some style) :
    (unknownAuthorStyle, style) ∈ sheet.styles := by
  have dressed : session.Dressed sheet config [] := Session.dressed_of_ofConfig built shipped
  rcases Registry.mem_of_get? found with permanent | versioned
  · exact (dressed.permanent _ permanent).resolve_right (by simp)
  · exact absurd (dressed.versioned _ (List.mem_map_of_mem versioned)) isAuthorId_unknownAuthorStyle.not_isColorId

/-- A new viewer knows the ids of no authors, except the one that the sheet has a style for. -/
theorem Session.agrees_ofConfig_iff (built : Session.ofConfig config = .ok session)
    (shipped : config.styles = sheet.styles) (isAuthorId : IsAuthorId name) :
    session.registry.Agrees (name, style) ↔ (name = unknownAuthorStyle → (name, style) ∈ sheet.styles) := by
  have dressed : session.Dressed sheet config [] := Session.dressed_of_ofConfig built shipped
  constructor
  · rintro agrees rfl
    have contained := (Session.stocked_of_ofConfig built shipped).contains_of_isSheetId defines_unknownAuthorStyle.1
    obtain ⟨known, found⟩ := Option.isSome_iff_exists.mp contained
    obtain rfl : known = style := agrees known found
    exact Session.mem_sheet_of_get?_unknown built shipped found
  · intro reserved known found
    rcases dressed.origin isAuthorId found with rfl | ⟨earlier, none, _⟩
    · exact Sheet.style_eq (Session.mem_sheet_of_get?_unknown built shipped found) (reserved rfl)
    · cases none

/-- When records are installed, each author of the index has the id of the name, with the tint that the id takes. -/
theorem Session.authors_of_setAttribution (tinted : session.tints ≠ []) {reply : Reply}
    (given : (session.setAttribution records).2 = .ok reply) :
    let after := (session.setAttribution records).1
    let index := (greedyWalk records).result
    reply = .attribution index ∧ after.blame.attribution = index ∧
      ∀ record ∈ index.records, ∃ tint,
        TakesTint session.tints (index.records.map fun record => authorStyleId record.author)
          (authorStyleId record.author) tint ∧
        lookupKey? record.author after.blame.authorIds = some (authorStyleId record.author) ∧
        after.registry.get? (authorStyleId record.author) = some (.paper tint) := by
  intro after index
  cases session.attributes_setAttribution records with
  | broken _ _ met => cases given.symm.trans met
  | refused _ _ met => cases given.symm.trans met
  | conflict _ _ _ _ _ met => cases given.symm.trans met
  | installed _ agree changed installed =>
    have registered := Registry.registerAll_of_agree (nodup_recordStyles session.tints records) agree
    refine ⟨Except.ok.inj (given.symm.trans installed), congrArg (·.blame.attribution) changed, ?_⟩
    intro record member
    have inStyles : authorStyleId record.author ∈ (recordStyles session.tints records).map (·.1) := by
      rw [recordStyles, map_fst_tintedIds, List.mem_eraseDups]
      exact List.mem_map_of_mem member
    obtain ⟨⟨id, style⟩, defined, same⟩ := List.mem_map.mp inStyles
    obtain rfl : id = authorStyleId record.author := same
    obtain ⟨tint, takes, rfl⟩ := (mem_tintedIds_iff tinted).mp defined
    have named : lookupKey? record.author (recordAuthorIds records) = some (authorStyleId record.author) :=
      lookupKey?_map _ (List.mem_eraseDups.mpr (List.mem_map_of_mem member))
    refine ⟨tint, takes, ?_, ?_⟩
    · change lookupKey? _ (session.setAttribution records).1.blame.authorIds = _
      rw [changed]
      exact named
    · change (session.setAttribution records).1.registry.get? _ = _
      rw [changed]
      exact Registry.get?_of_registerAll registered defined

/-- A new viewer with a shipped sheet installs records exactly if the id that the sheet has a style for takes no tint, or
the tint of that style. Only that id is in the way of records, or one that cannot be set aside since its bounds are too
long to be written; and when records are installed, each author of the index has the id of the name, defined with the
tint that it takes. -/
theorem Session.setAttribution_ofConfig (shipped : config.styles = sheet.styles)
    (tolerant : config.choice.strict = false) (tinted : config.tints ≠ [])
    (built : Session.ofConfig config = .ok session) (records : List Record) :
    let outcome := session.setAttribution records
    let index := (greedyWalk records).result
    let ids := index.records.map fun record => authorStyleId record.author
    ((∃ reply, outcome.2 = .ok reply) ↔ ¬GreedyBreak records ∧
      ∀ tint, TakesTint config.tints ids unknownAuthorStyle tint → (unknownAuthorStyle, .paper tint) ∈ sheet.styles) ∧
    (∀ fault, outcome.2 = .error fault → (GreedyBreak records ∧ ∃ number, fault = .longNumeral number) ∨
      ∃ known tint, fault = .styleConflict unknownAuthorStyle known (.paper tint) ∧
        (unknownAuthorStyle, known) ∈ sheet.styles ∧ known ≠ .paper tint ∧
        TakesTint config.tints ids unknownAuthorStyle tint) ∧
    ∀ reply, outcome.2 = .ok reply → reply = .attribution index ∧ outcome.1.blame.attribution = index ∧
      ∀ record ∈ index.records, ∃ tint, TakesTint config.tints ids (authorStyleId record.author) tint ∧
        lookupKey? record.author outcome.1.blame.authorIds = some (authorStyleId record.author) ∧
        outcome.1.registry.get? (authorStyleId record.author) = some (.paper tint) := by
  intro outcome index ids
  have dressed : session.Dressed sheet config [] := Session.dressed_of_ofConfig built shipped
  have accepts : ¬(session.strict = true ∧ GreedyClash records) := by simp [dressed.strict, tolerant]
  have sessionTinted : session.tints ≠ [] := dressed.tints ▸ tinted
  have styles : recordStyles session.tints records = tintedIds config.tints ids := by
    rw [dressed.tints]
    rfl
  refine ⟨?_, fun fault met => ?_, fun reply given => ?_⟩
  · have installs : (∃ reply, outcome.2 = .ok reply) ↔ _ := Session.setAttribution_eq_ok_iff accepts sessionTinted
    rw [installs, styles]
    refine and_congr_right fun _ => ?_
    constructor
    · intro agree tint takes
      have member := (mem_tintedIds_iff tinted).mpr ⟨tint, takes, rfl⟩
      exact (Session.agrees_ofConfig_iff built shipped isAuthorId_unknownAuthorStyle).mp (agree _ member) rfl
    · rintro reserved ⟨name, style⟩ member
      have isAuthorId := isAuthorId_of_mem_recordStyles (List.mem_map_of_mem (styles ▸ member))
      refine (Session.agrees_ofConfig_iff built shipped isAuthorId).mpr ?_
      rintro rfl
      obtain ⟨tint, takes, rfl⟩ := (mem_tintedIds_iff tinted).mp member
      exact reserved tint takes
  · cases session.attributes_setAttribution records with
    | broken breaks _ broke => exact Or.inl ⟨breaks, _, Except.error.inj (met.symm.trans broke)⟩
    | refused cause => exact absurd cause (not_or.mpr ⟨accepts, sessionTinted⟩)
    | @conflict front name proposed rest known split _ found different _ conflict =>
      have member : (name, proposed) ∈ tintedIds config.tints ids := by
        rw [← styles, split]
        exact List.mem_append_right _ (List.mem_cons_self ..)
      have isAuthorId := isAuthorId_of_mem_recordStyles (List.mem_map_of_mem (styles ▸ member))
      obtain ⟨tint, takes, rfl⟩ := (mem_tintedIds_iff tinted).mp member
      rcases dressed.origin isAuthorId found with rfl | ⟨earlier, none, _⟩
      · have fromSheet := Session.mem_sheet_of_get?_unknown built shipped found
        exact Or.inr ⟨known, tint, Except.error.inj (met.symm.trans conflict), fromSheet, different, takes⟩
      · cases none
    | installed _ _ _ installed => cases met.symm.trans installed
  · have authors := Session.authors_of_setAttribution sessionTinted given
    rw [dressed.tints] at authors
    exact authors

/-- Three authors under two ids, in the order of their lines. -/
def sharingAuthors : List Record :=
  linesOf ["Ann Lee", "bob", "ann-lee"]

/-- Two authors share the id, and the tint, of one name. -/
theorem Session.setAttribution_ofConfig_shared :
    ∃ session, Session.ofConfig { clock := ⟨0⟩ } = .ok session ∧
      let outcome := session.setAttribution sharingAuthors
      (∃ reply, outcome.2 = .ok reply) ∧ ∀ author ∈ ["Ann Lee", "ann-lee"],
        lookupKey? author outcome.1.blame.authorIds = some "blame.author.ann_lee" ∧
        outcome.1.registry.get? "blame.author.ann_lee" = some (.paper "#1a1a4d") := by
  have seen : ((Session.ofConfig { clock := ⟨0⟩ }).toOption.any fun _ => true) = true := by decide +kernel
  obtain ⟨session, built, _⟩ := Session.exists_of_any seen
  have kept : Attribution.ofRecords sharingAuthors false = .ok ⟨sharingAuthors, []⟩ := by decide +kernel
  have shipped : SessionConfig.styles { clock := ⟨0⟩ } = Sheet.githubDark.styles := rfl
  obtain ⟨installs, _, defines⟩ := Session.setAttribution_ofConfig shipped rfl (by decide) built sharingAuthors
  obtain ⟨said, result⟩ := Attribution.ofRecords_eq_ok kept
  rw [result] at installs defines
  have ids : (sharingAuthors.map fun record => authorStyleId record.author).eraseDups =
      ["blame.author.ann_lee", "blame.author.bob"] := by
    decide +kernel
  have installed : ∃ reply, (session.setAttribution sharingAuthors).2 = .ok reply := by
    refine installs.mpr ⟨said, ?_⟩
    rintro tint ⟨place, atPlace, _⟩
    rw [ids] at atPlace
    exact absurd (List.mem_of_getElem? atPlace) (by decide)
  refine ⟨session, built, installed, fun author asked => ?_⟩
  obtain ⟨reply, given⟩ := installed
  obtain ⟨record, member, named, sameId⟩ : ∃ record ∈ sharingAuthors, record.author = author ∧
      authorStyleId record.author = "blame.author.ann_lee" := by
    revert author
    decide +kernel
  obtain ⟨tint, ⟨place, atPlace, inTurn⟩, known, defined⟩ := (defines reply given).2.2 record member
  rw [ids, sameId] at atPlace
  rw [sameId] at known defined
  subst named
  have first : place = 0 := by
    rcases place with _ | _ | place
    · rfl
    · exact absurd atPlace (by decide)
    · cases atPlace
  subst first
  obtain rfl : "#1a1a4d" = tint := Option.some.inj inTurn
  exact ⟨known, defined⟩

/-- An author with the id that the sheet has a style for is refused. -/
theorem Session.setAttribution_ofConfig_reserved :
    ∃ session, Session.ofConfig { clock := ⟨0⟩ } = .ok session ∧ session.strict = false ∧ session.tints ≠ [] ∧
      (session.setAttribution (linesOf ["Unknown"])).2 =
        .error (.styleConflict unknownAuthorStyle (.paper "#2a2a2a") (.paper "#1a1a4d")) := by
  have seen : ((Session.ofConfig { clock := ⟨0⟩ }).toOption.any fun session =>
      decide (session.strict = false ∧ session.tints ≠ [] ∧ (session.setAttribution (linesOf ["Unknown"])).2 =
        .error (.styleConflict unknownAuthorStyle (.paper "#2a2a2a") (.paper "#1a1a4d")))) = true := by
    decide +kernel
  obtain ⟨session, built, refused⟩ := Session.exists_of_any seen
  exact ⟨session, built, of_decide_eq_true refused⟩

end Marginalia
