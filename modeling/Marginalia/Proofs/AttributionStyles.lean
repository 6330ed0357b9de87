import Marginalia.Proofs.AnsweredEvents
import Marginalia.Proofs.AuthorTints
import Marginalia.Proofs.KeptRecords
import Marginalia.Proofs.StyleConflicts

namespace Marginalia

/-- The styles that records give to their authors: those of the records that are kept, in the order of their lines. -/
def recordStyles (tints : List String) (records : List Record) : StyleList :=
  tintedIds tints ((greedyWalk records).result.records.map fun record => authorStyleId record.author)

/-- The ids that records give to their authors, in the order of their lines. -/
def recordAuthorIds (records : List Record) : List (String × String) :=
  ((greedyWalk records).result.records.map (·.author)).eraseDups.map fun author => (author, authorStyleId author)

/-- Records are refused, or they stop at an author whose id is known with another style, or they are installed. The
styles of the authors in front of that one stay. -/
inductive Session.Attributes (session : Session) (records : List Record) (outcome : Outcome) : Prop
  | broken (breaks : GreedyBreak records) (kept : outcome.1 = session) {number : Int}
      (met : outcome.2 = .error (.longNumeral number))
  | refused (cause : session.strict = true ∧ GreedyClash records ∨ session.tints = []) (kept : outcome.1 = session)
      {fault : Fault} (met : outcome.2 = .error fault)
  | conflict {front name proposed rest known}
      (split : recordStyles session.tints records = front ++ (name, proposed) :: rest)
      (agree : ∀ entry ∈ front, session.registry.Agrees entry) (found : session.registry.get? name = some known)
      (different : known ≠ proposed)
      (kept : outcome.1 = { session with registry := session.registry.withPermanent (session.registry.unknown front) })
      (met : outcome.2 = .error (.styleConflict name known proposed))
  | installed (said : ¬GreedyBreak records)
      (agree : ∀ entry ∈ recordStyles session.tints records, session.registry.Agrees entry)
      (changed : outcome.1 = { session with
        registry := session.registry.withPermanent
          (session.registry.unknown (recordStyles session.tints records))
        blame := { session.blame with
          attribution := (greedyWalk records).result
          authorIds := recordAuthorIds records
          now := session.clock } })
      (given : outcome.2 = .ok (.attribution (greedyWalk records).result))

/-- The permanent styles of a session are those of a sheet and styles that some records gave to their authors. -/
structure Session.Dressed (sheet : Sheet) (config : SessionConfig) (given : List (List Record)) (session : Session) :
    Prop where
  tints : session.tints = config.tints
  strict : session.strict = config.choice.strict
  permanent : ∀ entry ∈ session.registry.permanent,
    entry ∈ sheet.styles ∨ ∃ records ∈ given, entry ∈ recordStyles config.tints records
  versioned : ∀ name ∈ session.registry.versioned.map (·.1), IsColorId name
  selection : session.search.selection.Stands

variable {sheet : Sheet} {config : SessionConfig} {given : List (List Record)} {session before after : Session}
  {records : List Record} {name : String}

theorem nodup_recordStyles (tints : List String) (records : List Record) :
    ((recordStyles tints records).map (·.1)).Nodup :=
  nodup_tintedIds ..

theorem mem_recordStyles_ids {tints : List String} (member : name ∈ (recordStyles tints records).map (·.1)) :
    ∃ record ∈ records, authorStyleId record.author = name := by
  rw [recordStyles, map_fst_tintedIds, List.mem_eraseDups] at member
  obtain ⟨record, kept, same⟩ := List.mem_map.mp member
  exact ⟨record, mem_of_mem_result kept, same⟩

theorem recordStyles_eq {attribution : Attribution} (built : Attribution.ofRecords records false = .ok attribution)
    (tints : List String) :
    recordStyles tints records =
      tintedIds tints (attribution.records.map fun record => authorStyleId record.author) := by
  rw [recordStyles, (Attribution.ofRecords_eq_ok built).2]

theorem Session.attributes_setAttribution (session : Session) (records : List Record) :
    session.Attributes records (session.setAttribution records) := by
  unfold setAttribution
  rcases Attribution.ofRecords_cases records session.strict with
    ⟨said, built⟩ | ⟨clash, fault, failed⟩ | ⟨breaks, number, failed⟩
  · rw [built]
    dsimp only
    by_cases tinted : session.tints = [] → (greedyWalk records).result.records.map (·.author) = []
    · have styles : tintedIds session.tints (((greedyWalk records).result.records.map (·.author)).map authorStyleId) =
          recordStyles session.tints records := by
        rw [recordStyles, List.map_map]
        rfl
      have registers := session.registry.registers_registerAll (nodup_recordStyles session.tints records)
      rw [AuthorStyles.ofAuthors_eq tinted, styles]
      dsimp only
      generalize session.registry.registerAll .permanent (recordStyles session.tints records) = outcome at registers
      cases registers with
      | all agree => exact .installed said agree rfl rfl
      | upTo split agree found different => exact .conflict split agree found different rfl rfl
    · obtain ⟨untinted, some⟩ := Classical.not_imp.mp tinted
      rw [untinted, AuthorStyles.ofAuthors_untinted some]
      exact .refused (Or.inr untinted) rfl rfl
  · rw [failed]
    exact .refused (Or.inl clash) rfl rfl
  · rw [failed]
    exact .broken breaks rfl rfl

theorem Sheet.colorless (sheet : Sheet) : ∀ name ∈ sheet.styles.map (·.1), ¬IsColorId name := by
  unfold IsColorId
  cases sheet <;> decide +kernel

theorem Sheet.eq_unknownAuthorStyle (sheet : Sheet) : ∀ name ∈ sheet.styles.map (·.1), IsAuthorId name →
    name = unknownAuthorStyle := by
  unfold IsAuthorId
  cases sheet <;> decide +kernel

theorem isAuthorId_of_mem_recordStyles {tints : List String} (member : name ∈ (recordStyles tints records).map (·.1)) :
    IsAuthorId name := by
  obtain ⟨record, _, rfl⟩ := mem_recordStyles_ids member
  exact isAuthorId_authorStyleId record.author

theorem Session.Dressed.colorless (dressed : session.Dressed sheet config given) : session.Colorless := by
  intro name member
  obtain ⟨entry, permanent, rfl⟩ := List.mem_map.mp member
  rcases dressed.permanent entry permanent with fromSheet | ⟨records, _, fromRecords⟩
  · exact sheet.colorless _ (List.mem_map_of_mem fromSheet)
  · exact (isAuthorId_of_mem_recordStyles (List.mem_map_of_mem fromRecords)).not_isColorId

theorem Session.Dressed.of_retains (dressed : before.Dressed sheet config given) (retained : before.Retains after) :
    after.Dressed sheet config given where
  tints := retained.tints.trans dressed.tints
  strict := retained.strict.trans dressed.strict
  permanent := retained.registry ▸ dressed.permanent
  versioned := retained.registry ▸ dressed.versioned
  selection := retained.selection dressed.selection

theorem Session.Dressed.of_proceeds (dressed : session.Dressed sheet config given) {outcome : Outcome}
    (proceeds : session.Proceeds outcome) : outcome.1.Dressed sheet config given := by
  cases proceeds with
  | refused kept =>
    rw [kept]
    exact dressed
  | answered retained => exact dressed.of_retains retained

/-- A content is taken, and brings versioned styles only. -/
theorem Session.Dressed.setContent (dressed : session.Dressed sheet config given) (content : Content)
    (filetype : Option String) :
    ∃ after changed, session.setContent content filetype = (after, .ok changed) ∧
      after.Dressed sheet config given := by
  obtain ⟨registry, changed, taken, permanent, versioned⟩ := dressed.colorless.setContent_eq content filetype
  have opened : Session.Dressed sheet config given { session with registry := registry } :=
    { dressed with
      permanent := permanent ▸ dressed.permanent
      versioned := by
        intro name member
        rcases versioned with same | swatches
        · exact dressed.versioned name (same ▸ member)
        · exact swatchTable_isColorId (swatches ▸ member) }
  exact ⟨_, changed, taken, opened.of_retains (session.retains_showing ..)⟩

/-- Styles of authors can be added where they are not known. -/
theorem Session.Dressed.grow (dressed : session.Dressed sheet config given) (inGiven : records ∈ given)
    {front : StyleList} (inFront : ∀ entry ∈ front, entry ∈ recordStyles config.tints records) :
    Session.Dressed sheet config given
      { session with registry := session.registry.withPermanent (session.registry.unknown front) } := by
  refine { dressed with permanent := fun entry member => ?_ }
  rcases List.mem_append.mp member with old | new
  · exact dressed.permanent entry old
  · exact Or.inr ⟨records, inGiven, inFront entry (List.mem_filter.mp new).1⟩

theorem Session.Dressed.setAttribution (dressed : session.Dressed sheet config given) (inGiven : records ∈ given) :
    (session.setAttribution records).1.Dressed sheet config given := by
  cases session.attributes_setAttribution records with
  | broken _ kept =>
    rw [kept]
    exact dressed
  | refused _ kept =>
    rw [kept]
    exact dressed
  | conflict split _ _ _ kept =>
    rw [kept]
    refine dressed.grow inGiven fun entry member => ?_
    rw [← dressed.tints, split]
    exact List.mem_append_left _ member
  | installed _ _ changed =>
    have grown := dressed.grow inGiven fun _ member => member
    rw [← dressed.tints] at grown
    rw [changed]
    exact { grown with }

theorem Session.Dressed.step (dressed : session.Dressed sheet config given) {event : Event}
    (brought : ∀ records ∈ event.records?, records ∈ given) : (session.step event).1.Dressed sheet config given := by
  cases event with
  | setContent content filetype =>
    obtain ⟨after, changed, taken, shown⟩ := dressed.setContent content filetype
    have shows : (session.step (.setContent content filetype)).1 = after := congrArg Prod.fst taken
    rw [shows]
    exact shown
  | setAttribution records => exact dressed.setAttribution (brought records rfl)
  | _ => exact dressed.of_proceeds (Session.proceeds_step dressed.selection rfl rfl)

/-- The records that a use brings. -/
def Use.records? : Use → Option (List Record)
  | .event given => given.records?
  | _ => none

theorem Use.records?_eq_some {use : Use} (brings : use.records? = some records) :
    use = .event (.setAttribution records) := by
  cases use with
  | event event =>
    cases event with
    | setAttribution => exact congrArg (Use.event ∘ Event.setAttribution) (Option.some.inj brings)
    | _ => cases brings
  | _ => cases brings

theorem Desk.dressed_use {desk : Desk} (dressed : desk.session.Dressed sheet config given) {use : Use}
    (unstyled : ∀ registry, use ≠ .restyle registry) (brought : ∀ records ∈ use.records?, records ∈ given) :
    (desk.use use).session.Dressed sheet config given := by
  cases use with
  | event event => exact dressed.step brought
  | restyle registry => exact absurd rfl (unstyled registry)
  | _ =>
    obtain ⟨cache, frame⟩ := desk.use_frame (by simp) unstyled
    rw [frame]
    exact { dressed with }

theorem Desk.dressed_run {desk : Desk} (dressed : desk.session.Dressed sheet config given) {uses : List Use}
    (unstyled : ∀ registry, Use.restyle registry ∉ uses)
    (brought : ∀ records ∈ uses.filterMap Use.records?, records ∈ given) :
    (desk.run uses).session.Dressed sheet config given := by
  refine Desk.run_keeps (motive := fun desk => desk.session.Dressed sheet config given) ?_ dressed
  intro desk use member dressed
  refine Desk.dressed_use dressed (fun registry same => unstyled registry (same ▸ member)) fun records brings => ?_
  exact brought records (List.mem_filterMap.mpr ⟨use, member, brings⟩)

/-- A new session has the styles of its sheet. -/
theorem Session.dressed_of_ofConfig (built : Session.ofConfig config = .ok session)
    (shipped : config.styles = sheet.styles) : session.Dressed sheet config given := by
  obtain ⟨initial, starts, changed, opened⟩ := Session.ofConfig_eq_ok built
  obtain ⟨_, unversioned, added, _⟩ := Registry.ofStyles_ok starts.registered
  have dressed : initial.Dressed sheet config given :=
    { tints := starts.tints
      strict := starts.strict
      permanent := fun entry member => Or.inl (shipped ▸ added member)
      versioned := by simp [unversioned]
      selection := starts.selection ▸ Selection.stands_empty }
  obtain ⟨after, _, taken, shown⟩ := dressed.setContent [] (some "")
  rw [opened] at taken
  obtain ⟨rfl, _⟩ := Prod.mk.inj taken
  exact shown

/-- However a viewer with a shipped sheet was used, its styles are those of the sheet and of the authors of the records
that came. -/
theorem Desk.dressed_of_ofConfig (built : Session.ofConfig config = .ok session) (shipped : config.styles = sheet.styles)
    {uses : List Use} (unstyled : ∀ registry, Use.restyle registry ∉ uses) :
    (Desk.run { session := session } uses).session.Dressed sheet config (uses.filterMap Use.records?) :=
  Desk.dressed_run (Session.dressed_of_ofConfig built shipped) unstyled fun _ member => member

/-- An author's style that is known comes from the sheet or from earlier records. -/
theorem Session.Dressed.origin (dressed : session.Dressed sheet config given) {known : Style}
    (isAuthorId : IsAuthorId name) (found : session.registry.get? name = some known) :
    name = unknownAuthorStyle ∨ ∃ records ∈ given, (name, known) ∈ recordStyles config.tints records := by
  rcases Registry.mem_of_get? found with permanent | versioned
  · rcases dressed.permanent _ permanent with fromSheet | fromRecords
    · exact Or.inl (sheet.eq_unknownAuthorStyle name (List.mem_map_of_mem fromSheet) isAuthorId)
    · exact Or.inr fromRecords
  · exact absurd (dressed.versioned name (List.mem_map_of_mem versioned)) isAuthorId.not_isColorId

/-- Where nothing else refuses records that can be told of, the styles of their authors decide. -/
theorem Session.setAttribution_eq_ok_iff (accepts : ¬(session.strict = true ∧ GreedyClash records))
    (tinted : session.tints ≠ []) :
    (∃ reply, (session.setAttribution records).2 = .ok reply) ↔
      ¬GreedyBreak records ∧ ∀ entry ∈ recordStyles session.tints records, session.registry.Agrees entry := by
  cases session.attributes_setAttribution records with
  | broken breaks _ met =>
    rw [met]
    refine ⟨?_, fun ⟨said, _⟩ => absurd breaks said⟩
    rintro ⟨reply, given⟩
    cases given
  | refused cause => exact absurd cause (not_or.mpr ⟨accepts, tinted⟩)
  | @conflict front name proposed rest known split _ found different _ met =>
    rw [met]
    constructor
    · rintro ⟨reply, given⟩
      cases given
    · intro ⟨_, agree⟩
      have member : (name, proposed) ∈ recordStyles session.tints records := by
        rw [split]
        exact List.mem_append_right _ (List.mem_cons_self ..)
      exact absurd (agree _ member known found) different
  | installed said agree _ given =>
    rw [given]
    exact ⟨fun _ => ⟨said, agree⟩, fun _ => ⟨_, rfl⟩⟩

/-- Where nothing else refuses records that can be told of, earlier ones do: they gave an author another style. -/
theorem Session.Dressed.setAttribution_eq_error (dressed : session.Dressed sheet config given)
    (accepts : ¬(session.strict = true ∧ GreedyClash records)) (tinted : session.tints ≠ [])
    (named : ∀ record ∈ records, authorStyleId record.author ≠ unknownAuthorStyle) {fault : Fault}
    (met : (session.setAttribution records).2 = .error fault) :
    (GreedyBreak records ∧ ∃ number, fault = .longNumeral number) ∨
    ∃ name known proposed, fault = .styleConflict name known proposed ∧ known ≠ proposed ∧
      (name, proposed) ∈ recordStyles config.tints records ∧
      ∃ earlier ∈ given, (name, known) ∈ recordStyles config.tints earlier := by
  cases session.attributes_setAttribution records with
  | broken breaks _ broke => exact Or.inl ⟨breaks, _, Except.error.inj (met.symm.trans broke)⟩
  | refused cause => exact absurd cause (not_or.mpr ⟨accepts, tinted⟩)
  | @conflict front name proposed rest known split _ found different _ conflict =>
    have member : (name, proposed) ∈ recordStyles config.tints records := by
      rw [← dressed.tints, split]
      exact List.mem_append_right _ (List.mem_cons_self ..)
    have inIds : name ∈ (recordStyles config.tints records).map (·.1) := List.mem_map.mpr ⟨_, member, rfl⟩
    obtain ⟨record, inRecords, id⟩ := mem_recordStyles_ids inIds
    rcases dressed.origin (isAuthorId_of_mem_recordStyles inIds) found with unknown | earlier
    · exact absurd (id.trans unknown) (named record inRecords)
    · exact Or.inr ⟨name, known, proposed, Except.error.inj (met.symm.trans conflict), different, member, earlier⟩
  | installed _ _ _ installed => cases met.symm.trans installed

/-- However a viewer with a shipped sheet was used, records are installed exactly if each id of their authors is not
known yet or known with the same style; and where it is known with another one, earlier records gave it that style. Apart
from that only a record that cannot be set aside, since its bounds are too long to be written, is in the way. -/
theorem Desk.setAttribution_run (shipped : config.styles = sheet.styles) (tolerant : config.choice.strict = false)
    (tinted : config.tints ≠ []) (built : Session.ofConfig config = .ok session) {uses : List Use}
    (unstyled : ∀ registry, Use.restyle registry ∉ uses)
    (named : ∀ record ∈ records, authorStyleId record.author ≠ unknownAuthorStyle) :
    let viewer := (Desk.run { session := session } uses).session
    ((∃ reply, (viewer.setAttribution records).2 = .ok reply) ↔
      ¬GreedyBreak records ∧ ∀ entry ∈ recordStyles config.tints records, viewer.registry.Agrees entry) ∧
    ∀ fault, (viewer.setAttribution records).2 = .error fault →
      (GreedyBreak records ∧ ∃ number, fault = .longNumeral number) ∨
      ∃ name known proposed, fault = .styleConflict name known proposed ∧ known ≠ proposed ∧
        (name, proposed) ∈ recordStyles config.tints records ∧
        ∃ earlier, .event (.setAttribution earlier) ∈ uses ∧ (name, known) ∈ recordStyles config.tints earlier := by
  intro viewer
  have dressed : viewer.Dressed sheet config (uses.filterMap Use.records?) :=
    Desk.dressed_of_ofConfig built shipped unstyled
  have accepts : ¬(viewer.strict = true ∧ GreedyClash records) := by simp [dressed.strict, tolerant]
  have viewerTinted : viewer.tints ≠ [] := dressed.tints ▸ tinted
  refine ⟨dressed.tints ▸ Session.setAttribution_eq_ok_iff accepts viewerTinted, fun fault met => ?_⟩
  refine (dressed.setAttribution_eq_error accepts viewerTinted named met).imp_right ?_
  rintro ⟨name, known, proposed, conflict, different, member, earlier, brought, before⟩
  obtain ⟨use, inUses, brings⟩ := List.mem_filterMap.mp brought
  exact ⟨name, known, proposed, conflict, different, member, earlier, Use.records?_eq_some brings ▸ inUses, before⟩

/-- One line for each author. -/
def linesOf (authors : List String) : List Record :=
  authors.zipIdx.map fun (author, line) => { start := line, stop := line + 1, author := author, time := ⟨0⟩ }

/-- Two authors get the first two tints. -/
def introducingUses : List Use :=
  [.event (.setAttribution (linesOf ["alice", "bob"])), .highlight none]

/-- A third author behind the two that are known gets the tint of the third place. -/
theorem Desk.setAttribution_run_grown :
    ∃ session, Session.ofConfig { clock := ⟨0⟩ } = .ok session ∧
      let viewer := (Desk.run { session := session } introducingUses).session
      ∃ reply, (viewer.setAttribution (linesOf ["alice", "bob", "carol"])).2 = .ok reply := by
  have kept : Attribution.ofRecords (linesOf ["alice", "bob", "carol"]) false =
      .ok ⟨linesOf ["alice", "bob", "carol"], []⟩ := by decide +kernel
  have seen : ((Session.ofConfig { clock := ⟨0⟩ }).toOption.any fun session =>
      let viewer := (Desk.run { session := session } introducingUses).session
      let ids := (linesOf ["alice", "bob", "carol"]).map fun record => authorStyleId record.author
      decide (∀ entry ∈ tintedIds Sheet.githubDark.authorTints ids, viewer.registry.Agrees entry)) = true := by
    decide +kernel
  have shipped : SessionConfig.styles { clock := ⟨0⟩ } = Sheet.githubDark.styles := rfl
  have unstyled : ∀ registry, Use.restyle registry ∉ introducingUses := by simp [introducingUses]
  have named : ∀ record ∈ linesOf ["alice", "bob", "carol"], authorStyleId record.author ≠ unknownAuthorStyle := by
    decide +kernel
  obtain ⟨session, built, agree⟩ := Session.exists_of_any seen
  have installs := (Desk.setAttribution_run shipped rfl (by decide) built unstyled named).1
  rw [recordStyles_eq kept] at installs
  exact ⟨session, built, installs.mpr ⟨(Attribution.ofRecords_eq_ok kept).1, of_decide_eq_true agree⟩⟩

/-- The same two authors are refused when they come in the other order. -/
theorem Desk.setAttribution_run_swapped :
    ∃ session, Session.ofConfig { clock := ⟨0⟩ } = .ok session ∧
      (∀ record ∈ linesOf ["bob", "alice"], authorStyleId record.author ≠ unknownAuthorStyle) ∧
      let viewer := (Desk.run { session := session } introducingUses).session
      viewer.strict = false ∧ viewer.tints ≠ [] ∧
      (viewer.setAttribution (linesOf ["bob", "alice"])).2 =
        .error (.styleConflict "blame.author.bob" (.paper "#1a4d1a") (.paper "#1a1a4d")) := by
  have seen : ((Session.ofConfig { clock := ⟨0⟩ }).toOption.any fun session =>
      let viewer := (Desk.run { session := session } introducingUses).session
      decide (viewer.strict = false ∧ viewer.tints ≠ [] ∧ (viewer.setAttribution (linesOf ["bob", "alice"])).2 =
        .error (.styleConflict "blame.author.bob" (.paper "#1a4d1a") (.paper "#1a1a4d")))) = true := by
    decide +kernel
  obtain ⟨session, built, refused⟩ := Session.exists_of_any seen
  exact ⟨session, built, by decide +kernel, of_decide_eq_true refused⟩

end Marginalia
