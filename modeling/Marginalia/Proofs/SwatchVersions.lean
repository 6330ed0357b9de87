import Marginalia.Proofs.ColorlessSheets

namespace Marginalia

variable {contents : List Content} {session : Session}

theorem Desk.swatched_use {desk : Desk} (swatched : desk.session.Swatched contents) (apart : FingerprintsApart contents)
    {use : Use} (brought : ∀ content ∈ use.content?, content ∈ contents) (unstyled : ∀ registry, use ≠ .restyle registry) :
    (desk.use use).session.Swatched contents := by
  rcases use.kinds with ⟨event, rfl⟩ | ⟨registry, rfl⟩ | ⟨eventless, _⟩
  · exact swatched.step apart brought
  · exact absurd rfl (unstyled registry)
  · obtain ⟨cache, frame⟩ := desk.use_frame eventless unstyled
    rw [frame]
    exact ⟨swatched.colorless, swatched.shown, swatched.version, swatched.current, swatched.isSealed, swatched.swatches⟩

/-- A literal has a swatch when it has the id of one, and it is the one that the registry gives for the id. -/
theorem Session.Swatched.get?_styleId (swatched : session.Swatched contents) {color : ColorMatch}
    (member : color.styleId ∈ session.registry.versioned.map (·.1)) :
    ∃ style, swatch color.literal session.background = .ok style ∧
      session.registry.get? color.styleId = some style := by
  rw [swatched.swatches] at member
  obtain ⟨style, found, forms⟩ := lookupKey?_swatchTable member
  have unfixed : lookupKey? color.styleId session.registry.permanent = none :=
    lookupKey?_eq_none_iff.mpr fun fixed => swatched.colorless _ fixed color.isColorId
  refine ⟨style, forms color rfl, ?_⟩
  rw [Registry.get?_eq_or, unfixed, swatched.swatches, found]
  rfl

/-- However a viewer was used whose sheet defines no ids of color literals, its registry is that of its content. -/
theorem Desk.swatched_of_ofConfig {config : SessionConfig} (built : Session.ofConfig config = .ok session)
    (colorless : ∀ name ∈ config.styles.map (·.1), ¬IsColorId name) {uses : List Use}
    (unstyled : ∀ registry, Use.restyle registry ∉ uses) (apart : FingerprintsApart (usedContents uses)) :
    (Desk.run { session := session } uses).session.Swatched (usedContents uses) := by
  have started : session.Swatched (usedContents uses) :=
    (Session.swatched_of_ofConfig built colorless (List.mem_cons_self ..)).1
  refine Desk.run_keeps (motive := fun desk => desk.session.Swatched (usedContents uses)) ?_ started
  intro desk use member swatched
  exact Desk.swatched_use swatched apart (fun content => mem_usedContents member) fun registry same =>
    unstyled registry (same ▸ member)

/-- As long as the sheet defines no ids of color literals, the registry is sealed under the version of the content, and
its versioned styles are the swatches of the content: one for each normalized form of its literals, in order of first
appearance, and the same for all literals of that form. No content meets a fault, and the answer tells whether it is
another one; the empty content of a new viewer counts as another one. -/
theorem Desk.swatches_run {config : SessionConfig} (built : Session.ofConfig config = .ok session)
    (colorless : ∀ name ∈ config.styles.map (·.1), ¬IsColorId name) {uses : List Use}
    (unstyled : ∀ registry, Use.restyle registry ∉ uses) (apart : FingerprintsApart (usedContents uses)) :
    let viewer := (Desk.run { session := session } uses).session
    let content := viewer.source.content
    viewer.registry.isSealed = true ∧ viewer.registry.version = some viewer.version ∧
    viewer.version = fingerprint content ∧
    viewer.registry.versioned.map (·.1) = ((findColors content).map (·.styleId)).eraseDups ∧
    (∀ color : ColorMatch, color.styleId ∈ viewer.registry.versioned.map (·.1) →
      ∃ style, swatch color.literal viewer.background = .ok style ∧
        viewer.registry.get? color.styleId = some style) ∧
    (∃ initial : Session, initial.Starts config ∧ initial.setContent [] (some "") = (session, .ok true)) ∧
    ∀ next filetype, ∃ changed, (viewer.setContent next filetype).2 = .ok changed ∧
      (FingerprintsApart (next :: usedContents uses) → changed = decide (next ≠ content)) := by
  intro viewer content
  have swatched : viewer.Swatched (usedContents uses) := Desk.swatched_of_ofConfig built colorless unstyled apart
  obtain ⟨_, opened⟩ : session.Swatched [[]] ∧ _ :=
    Session.swatched_of_ofConfig built colorless (List.mem_cons_self ..)
  refine ⟨swatched.isSealed, swatched.current, swatched.version, ?_, fun _ => swatched.get?_styleId, opened,
    fun next filetype => ?_⟩
  · rw [swatched.swatches]
    exact map_fst_swatchTable _ _
  · obtain ⟨after, changed, taken, _⟩ := swatched.colorless.setContent next filetype
    have answer : (viewer.setContent next filetype).2 = .ok changed := congrArg Prod.snd taken
    refine ⟨changed, answer, fun apart => ?_⟩
    have wider : viewer.Swatched (next :: usedContents uses) :=
      { swatched with shown := List.mem_cons_of_mem _ swatched.shown }
    have tells := (wider.setContent apart (List.mem_cons_self ..) filetype).2
    exact Except.ok.inj (answer.symm.trans tells)

/-- The same literals come in other cases and in another order, back and forth, with a pass and a switch in between. -/
def recoloringUses : List Use :=
  [.event (.setContent "#FfF x #abc".toList (some "css")), .request none, .event (.setContent "#12345".toList none),
    .event (.toggleFamily .color), .run 0, .event (.setContent "#ABC #fff #FFF".toList none), .accept 0]

theorem Desk.swatches_run_recoloring :
    ∃ session, Session.ofConfig { clock := ⟨0⟩ } = .ok session ∧
      FingerprintsApart ("#12345".toList :: usedContents recoloringUses) ∧
      let viewer := (Desk.run { session := session } recoloringUses).session
      viewer.registry.versioned.map (·.1) = ["color.abc", "color.fff"] ∧
      (∃ style, swatch "#fFF".toList viewer.background = .ok style ∧
        viewer.registry.get? "color.fff" = some style) ∧
      (viewer.setContent "#12345".toList none).2 = .ok true := by
  have apart : FingerprintsApart ("#12345".toList :: usedContents recoloringUses) := by
    unfold FingerprintsApart
    decide +kernel
  have seen : ((Session.ofConfig { clock := ⟨0⟩ }).toOption.any fun session =>
      (Desk.run { session := session } recoloringUses).session.source.content = "#ABC #fff #FFF".toList) = true := by
    decide +kernel
  obtain ⟨session, built, shown⟩ := Session.exists_of_any seen
  have colorless : ∀ name ∈ (SessionConfig.styles { clock := ⟨0⟩ }).map (·.1), ¬IsColorId name := by
    unfold IsColorId
    decide +kernel
  have unstyled : ∀ registry, Use.restyle registry ∉ recoloringUses := by simp [recoloringUses]
  obtain ⟨_, _, _, ids, swatches, _, answers⟩ := Desk.swatches_run built colorless unstyled fun left inLeft right inRight =>
    apart left (List.mem_cons_of_mem _ inLeft) right (List.mem_cons_of_mem _ inRight)
  rw [of_decide_eq_true shown] at ids answers
  have known : ((findColors "#ABC #fff #FFF".toList).map (·.styleId)).eraseDups = ["color.abc", "color.fff"] := by
    decide +kernel
  rw [known] at ids
  refine ⟨session, built, apart, ids, ?_, ?_⟩
  · exact swatches ⟨0, 4, "#fFF".toList⟩ (by rw [ids]; decide +kernel)
  · obtain ⟨changed, answer, tells⟩ := answers "#12345".toList none
    rw [answer, tells apart]
    rfl

end Marginalia
