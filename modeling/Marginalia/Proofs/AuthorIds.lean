import Marginalia.Overlay.Author
import Marginalia.Proofs.FaultSteps
import Marginalia.Proofs.KnownStyles

namespace Marginalia

/-- Style ids that authors can take. -/
def IsAuthorId (name : String) : Prop :=
  authorIdStart.toList <+: name.toList

/-- Every author has an id that is defined, and all ids are ids of authors. -/
structure AuthorStyles.Sound (known : AuthorStyles) : Prop where
  defined : ∀ entry ∈ known.idOf, entry.2 ∈ known.styles.map (·.1)
  authorIds : ∀ name ∈ known.styles.map (·.1), IsAuthorId name

theorem isAuthorId_authorStyleId (author : String) : IsAuthorId (authorStyleId author) := by
  rw [IsAuthorId, authorStyleId, String.toList_append]
  exact List.prefix_append ..

theorem AuthorStyles.Sound.add {known known' : AuthorStyles} (sound : known.Sound) {tints : List String}
    {author : String} (added : AuthorStyles.add tints known author = .ok known') : known'.Sound := by
  unfold AuthorStyles.add at added
  split at added
  · cases added
    exact sound
  · dsimp only at added
    split at added
    · rename_i defined
      cases added
      refine ⟨fun entry member => ?_, sound.authorIds⟩
      rcases List.mem_append.mp member with old | new
      · exact sound.defined entry old
      · rw [List.mem_singleton.mp new]
        exact lookupKey?_isSome_iff.mp defined
    · split at added
      · cases added
        refine ⟨fun entry member => ?_, fun name member => ?_⟩
        · rw [List.map_append, List.mem_append]
          rcases List.mem_append.mp member with old | new
          · exact Or.inl (sound.defined entry old)
          · rw [List.mem_singleton.mp new]
            exact Or.inr (List.mem_cons_self ..)
        · rw [List.map_append, List.mem_append] at member
          rcases member with old | new
          · exact sound.authorIds name old
          · rw [List.mem_singleton.mp new]
            exact isAuthorId_authorStyleId author
      · cases added

theorem AuthorStyles.sound_of_ofAuthors {authors tints : List String} {known : AuthorStyles}
    (built : AuthorStyles.ofAuthors authors tints = .ok known) : known.Sound :=
  foldlM_keeps (fun _ _ _ sound added => sound.add added) ⟨by simp, by simp⟩ built

end Marginalia
