import Marginalia.Proofs.AuthorIds
import Marginalia.Proofs.DistinctItems

namespace Marginalia

/-- Ids in the order in which they are seen for the first time, with tints in turn. -/
def tintedIds (tints ids : List String) : StyleList :=
  ids.eraseDups.zipIdx.map fun (id, place) => (id, .paper (tints.getD (place % tints.length) ""))

variable {tints ids : List String}

theorem map_fst_tintedIds (tints ids : List String) : (tintedIds tints ids).map (·.1) = ids.eraseDups := by
  rw [tintedIds, List.map_map]
  exact List.zipIdx_map_fst ..

theorem length_tintedIds (tints ids : List String) : (tintedIds tints ids).length = ids.eraseDups.length := by
  rw [← map_fst_tintedIds tints, List.length_map]

theorem nodup_tintedIds (tints ids : List String) : ((tintedIds tints ids).map (·.1)).Nodup := by
  rw [map_fst_tintedIds]
  exact nodup_eraseDups ids

theorem tintedIds_concat (tints ids : List String) (id : String) :
    tintedIds tints (ids ++ [id]) = if id ∈ ids then tintedIds tints ids else
      tintedIds tints ids ++ [(id, .paper (tints.getD (ids.eraseDups.length % tints.length) ""))] := by
  unfold tintedIds
  rw [eraseDups_concat]
  split
  · rfl
  · rw [List.zipIdx_append, List.map_append, Nat.zero_add]
    rfl

theorem getElem?_turn (tinted : tints ≠ []) (place : Nat) :
    tints[place % tints.length]? = some (tints.getD (place % tints.length) "") := by
  have inside : place % tints.length < tints.length := Nat.mod_lt _ (List.length_pos_iff.mpr tinted)
  rw [List.getD_eq_getElem?_getD, List.getElem?_eq_getElem inside, Option.getD_some]

theorem getElem?_tintedIds (tinted : tints ≠ []) {place : Nat} {entry : String × Style}
    (found : (tintedIds tints ids)[place]? = some entry) :
    ∃ tint, tints[place % tints.length]? = some tint ∧ entry.2 = { background := some tint } := by
  refine ⟨_, getElem?_turn tinted place, ?_⟩
  rw [tintedIds, List.getElem?_map, Option.map_eq_some_iff] at found
  obtain ⟨⟨id, at'⟩, atPlace, rfl⟩ := found
  rw [List.getElem?_zipIdx, Option.map_eq_some_iff] at atPlace
  obtain ⟨_, _, same⟩ := atPlace
  obtain rfl : place = at' := by simpa using congrArg Prod.snd same
  rfl

/-- The tints are used in order until each one has been used. -/
theorem take_tintedIds (tints ids : List String) :
    ((tintedIds tints ids).take tints.length).map (·.2) =
      (tints.take (tintedIds tints ids).length).map fun tint => { background := some tint } := by
  refine List.ext_getElem (by simp [Nat.min_comm]) fun place inLeft _ => ?_
  rw [List.length_map, List.length_take, Nat.lt_min] at inLeft
  have unused : place % tints.length = place := Nat.mod_eq_of_lt inLeft.1
  simp [tintedIds, Style.paper, unused, List.getElem?_eq_getElem inLeft.1]

/-- Authors get the ids of their names, and these get the tints in turn. -/
theorem AuthorStyles.ofAuthors_eq {authors : List String} (tinted : tints = [] → authors = []) :
    AuthorStyles.ofAuthors authors tints = .ok
      { idOf := authors.eraseDups.map fun author => (author, authorStyleId author)
        styles := tintedIds tints (authors.map authorStyleId) } := by
  induction authors using List.reverseRecOn with
  | nil => rfl
  | append_singleton authors author ih =>
    have tinted : tints ≠ [] := fun none => by simpa using tinted none
    have folds : AuthorStyles.ofAuthors (authors ++ [author]) tints =
        AuthorStyles.ofAuthors authors tints >>= fun known => known.add tints author := by
      simp [AuthorStyles.ofAuthors]
    have seen : (lookupKey? author (authors.eraseDups.map fun author => (author, authorStyleId author))).isSome = true ↔
        author ∈ authors := by
      rw [lookupKey?_isSome_iff, List.map_map]
      simp
    have defined : (lookupKey? (authorStyleId author) (tintedIds tints (authors.map authorStyleId))).isSome = true ↔
        authorStyleId author ∈ authors.map authorStyleId := by
      rw [lookupKey?_isSome_iff, map_fst_tintedIds, List.mem_eraseDups]
    rw [folds, ih fun none => absurd none tinted, List.map_append, List.map_singleton, tintedIds_concat,
      eraseDups_concat]
    change AuthorStyles.add tints _ author = _
    unfold AuthorStyles.add
    dsimp only
    by_cases known : author ∈ authors
    · rw [if_pos (seen.mpr known), if_pos known, if_pos (List.mem_map_of_mem known)]
    · rw [if_neg (mt seen.mp known), if_neg known, List.map_append]
      by_cases idKnown : authorStyleId author ∈ authors.map authorStyleId
      · rw [if_pos (defined.mpr idKnown), if_pos idKnown]
        rfl
      · rw [if_neg (mt defined.mp idKnown), if_neg idKnown, length_tintedIds, getElem?_turn tinted]
        rfl

/-- Each author has the id of its name, and each id the tint whose turn it is among the different ids, whatever
repetitions stand between them. -/
theorem AuthorStyles.ofAuthors_tinted (authors : List String) {tints : List String} (tinted : tints ≠ []) :
    ∃ known, AuthorStyles.ofAuthors authors tints = .ok known ∧
      known.idOf = (authors.eraseDups.map fun author => (author, authorStyleId author)) ∧
      known.styles.map (·.1) = (authors.map authorStyleId).eraseDups ∧
      (∀ place entry, known.styles[place]? = some entry →
        ∃ tint, tints[place % tints.length]? = some tint ∧ entry.2 = { background := some tint }) ∧
      (∀ entry ∈ known.idOf, (lookupKey? entry.2 known.styles).isSome) ∧
      (∀ left ∈ authors, ∀ right ∈ authors,
        (∃ entry ∈ known.styles, lookupKey? left known.idOf = some entry.1 ∧ lookupKey? right known.idOf = some entry.1) ↔
          authorStyleId left = authorStyleId right) ∧
      (known.styles.take tints.length).map (·.2) =
        (tints.take known.styles.length).map fun tint => { background := some tint } := by
  have ids (author : String) (member : author ∈ authors) :
      lookupKey? author (authors.eraseDups.map fun author => (author, authorStyleId author)) =
        some (authorStyleId author) :=
    lookupKey?_map authorStyleId (List.mem_eraseDups.mpr member)
  refine ⟨_, ofAuthors_eq fun none => absurd none tinted, rfl, map_fst_tintedIds _ _, fun place entry found => ?_,
    fun entry member => ?_, fun left inLeft right inRight => ?_, take_tintedIds _ _⟩
  · exact getElem?_tintedIds tinted found
  · obtain ⟨author, inAuthors, rfl⟩ := List.mem_map.mp member
    rw [lookupKey?_isSome_iff, map_fst_tintedIds, List.mem_eraseDups]
    exact List.mem_map_of_mem (List.mem_eraseDups.mp inAuthors)
  · dsimp only
    rw [ids left inLeft, ids right inRight]
    constructor
    · rintro ⟨entry, _, atLeft, atRight⟩
      exact Option.some.inj (atLeft.trans atRight.symm)
    · intro same
      have defined : authorStyleId left ∈ (tintedIds tints (authors.map authorStyleId)).map (·.1) := by
        rw [map_fst_tintedIds, List.mem_eraseDups]
        exact List.mem_map_of_mem inLeft
      obtain ⟨entry, inStyles, named⟩ := List.mem_map.mp defined
      exact ⟨entry, inStyles, by rw [named], by rw [named, same]⟩

/-- The third author has the id of the first one, and the fourth one is the first one again: neither takes a tint. -/
theorem AuthorStyles.ofAuthors_tinted_repeated :
    ["#aa0000", "#00bb00", "#0000cc"] ≠ [] ∧
    ∃ known,
      AuthorStyles.ofAuthors ["Ann", "Bob", "ann", "Ann", "Cy", "Dee"] ["#aa0000", "#00bb00", "#0000cc"] = .ok known ∧
      known.styles =
        [("blame.author.ann", .paper "#aa0000"), ("blame.author.bob", .paper "#00bb00"),
          ("blame.author.cy", .paper "#0000cc"), ("blame.author.dee", .paper "#aa0000")] ∧
      (∃ entry ∈ known.styles,
        lookupKey? "Ann" known.idOf = some entry.1 ∧ lookupKey? "ann" known.idOf = some entry.1) := by
  have tinted : ["#aa0000", "#00bb00", "#0000cc"] ≠ [] := List.cons_ne_nil _ _
  have styles : (AuthorStyles.ofAuthors ["Ann", "Bob", "ann", "Ann", "Cy", "Dee"]
      ["#aa0000", "#00bb00", "#0000cc"]).toOption.map (·.styles) = some
        [("blame.author.ann", .paper "#aa0000"), ("blame.author.bob", .paper "#00bb00"),
          ("blame.author.cy", .paper "#0000cc"), ("blame.author.dee", .paper "#aa0000")] := by
    decide +kernel
  have sameId : authorStyleId "Ann" = authorStyleId "ann" := by decide +kernel
  obtain ⟨known, built, _, _, _, _, shared, _⟩ := ofAuthors_tinted ["Ann", "Bob", "ann", "Ann", "Cy", "Dee"] tinted
  rw [built] at styles
  exact ⟨tinted, known, built, Option.some.inj styles, (shared "Ann" (by decide) "ann" (by decide)).mpr sameId⟩

/-- Without tints no author gets a style. -/
theorem AuthorStyles.ofAuthors_untinted {authors : List String} (some : authors ≠ []) :
    AuthorStyles.ofAuthors authors [] = .error .noTints := by
  cases authors with
  | nil => exact absurd rfl some
  | cons author rest =>
    rw [AuthorStyles.ofAuthors, List.foldlM_cons]
    rfl

end Marginalia
