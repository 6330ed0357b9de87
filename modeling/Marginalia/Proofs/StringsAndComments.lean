import Marginalia.Proofs.PlacedSpans
import Marginalia.Proofs.RegionReaders

namespace Marginalia

/-- The strings and comments among spans. -/
def stringsAndComments (spans : List Span) : List Span :=
  spans.filter fun span => span.style ∈ ["string", "comment"]

variable {language : Language} {content : Content} {span : Span} {filetype : String}

theorem Language.mem_regionSpans_iff : span ∈ language.regionSpans content ↔ span.note = none ∧
    Piece.region ⟨span.start, span.stop, span.style⟩ ∈ carve (openRegion language.regions) 0 none content := by
  unfold regionSpans
  rw [List.mem_filterMap]
  constructor
  · rintro ⟨piece, member, found⟩
    obtain ⟨extent, region, rfl⟩ := Option.map_eq_some_iff.mp found
    cases piece with
    | plain => cases region
    | region =>
      cases region
      exact ⟨rfl, member⟩
  · obtain ⟨start, stop, style, note⟩ := span
    rintro ⟨rfl, member⟩
    exact ⟨_, member, rfl⟩

theorem Language.regionSpans_increasing (language : Language) (content : Content) :
    (language.regionSpans content).Pairwise fun left right => left.start < right.start := by
  have bounded := openRegion_bounded language.regions
  have stands := Cursor.start_standsIn content
  unfold regionSpans
  refine List.pairwise_filterMap.mpr ((carve_ordered bounded stands).imp_of_mem ?_)
  intro left right inLeft _ ordered span found span' found'
  cases left with
  | plain => cases found
  | region extent =>
    cases right with
    | plain => cases found'
    | region extent' =>
      cases found
      cases found'
      exact Nat.lt_of_lt_of_le (carve_pieces bounded stands _ inLeft).2.1 ordered

theorem Language.style_of_mem_regionSpans (member : span ∈ language.regionSpans content) :
    ∃ rule ∈ language.regions, rule.style = span.style := by
  obtain ⟨_, inPieces⟩ := mem_regionSpans_iff.mp member
  obtain ⟨_, _, opens⟩ :=
    (carve_pieces (openRegion_bounded language.regions) (Cursor.start_standsIn content) _ inPieces).2
  obtain ⟨rule, known, style, _⟩ := openRegion_eq_some opens
  exact ⟨rule, known, style⟩

/-- Only the rules for regions give strings and comments. -/
theorem Language.styles_apart (known : language ∈ Language.all) :
    (∀ rule ∈ language.regions, rule.style ∈ ["string", "comment"]) ∧
      ∀ rule ∈ language.tokens, rule.style ∉ ["string", "comment"] := by
  simp only [Language.all, List.mem_cons, List.not_mem_nil, or_false] at known
  rcases known with rfl | rfl | rfl <;> decide

/-- The strings and comments among the base spans are the regions of the language. -/
theorem stringsAndComments_tokenize (named : Language.ofFiletype? filetype = some language) (content : Content) :
    stringsAndComments (tokenize content filetype) = language.regionSpans content := by
  have known : language ∈ Language.all := by
    unfold Language.ofFiletype? at named
    exact List.mem_of_find?_eq_some named
  obtain ⟨regionStyles, tokenStyles⟩ := Language.styles_apart known
  have increasing : (stringsAndComments (tokenize content filetype)).Pairwise fun left right => left.start < right.start := by
    rw [stringsAndComments, tokenize, named]
    exact ((language.placedSpans_apart content).sorted.imp And.left).filter _
  refine eq_of_increasing Span.start increasing (language.regionSpans_increasing content) fun span => ?_
  rw [stringsAndComments, List.mem_filter, decide_eq_true_eq, tokenize, named]
  dsimp only
  rw [List.mem_mergeSort]
  constructor
  · rintro ⟨placed, style⟩
    rcases mem_foldl_placeIfFree placed with region | ⟨candidate, _⟩
    · exact region
    · obtain ⟨rule, member, candidate⟩ := List.mem_flatMap.mp candidate
      obtain ⟨_, _, rfl⟩ := List.mem_map.mp candidate
      exact absurd style (tokenStyles rule member)
  · intro region
    obtain ⟨rule, member, style⟩ := Language.style_of_mem_regionSpans region
    exact ⟨(prefix_foldl_placeIfFree _ _).subset region, style ▸ regionStyles rule member⟩

/-- Where no region that starts before goes on, a region starts exactly if one opens. -/
theorem Language.mem_regionSpans_iff_of_outside {place stop : Nat} {style : String} (within : place < content.length)
    (outside : ∀ span ∈ language.regionSpans content, span.start < place → span.stop ≤ place) :
    ⟨place, stop, style, none⟩ ∈ language.regionSpans content ↔ ∃ length,
      openRegion language.regions (content.take place).getLast? (content.drop place) = some (style, length + 1) ∧
        stop = place + length + 1 := by
  have bounded := openRegion_bounded language.regions
  have stands := Cursor.start_standsIn content
  rw [mem_regionSpans_iff, and_iff_right rfl]
  constructor
  · intro member
    obtain ⟨nonempty, _, opens⟩ := (carve_pieces bounded stands _ member).2
    dsimp only at nonempty opens
    obtain ⟨length, rfl⟩ := Nat.exists_eq_add_of_lt nonempty
    rw [show place + length + 1 - place = length + 1 by omega] at opens
    exact ⟨length, opens, rfl⟩
  · rintro ⟨length, opens, rfl⟩
    obtain ⟨piece, member, lower, upper⟩ :=
      carve_covers (openRegion language.regions) 0 none content place (Nat.zero_le _) (by simpa using within)
    have fits := (carve_pieces bounded stands piece member).2
    cases piece with
    | plain offset char =>
      obtain rfl : offset = place := Nat.le_antisymm lower (Nat.lt_succ_iff.mp upper)
      exact absurd opens (fits.2 _ _)
    | region extent =>
      obtain ⟨start, stop, kind⟩ := extent
      have here : start = place := by
        refine Nat.le_antisymm lower (Nat.le_of_not_lt fun before => ?_)
        have inSpans : ⟨start, stop, kind, none⟩ ∈ language.regionSpans content := mem_regionSpans_iff.mpr ⟨rfl, member⟩
        exact absurd (outside _ inSpans before) (Nat.not_le.mpr upper)
      subst here
      obtain ⟨nonempty, _, opensRegion⟩ := fits
      dsimp only at nonempty opensRegion
      obtain ⟨rfl, size⟩ := Prod.mk.inj (Option.some.inj (opens.symm.trans opensRegion))
      rwa [show start + length + 1 = stop by omega]

end Marginalia
