import Marginalia.Proofs.CarvedText
import Marginalia.Proofs.PatternExtents
import Marginalia.Style.Sheet
import Marginalia.Token.Tokenize

namespace Marginalia

theorem openRegion_eq_some {rules : List RegionRule} {before : Option Char} {text : List Char} {style : String}
    {length : Nat} (opens : openRegion rules before text = some (style, length)) :
    ∃ rule ∈ rules, rule.style = style ∧ rule.pattern.length? before text = some length := by
  obtain ⟨rule, member, found⟩ := List.exists_of_findSome?_eq_some opens
  obtain ⟨count, counted, pair⟩ := Option.map_eq_some_iff.mp found
  obtain ⟨rfl, rfl⟩ := Prod.mk.inj pair
  exact ⟨rule, member, rfl, counted⟩

theorem openRegion_bounded (rules : List RegionRule) : Opener.Bounded (openRegion rules) := by
  intro before text style length opens
  obtain ⟨rule, _, _, counted⟩ := openRegion_eq_some opens
  exact Pattern.length?_le counted

/-- The styles that the rules of a language give. -/
def Language.styles (language : Language) : List String :=
  language.regions.map (·.style) ++ language.tokens.map (·.style)

/-- Where base spans may lie, and how they may look. -/
def Language.Allows (language : Language) (content : List Char) (span : Span) : Prop :=
  span.start < span.stop ∧ span.stop ≤ content.length ∧ span.style ∈ language.styles

theorem Language.allows_of_mem_regionSpans {language : Language} {content : List Char} {span : Span}
    (member : span ∈ language.regionSpans content) : language.Allows content span := by
  obtain ⟨piece, pieceMember, found⟩ := List.mem_filterMap.mp member
  obtain ⟨extent, extentFound, rfl⟩ := Option.map_eq_some_iff.mp found
  cases piece with
  | plain => simp [Piece.region?] at extentFound
  | region extent =>
    cases extentFound
    have fits := (carve_pieces (openRegion_bounded _) (Cursor.start_standsIn content) _ pieceMember).2
    obtain ⟨nonempty, within, opens⟩ := fits
    obtain ⟨rule, ruleMember, style, _⟩ := openRegion_eq_some opens
    refine ⟨nonempty, within, ?_⟩
    exact List.mem_append_left _ (List.mem_map.mpr ⟨rule, ruleMember, style⟩)

theorem mem_foldl_placeIfFree {candidates spans : List Span} {span : Span}
    (member : span ∈ candidates.foldl placeIfFree spans) :
    span ∈ spans ∨ span ∈ candidates ∧ span.start < span.stop := by
  induction candidates generalizing spans with
  | nil => exact Or.inl member
  | cons candidate rest ih =>
    rcases ih member with placed | ⟨later, nonempty⟩
    · unfold placeIfFree at placed
      split at placed
      · rename_i free
        rcases List.mem_append.mp placed with old | new
        · exact Or.inl old
        · obtain rfl := List.mem_singleton.mp new
          exact Or.inr ⟨List.mem_cons_self .., free.1⟩
      · exact Or.inl placed
    · exact Or.inr ⟨List.mem_cons_of_mem _ later, nonempty⟩

theorem Language.allows_of_mem_placedSpans {language : Language} {content : List Char} {span : Span}
    (member : span ∈ language.placedSpans content) : language.Allows content span := by
  rcases mem_foldl_placeIfFree member with region | ⟨candidate, nonempty⟩
  · exact Language.allows_of_mem_regionSpans region
  · obtain ⟨rule, ruleMember, candidate⟩ := List.mem_flatMap.mp candidate
    obtain ⟨⟨start, stop⟩, extent, rfl⟩ := List.mem_map.mp candidate
    refine ⟨nonempty, (Shape.extents_within extent).2, ?_⟩
    exact List.mem_append_right _ (List.mem_map.mpr ⟨rule, ruleMember, rfl⟩)

theorem Language.styles_subset_sheet {language : Language} (known : language ∈ Language.all) (sheet : Sheet) :
    language.styles ⊆ sheet.styles.map (·.1) := by
  simp only [Language.all, List.mem_cons, List.not_mem_nil, or_false] at known
  rcases known with rfl | rfl | rfl <;> cases sheet <;> decide

/-- Base spans are those of a language. -/
theorem exists_allows_of_mem_tokenize {content : List Char} {filetype : String} {span : Span}
    (member : span ∈ tokenize content filetype) : ∃ language ∈ Language.all, language.Allows content span := by
  unfold tokenize at member
  split at member
  · cases member
  · rename_i language found
    have known := List.mem_of_find?_eq_some found
    exact ⟨language, known, Language.allows_of_mem_placedSpans (List.mem_mergeSort.mp member)⟩

/-- Base spans cover something, lie inside the content, and have styles that every sheet defines. -/
theorem tokenize_spec {content : List Char} {filetype : String} {span : Span}
    (member : span ∈ tokenize content filetype) :
    span.start < span.stop ∧ span.stop ≤ content.length ∧ ∀ sheet : Sheet, span.style ∈ sheet.styles.map (·.1) := by
  obtain ⟨language, known, nonempty, within, style⟩ := exists_allows_of_mem_tokenize member
  exact ⟨nonempty, within, fun sheet => Language.styles_subset_sheet known sheet style⟩

end Marginalia
