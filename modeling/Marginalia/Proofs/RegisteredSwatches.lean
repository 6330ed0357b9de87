import Marginalia.Proofs.AnnotatorSpans
import Marginalia.Proofs.ColorRuns
import Marginalia.Proofs.DistinctItems
import Marginalia.Proofs.SwatchTable

namespace Marginalia

variable {content : Content} {registry : Registry} {background : Rgb}

/-- Literals share an id exactly when they share their form. -/
theorem eraseDups_map_styleId (colors : List ColorMatch) : (colors.map (·.styleId)).eraseDups =
    ((colors.map (·.normalized)).eraseDups).map (Family.color.idStart ++ ·) := by
  rw [← eraseDups_map Family.color.idStart_append_injective, List.map_map]
  rfl

theorem Registry.get?_append_swatchTable (colorless : ∀ name ∈ registry.names, ¬IsColorId name) {name : String}
    (isColorId : IsColorId name) :
    Registry.get? { registry with versioned := registry.versioned ++ swatchTable content background } name =
      lookupKey? name (swatchTable content background) := by
  have absent : name ∉ registry.names := fun member => colorless name member isColorId
  rw [names, List.mem_append, not_or] at absent
  rw [get?_eq_or, lookupKey?_append, lookupKey?_eq_none_iff.mpr absent.1, lookupKey?_eq_none_iff.mpr absent.2,
    Option.none_or, Option.none_or]

/-- Color literals are found from left to right at the number signs whose run of word characters behind them has three,
four, six or eight characters, hexadecimal digits only, and each can be decoded. An open registry without ids of color
literals takes in one swatch for each form of these literals and for nothing else, and counts them. The spans of the color
annotator then wear known styles, and each is the swatch of all literals with the form of the one that it marks. -/
theorem findColors_swatches (content : Content) :
    (findColors content).Pairwise (fun color next => color.start < next.start) ∧
    (∀ color, color ∈ findColors content ↔ ∃ digits, digits = (content.drop (color.start + 1)).takeWhile isWord ∧
      content[color.start]? = some '#' ∧ digits.length ∈ [3, 4, 6, 8] ∧ (∀ digit ∈ digits, isHexDigit digit = true) ∧
      color.stop = color.start + 1 + digits.length ∧ color.literal = '#' :: digits) ∧
    (∀ color ∈ findColors content, ∃ value, decodeColor color.literal = .ok value) ∧
    ∀ (registry : Registry) (background : Rgb), registry.isSealed = false → (∀ name ∈ registry.names, ¬IsColorId name) →
      ∃ swatches : StyleList, swatches.map (·.1) = ((findColors content).map (·.styleId)).eraseDups ∧
        (swatches.map (·.1)).Nodup ∧
        registry.registerSwatches content background = ({ registry with versioned := registry.versioned ++ swatches },
          .ok ((findColors content).map (·.normalized)).eraseDups.length) ∧
        ∀ (annotator : ColorAnnotator) (filetype : String), ∀ span ∈ annotator.annotate ⟨content, filetype⟩,
          ∃ style, Registry.get? { registry with versioned := registry.versioned ++ swatches } span.style = some style ∧
            ∃ color ∈ findColors content, color.start = span.start ∧ color.stop = span.stop ∧
              color.styleId = span.style ∧
              ∀ other : ColorMatch, other.normalized = color.normalized → swatch other.literal background = .ok style := by
  refine ⟨pairwise_findColors content, fun color => ?_, fun color member =>
    decodeColor_of_isColorLiteral (findColors_spec member).2.2, fun registry background opened colorless => ?_⟩
  · rw [mem_findColors_iff]
    constructor
    · rintro ⟨here, ⟨_, same, length, hexadecimal⟩, stop, literal⟩
      obtain rfl := (List.cons.inj same).2
      refine ⟨_, rfl, here, length, hexadecimal, ?_, literal⟩
      rw [stop, List.length_cons, wordRun]
      omega
    · rintro ⟨_, rfl, here, length, hexadecimal, stop, literal⟩
      refine ⟨here, ⟨_, rfl, length, hexadecimal⟩, ?_, literal⟩
      rw [stop, List.length_cons, wordRun]
      omega
  · have names := map_fst_swatchTable content background
    refine ⟨swatchTable content background, names, names ▸ nodup_eraseDups _, ?_, fun annotator filetype span member => ?_⟩
    · have count := congrArg List.length (names.trans (eraseDups_map_styleId _))
      rw [List.length_map, List.length_map] at count
      rw [Registry.registerSwatches_eq opened colorless, count]
    · obtain ⟨color, found, rfl⟩ := List.mem_map.mp member
      obtain ⟨style, known, forms⟩ := lookupKey?_swatchTable (styleId_mem_swatchTable background found)
      refine ⟨style, ?_, color, found, rfl, rfl, rfl, forms⟩
      rw [Registry.get?_append_swatchTable colorless color.isColorId, known]

/-- Only two of the runs make literals, and these have the same form. -/
theorem findColors_swatches_repeated :
    let content := "##FfF #fff;#12345 #abc_ #12\u00e9".toList
    let registry : Registry := { permanent := [("lint.todo", .paper "#111111")] }
    ∃ swatches : StyleList, swatches.map (·.1) = ["color.fff"] ∧
      registry.registerSwatches content ⟨0, 0, 0⟩ = ({ registry with versioned := swatches }, .ok 1) ∧
      ∃ style, Registry.get? { registry with versioned := swatches } "color.fff" = some style ∧
        swatch "#FFF".toList ⟨0, 0, 0⟩ = .ok style := by
  intro content registry
  obtain ⟨_, _, _, registered⟩ := findColors_swatches content
  have colorless : ∀ name ∈ registry.names, ¬IsColorId name := by
    unfold IsColorId
    decide
  obtain ⟨swatches, ids, _, taken, spans⟩ := registered registry ⟨0, 0, 0⟩ rfl colorless
  have named : ((findColors content).map (·.styleId)).eraseDups = ["color.fff"] := by decide +kernel
  have counted : ((findColors content).map (·.normalized)).eraseDups.length = 1 := by decide +kernel
  rw [counted] at taken
  obtain ⟨style, known, color, _, _, _, styled, forms⟩ :=
    spans {} "css" { start := 1, stop := 5, style := "color.fff" } (by decide +kernel)
  refine ⟨swatches, ids.trans named, taken, style, known, ?_⟩
  exact forms ⟨0, 4, "#FFF".toList⟩ (ColorMatch.normalized_eq (Eq.trans (by decide +kernel) styled.symm))

end Marginalia
