import Marginalia.Overlay.Annotator
import Marginalia.Proofs.BracketPairs
import Marginalia.Proofs.ColorLiterals
import Marginalia.Proofs.LinePlaces
import Marginalia.Style.Sheet

namespace Marginalia

/-- A span covers something of a content, and nothing beyond it. -/
def Span.LiesIn (span : Span) (content : Content) : Prop :=
  span.start < span.stop ∧ span.stop ≤ content.length

/-- Style ids that every sheet defines. -/
def IsSheetId (name : String) : Prop :=
  ∀ sheet : Sheet, name ∈ sheet.styles.map (·.1)

/-- The style ids of a family: those that start with its name and a point. -/
def Family.Owns (family : Family) (name : String) : Prop :=
  family.idStart.toList <+: name.toList

instance (family : Family) (name : String) : Decidable (family.Owns name) :=
  inferInstanceAs (Decidable (_ <+: _))

/-- Style ids of a family that every sheet defines. -/
structure Family.Defines (family : Family) (name : String) : Prop where
  isSheetId : IsSheetId name
  owned : family.Owns name

theorem Family.Owns.append {family : Family} {name : String} (owned : family.Owns name) (more : String) :
    family.Owns (name ++ more) := by
  rw [Owns, String.toList_append]
  exact owned.trans (List.prefix_append ..)

theorem isSheetId_depthStyle (depth : Int) : IsSheetId (depthStyle depth) := by
  have residues : depth % 6 = 0 ∨ depth % 6 = 1 ∨ depth % 6 = 2 ∨ depth % 6 = 3 ∨ depth % 6 = 4 ∨ depth % 6 = 5 := by
    omega
  intro sheet
  unfold depthStyle depthStyles
  rcases residues with residue | residue | residue | residue | residue | residue <;>
    cases sheet <;> simp only [Nat.cast_ofNat, residue] <;> decide

theorem defines_depthStyle (depth : Int) : Family.bracket.Defines (depthStyle depth) := by
  have named : Family.bracket.Owns "bracket.depth" := by decide
  exact ⟨isSheetId_depthStyle depth, named.append _⟩

theorem defines_ageStyle (age : Age) : Family.blame.Defines age.style := by
  refine ⟨fun sheet => ?_, ?_⟩
  · cases age <;> cases sheet <;> decide
  · cases age <;> decide

theorem defines_unknownAuthorStyle : Family.blame.Defines unknownAuthorStyle := by
  refine ⟨fun sheet => ?_, by decide⟩
  cases sheet <;> decide

theorem defines_keywordStyle {keyword : Keyword} (member : keyword ∈ defaultKeywords) :
    Family.lint.Defines keyword.style := by
  simp only [defaultKeywords, List.mem_cons, List.not_mem_nil, or_false] at member
  refine ⟨fun sheet => ?_, ?_⟩
  · rcases member with rfl | rfl | rfl | rfl | rfl | rfl <;> cases sheet <;> decide
  · rcases member with rfl | rfl | rfl | rfl | rfl | rfl <;> decide

theorem defines_searchStyle (selection : Selection) (index : Int) :
    Family.search.Defines (selection.styleOf index) := by
  unfold Selection.styleOf
  refine ⟨fun sheet => ?_, ?_⟩
  · split <;> cases sheet <;> decide
  · split <;> decide

theorem BracketAnnotator.mem_annotate {annotator : BracketAnnotator} {source : Source} {span : Span}
    (member : span ∈ annotator.annotate source) : span.LiesIn source.content ∧ Family.bracket.Defines span.style := by
  obtain ⟨pair, inPairs, member⟩ := List.mem_flatMap.mp member
  have encloses := encloses_of_mem (List.mem_filter.mp inPairs).1
  obtain ⟨opened, _⟩ := List.getElem?_eq_some_iff.mp encloses.atOpened
  obtain ⟨closed, _⟩ := List.getElem?_eq_some_iff.mp encloses.atClosed
  simp only [List.mem_cons, List.not_mem_nil, or_false] at member
  rcases member with rfl | rfl
  · exact ⟨⟨Nat.lt_succ_self _, opened⟩, defines_depthStyle _⟩
  · exact ⟨⟨Nat.lt_succ_self _, closed⟩, defines_depthStyle _⟩

theorem ColorAnnotator.mem_annotate {annotator : ColorAnnotator} {source : Source} {span : Span}
    (member : span ∈ annotator.annotate source) :
    span.LiesIn source.content ∧ ∃ color ∈ findColors source.content, span.style = color.styleId := by
  obtain ⟨color, found, rfl⟩ := List.mem_map.mp member
  obtain ⟨nonempty, within, _⟩ := findColors_spec found
  exact ⟨⟨nonempty, within⟩, color, found, rfl⟩

theorem BlameAnnotator.authorStyle_cases (annotator : BlameAnnotator) (author : String) :
    Family.blame.Defines (annotator.authorStyle author) ∨ annotator.authorStyle author ∈ annotator.authorIds.map (·.2) := by
  unfold authorStyle lookupKey?
  cases found : annotator.authorIds.find? fun entry => entry.1 == author with
  | none => exact Or.inl defines_unknownAuthorStyle
  | some entry => exact Or.inr (List.mem_map_of_mem (List.mem_of_find?_eq_some found))

theorem BlameAnnotator.mem_lineSpans {annotator : BlameAnnotator} {line start stop : Nat} {span : Span}
    (member : span ∈ annotator.lineSpans line start stop) :
    start < stop ∧ span.start = start ∧ span.stop = stop ∧
      (Family.blame.Defines span.style ∨ span.style ∈ annotator.authorIds.map (·.2)) := by
  unfold lineSpans at member
  split at member
  · rename_i nonempty
    split at member
    · cases member
    · rename_i record _
      rcases List.mem_append.mp member with age | author
      · split at age
        · rw [List.mem_singleton.mp age]
          exact ⟨nonempty, rfl, rfl, Or.inl (defines_ageStyle _)⟩
        · cases age
      · split at author
        · rw [List.mem_singleton.mp author]
          exact ⟨nonempty, rfl, rfl, annotator.authorStyle_cases record.author⟩
        · cases author
  · cases member

theorem BlameAnnotator.mem_annotate {annotator : BlameAnnotator} {source : Source} {span : Span}
    (member : span ∈ annotator.annotate source) :
    span.LiesIn source.content ∧ (Family.blame.Defines span.style ∨ span.style ∈ annotator.authorIds.map (·.2)) := by
  unfold annotate at member
  split at member
  · cases member
  · obtain ⟨⟨⟨start, stop⟩, line⟩, inLines, member⟩ := List.mem_flatMap.mp member
    obtain ⟨nonempty, rfl, rfl, style⟩ := mem_lineSpans member
    have inRanges : (span.start, span.stop) ∈ lineRanges source.content := List.fst_mem_of_mem_zipIdx inLines
    exact ⟨⟨nonempty, stop_le_of_mem_lineRanges inRanges⟩, style⟩

end Marginalia
