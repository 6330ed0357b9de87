import Marginalia.Proofs.AnnotatorSpans
import Marginalia.Proofs.FaultSteps
import Marginalia.Proofs.TermOccurrences

namespace Marginalia

theorem Span.ofBounds_eq_ok {start stop : Int} (style : String) (note : Option Note) (lower : 0 ≤ start)
    (nonempty : start < stop) : Span.ofBounds start stop style note = .ok ⟨start.toNat, stop.toNat, style, note⟩ := by
  rw [ofBounds, if_neg (by omega)]

theorem wordOffsets_within {word : List Char} {offset : Nat} {before : Option Char} {text : List Char} {start : Nat}
    (member : start ∈ wordOffsets word offset before text) : start + word.length ≤ offset + text.length := by
  fun_induction wordOffsets word offset before text with
  | case1 offset before stands =>
    have short := length_le_of_wordStands stands
    rw [List.mem_singleton.mp member]
    omega
  | case2 offset before char rest stands ih =>
    have short := length_le_of_wordStands stands
    rcases List.mem_cons.mp member with rfl | later
    · omega
    · have bound := ih later
      rw [List.length_drop] at bound
      rw [List.length_cons] at short ⊢
      omega
  | case3 => cases member
  | case4 offset before char rest passed ih =>
    have bound := ih member
    rw [List.length_cons]
    omega

theorem Keyword.matches_within {keyword : Keyword} {content : Content} {found : KeywordMatch}
    (member : found ∈ keyword.matches content) :
    found.stop = found.start + keyword.word.length ∧ found.stop ≤ content.length ∧ found.style = keyword.style := by
  obtain ⟨start, inOffsets, rfl⟩ := List.mem_map.mp member
  have bound := wordOffsets_within inOffsets
  rw [Nat.zero_add, String.length_toList] at bound
  exact ⟨rfl, bound, rfl⟩

theorem mem_findKeywords {content : Content} {keywords : List Keyword} {found : KeywordMatch} :
    found ∈ findKeywords content keywords ↔ ∃ keyword ∈ keywords, found ∈ keyword.matches content := by
  rw [findKeywords, List.mem_mergeSort, List.mem_flatMap]

/-- The span of a keyword. -/
def KeywordMatch.span (found : KeywordMatch) : Span :=
  ⟨found.start, found.stop, found.style, some (.line found.line)⟩

/-- The span of a match of the search. -/
def Selection.span (selection : Selection) (found : SearchMatch × Nat) : Span :=
  ⟨found.1.start.toNat, found.1.stop.toNat, selection.styleOf found.2, some (.hit found.2)⟩

theorem KeywordMatch.nonempty {content : Content} {found : KeywordMatch}
    (member : found ∈ findKeywords content defaultKeywords) :
    found.start < found.stop ∧ found.stop ≤ content.length ∧ Family.lint.Defines found.style := by
  obtain ⟨keyword, known, inMatches⟩ := mem_findKeywords.mp member
  obtain ⟨stops, within, style⟩ := Keyword.matches_within inMatches
  have lengths : ∀ keyword ∈ defaultKeywords, 0 < keyword.word.length := by decide
  have positive := lengths keyword known
  exact ⟨by omega, within, style ▸ defines_keywordStyle known⟩

/-- With its own keywords the annotator succeeds: each keyword to flag gets its span. -/
theorem LintAnnotator.annotate_eq {annotator : LintAnnotator} (standard : annotator.keywords = defaultKeywords)
    (source : Source) :
    annotator.annotate source = .ok (if source.filetype ∉ annotator.filetypes ∨ annotator.words = [] then []
      else ((findKeywords source.content defaultKeywords).filter fun found => found.word ∈ annotator.words).map
        KeywordMatch.span) := by
  unfold annotate
  split
  · rfl
  · rw [standard]
    refine mapM_eq_ok fun found member => ?_
    obtain ⟨nonempty, _⟩ := KeywordMatch.nonempty (List.mem_filter.mp member).1
    exact Span.ofBounds_eq_ok _ _ (Int.natCast_nonneg _) (Int.ofNat_lt.mpr nonempty)

theorem LintAnnotator.annotate_ok {annotator : LintAnnotator} (standard : annotator.keywords = defaultKeywords)
    (source : Source) :
    ∃ spans, annotator.annotate source = .ok spans ∧
      ∀ span ∈ spans, span.LiesIn source.content ∧ Family.lint.Defines span.style := by
  refine ⟨_, annotate_eq standard source, fun span member => ?_⟩
  split at member
  · cases member
  · obtain ⟨found, inFound, rfl⟩ := List.mem_map.mp member
    obtain ⟨nonempty, within, style⟩ := KeywordMatch.nonempty (List.mem_filter.mp inFound).1
    exact ⟨⟨nonempty, within⟩, style⟩

theorem findMatches_within {content : Content} {term : String} {found : SearchMatch}
    (member : found ∈ findMatches content term) :
    0 ≤ found.start ∧ found.start < found.stop ∧ found.stop ≤ content.length := by
  obtain ⟨given, place, occurs, rfl⟩ := mem_findMatches_iff.mp member
  have fits := occurs.1
  have positive : 0 < term.toList.length := by
    rwa [List.length_pos_iff, ne_eq, String.toList_eq_nil_iff]
  dsimp only [matchAt]
  omega

/-- With matches that were found in a content the annotator succeeds: each match gets its span. -/
theorem SearchAnnotator.annotate_eq {annotator : SearchAnnotator} {content : Content}
    (found : annotator.selection.found = findMatches content annotator.selection.term) (source : Source) :
    annotator.annotate source = .ok (annotator.selection.found.zipIdx.map annotator.selection.span) := by
  refine mapM_eq_ok fun ⟨hit, index⟩ member => ?_
  have inFound : hit ∈ annotator.selection.found := List.fst_mem_of_mem_zipIdx member
  rw [found] at inFound
  obtain ⟨lower, nonempty, _⟩ := findMatches_within inFound
  exact Span.ofBounds_eq_ok _ _ lower nonempty

theorem SearchAnnotator.annotate_ok {annotator : SearchAnnotator} {content : Content}
    (found : annotator.selection.found = findMatches content annotator.selection.term) (source : Source) :
    ∃ spans, annotator.annotate source = .ok spans ∧
      ∀ span ∈ spans, span.LiesIn content ∧ Family.search.Defines span.style := by
  refine ⟨_, annotate_eq found source, fun span member => ?_⟩
  obtain ⟨⟨hit, index⟩, inIndexed, rfl⟩ := List.mem_map.mp member
  have inFound : hit ∈ annotator.selection.found := List.fst_mem_of_mem_zipIdx inIndexed
  rw [found] at inFound
  obtain ⟨lower, nonempty, within⟩ := findMatches_within inFound
  refine ⟨⟨?_, ?_⟩, defines_searchStyle _ _⟩
  · dsimp only [Selection.span]
    omega
  · dsimp only [Selection.span]
    omega

/-- A selection stands at one of its matches, or nowhere when there is none. -/
structure Selection.Stands (selection : Selection) : Prop where
  nowhere : selection.found = [] → selection.index = -1
  inside : selection.found ≠ [] → 0 ≤ selection.index ∧ selection.index < selection.count

variable {selection : Selection}

theorem Selection.stands_empty : Selection.Stands {} :=
  ⟨fun _ => rfl, fun some => absurd rfl some⟩

theorem Selection.stands_ofTerm (content : Content) (term : String) : (Selection.ofTerm content term).Stands := by
  unfold ofTerm
  cases found : findMatches content term with
  | nil => exact ⟨fun _ => rfl, fun some => absurd rfl some⟩
  | cons first rest => exact ⟨nofun, fun _ => ⟨Int.le_refl 0, Int.natCast_pos.mpr (Nat.succ_pos _)⟩⟩

theorem Selection.Stands.jump (stands : selection.Stands) (index : Int) : (selection.jump index).Stands := by
  unfold Selection.jump
  split
  · exact stands
  · rename_i some
    have positive : (0 : Int) < selection.count :=
      Int.natCast_pos.mpr (List.length_pos_iff.mpr (by simpa using some))
    refine ⟨fun none => absurd (List.isEmpty_iff.mpr none) some, fun _ => ?_⟩
    exact ⟨Int.emod_nonneg _ positive.ne', Int.emod_lt_of_pos _ positive⟩

theorem Selection.Stands.exists_current (stands : selection.Stands) (some : selection.found ≠ []) :
    ∃ current, selection.current? = .some current := by
  obtain ⟨lower, upper⟩ := stands.inside some
  have inside : selection.index.toNat < selection.found.length := by
    unfold count at upper
    omega
  rw [Selection.current?, if_pos lower, List.getElem?_eq_getElem inside]
  exact ⟨_, rfl⟩

/-- A selection that stands somewhere can be described. -/
theorem Selection.Stands.summary (stands : selection.Stands) : ∃ text, selection.summary = .ok text := by
  unfold Selection.summary
  split
  · exact ⟨_, rfl⟩
  · split
    · exact ⟨_, rfl⟩
    · rename_i some
      obtain ⟨current, stood⟩ := stands.exists_current (by simpa using some)
      rw [stood]
      exact ⟨_, rfl⟩

end Marginalia
