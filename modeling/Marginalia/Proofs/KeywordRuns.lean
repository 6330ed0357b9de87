import Mathlib.Algebra.Ring.Nat
import Marginalia.Proofs.DistinctItems
import Marginalia.Proofs.LineLookup
import Marginalia.Proofs.OrderedItems
import Marginalia.Proofs.PlainLetters
import Marginalia.Proofs.WordRuns

namespace Marginalia

/-- A word of plain letters. -/
def IsPlainWord (word : String) : Prop :=
  word ≠ "" ∧ ∀ char ∈ word.toList, IsPlainLetter char

-- only the characters of the word are checked, not all characters that there are
instance (word : String) : Decidable (IsPlainWord word) :=
  @instDecidableAnd _ _ _ (List.decidableBAll IsPlainLetter word.toList)

/-- The match of a keyword at a place. -/
def Keyword.matchAt (content : Content) (start : Nat) (keyword : Keyword) : KeywordMatch :=
  ⟨start, start + keyword.word.length, keyword.word, keyword.style, (content.take start).count '\n'⟩

/-- Whether a run of word characters that starts at a place reads like a keyword. -/
def Keyword.Fills (content : Content) (start : Nat) (keyword : Keyword) : Prop :=
  FillsRun keyword.word.toList content start

instance (content : Content) (start : Nat) (keyword : Keyword) : Decidable (keyword.Fills content start) :=
  inferInstanceAs (Decidable (FillsRun ..))

variable {content : Content} {keyword : Keyword} {keywords : List Keyword}

theorem Keyword.matches_eq (plain : IsPlainWord keyword.word) :
    keyword.matches content = (List.range content.length).flatMap fun start =>
      if keyword.Fills content start then [keyword.matchAt content start] else [] := by
  have nonempty : keyword.word.toList ≠ [] := by
    rw [ne_eq, String.toList_eq_nil_iff]
    exact plain.1
  have offsets := wordOffsets_eq nonempty (fun wanted member char => (plain.2 wanted member).isWord_of_sameLetter)
    (Cursor.start_standsIn content)
  rw [flatMap_ite, Keyword.matches, offsets, List.range_eq_range']
  refine List.map_congr_left fun start _ => ?_
  rw [LineIndex.lineOf_ofContent]
  rfl

/-- Keywords are found at the runs of word characters that read like them, run by run, and at one run in the order of the
keywords. -/
theorem findKeywords_eq (plain : ∀ keyword ∈ keywords, IsPlainWord keyword.word) :
    findKeywords content keywords = (List.range content.length).flatMap fun start =>
      (keywords.filter (Keyword.Fills content start ·)).map (Keyword.matchAt content start) := by
  have placed (start : Nat) : ∀ hit ∈ (keywords.filter (Keyword.Fills content start ·)).map
      (Keyword.matchAt content start), hit.start = start := by
    intro hit member
    obtain ⟨keyword, _, rfl⟩ := List.mem_map.mp member
    rfl
  refine eq_of_filter_key_eq KeywordMatch.start (pairwise_mergeSort_key ..) (pairwise_flatMap_range placed _)
    fun start => ?_
  rw [filter_flatMap_range placed, findKeywords, filter_mergeSort, List.filter_flatMap]
  have here : ∀ keyword ∈ keywords, (keyword.matches content).filter (·.start = start) =
      if start < content.length then if keyword.Fills content start then [keyword.matchAt content start] else []
      else [] := by
    intro keyword member
    rw [Keyword.matches_eq (plain keyword member)]
    refine filter_flatMap_range (fun place hit inPlace => ?_) ..
    split at inPlace
    · rw [List.mem_singleton.mp inPlace]
      rfl
    · cases inPlace
  rw [List.flatMap_congr here]
  split
  · exact flatMap_ite ..
  · simp

/-- A keyword whose word no other keyword has is counted as often as it is found. -/
theorem countP_findKeywords (different : (keywords.map (·.word)).Nodup) (member : keyword ∈ keywords) :
    (findKeywords content keywords).countP (·.word = keyword.word) = (keyword.matches content).length := by
  have owned (keyword : Keyword) : ∀ hit ∈ keyword.matches content, hit.word = keyword.word := by
    intro hit found
    obtain ⟨start, _, rfl⟩ := List.mem_map.mp found
    rfl
  rw [findKeywords, (List.mergeSort_perm ..).countP_eq, List.countP_eq_length_filter,
    filter_flatMap_of_mem owned different member]

theorem countKeywords_eq (different : (keywords.map (·.word)).Nodup) : countKeywords content keywords =
    keywords.map fun keyword => (keyword.word, (keyword.matches content).length) := by
  rw [countKeywords, distinct_eq_eraseDups, eraseDups_of_nodup different, List.map_map]
  refine List.map_congr_left fun keyword member => Prod.ext rfl ?_
  rw [← countP_findKeywords different member]
  rfl

theorem sum_countKeywords (different : (keywords.map (·.word)).Nodup) :
    ((countKeywords content keywords).map (·.2)).sum = (findKeywords content keywords).length := by
  rw [countKeywords_eq different, List.map_map, findKeywords, List.length_mergeSort, List.length_flatMap]
  rfl

/-- For words of plain letters, the search for keywords finds each keyword once at each run of word characters that reads
like it, run by run and at one run in the order of the keywords. When the words are different, each keyword is counted as
often as it is found, which is once for each such run, and the counts add up to the number of matches. -/
theorem findKeywords_runs (content : Content) (keywords : List Keyword)
    (plain : ∀ keyword ∈ keywords, IsPlainWord keyword.word) :
    (findKeywords content keywords = (List.range content.length).flatMap fun start =>
      (keywords.filter fun keyword => IsWordRun content start (start + keyword.word.length) ∧
        OccursAt keyword.word.toList content start).map fun keyword =>
          ⟨start, start + keyword.word.length, keyword.word, keyword.style, (content.take start).count '\n'⟩) ∧
    ((keywords.map (·.word)).Nodup →
      (countKeywords content keywords = keywords.map fun keyword =>
        (keyword.word, (findKeywords content keywords).countP (·.word = keyword.word))) ∧
      (∀ keyword ∈ keywords, (findKeywords content keywords).countP (·.word = keyword.word) =
        (List.range content.length).countP fun start => IsWordRun content start (start + keyword.word.length) ∧
          OccursAt keyword.word.toList content start) ∧
      ((countKeywords content keywords).map (·.2)).sum = (findKeywords content keywords).length) := by
  have fills_iff (keyword : Keyword) (start : Nat) : keyword.Fills content start ↔
      IsWordRun content start (start + keyword.word.length) ∧ OccursAt keyword.word.toList content start :=
    ⟨fun ⟨run, occurs⟩ => ⟨run, occurs⟩, fun ⟨run, occurs⟩ => ⟨run, occurs⟩⟩
  simp only [← fills_iff]
  refine ⟨findKeywords_eq plain, fun different => ⟨?_, fun keyword member => ?_, sum_countKeywords different⟩⟩
  · rw [countKeywords_eq different]
    exact List.map_congr_left fun keyword member => by rw [countP_findKeywords different member]
  · rw [countP_findKeywords different member, Keyword.matches_eq (plain keyword member), flatMap_ite, List.length_map,
      List.countP_eq_length_filter]

theorem findKeywords_runs_kelvin :
    findKeywords "hac\u212a _todo\nTodo:TODOs".toList [⟨"TODO", "lint.todo", ""⟩, ⟨"HACK", "lint.hack", ""⟩] =
      [⟨0, 4, "HACK", "lint.hack", 0⟩, ⟨11, 15, "TODO", "lint.todo", 1⟩] ∧
    countKeywords "hac\u212a _todo\nTodo:TODOs".toList [⟨"TODO", "lint.todo", ""⟩, ⟨"HACK", "lint.hack", ""⟩] =
      [("TODO", 1), ("HACK", 1)] := by
  obtain ⟨found, counts⟩ := findKeywords_runs "hac\u212a _todo\nTodo:TODOs".toList
    [⟨"TODO", "lint.todo", ""⟩, ⟨"HACK", "lint.hack", ""⟩] (by decide +kernel)
  obtain ⟨counted, _⟩ := counts (by decide +kernel)
  refine ⟨found.trans (by decide +kernel), ?_⟩
  rw [counted, found]
  decide +kernel

end Marginalia
