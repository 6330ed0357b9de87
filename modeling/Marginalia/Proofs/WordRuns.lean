import Marginalia.Proofs.CursorPlaces
import Marginalia.Proofs.TermOccurrences
import Marginalia.Search.Keyword

namespace Marginalia

/-- A stretch of word characters without a word character right in front of it or right behind it. -/
structure IsWordRun (content : List Char) (start stop : Nat) : Prop where
  nonempty : start < stop
  words : ∀ place, start ≤ place → place < stop → isWord? content[place]? = true
  opens : ∀ place, place + 1 = start → isWord? content[place]? = false
  closes : isWord? content[stop]? = false

/-- A word fills a place when a run of word characters there reads like the word, letter case aside. -/
structure FillsRun (word : List Char) (content : Content) (start : Nat) : Prop where
  run : IsWordRun content start (start + word.length)
  occurs : OccursAt word content start

instance (content : List Char) (start stop : Nat) : Decidable (IsWordRun content start stop) :=
  decidable_of_iff
    (start < stop ∧ (∀ place < stop, start ≤ place → isWord? content[place]? = true) ∧
      (∀ place < start, place + 1 = start → isWord? content[place]? = false) ∧ isWord? content[stop]? = false)
    ⟨fun ⟨nonempty, words, opens, closes⟩ => ⟨nonempty, fun place behind inFront => words place inFront behind,
      fun place before => opens place (by omega) before, closes⟩,
    fun run => ⟨run.nonempty, fun place inFront behind => run.words place behind inFront,
      fun place _ before => run.opens place before, run.closes⟩⟩

instance (word : List Char) (content : Content) (start : Nat) : Decidable (FillsRun word content start) :=
  decidable_of_iff (IsWordRun content start (start + word.length) ∧ OccursAt word content start)
    ⟨fun ⟨run, occurs⟩ => ⟨run, occurs⟩, fun ⟨run, occurs⟩ => ⟨run, occurs⟩⟩

variable {content : Content} {word text : List Char} {start stop place offset : Nat} {before : Option Char}

/-- Inside a run no other run starts. -/
theorem IsWordRun.not_opens (run : IsWordRun content start stop) (behind : start < place) (inFront : place < stop) :
    ¬∀ front, front + 1 = place → isWord? content[front]? = false := by
  intro opens
  have inside := run.words (place - 1) (by omega) (by omega)
  rw [opens (place - 1) (by omega)] at inside
  cases inside

theorem getLast?_take_succ (within : place < text.length) : (text.take (place + 1)).getLast? = text[place]? := by
  rw [List.take_add_one, List.getElem?_eq_getElem within]
  exact List.getLast?_concat

theorem Cursor.StandsIn.isWord?_before {cursor : Cursor} (stands : cursor.StandsIn content) :
    isWord? cursor.before = false ↔ ∀ place, place + 1 = cursor.offset → isWord? content[place]? = false := by
  rw [stands.before_eq]
  have within := stands.within
  cases atOffset : cursor.offset with
  | zero => simp [isWord?]
  | succ place =>
    rw [getLast?_take_succ (by omega)]
    simp

/-- Where a word occurs whose letters are all matched by word characters only, there are only word characters. -/
theorem OccursAt.words (occurs : OccursAt word content start)
    (plain : ∀ wanted ∈ word, ∀ char, sameLetter wanted char = true → isWord char = true) :
    ∀ place, start ≤ place → place < start + word.length → isWord? content[place]? = true := by
  obtain ⟨fits, same⟩ := occurs
  intro place behind inFront
  have inWord : place - start < word.length := by omega
  have inContent : place < content.length := by omega
  have atPlace : content[start + (place - start)]? = some content[place] := by
    rw [Nat.add_sub_cancel' behind, List.getElem?_eq_getElem inContent]
  rw [List.getElem?_eq_getElem inContent]
  exact plain _ (List.getElem_mem inWord) _
    (same (place - start) _ (List.getElem?_eq_getElem inWord) _ atPlace)

/-- With word characters for all its letters, a word stands between two word edges exactly where it fills a run. -/
theorem Cursor.StandsIn.wordStands_iff {cursor : Cursor} (stands : cursor.StandsIn content) (nonempty : word ≠ [])
    (plain : ∀ wanted ∈ word, ∀ char, sameLetter wanted char = true → isWord char = true) :
    wordStands word cursor.before cursor.rest = true ↔ FillsRun word content cursor.offset := by
  have positive : 0 < word.length := List.length_pos_iff.mpr nonempty
  have starts_iff : startsWithFold word cursor.rest = true ↔ OccursAt word content cursor.offset := by
    rw [occursAt_iff, stands.rest_eq]
    exact (and_iff_right stands.within).symm
  have front : cursor.rest.head? = content[cursor.offset]? := by rw [stands.rest_eq, List.head?_drop]
  have behind : (cursor.rest.drop word.length).head? = content[cursor.offset + word.length]? := by
    rw [stands.rest_eq, List.drop_drop, List.head?_drop]
  -- Where the word occurs, its first and its last character are word characters.
  have edges (occurs : OccursAt word content cursor.offset) :
      wordEdge cursor.before cursor.rest.head? = !isWord? cursor.before ∧
        wordEdge (lastBefore cursor.before word.length cursor.rest) (cursor.rest.drop word.length).head? =
          !isWord? content[cursor.offset + word.length]? := by
    have words := occurs.words plain
    have fits := occurs.1
    have last : lastBefore cursor.before word.length cursor.rest = content[cursor.offset + (word.length - 1)]? := by
      have taken : (cursor.rest.take word.length).getLast? = content[cursor.offset + (word.length - 1)]? := by
        have size : word.length = word.length - 1 + 1 := by omega
        rw [size, stands.rest_eq, getLast?_take_succ (by rw [List.length_drop]; omega), List.getElem?_drop]
        rfl
      rw [lastBefore, taken, List.getElem?_eq_getElem (by omega)]
    rw [front, behind, last, wordEdge, wordEdge, words _ (Nat.le_refl _) (by omega),
      words _ (Nat.le_add_right ..) (by omega)]
    simp
  rw [wordStands, Bool.and_eq_true, Bool.and_eq_true, starts_iff]
  constructor
  · rintro ⟨⟨opens, occurs⟩, closes⟩
    rw [(edges occurs).1, Bool.not_eq_true', stands.isWord?_before] at opens
    rw [(edges occurs).2, Bool.not_eq_true'] at closes
    exact ⟨⟨by omega, occurs.words plain, opens, closes⟩, occurs⟩
  · rintro ⟨run, occurs⟩
    rw [(edges occurs).1, (edges occurs).2, Bool.not_eq_true', Bool.not_eq_true', stands.isWord?_before]
    exact ⟨⟨run.opens, occurs⟩, run.closes⟩

theorem lastBefore_eq (before : Option Char) (count : Nat) (text : List Char) :
    lastBefore before count text = (text.take count).getLast?.or before := by
  unfold lastBefore
  cases (text.take count).getLast? <;> rfl

/-- The search for a word goes from run to run. -/
theorem wordOffsets_eq (nonempty : word ≠ [])
    (plain : ∀ wanted ∈ word, ∀ char, sameLetter wanted char = true → isWord char = true)
    (stands : (⟨offset, before, text⟩ : Cursor).StandsIn content) :
    wordOffsets word offset before text = (List.range' offset text.length).filter (FillsRun word content ·) := by
  have positive : 0 < word.length := List.length_pos_iff.mpr nonempty
  fun_induction wordOffsets word offset before text with
  | case1 offset before here =>
    have fits := length_le_of_wordStands here
    rw [List.length_nil] at fits
    omega
  | case2 offset before char rest here ih =>
    have fills : FillsRun word content offset := (stands.wordStands_iff nonempty plain).mp here
    have fits := length_le_of_wordStands here
    rw [List.length_cons] at fits
    have taken : (rest.take (word.length - 1)).length = word.length - 1 := by
      rw [List.length_take]
      omega
    have moved := stands.step.behind (List.take_prefix (word.length - 1) rest)
    rw [Cursor.behind, taken] at moved
    dsimp only at moved
    rw [← lastBefore_eq, Nat.add_right_comm] at moved
    -- Up to the end of the run no other run starts.
    have skipped : (List.range' (offset + 1) (word.length - 1)).filter (FillsRun word content ·) = [] := by
      refine List.filter_eq_nil_iff.mpr fun place inside starts => ?_
      obtain ⟨behind, inFront⟩ := List.mem_range'_1.mp inside
      exact fills.run.not_opens (by omega) (by omega) (of_decide_eq_true starts).run.opens
    have parts : List.range' (offset + 1) rest.length = List.range' (offset + 1) (word.length - 1) ++
        List.range' (offset + (word.length - 1) + 1) (rest.drop (word.length - 1)).length := by
      rw [List.length_drop, Nat.add_right_comm offset (word.length - 1), List.range'_append_1]
      congr 1
      omega
    rw [ih moved, List.length_cons, List.range'_succ, List.filter_cons_of_pos (by simpa using fills), parts,
      List.filter_append, skipped, List.nil_append]
  | case3 => rfl
  | case4 offset before char rest passed ih =>
    have unfilled : ¬FillsRun word content offset := mt (stands.wordStands_iff nonempty plain).mpr passed
    rw [ih stands.step, List.length_cons, List.range'_succ, List.filter_cons_of_neg (by simpa using unfilled)]

end Marginalia
