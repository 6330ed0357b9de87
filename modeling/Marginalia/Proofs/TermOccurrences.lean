import Marginalia.Proofs.LineLookup
import Marginalia.Search.Matches

namespace Marginalia

/-- A term occurs at a place when it fits in there and each of its characters is the same letter as the one of the
content. -/
def OccursAt (term : List Char) (content : Content) (place : Nat) : Prop :=
  place + term.length ≤ content.length ∧
    ∀ offset : Nat, ∀ wanted ∈ term[offset]?, ∀ char ∈ content[place + offset]?, sameLetter wanted char = true

/-- The line of a place starts behind the last newline in front of the place, or with the content. -/
def IsLineStart (content : Content) (place first : Nat) : Prop :=
  first ≤ place ∧ '\n' ∉ (content.take place).drop first ∧
    (first = 0 ∨ ∃ newline, newline + 1 = first ∧ content[newline]? = some '\n')

variable {content front rest : Content} {term text : List Char} {place first : Nat}

theorem startsWithFold_iff :
    startsWithFold term text = true ↔ term.length ≤ text.length ∧
      ∀ offset : Nat, ∀ wanted ∈ term[offset]?, ∀ char ∈ text[offset]?, sameLetter wanted char = true := by
  induction term generalizing text with
  | nil => simp [startsWithFold]
  | cons wanted term ih =>
    cases text with
    | nil => simp [startsWithFold]
    | cons char text =>
      rw [startsWithFold, Bool.and_eq_true, ih, List.length_cons, List.length_cons, Nat.add_le_add_iff_right]
      constructor
      · rintro ⟨here, fits, later⟩
        refine ⟨fits, fun offset => ?_⟩
        cases offset with
        | zero => simpa using here
        | succ offset => simpa using later offset
      · rintro ⟨fits, same⟩
        exact ⟨same 0 wanted rfl char rfl, fits, fun offset => by simpa using same (offset + 1)⟩

/-- A term occurs at a place when what follows the place starts with it. -/
theorem occursAt_iff : OccursAt term content place ↔
    place ≤ content.length ∧ startsWithFold term (content.drop place) = true := by
  rw [startsWithFold_iff, List.length_drop]
  simp only [OccursAt, List.getElem?_drop]
  constructor
  · rintro ⟨fits, same⟩
    exact ⟨by omega, by omega, same⟩
  · rintro ⟨within, fits, same⟩
    exact ⟨by omega, same⟩

instance (term : List Char) (content : Content) (place : Nat) : Decidable (OccursAt term content place) :=
  decidable_of_iff' _ occursAt_iff

/-- The match of a term at a place. -/
def matchAt (term : List Char) (content : Content) (place : Nat) : SearchMatch :=
  ⟨place, place + term.length, lineAt content place, (lineTextBefore content place).length⟩

/-- The search goes through all places in their order. -/
theorem termOffsets_eq (split : content = front ++ rest) : termOffsets term front.length rest =
    (List.range' front.length rest.length).filter (OccursAt term content ·) := by
  induction rest generalizing front with
  | nil => rfl
  | cons char rest ih =>
    have moved : content = (front ++ [char]) ++ rest := by rw [split, List.append_assoc, List.singleton_append]
    have later := ih moved
    rw [List.length_append, List.length_singleton] at later
    have here : OccursAt term content front.length ↔ startsWithFold term (char :: rest) = true := by
      rw [occursAt_iff, split, List.drop_left, List.length_append]
      exact and_iff_right (Nat.le_add_right ..)
    rw [termOffsets, later, List.length_cons, List.range'_succ, List.filter_cons]
    simp only [decide_eq_true_eq, here]

/-- The matches of a term are found where it occurs. -/
theorem findMatches_eq (content : Content) (term : String) :
    findMatches content term = if term = "" then [] else
      ((List.range content.length).filter (OccursAt term.toList content ·)).map (matchAt term.toList content) := by
  have offsets : termOffsets term.toList 0 content =
      (List.range' 0 content.length).filter (OccursAt term.toList content ·) :=
    termOffsets_eq (List.nil_append content).symm
  simp only [findMatches, String.isEmpty_iff]
  refine if_congr Iff.rfl rfl ?_
  rw [offsets, List.range_eq_range']
  refine List.map_congr_left fun place member => ?_
  have within : place ≤ content.length := by
    have inside := List.mem_range'_1.mp (List.mem_filter.mp member).1
    omega
  have column := LineIndex.lineStart_lineAt within
  rw [LineIndex.lineOf_ofContent, matchAt, String.length_toList, SearchMatch.mk.injEq]
  exact ⟨rfl, rfl, rfl, by omega⟩

theorem mem_findMatches_iff {hit : SearchMatch} {term : String} : hit ∈ findMatches content term ↔
    term ≠ "" ∧ ∃ place, OccursAt term.toList content place ∧ matchAt term.toList content place = hit := by
  rw [findMatches_eq]
  by_cases empty : term = ""
  · simp [empty]
  · have positive : 0 < term.toList.length := by
      rwa [List.length_pos_iff, ne_eq, String.toList_eq_nil_iff]
    rw [if_neg empty, List.mem_map]
    constructor
    · rintro ⟨place, member, rfl⟩
      exact ⟨empty, place, of_decide_eq_true (List.mem_filter.mp member).2, rfl⟩
    · rintro ⟨_, place, occurs, rfl⟩
      have fits := occurs.1
      exact ⟨place, List.mem_filter.mpr ⟨List.mem_range.mpr (by omega), decide_eq_true occurs⟩, rfl⟩

theorem pairwise_findMatches (content : Content) (term : String) :
    (findMatches content term).Pairwise fun hit next => hit.start < next.start := by
  rw [findMatches_eq]
  split
  · exact .nil
  · refine List.pairwise_map.mpr (List.Pairwise.imp ?_ (List.pairwise_lt_range.sublist List.filter_sublist))
    intro place next less
    exact Int.ofNat_lt.mpr less

theorem lineTextBefore_eq {earlier : Content} (split : content.take place = earlier ++ text) (free : '\n' ∉ text)
    (starts : earlier = [] ∨ ∃ before, earlier = before ++ ['\n']) : lineTextBefore content place = text := by
  have passed : ∀ char ∈ text.reverse, decide (char ≠ '\n') = true := by
    intro char member
    refine decide_eq_true ?_
    rintro rfl
    exact free (List.mem_reverse.mp member)
  rw [lineTextBefore, split, List.reverse_append, List.takeWhile_append_of_pos passed]
  rcases starts with rfl | ⟨before, rfl⟩
  · simp
  · simp

/-- From the start of its line to a place it is as far as there are characters of the line in front of the place. -/
theorem IsLineStart.add_length (starts : IsLineStart content place first) (within : place ≤ content.length) :
    first + (lineTextBefore content place).length = place := by
  obtain ⟨inOrder, free, atFirst⟩ := starts
  have split : content.take place = content.take first ++ (content.take place).drop first := by
    have whole := List.take_append_drop first (content.take place)
    rw [List.take_take, Nat.min_eq_left inOrder] at whole
    exact whole.symm
  have text := lineTextBefore_eq split free ?_
  · rw [text, List.length_drop, List.length_take]
    omega
  · rcases atFirst with rfl | ⟨newline, rfl, found⟩
    · exact Or.inl rfl
    · exact Or.inr ⟨content.take newline, by rw [List.take_add_one, found]; rfl⟩

theorem exists_isLineStart (within : place ≤ content.length) : ∃ first, IsLineStart content place first := by
  obtain ⟨free, whole | ⟨earlier, split⟩⟩ := take_eq_append_lineTextBefore content place
  · exact ⟨0, Nat.zero_le _, by rwa [List.drop_zero, whole], Or.inl rfl⟩
  · have total := congrArg List.length split
    rw [List.length_take, Nat.min_eq_left within, List.length_append, List.length_cons] at total
    have behind : (content.take place).drop (earlier.length + 1) = lineTextBefore content place := by
      rw [split, List.append_cons, List.drop_left' (by simp)]
    have newline : content[earlier.length]? = some '\n' := by
      rw [← List.getElem?_take_of_lt (by omega : earlier.length < place), split, List.getElem?_append_right (Nat.le_refl _),
        Nat.sub_self]
      rfl
    exact ⟨earlier.length + 1, by omega, by rwa [behind], Or.inr ⟨_, rfl, newline⟩⟩

/-- A search finds the places where the term occurs, in their order. A match tells how many newlines stand in front of it
and how far it is from the start of its line. The empty term is not found anywhere. -/
theorem findMatches_occurrences (content : Content) (term : String) :
    (findMatches content term).Pairwise (fun hit next => hit.start < next.start) ∧
    (∀ hit, hit ∈ findMatches content term ↔ term ≠ "" ∧ ∃ place first : Nat,
      OccursAt term.toList content place ∧ IsLineStart content place first ∧
      hit = ⟨place, place + term.length, (content.take place).count '\n', place - first⟩) ∧
    findMatches content "" = [] := by
  refine ⟨pairwise_findMatches content term, fun hit => ?_, rfl⟩
  have match_eq {place first : Nat} (occurs : OccursAt term.toList content place)
      (starts : IsLineStart content place first) : matchAt term.toList content place =
        ⟨place, place + term.length, (content.take place).count '\n', place - first⟩ := by
    have column := starts.add_length (occursAt_iff.mp occurs).1
    rw [matchAt, String.length_toList, lineAt, SearchMatch.mk.injEq]
    exact ⟨rfl, rfl, rfl, by omega⟩
  rw [mem_findMatches_iff]
  refine and_congr_right fun _ => exists_congr fun place => ?_
  constructor
  · rintro ⟨occurs, rfl⟩
    obtain ⟨first, starts⟩ := exists_isLineStart (occursAt_iff.mp occurs).1
    exact ⟨first, occurs, starts, match_eq occurs starts⟩
  · rintro ⟨first, occurs, starts, rfl⟩
    exact ⟨occurs, match_eq occurs starts⟩

end Marginalia
