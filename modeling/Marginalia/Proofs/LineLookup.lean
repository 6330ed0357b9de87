import Marginalia.Proofs.LinePlaces
import Marginalia.Search.LineIndex

namespace Marginalia

variable {content : Content} {numbers : Array Nat} {bound cut low high : Nat}

/-- Where the numbers up to a place are those below a bound, halving what is left finds the place. -/
theorem bisect_eq (below : ∀ place (within : place < numbers.size), numbers[place] < bound ↔ place < cut)
    (lower : low ≤ cut) (upper : cut ≤ high) (within : high ≤ numbers.size) : bisect numbers bound low high = cut := by
  -- The place stays between `low` and `high`.
  fun_induction bisect numbers bound low high with
  | case1 low high left middle less ih =>
    have inside : middle < numbers.size := by omega
    rw [Array.getD_eq_getD_getElem?, Array.getElem?_eq_getElem inside, Option.getD_some, below middle inside] at less
    exact ih less upper within
  | case2 low high left middle less ih =>
    have inside : middle < numbers.size := by omega
    rw [Array.getD_eq_getD_getElem?, Array.getElem?_eq_getElem inside, Option.getD_some, below middle inside] at less
    exact ih lower (Nat.le_of_not_lt less) (by omega)
  | case3 low high left => omega

theorem map_newlinesFrom (offset : Nat) (content : Content) :
    (newlinesFrom offset content).map (· + 1) = lineStartsFrom offset content := by
  induction content generalizing offset with
  | nil => rfl
  | cons char rest ih =>
    by_cases newline : char = '\n'
    · rw [newlinesFrom, if_pos newline, List.map_cons, ih, lineStartsFrom, if_pos newline]
    · rw [newlinesFrom, if_neg newline, ih, lineStartsFrom, if_neg newline]

theorem length_newlinesFrom (offset : Nat) (content : Content) :
    (newlinesFrom offset content).length = content.count '\n' := by
  rw [← length_lineStartsFrom offset content, ← map_newlinesFrom, List.length_map]

theorem le_of_mem_newlinesFrom {start newline : Nat} (member : newline ∈ newlinesFrom start content) : start ≤ newline := by
  have starts : newline + 1 ∈ lineStartsFrom start content := by
    rw [← map_newlinesFrom]
    exact List.mem_map_of_mem member
  exact Nat.le_of_lt_succ (lt_of_mem_lineStartsFrom starts)

/-- The newlines in front of an offset are the first ones, as many as the number of its line. -/
theorem newlinesFrom_lt_iff {start place newline : Nat} (found : (newlinesFrom start content)[place]? = some newline)
    (offset : Nat) : newline < start + offset ↔ place < lineAt content offset := by
  induction content generalizing start place offset with
  | nil => cases found
  | cons char rest ih =>
    cases offset with
    | zero =>
      have behind := le_of_mem_newlinesFrom (List.mem_of_getElem? found)
      exact iff_of_false (Nat.not_lt.mpr behind) (Nat.not_lt_zero place)
    | succ offset =>
      have line : lineAt (char :: rest) (offset + 1) = lineAt rest offset + if char = '\n' then 1 else 0 := by
        rw [lineAt, List.take_succ_cons, List.count_cons]
        simp [lineAt]
      rw [newlinesFrom] at found
      have next : start + (offset + 1) = start + 1 + offset := by omega
      rw [line, next]
      by_cases newline : char = '\n'
      · rw [if_pos newline] at found ⊢
        cases place with
        | zero =>
          obtain rfl := Option.some.inj found
          omega
        | succ place =>
          rw [Nat.add_lt_add_iff_right]
          exact ih found offset
      · rw [if_neg newline] at found ⊢
        exact ih found offset

/-- The line that is looked up for an offset is the number of newlines in front of it. -/
theorem LineIndex.lineOf_ofContent (content : Content) (offset : Nat) :
    (LineIndex.ofContent content).lineOf offset = lineAt content offset := by
  have size : (newlinesFrom 0 content).toArray.size = content.count '\n' := length_newlinesFrom 0 content
  refine bisect_eq (fun place within => ?_) (Nat.zero_le _) ?_ (Nat.le_refl _)
  · have found : (newlinesFrom 0 content)[place]? = some (newlinesFrom 0 content).toArray[place] :=
      List.getElem?_eq_getElem within
    have first := newlinesFrom_lt_iff found offset
    rwa [Nat.zero_add] at first
  · exact size ▸ (List.take_sublist offset content).count_le '\n'

theorem LineIndex.lineStart_ofContent (content : Content) (line : Nat) (within : line < lineCount content) :
    (LineIndex.ofContent content).lineStart line = (lineStarts content).getD line 0 := by
  cases line with
  | zero => rfl
  | succ line =>
    have inside : line < (newlinesFrom 0 content).length := by
      rw [length_newlinesFrom]
      exact Nat.lt_of_succ_lt_succ within
    rw [lineStart, ofContent, lineStarts, List.getD_cons_succ, ← map_newlinesFrom, List.getD_eq_getElem?_getD,
      List.getElem?_map, List.getElem?_eq_getElem inside, Array.getD_eq_getD_getElem?, List.getElem?_toArray,
      List.getElem?_eq_getElem inside]
    rfl

/-- From the start that is looked up for the line of a place it is as far to the place as there are characters of the line
in front of it. -/
theorem LineIndex.lineStart_lineAt {place : Nat} (within : place ≤ content.length) :
    (LineIndex.ofContent content).lineStart (lineAt content place) + (lineTextBefore content place).length = place := by
  rw [lineStart_ofContent content _ (lineAt_lt_lineCount content place)]
  exact lineStarts_at within

end Marginalia
