import Marginalia.Paint
import Marginalia.Text.Carve
import Mathlib.Data.List.TakeWhile

namespace Marginalia

/-- The characters between the start of a line and a place on it. -/
def lineTextBefore (content : Content) (place : Nat) : Content :=
  ((content.take place).reverse.takeWhile (· ≠ '\n')).reverse

theorem lineRangesFrom_of_free {text : Content} (free : '\n' ∉ text) (start offset : Nat) (rest : Content) :
    lineRangesFrom start offset (text ++ rest) = lineRangesFrom start (offset + text.length) rest := by
  induction text generalizing offset with
  | nil => rfl
  | cons char text ih =>
    rw [List.mem_cons, not_or] at free
    rw [List.cons_append, lineRangesFrom, if_neg (Ne.symm free.1), ih free.2, List.length_cons, Nat.add_right_comm,
      Nat.add_assoc]

theorem lineRangesFrom_newline (start offset : Nat) (text rest : Content) :
    lineRangesFrom start offset (text ++ '\n' :: rest) =
      lineRangesFrom start offset text ++
        lineRangesFrom (offset + text.length + 1) (offset + text.length + 1) rest := by
  induction text generalizing start offset with
  | nil => rfl
  | cons char text ih =>
    by_cases newline : char = '\n'
    · rw [List.cons_append, lineRangesFrom, if_pos newline, ih, lineRangesFrom, if_pos newline, List.cons_append,
        List.length_cons, Nat.add_right_comm offset 1, Nat.add_assoc offset]
    · rw [List.cons_append, lineRangesFrom, if_neg newline, ih, lineRangesFrom, if_neg newline, List.length_cons,
        Nat.add_right_comm offset 1, Nat.add_assoc offset]

theorem lineRangesFrom_head (start offset : Nat) (content : Content) :
    (lineRangesFrom start offset content)[0]? = some (start, offset + lineLength content) := by
  induction content generalizing offset with
  | nil => rfl
  | cons char rest ih =>
    by_cases newline : char = '\n'
    · rw [lineRangesFrom, if_pos newline, newline]
      rfl
    · rw [lineRangesFrom, if_neg newline, ih, lineLength, lineLength,
        List.takeWhile_cons_of_pos (by simpa using newline), List.length_cons, Nat.add_right_comm, Nat.add_assoc]

/-- The text up to a place ends in the part of its line before the place. -/
theorem take_eq_append_lineTextBefore (content : Content) (place : Nat) :
    '\n' ∉ lineTextBefore content place ∧
      (content.take place = lineTextBefore content place ∨
        ∃ earlier, content.take place = earlier ++ '\n' :: lineTextBefore content place) := by
  have split := List.takeWhile_append_dropWhile (p := (· ≠ '\n')) (l := (content.take place).reverse)
  constructor
  · rw [lineTextBefore, List.mem_reverse]
    intro member
    simpa using List.mem_takeWhile_imp member
  · have whole : content.take place =
        ((content.take place).reverse.dropWhile (· ≠ '\n')).reverse ++ lineTextBefore content place := by
      rw [lineTextBefore, ← List.reverse_append, split, List.reverse_reverse]
    cases behind : (content.take place).reverse.dropWhile (· ≠ '\n') with
    | nil =>
      rw [behind] at whole
      exact Or.inl whole
    | cons newline earlier =>
      have stops := List.head?_dropWhile_not (· ≠ '\n') (content.take place).reverse
      rw [behind] at stops whole
      obtain rfl : newline = '\n' := by simpa using stops
      refine Or.inr ⟨earlier.reverse, ?_⟩
      rw [whole]
      simp

/-- The line of a place begins with the characters before the place and ends where the next newline comes. -/
theorem lineRanges_at {content : Content} {place : Nat} (within : place ≤ content.length) :
    ∃ start, (lineRanges content)[lineAt content place]? = some (start, place + lineLength (content.drop place)) ∧
      start + (lineTextBefore content place).length = place := by
  obtain ⟨free, parts⟩ := take_eq_append_lineTextBefore content place
  have total : (content.take place).length = place := List.length_take_of_le within
  have cut (start offset : Nat) : lineRangesFrom start offset content =
      lineRangesFrom start offset (content.take place ++ content.drop place) := by
    rw [List.take_append_drop]
  have none : (lineTextBefore content place).count '\n' = 0 := List.count_eq_zero.mpr free
  rcases parts with whole | ⟨earlier, whole⟩
  · rw [whole] at total
    refine ⟨0, ?_, by omega⟩
    have ranges : lineRanges content = lineRangesFrom 0 place (content.drop place) := by
      rw [lineRanges, cut, whole, lineRangesFrom_of_free free, Nat.zero_add, total]
    rw [ranges, lineAt, whole, none, lineRangesFrom_head]
  · rw [whole, List.length_append, List.length_cons] at total
    refine ⟨earlier.length + 1, ?_, by omega⟩
    have ranges : lineRanges content =
        lineRangesFrom 0 0 earlier ++ lineRangesFrom (earlier.length + 1) place (content.drop place) := by
      rw [lineRanges, cut, whole, List.append_assoc, List.cons_append, lineRangesFrom_newline,
        lineRangesFrom_of_free free, Nat.zero_add, Nat.add_assoc earlier.length, Nat.add_comm 1, total]
    have behind : lineAt content place = (lineRangesFrom 0 0 earlier).length := by
      rw [lineAt, whole, List.count_append, List.count_cons_self, none, length_lineRangesFrom]
    rw [ranges, behind, List.getElem?_append_right (Nat.le_refl _), Nat.sub_self, lineRangesFrom_head]

theorem stop_le_of_mem_lineRangesFrom {start offset first stop : Nat} {content : Content}
    (member : (first, stop) ∈ lineRangesFrom start offset content) : stop ≤ offset + content.length := by
  induction content generalizing start offset with
  | nil =>
    cases List.mem_singleton.mp member
    exact Nat.le_add_right ..
  | cons char rest ih =>
    rw [lineRangesFrom] at member
    rw [List.length_cons]
    split at member
    · rcases List.mem_cons.mp member with same | later
      · cases same
        exact Nat.le_add_right ..
      · have bound := ih later
        omega
    · have bound := ih member
      omega

theorem stop_le_of_mem_lineRanges {start stop : Nat} {content : Content} (member : (start, stop) ∈ lineRanges content) :
    stop ≤ content.length := by
  have bound := stop_le_of_mem_lineRangesFrom member
  omega

theorem map_fst_lineRangesFrom (start offset : Nat) (content : Content) :
    (lineRangesFrom start offset content).map (·.1) = start :: lineStartsFrom offset content := by
  induction content generalizing start offset with
  | nil => rfl
  | cons char rest ih =>
    by_cases newline : char = '\n'
    · rw [lineRangesFrom, if_pos newline, List.map_cons, ih, lineStartsFrom, if_pos newline]
    · rw [lineRangesFrom, if_neg newline, ih, lineStartsFrom, if_neg newline]

theorem lineStarts_at {content : Content} {place : Nat} (within : place ≤ content.length) :
    (lineStarts content).getD (lineAt content place) 0 + (lineTextBefore content place).length = place := by
  obtain ⟨start, found, ends⟩ := lineRanges_at within
  have starts : lineStarts content = (lineRanges content).map (·.1) := (map_fst_lineRangesFrom 0 0 content).symm
  rw [starts, List.getD_eq_getElem?_getD, List.getElem?_map, found]
  exact ends

theorem lineTexts_at {content : Content} {place : Nat} (within : place ≤ content.length) :
    (lineTexts content)[lineAt content place]? =
      some (lineTextBefore content place ++ (content.drop place).takeWhile (· ≠ '\n')) := by
  obtain ⟨start, found, ends⟩ := lineRanges_at within
  obtain ⟨_, parts⟩ := take_eq_append_lineTextBefore content place
  have line : content.drop start = lineTextBefore content place ++ content.drop place := by
    have total : (content.take place).length = place := List.length_take_of_le within
    have cut (start : Nat) : content.drop start = (content.take place ++ content.drop place).drop start := by
      rw [List.take_append_drop]
    rcases parts with whole | ⟨earlier, whole⟩
    · rw [whole] at total
      obtain rfl : start = 0 := by omega
      rw [cut, whole, List.drop_zero]
    · rw [whole, List.length_append, List.length_cons] at total
      have before : start = (earlier ++ ['\n']).length := by
        rw [List.length_append, List.length_singleton]
        omega
      rw [cut, whole, List.append_cons earlier, List.append_assoc, before, List.drop_left]
  have short : (content.drop place).take (lineLength (content.drop place)) =
      (content.drop place).takeWhile (· ≠ '\n') :=
    (List.prefix_iff_eq_take.mp (List.takeWhile_prefix _)).symm
  have length : place + lineLength (content.drop place) - start =
      (lineTextBefore content place).length + lineLength (content.drop place) := by
    omega
  rw [lineTexts, List.getElem?_map, found, Option.map_some]
  dsimp only
  rw [line, length, List.take_length_add_append, short]

theorem lt_of_mem_lineStartsFrom {offset start : Nat} {content : Content}
    (member : start ∈ lineStartsFrom offset content) : offset < start := by
  induction content generalizing offset with
  | nil => cases member
  | cons char rest ih =>
    rw [lineStartsFrom] at member
    split at member
    · rcases List.mem_cons.mp member with rfl | later
      · exact Nat.lt_succ_self offset
      · exact Nat.lt_of_succ_lt (ih later)
    · exact Nat.lt_of_succ_lt (ih member)

theorem length_takeWhile_lineStartsFrom (offset place : Nat) (content : Content) :
    ((lineStartsFrom offset content).takeWhile (· ≤ offset + place)).length = lineAt content place := by
  induction content generalizing offset place with
  | nil => simp [lineStartsFrom, lineAt]
  | cons char rest ih =>
    cases place with
    | zero =>
      cases starts : lineStartsFrom offset (char :: rest) with
      | nil => rfl
      | cons first later =>
        have beyond := lt_of_mem_lineStartsFrom (starts ▸ List.mem_cons_self ..)
        rw [List.takeWhile_cons_of_neg (by simpa using beyond)]
        rfl
    | succ place =>
      have rest' := ih (offset + 1) place
      rw [Nat.add_right_comm, Nat.add_assoc] at rest'
      by_cases newline : char = '\n'
      · rw [lineStartsFrom, if_pos newline, List.takeWhile_cons_of_pos (by simp), List.length_cons, rest', lineAt,
          lineAt, List.take_succ_cons, newline, List.count_cons_self]
      · rw [lineStartsFrom, if_neg newline, rest', lineAt, lineAt, List.take_succ_cons,
          List.count_cons_of_ne newline]

/-- Reading the line starts from the front counts the newlines before an offset. -/
theorem lineOfOffset_lineStarts (content : Content) (offset : Nat) :
    lineOfOffset (lineStarts content) offset = lineAt content offset := by
  have counted := length_takeWhile_lineStartsFrom 0 offset content
  rw [Nat.zero_add] at counted
  rw [lineOfOffset, lineStarts, List.takeWhile_cons_of_pos (by simp), List.length_cons, counted,
    Nat.add_sub_cancel]

theorem lineAt_lt_lineCount (content : Content) (place : Nat) : lineAt content place < lineCount content :=
  Nat.lt_succ_of_le ((content.take_sublist place).count_le '\n')

theorem lineAt_mono (content : Content) {offset later : Nat} (order : offset ≤ later) :
    lineAt content offset ≤ lineAt content later :=
  (List.take_sublist_take_left order).count_le _

end Marginalia
