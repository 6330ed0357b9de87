namespace Marginalia

/-- The fields of a text between separators. There is one more of them than there are separators. -/
def fields (separator : Char) : List Char → List (List Char)
  | [] => [[]]
  | char :: rest =>
    if char = separator then [] :: fields separator rest
    else
      match fields separator rest with
      | [] => [[char]]
      | first :: later => (char :: first) :: later

theorem length_fields (separator : Char) (text : List Char) :
    (fields separator text).length = text.count separator + 1 := by
  induction text with
  | nil => rfl
  | cons char rest ih =>
    by_cases same : char = separator
    · simp [fields, same, ih]
    · cases found : fields separator rest with
      | nil => simp [found] at ih
      | cons first later => simp_all [fields]

theorem fields_of_not_mem {separator : Char} {text : List Char} (clear : separator ∉ text) :
    fields separator text = [text] := by
  induction text with
  | nil => rfl
  | cons char rest ih =>
    obtain ⟨different, clear⟩ := not_or.mp (mt List.mem_cons.mpr clear)
    rw [fields, if_neg (Ne.symm different), ih clear]

/-- The first field ends in front of the first separator. -/
theorem fields_append_cons {separator : Char} {text : List Char} (clear : separator ∉ text) (rest : List Char) :
    fields separator (text ++ separator :: rest) = text :: fields separator rest := by
  induction text with
  | nil => rw [List.nil_append, fields, if_pos rfl]
  | cons char text ih =>
    obtain ⟨different, clear⟩ := not_or.mp (mt List.mem_cons.mpr clear)
    rw [List.cons_append, fields, if_neg (Ne.symm different), ih clear]

/-- What follows `start` at the front of a text. -/
def after? (start : List Char) (text : List Char) : Option (List Char) :=
  if start.isPrefixOf text then some (text.drop start.length) else none

theorem after?_eq_some_iff {start text rest : List Char} : after? start text = some rest ↔ text = start ++ rest := by
  unfold after?
  split
  · rename_i starts
    obtain ⟨behind, rfl⟩ := List.isPrefixOf_iff_prefix.mp starts
    simp
  · rename_i other
    constructor
    · intro found
      cases found
    · rintro rfl
      exact absurd (List.isPrefixOf_iff_prefix.mpr (List.prefix_append ..)) other

end Marginalia
