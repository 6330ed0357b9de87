import Mathlib.Data.Char
import Marginalia.Proofs.ColorLiterals
import Marginalia.Proofs.PatternSearch

namespace Marginalia

/-- The word characters from a place on, up to the first other character. -/
def wordRun (content : List Char) (place : Nat) : List Char :=
  (content.drop place).takeWhile isWord

variable {content digits front rest : List Char} {cursor : Cursor} {found : Found} {place : Nat}

theorem isWord_of_isHexDigit {char : Char} (hexadecimal : isHexDigit char = true) : isWord char = true := by
  have ascii : ∀ code < 128, isHexDigit (Char.ofNat code) = true → isWord (Char.ofNat code) = true := by decide
  have within (last : Char) (bound : last.toNat < 128) (before : char ≤ last) : char.toNat < 128 :=
    Nat.lt_of_le_of_lt before bound
  have inAscii : char.toNat < 128 := by
    unfold isHexDigit hexValue? at hexadecimal
    split at hexadecimal
    · rename_i range
      exact within '9' (by decide) range.2
    · split at hexadecimal
      · rename_i range
        exact within 'f' (by decide) range.2
      · split at hexadecimal
        · rename_i range
          exact within 'F' (by decide) range.2
        · cases hexadecimal
  have here := ascii char.toNat inAscii
  rw [Char.ofNat_toNat] at here
  exact here hexadecimal

theorem takeWhile_isWord_append_iff (words : ∀ char ∈ front, isWord char = true) :
    (front ++ rest).takeWhile isWord = front ↔ isWord? rest.head? = false := by
  rw [List.takeWhile_append_of_pos words]
  cases rest with
  | nil => simp [isWord?]
  | cons char rest =>
    cases word : isWord char with
    | true => simp [isWord?, word]
    | false => simp [isWord?, word]

/-- Behind a color literal there is a word edge when the run of word characters ends with it. -/
theorem IsColorLiteral.edge_iff (literal : IsColorLiteral ('#' :: digits)) (split : '#' :: digits ++ rest = cursor.rest) :
    Pattern.edge.Reads (cursor.behind ('#' :: digits)) [] ↔ (digits ++ rest).takeWhile isWord = digits := by
  obtain ⟨_, same, length, hexadecimal⟩ := literal
  obtain rfl := (List.cons.inj same).2
  have words : ∀ digit ∈ digits, isWord digit = true := fun digit member => isWord_of_isHexDigit (hexadecimal digit member)
  have nonempty : digits ≠ [] := by
    rintro rfl
    simp at length
  have before : (cursor.behind ('#' :: digits)).before = some (digits.getLast nonempty) := by
    rw [Cursor.behind, List.getLast?_cons, List.getLast?_eq_some_getLast nonempty]
    rfl
  have behind : (cursor.behind ('#' :: digits)).rest = rest := by rw [Cursor.behind, ← split, List.drop_left]
  have last : isWord? (some (digits.getLast nonempty)) = true := words _ (List.getLast_mem nonempty)
  rw [takeWhile_isWord_append_iff words, Pattern.Reads, before, behind, wordEdge, last, and_iff_right rfl]
  cases isWord? rest.head? <;> simp

/-- The shape of a color literal matches a number sign with digits up to the end of the run of word characters. -/
theorem colorShape_match?_iff : colorShape.match? cursor = some found ↔
    ∃ rest, cursor.rest = '#' :: rest ∧ IsColorLiteral ('#' :: rest.takeWhile isWord) ∧
      found = ⟨cursor.offset, cursor.offset + ('#' :: rest.takeWhile isWord).length,
        cursor.behind ('#' :: rest.takeWhile isWord)⟩ := by
  have spec {found : Found} (matched : colorShape.match? cursor = some found) :
      ∃ rest, cursor.rest = '#' :: rest ∧ IsColorLiteral ('#' :: rest.takeWhile isWord) ∧
        found = ⟨cursor.offset, cursor.offset + ('#' :: rest.takeWhile isWord).length,
          cursor.behind ('#' :: rest.takeWhile isWord)⟩ := by
    obtain ⟨_, text, _, rfl, readsText, ⟨rfl, edge⟩, rfl⟩ := Shape.match?_reads matched
    rw [Cursor.behind_nil] at readsText edge ⊢
    obtain ⟨⟨rest, split⟩, literal⟩ := colorShape_reads_iff.mp readsText
    obtain ⟨digits, rfl, _⟩ := id literal
    have run := (literal.edge_iff split).mp ⟨rfl, edge⟩
    refine ⟨digits ++ rest, split.symm, run.symm ▸ literal, ?_⟩
    rw [run, Cursor.behind_nil]
    rfl
  constructor
  · exact spec
  · rintro ⟨rest, starts, literal, rfl⟩
    have split : '#' :: rest.takeWhile isWord ++ rest.dropWhile isWord = cursor.rest := by
      rw [List.cons_append, List.takeWhile_append_dropWhile, starts]
    have edge := (literal.edge_iff split).mpr (by rw [List.takeWhile_append_dropWhile])
    have reads := colorShape_reads_iff.mpr ⟨⟨_, split⟩, literal⟩
    have succeeds : (colorShape.match? cursor).isSome = true :=
      Shape.match?_isSome_iff.mpr ⟨[], _, [], rfl, by rwa [Cursor.behind_nil], by rwa [Cursor.behind_nil]⟩
    obtain ⟨found, matched⟩ := Option.isSome_iff_exists.mp succeeds
    obtain ⟨other, starts', _, rfl⟩ := spec matched
    obtain rfl := (List.cons.inj (starts.symm.trans starts')).2
    exact matched

theorem drop_eq_cons_iff {char : Char} :
    content.drop place = char :: rest ↔ content[place]? = some char ∧ content.drop (place + 1) = rest := by
  constructor
  · intro starts
    rw [← List.head?_drop, starts, ← List.tail_drop, starts]
    exact ⟨rfl, rfl⟩
  · rintro ⟨here, rfl⟩
    obtain ⟨within, rfl⟩ := List.getElem?_eq_some_iff.mp here
    exact List.drop_eq_getElem_cons within

theorem colorShape_extentAt?_iff {start stop : Nat} : colorShape.extentAt? content place = some (start, stop) ↔
    start = place ∧ stop = place + ('#' :: wordRun content (place + 1)).length ∧ content[place]? = some '#' ∧
      IsColorLiteral ('#' :: wordRun content (place + 1)) := by
  rw [Shape.extentAt?, Option.map_eq_some_iff]
  constructor
  · rintro ⟨found, matched, extent⟩
    obtain ⟨rest, starts, literal, rfl⟩ := colorShape_match?_iff.mp matched
    obtain ⟨here, rfl⟩ := drop_eq_cons_iff.mp starts
    obtain ⟨rfl, rfl⟩ := Prod.mk.inj extent
    exact ⟨rfl, rfl, here, literal⟩
  · rintro ⟨rfl, rfl, here, literal⟩
    have starts : (cursorAt content start).rest = '#' :: content.drop (start + 1) := drop_eq_cons_iff.mpr ⟨here, rfl⟩
    exact ⟨_, colorShape_match?_iff.mpr ⟨_, starts, literal, rfl⟩, rfl⟩

/-- No digit of a color literal is a number sign, so no literal starts within another. -/
theorem colorShape_apart (content : List Char) : colorShape.Apart content := by
  intro place found matched
  obtain ⟨rest, starts, literal, rfl⟩ := colorShape_match?_iff.mp matched
  obtain ⟨_, rfl⟩ := drop_eq_cons_iff.mp starts
  refine ⟨Nat.lt_add_of_pos_right (Nat.succ_pos _), fun other behind inFront => ?_⟩
  rw [Option.eq_none_iff_forall_ne_some]
  intro second matchedOther
  obtain ⟨_, startsOther, _⟩ := colorShape_match?_iff.mp matchedOther
  obtain ⟨sign, _⟩ := drop_eq_cons_iff.mp startsOther
  obtain ⟨_, same, _, hexadecimal⟩ := literal
  obtain rfl := (List.cons.inj same).2
  dsimp only [Cursor.behind, cursorAt, List.length_cons] at inFront
  have inRun : other - (place + 1) < ((content.drop (place + 1)).takeWhile isWord).length := by omega
  have digit : ((content.drop (place + 1)).takeWhile isWord)[other - (place + 1)] = '#' := by
    have inRest := (List.takeWhile_prefix isWord).getElem inRun
    rw [inRest, List.getElem_drop]
    obtain ⟨_, atOther⟩ := List.getElem?_eq_some_iff.mp sign
    rw [← atOther]
    congr 1
    omega
  have isDigit := hexadecimal _ (List.getElem_mem inRun)
  rw [digit] at isDigit
  cases isDigit

theorem colorShape_extents_eq (content : List Char) : colorShape.extents content =
    (List.range content.length).filterMap (colorShape.extentAt? content) := by
  rw [List.range_eq_range']
  exact Shape.search_eq (colorShape_apart content) (Cursor.start_standsIn content)

/-- Color literals are found at the number signs in front of a run of word characters that makes a color literal. -/
theorem mem_findColors_iff {color : ColorMatch} : color ∈ findColors content ↔
    content[color.start]? = some '#' ∧ IsColorLiteral ('#' :: wordRun content (color.start + 1)) ∧
      color.stop = color.start + ('#' :: wordRun content (color.start + 1)).length ∧
      color.literal = '#' :: wordRun content (color.start + 1) := by
  have literal_eq {start : Nat} (here : content[start]? = some '#') :
      (content.drop start).take (start + ('#' :: wordRun content (start + 1)).length - start) =
        '#' :: wordRun content (start + 1) := by
    have follows : '#' :: wordRun content (start + 1) <+: content.drop start := by
      rw [drop_eq_cons_iff.mpr ⟨here, rfl⟩]
      exact List.cons_prefix_cons.mpr ⟨rfl, List.takeWhile_prefix isWord⟩
    rw [Nat.add_sub_cancel_left]
    exact (List.prefix_iff_eq_take.mp follows).symm
  rw [findColors, colorShape_extents_eq, List.mem_map]
  constructor
  · rintro ⟨⟨start, stop⟩, member, rfl⟩
    obtain ⟨place, _, extent⟩ := List.mem_filterMap.mp member
    obtain ⟨rfl, rfl, here, literal⟩ := colorShape_extentAt?_iff.mp extent
    exact ⟨here, literal, rfl, literal_eq here⟩
  · obtain ⟨start, stop, text⟩ := color
    dsimp only
    rintro ⟨here, literal, rfl, rfl⟩
    obtain ⟨within, _⟩ := List.getElem?_eq_some_iff.mp here
    refine ⟨_, List.mem_filterMap.mpr ⟨start, List.mem_range.mpr within,
      colorShape_extentAt?_iff.mpr ⟨rfl, rfl, here, literal⟩⟩, ?_⟩
    dsimp only
    rw [literal_eq here]

theorem pairwise_findColors (content : List Char) :
    (findColors content).Pairwise fun color next => color.start < next.start := by
  rw [findColors, colorShape_extents_eq]
  refine List.pairwise_map.mpr (List.pairwise_filterMap.mpr (List.pairwise_lt_range.imp ?_))
  rintro place later inFront ⟨start, stop⟩ extent ⟨startLater, stopLater⟩ extentLater
  obtain ⟨rfl, _⟩ := colorShape_extentAt?_iff.mp extent
  obtain ⟨rfl, _⟩ := colorShape_extentAt?_iff.mp extentLater
  exact inFront

end Marginalia
