import Marginalia.Lexical.Region
import Marginalia.Proofs.CarvedText
import Marginalia.Proofs.FirstPlace

namespace Marginalia

theorem stringLength_le (quote before : Char) (text : List Char) :
    stringLength quote before text ≤ text.length := by
  induction text generalizing before with
  | nil => exact Nat.le_refl _
  | cons char rest ih =>
    unfold stringLength
    split
    · exact Nat.succ_le_succ (Nat.zero_le _)
    · exact Nat.succ_le_succ (ih char)

/-- A place where a string ends that began with `quote`: such a quote with no backslash directly before it. -/
def EndsString (content : Content) (quote : Char) (place : Nat) : Prop :=
  content[place]? = some quote ∧ content[place - 1]? ≠ some '\\'

theorem stringLength_stops (quote : Char) {content text : List Char} {before : Char} {offset : Nat}
    (follows : content.drop offset = text) (within : offset ≤ content.length) (positive : 0 < offset)
    (previous : content[offset - 1]? = some before) :
    StopsBehindFirst (EndsString content quote) offset 1 content.length
      (offset + stringLength quote before text) := by
  induction text generalizing offset before with
  | nil =>
    have bound := List.drop_eq_nil_iff.mp follows
    refine Or.inr ⟨fun place lower found => ?_, by simp only [stringLength]; omega⟩
    have outside := List.getElem?_eq_none (Nat.le_trans bound lower)
    cases outside.symm.trans found.1
  | cons char rest ih =>
    obtain ⟨atOffset, later, below⟩ := of_drop_eq_cons follows
    have ends : EndsString content quote offset ↔ char = quote ∧ before ≠ '\\' := by
      simp [EndsString, atOffset, previous]
    by_cases closes : char = quote ∧ before ≠ '\\'
    · rw [stringLength, if_pos closes]
      exact .here (ends.mpr closes)
    · rw [stringLength, if_neg closes]
      have stops := StopsBehindFirst.later (fun found => closes (ends.mp found))
        (ih later below (Nat.succ_pos offset) atOffset)
      rwa [show offset + (stringLength quote char rest + 1) = offset + 1 + stringLength quote char rest by omega]

/-- What the reader of brackets passes over: where each kind of region starts, and how far it goes. -/
def Region.IsLexeme (content : Content) (region : Region Lexeme) : Prop :=
  match region.kind with
  | .lineComment =>
    content[region.start]? = some '/' ∧ content[region.start + 1]? = some '/' ∧
      StopsBehindFirst (fun place => content[place]? = some '\n') region.start 0 content.length region.stop
  | .blockComment =>
    content[region.start]? = some '/' ∧ content[region.start + 1]? = some '*' ∧
      StopsBehindFirst (fun place => content[place]? = some '*' ∧ content[place + 1]? = some '/')
        (region.start + 2) 2 content.length region.stop
  | .string =>
    ∃ quote ∈ ['"', '\'', '`'], content[region.start]? = some quote ∧
      StopsBehindFirst (EndsString content quote) (region.start + 1) 1 content.length region.stop

/-- A place that cannot be code: a quote, or the first character of a comment. -/
def OpensLexeme (content : Content) (place : Nat) : Prop :=
  (∃ quote ∈ ['"', '\'', '`'], content[place]? = some quote) ∨
    content[place]? = some '/' ∧ (content[place + 1]? = some '/' ∨ content[place + 1]? = some '*')

theorem Region.IsLexeme.opens {content : Content} {region : Region Lexeme} (lexeme : region.IsLexeme content) :
    OpensLexeme content region.start := by
  obtain ⟨start, stop, kind⟩ := region
  cases kind with
  | string =>
    obtain ⟨quote, known, found, _⟩ := lexeme
    exact Or.inl ⟨quote, known, found⟩
  | lineComment => exact Or.inr ⟨lexeme.1, Or.inl lexeme.2.1⟩
  | blockComment => exact Or.inr ⟨lexeme.1, Or.inr lexeme.2.1⟩

/-- Where a region starts says what it is and where it stops. -/
theorem Region.IsLexeme.eq_of_start_eq {content : Content} {left right : Region Lexeme}
    (lexeme : left.IsLexeme content) (lexeme' : right.IsLexeme content) (same : left.start = right.start) :
    left = right := by
  obtain ⟨start, stop, kind⟩ := left
  obtain ⟨start', stop', kind'⟩ := right
  obtain rfl : start = start' := same
  have slash {quote : Char} (known : quote ∈ ['"', '\'', '`']) (atStart : content[start]? = some quote) :
      content[start]? ≠ some '/' := by
    rintro found
    rw [atStart, Option.some.injEq] at found
    subst found
    exact absurd known (by decide)
  cases kind <;> cases kind' <;> dsimp only [Region.IsLexeme] at lexeme lexeme'
  case string.string =>
    obtain ⟨quote, _, found, stops⟩ := lexeme
    obtain ⟨quote', _, found', stops'⟩ := lexeme'
    obtain rfl := Option.some.inj (found.symm.trans found')
    rw [stops.unique stops']
  case string.lineComment => exact absurd lexeme'.1 (slash lexeme.choose_spec.1 lexeme.choose_spec.2.1)
  case string.blockComment => exact absurd lexeme'.1 (slash lexeme.choose_spec.1 lexeme.choose_spec.2.1)
  case lineComment.string => exact absurd lexeme.1 (slash lexeme'.choose_spec.1 lexeme'.choose_spec.2.1)
  case blockComment.string => exact absurd lexeme.1 (slash lexeme'.choose_spec.1 lexeme'.choose_spec.2.1)
  case lineComment.lineComment => rw [lexeme.2.2.unique lexeme'.2.2]
  case blockComment.blockComment => rw [lexeme.2.2.unique lexeme'.2.2]
  case lineComment.blockComment =>
    have absurd := lexeme.2.1.symm.trans lexeme'.2.1
    simp at absurd
  case blockComment.lineComment =>
    have absurd := lexeme.2.1.symm.trans lexeme'.2.1
    simp at absurd

theorem isQuote_iff {char : Char} : isQuote char = true ↔ char ∈ ['"', '\'', '`'] := by
  simp [isQuote, or_assoc]

/-- What opens at a place of a content is a region of the right extent, and it is never empty. -/
theorem lexemeAt_spec {content : Content} {offset length : Nat} {before : Option Char} {kind : Lexeme}
    (opens : lexemeAt before (content.drop offset) = some (kind, length)) :
    0 < length ∧ offset + length ≤ content.length ∧
      Region.IsLexeme content ⟨offset, offset + length, kind⟩ := by
  generalize follows : content.drop offset = text at opens
  unfold lexemeAt at opens
  split at opens
  · rename_i rest
    cases opens
    obtain ⟨first, later, _⟩ := of_drop_eq_cons follows
    obtain ⟨second, later, within⟩ := of_drop_eq_cons later
    have stops := lengthThrough_stops (by simp : ['*', '/'] ≠ []) later within
    have bound := lengthThrough_le ['*', '/'] rest
    have length := congrArg List.length later
    rw [List.length_drop] at length
    refine ⟨by omega, by omega, first, second, ?_⟩
    simp only [prefix_drop_pair] at stops
    rwa [show offset + (lengthThrough ['*', '/'] rest + 2) = offset + 2 + lengthThrough ['*', '/'] rest by omega]
  · rename_i rest
    cases opens
    obtain ⟨first, later, below⟩ := of_drop_eq_cons follows
    obtain ⟨second, later, within⟩ := of_drop_eq_cons later
    have stops := lineLength_stops later within
    have bound := lineLength_le rest
    have length := congrArg List.length later
    rw [List.length_drop] at length
    refine ⟨by omega, by omega, first, second, ?_⟩
    rw [show offset + (lineLength rest + 2) = offset + 2 + lineLength rest by omega]
    exact .later (by simp [first]) (.later (by simp [second]) stops)
  · rename_i char rest _ _
    obtain ⟨quoted, found⟩ := Option.ite_none_right_eq_some.mp opens
    cases found
    obtain ⟨first, later, within⟩ := of_drop_eq_cons follows
    have stops := stringLength_stops char later within (Nat.succ_pos offset) first
    refine ⟨by omega, ?_, char, isQuote_iff.mp quoted, first, ?_⟩
    · have bound := stringLength_le char char rest
      have length := congrArg List.length later
      rw [List.length_drop] at length
      omega
    · rwa [show offset + (stringLength char char rest + 1) = offset + 1 + stringLength char char rest by omega]
  · cases opens

theorem not_opensLexeme {content : Content} {offset : Nat} {before : Option Char}
    (closed : lexemeAt before (content.drop offset) = none) : ¬OpensLexeme content offset := by
  intro opens
  rcases opens with ⟨quote, known, found⟩ | ⟨slash, next⟩
  · obtain ⟨below, rfl⟩ := List.getElem?_eq_some_iff.mp found
    rw [List.drop_eq_getElem_cons below] at closed
    unfold lexemeAt at closed
    split at closed
    · cases closed
    · cases closed
    · rename_i follows
      cases follows
      rw [if_pos (isQuote_iff.mpr known)] at closed
      cases closed
    · rename_i follows
      cases follows
  · rcases next with next | next
    · obtain ⟨rest, follows⟩ := prefix_drop_pair.mpr ⟨slash, next⟩
      rw [← follows] at closed
      cases closed
    · obtain ⟨rest, follows⟩ := prefix_drop_pair.mpr ⟨slash, next⟩
      rw [← follows] at closed
      cases closed

theorem lexemeAt_bounded : Opener.Bounded lexemeAt := by
  intro before text kind length opens
  have found := (@lexemeAt_spec text 0 _ _ _ opens).2.1
  omega

end Marginalia
