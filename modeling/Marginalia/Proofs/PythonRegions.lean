import Marginalia.Proofs.StringsAndComments

namespace Marginalia

/-- The letters of which one may stand in front of a string. -/
def stringLetters : List Char :=
  "fFrRbBuU".toList

/-- A string in three quotes, up to the next three of them or to the end of the text. -/
def tripleQuoted (quote : Char) : RegionKind where
  style := "string"
  Extends content start stop :=
    ∃ place, BehindLetter stringLetters content start place ∧ [quote, quote, quote] <+: content.drop place ∧
      StopsBehindFirst (fun later => [quote, quote, quote] <+: content.drop later) (place + 3) 3 content.length stop

/-- A comment behind a number sign, up to the next newline or to the end of the text. -/
def hashComment : RegionKind where
  style := "comment"
  Extends content start stop :=
    content[start]? = some '#' ∧
      StopsBehindFirst (fun later => content[later]? = some '\n') (start + 1) 0 content.length stop

/-- A string in single quotes, up to the first quote that is not escaped, if no newline comes before it. -/
def quotedInLine (quote : Char) : RegionKind where
  style := "string"
  Extends content start stop :=
    ∃ place, BehindLetter stringLetters content start place ∧ content[place]? = some quote ∧
      ∃ close, Closes content quote place close ∧ (∀ later < close, place < later → content[later]? ≠ some '\n') ∧
        stop = close + 1

/-- The strings and comments of Python. Of several that start at a place the first one counts. -/
def pythonKinds : List RegionKind :=
  [tripleQuoted '"', tripleQuoted '\'', hashComment, quotedInLine '"', quotedInLine '\'']

section finds

variable {quote : Char} {mark : String}

theorem opensBehind_delimited (three : mark.toList = [quote, quote, quote]) (unlettered : quote ∉ stringLetters) :
    OpensBehind "fFrRbBuU" (delimitedLength? mark mark) := by
  have size : mark.length = 3 := by
    rw [← String.length_toList, three]
    rfl
  refine ⟨fun found => ?_, by simp [delimitedLength?, dropMark?, three], fun letter known rest => ?_⟩
  · obtain ⟨rest, _, rfl⟩ := Option.map_eq_some_iff.mp found
    omega
  · have different : quote ≠ letter := fun same => unlettered (same ▸ known)
    simp [delimitedLength?, dropMark?, three, different]

theorem opensBehind_quote (unlettered : quote ∉ stringLetters) : OpensBehind "fFrRbBuU" (quoteLength? quote false) := by
  refine ⟨fun {text length} found => ?_, rfl, fun letter known rest => ?_⟩
  · cases text with
    | nil => cases found
    | cons char rest =>
      obtain ⟨_, closes⟩ := Option.ite_none_right_eq_some.mp found
      obtain ⟨inner, _, rfl⟩ := Option.map_eq_some_iff.mp closes
      exact Nat.succ_pos inner
  · have different : letter ≠ quote := fun same => unlettered (same ▸ known)
    simp [quoteLength?, different]

theorem finds_tripleQuoted (three : mark.toList = [quote, quote, quote]) (unlettered : quote ∉ stringLetters) :
    RegionRule.Finds { pattern := .lettered "fFrRbBuU" (.delimited mark mark), style := "string" } (tripleQuoted quote) := by
  have nonempty : mark ≠ "" := by
    rintro rfl
    cases three
  have size : mark.length = 3 := by
    rw [← String.length_toList, three]
    rfl
  refine RegionRule.finds_of_lettered rfl rfl (Pattern.goesAs_delimited mark mark) (opensBehind_delimited three unlettered) ?_
  intro content start stop
  simp only [tripleQuoted, delimitedLength?_iff nonempty nonempty, three, size]
  constructor
  · rintro ⟨place, behind, opens, stops⟩
    have within := add_length_le_of_follows (three ▸ opens) nonempty
    have beyond := stops.start_le (size ▸ within)
    obtain ⟨inner, rfl⟩ := Nat.exists_eq_add_of_le (Nat.le_of_add_right_le beyond)
    exact ⟨place, inner, behind, ⟨opens, stops⟩, rfl⟩
  · rintro ⟨place, inner, behind, ⟨opens, stops⟩, rfl⟩
    exact ⟨place, behind, opens, stops⟩

theorem finds_hashComment : RegionRule.Finds { pattern := .restOfLine "#", style := "comment" } hashComment := by
  refine RegionRule.finds_of_goesAs rfl (Pattern.goesAs_restOfLine "#") (fun found => ?_) ?_
  · obtain ⟨rest, _, rfl⟩ := Option.map_eq_some_iff.mp found
    exact Nat.succ_pos _
  · intro content start stop
    simp only [hashComment, restOfLineLength?_iff (show "#" ≠ "" by simp), ← prefix_drop_singleton]
    constructor
    · rintro ⟨opens, stops⟩
      have marked : "#".toList <+: content.drop start := opens
      have within := add_length_le_of_follows marked (by simp)
      obtain ⟨inner, rfl⟩ := Nat.exists_eq_add_of_le (Nat.le_of_succ_le (stops.start_le within))
      exact ⟨inner, ⟨opens, stops⟩, rfl⟩
    · rintro ⟨inner, ⟨opens, stops⟩, rfl⟩
      exact ⟨opens, stops⟩

theorem finds_quotedInLine (unescaping : '\\' ≠ quote) (unlettered : quote ∉ stringLetters) :
    RegionRule.Finds { pattern := .lettered "fFrRbBuU" (.quoted quote false), style := "string" } (quotedInLine quote) := by
  refine RegionRule.finds_of_lettered rfl rfl (Pattern.goesAs_quoted unescaping) (opensBehind_quote unlettered) ?_
  intro content start stop
  simp only [quotedInLine, quoteLength?_iff, NewlinesFit]
  constructor
  · rintro ⟨place, behind, opens, close, closes, line, rfl⟩
    obtain ⟨inner, total⟩ := Nat.exists_eq_add_of_le (Nat.le_succ_of_le (Nat.le_of_lt closes.behind))
    refine ⟨place, inner, behind, ⟨opens, close, closes, fun later before after newline => ?_, total.symm⟩, total⟩
    exact absurd newline (line later before after)
  · rintro ⟨place, inner, behind, ⟨opens, close, closes, fit, total⟩, rfl⟩
    refine ⟨place, behind, opens, close, closes, fun later before after newline => ?_, total⟩
    exact Bool.false_ne_true (fit later before after newline).1

end finds

/-- The strings and comments of a Python text are what reading it from left to right finds. -/
theorem tokenize_python (content : Content) (spans : List Span) :
    ReadsRegions pythonKinds content 0 spans ↔ spans = stringsAndComments (tokenize content "python") := by
  have named : Language.ofFiletype? "python" = some python := rfl
  have finds : List.Forall₂ RegionRule.Finds python.regions pythonKinds :=
    .cons (finds_tripleQuoted rfl (by decide)) (.cons (finds_tripleQuoted rfl (by decide)) (.cons finds_hashComment
      (.cons (finds_quotedInLine (by decide) (by decide))
        (.cons (finds_quotedInLine (by decide) (by decide)) .nil))))
  rw [stringsAndComments_tokenize named, Language.readsRegions_iff finds]

end Marginalia
