import Marginalia.Proofs.FirstPlace
import Marginalia.Proofs.RegionPatterns
import Mathlib.Algebra.Ring.Parity

namespace Marginalia

/-- How many backslashes stand directly before a place and behind `start`. -/
def backslashesBefore (content : Content) (start : Nat) : Nat → Nat
  | 0 => 0
  | place + 1 => if start < place ∧ content[place]? = some '\\' then backslashesBefore content start place + 1 else 0

/-- Behind `start`, a backslash takes the character after it along. So in a run of backslashes every other one is
taken along itself, and a character is escaped when their number is odd. -/
def Escaped (content : Content) (start place : Nat) : Prop :=
  Odd (backslashesBefore content start place)

instance decidableEscaped (content : Content) (start place : Nat) : Decidable (Escaped content start place) :=
  inferInstanceAs (Decidable (Odd _))

/-- The quote that closes what another one opened at `start`: the first one behind it that is not escaped. -/
structure Closes (content : Content) (quote : Char) (start close : Nat) : Prop where
  behind : start < close
  quoted : content[close]? = some quote
  unescaped : ¬Escaped content start close
  first : ∀ place < close, start < place → content[place]? = some quote → Escaped content start place

/-- Newlines behind `start` stand only where a quoted text may have them: on several lines, and not escaped. -/
def NewlinesFit (lines : Bool) (content : Content) (start stop : Nat) : Prop :=
  ∀ place < stop, start < place → content[place]? = some '\n' → lines = true ∧ ¬Escaped content start place

variable {content text : Content} {quote : Char} {lines : Bool} {start place : Nat}

theorem escaped_succ_iff : Escaped content start (place + 1) ↔
    start < place ∧ content[place]? = some '\\' ∧ ¬Escaped content start place := by
  unfold Escaped
  rw [backslashesBefore.eq_def, ← and_assoc]
  dsimp only
  split
  · rename_i backslash
    rw [Nat.odd_add_one, and_iff_right backslash]
  · rename_i other
    simp [other]

/-- Reading stands at a place behind an opening quote: no quote before it closes the text, every newline before it
fits, and it is not escaped. -/
structure Passed (lines : Bool) (content : Content) (quote : Char) (start offset : Nat) : Prop where
  behind : start < offset
  unescaped : ¬Escaped content start offset
  quotes : ∀ place < offset, start < place → content[place]? = some quote → Escaped content start place
  newlines : NewlinesFit lines content start offset

section passed

variable {offset close other : Nat} {char : Char}

theorem Passed.first (lines : Bool) (content : Content) (quote : Char) (start : Nat) :
    Passed lines content quote start (start + 1) := by
  refine ⟨Nat.lt_succ_self start, fun escaped => Nat.lt_irrefl start (escaped_succ_iff.mp escaped).1, ?_, ?_⟩
  · intro place before behind
    omega
  · intro place before behind
    omega

/-- A character that is neither a closing quote nor a backslash is passed alone. -/
theorem Passed.pass (passed : Passed lines content quote start offset) (here : content[offset]? = some char)
    (unquoted : char ≠ quote) (plain : char ≠ '\\') (fits : char = '\n' → lines = true) :
    Passed lines content quote start (offset + 1) := by
  refine ⟨Nat.lt_succ_of_lt passed.behind, ?_, ?_, ?_⟩
  · rw [escaped_succ_iff]
    simp [here, plain]
  · exact Nat.forall_lt_succ_right.mpr ⟨passed.quotes, by simp [here, unquoted]⟩
  · refine Nat.forall_lt_succ_right.mpr ⟨passed.newlines, fun _ newline => ⟨fits ?_, passed.unescaped⟩⟩
    exact Option.some.inj (here.symm.trans newline)

/-- A backslash is passed with the character that it takes along. -/
theorem Passed.passTwo (passed : Passed lines content quote start offset) (here : content[offset]? = some '\\')
    (unquoted : '\\' ≠ quote) (next : content[offset + 1]? = some char) (plain : char ≠ '\n') :
    Passed lines content quote start (offset + 2) := by
  have escaped : Escaped content start (offset + 1) := escaped_succ_iff.mpr ⟨passed.behind, here, passed.unescaped⟩
  refine ⟨Nat.lt_add_right 2 passed.behind, fun escapedNext => (escaped_succ_iff.mp escapedNext).2.2 escaped, ?_, ?_⟩
  · exact Nat.forall_lt_succ_right.mpr
      ⟨Nat.forall_lt_succ_right.mpr ⟨passed.quotes, by simp [here, unquoted]⟩, fun _ _ => escaped⟩
  · exact Nat.forall_lt_succ_right.mpr
      ⟨Nat.forall_lt_succ_right.mpr ⟨passed.newlines, by simp [here]⟩, by simp [next, plain]⟩

theorem Passed.closes (passed : Passed lines content quote start offset) (here : content[offset]? = some quote) :
    Closes content quote start offset :=
  ⟨passed.behind, here, passed.unescaped, passed.quotes⟩

theorem Closes.le (closes : Closes content quote start close)
    (escaped : ∀ place < offset, start < place → content[place]? = some quote → Escaped content start place) :
    offset ≤ close := by
  by_contra before
  exact closes.unescaped (escaped close (Nat.lt_of_not_le before) closes.behind closes.quoted)

theorem Closes.unique (closes : Closes content quote start close) (closes' : Closes content quote start other) :
    close = other :=
  Nat.le_antisymm (closes'.le closes.first) (closes.le closes'.first)

theorem Passed.lt_of_closes (passed : Passed lines content quote start offset)
    (closes : Closes content quote start close) (unquoted : content[offset]? ≠ some quote) : offset < close := by
  refine Nat.lt_of_le_of_ne (closes.le passed.quotes) ?_
  rintro rfl
  exact unquoted closes.quoted

end passed

/-- From a place on, a quoted text goes `length` characters to its end. -/
def EndsAfter (lines : Bool) (content : Content) (quote : Char) (start offset length : Nat) : Prop :=
  ∃ close, Closes content quote start close ∧ NewlinesFit lines content start close ∧ offset + length = close + 1

section quotedLength

variable {char : Char} {rest : List Char} {offset length : Nat}

theorem Passed.endsAfter_iff_of_quote (passed : Passed lines content quote start offset)
    (here : content[offset]? = some quote) : EndsAfter lines content quote start offset length ↔ length = 1 := by
  constructor
  · rintro ⟨close, closes, _, total⟩
    have same := closes.unique (passed.closes here)
    omega
  · rintro rfl
    exact ⟨offset, passed.closes here, passed.newlines, rfl⟩

/-- The end lies beyond everything that is passed. -/
theorem Passed.endsAfter_iff_of_passed {more : Nat} (passed : Passed lines content quote start (offset + more)) :
    EndsAfter lines content quote start offset length ↔
      ∃ count, EndsAfter lines content quote start (offset + more) count ∧ count + more = length := by
  constructor
  · rintro ⟨close, closes, fit, total⟩
    have beyond := closes.le passed.quotes
    exact ⟨length - more, ⟨close, closes, fit, by omega⟩, by omega⟩
  · rintro ⟨count, ⟨close, closes, fit, total⟩, rfl⟩
    exact ⟨close, closes, fit, by omega⟩

theorem Passed.not_endsAfter_of_length_le (passed : Passed lines content quote start offset)
    (past : content.length ≤ offset) : ¬EndsAfter lines content quote start offset length := by
  rintro ⟨close, closes, _⟩
  have within := (List.getElem?_eq_some_iff.mp closes.quoted).1
  have after := closes.le passed.quotes
  omega

theorem Passed.not_endsAfter_of_newline (passed : Passed false content quote start offset)
    (here : content[offset]? = some '\n') (unquoted : '\n' ≠ quote) :
    ¬EndsAfter false content quote start offset length := by
  rintro ⟨close, closes, fit, _⟩
  have after := passed.lt_of_closes closes (by simpa [here] using unquoted)
  exact absurd (fit offset after passed.behind here).1 Bool.false_ne_true

/-- What follows a backslash does not end the text, and is no newline if the text ends at all. -/
theorem Passed.backslash_spec (passed : Passed lines content quote start offset)
    (here : content[offset]? = some '\\') (unquoted : '\\' ≠ quote)
    (ends : EndsAfter lines content quote start offset length) :
    offset + 1 < content.length ∧ content[offset + 1]? ≠ some '\n' := by
  obtain ⟨close, closes, fit, _⟩ := ends
  have escaped : Escaped content start (offset + 1) := escaped_succ_iff.mpr ⟨passed.behind, here, passed.unescaped⟩
  have after := passed.lt_of_closes closes (by simpa [here] using unquoted)
  have beyond : offset + 1 < close := by
    refine Nat.lt_of_le_of_ne after ?_
    rintro rfl
    exact closes.unescaped escaped
  have within := (List.getElem?_eq_some_iff.mp closes.quoted).1
  refine ⟨Nat.lt_trans beyond within, fun newline => ?_⟩
  exact (fit (offset + 1) beyond (Nat.lt_succ_of_lt passed.behind) newline).2 escaped

theorem quotedLength?_quote : quotedLength? quote lines (quote :: rest) = some 1 := by
  rw [quotedLength?.eq_def]
  exact if_pos rfl

theorem quotedLength?_backslash (unquoted : '\\' ≠ quote) : quotedLength? quote lines ('\\' :: char :: rest) =
    if char = '\n' then none else (quotedLength? quote lines rest).map (· + 2) := by
  rw [quotedLength?, if_neg unquoted, if_pos rfl]

theorem quotedLength?_other (unquoted : char ≠ quote) (plain : char ≠ '\\') :
    quotedLength? quote lines (char :: rest) =
      if char = '\n' ∧ lines = false then none else (quotedLength? quote lines rest).map (· + 1) := by
  rw [quotedLength?.eq_def]
  exact (if_neg unquoted).trans (if_neg plain)

theorem Passed.quotedLength?_iff (passed : Passed lines content quote start offset)
    (follows : content.drop offset = text) :
    quotedLength? quote lines text = some length ↔ EndsAfter lines content quote start offset length := by
  -- On the length of the text: a backslash is passed together with the character that follows.
  induction size : text.length using Nat.strong_induction_on generalizing text offset length with
  | h size ih =>
    subst size
    have readOn {more : Nat} {rest : List Char} (passedMore : Passed lines content quote start (offset + more))
        (behind : content.drop (offset + more) = rest) (shorter : rest.length < text.length) :
        (quotedLength? quote lines rest).map (· + more) = some length ↔
          EndsAfter lines content quote start offset length := by
      rw [passedMore.endsAfter_iff_of_passed, Option.map_eq_some_iff]
      simp only [ih rest.length shorter passedMore behind rfl]
    cases text with
    | nil =>
      have past := List.drop_eq_nil_iff.mp follows
      exact iff_of_false (by simp [quotedLength?]) (passed.not_endsAfter_of_length_le past)
    | cons char rest =>
      obtain ⟨here, later, _⟩ := of_drop_eq_cons follows
      by_cases ends : char = quote
      · subst ends
        rw [quotedLength?_quote, passed.endsAfter_iff_of_quote here, Option.some.injEq, eq_comm]
      · by_cases backslash : char = '\\'
        · subst backslash
          cases rest with
          | nil =>
            have past := List.drop_eq_nil_iff.mp later
            refine iff_of_false (by simp [quotedLength?, ends]) fun found => ?_
            exact absurd (passed.backslash_spec here ends found).1 (Nat.not_lt.mpr past)
          | cons next rest =>
            obtain ⟨atNext, behindNext, _⟩ := of_drop_eq_cons later
            rw [quotedLength?_backslash ends]
            by_cases newline : next = '\n'
            · subst newline
              exact iff_of_false (by simp) fun found => (passed.backslash_spec here ends found).2 atNext
            · rw [if_neg newline]
              exact readOn (passed.passTwo here ends atNext newline) behindNext (by simp only [List.length_cons]; omega)
        · rw [quotedLength?_other ends backslash]
          by_cases newline : char = '\n' ∧ lines = false
          · obtain ⟨rfl, rfl⟩ := newline
            exact iff_of_false (by simp) (passed.not_endsAfter_of_newline here ends)
          · rw [if_neg newline]
            exact readOn (passed.pass here ends backslash (by simpa using newline)) later (by simp)

/-- A quoted text goes up to the quote that closes it, if the newlines before that quote fit. -/
theorem quotedLength?_eq_some_iff : quotedLength? quote lines (content.drop (start + 1)) = some length ↔
    Closes content quote start (start + length) ∧ NewlinesFit lines content start (start + length) := by
  rw [(Passed.first lines content quote start).quotedLength?_iff rfl]
  constructor
  · rintro ⟨close, closes, fit, total⟩
    obtain rfl : start + length = close := by omega
    exact ⟨closes, fit⟩
  · rintro ⟨closes, fit⟩
    exact ⟨start + length, closes, fit, by omega⟩

end quotedLength

end Marginalia
