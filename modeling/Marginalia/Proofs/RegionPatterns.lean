import Marginalia.Proofs.PatternExtents
import Marginalia.Token.Region

namespace Marginalia

/-- Wherever a pattern is met, it goes as far as a reader says, and fails where the reader does. -/
def Pattern.GoesAs (pattern : Pattern) (reader : List Char → Option Nat) : Prop :=
  ∀ cursor, pattern.run cursor (fun last => some last.offset) = (reader cursor.rest).map (cursor.offset + ·)

theorem Pattern.GoesAs.length?_eq {pattern : Pattern} {reader : List Char → Option Nat} (goes : pattern.GoesAs reader)
    (before : Option Char) (text : List Char) : pattern.length? before text = reader text := by
  rw [Pattern.length?, goes]
  simp

section marks

/-- What follows a mark, if the text starts with it. -/
def dropMark? (mark : String) (text : List Char) : Option (List Char) :=
  if mark.toList.isPrefixOf text then some (text.drop mark.length) else none

/-- Past a closing mark behind an opening one, or to the end of the text. -/
def delimitedLength? (opening closing : String) (text : List Char) : Option Nat :=
  (dropMark? opening text).map fun rest => lengthThrough closing.toList rest + opening.length

/-- To the end of the line behind a mark. -/
def restOfLineLength? (mark : String) (text : List Char) : Option Nat :=
  (dropMark? mark text).map fun rest => lineLength rest + mark.length

variable {α : Type}

theorem Pattern.run_literal (word : String) (cursor : Cursor) (next : Cursor → Option α) :
    (Pattern.literal word).run cursor next =
      if word.toList.isPrefixOf cursor.rest then next (cursor.behind word.toList) else none := by
  unfold Pattern.literal
  induction word.toList generalizing cursor with
  | nil => simp [Pattern.run, Cursor.behind_nil]
  | cons char chars ih =>
    rw [List.foldr_cons, Pattern.run, Pattern.char, Pattern.run]
    cases follows : cursor.rest with
    | nil => rfl
    | cons first rest =>
      have moved : (cursor.behind [char]).rest = rest := by simp [Cursor.behind, follows]
      by_cases same : first = char
      · subst same
        dsimp only
        rw [if_pos (beq_self_eq_true first), ih, Cursor.after_eq_behind follows, moved, ← Cursor.behind_cons]
        simp [List.isPrefixOf]
      · simp [List.isPrefixOf, same, Ne.symm same]

/-- A literal is gone past by dropping it. -/
theorem Pattern.GoesAs.literal {word : String} {pattern : Pattern} {length : List Char → Nat}
    (goes : pattern.GoesAs fun text => some (length text)) :
    (Pattern.both (.literal word) pattern).GoesAs fun text =>
      (dropMark? word text).map fun rest => length rest + word.length := by
  intro cursor
  rw [Pattern.run, Pattern.run_literal]
  simp only [dropMark?]
  split
  · rw [goes]
    simp only [Cursor.behind, Option.map_some, String.length_toList]
    congr 1
    omega
  · rfl

theorem Pattern.goesAs_few (closing : String) :
    (Pattern.both (.few fun _ => true) (.either (.literal closing) .textEnd)).GoesAs fun text =>
      some (lengthThrough closing.toList text) := by
  rintro ⟨offset, before, text⟩
  simp only [Pattern.run, Pattern.run_literal]
  induction text generalizing offset before with
  | nil => cases closing.toList <;> rfl
  | cons char rest ih =>
    by_cases closes : closing.toList.isPrefixOf (char :: rest)
    · simp [shortestRun, lengthThrough, closes, Cursor.behind]
    · simp only [shortestRun, if_neg closes, List.isEmpty_cons, Bool.false_eq_true, if_false, if_true]
      rw [ih]
      simp only [Option.map_some, lengthThrough, if_neg closes]
      congr 1
      omega

theorem Pattern.goesAs_many : (Pattern.many (· != '\n')).GoesAs fun text => some (lineLength text) := by
  rintro ⟨offset, before, text⟩
  simp only [Pattern.run]
  induction text generalizing offset before with
  | nil => rfl
  | cons char rest ih =>
    by_cases newline : char = '\n'
    · simp [longestRun, lineLength, newline]
    · simp [longestRun, lineLength, newline, ih]
      omega

theorem Pattern.goesAs_delimited (opening closing : String) :
    (Pattern.delimited opening closing).GoesAs (delimitedLength? opening closing) :=
  (Pattern.goesAs_few closing).literal

theorem Pattern.goesAs_restOfLine (mark : String) : (Pattern.restOfLine mark).GoesAs (restOfLineLength? mark) :=
  Pattern.goesAs_many.literal

end marks

section quotes

/-- How far a quoted text goes behind its opening quote, up to and including the closing one. A backslash takes the
character after it along, which is no newline; without `lines` no newline stands between the quotes. -/
def quotedLength? (quote : Char) (lines : Bool) : List Char → Option Nat
  | [] => none
  | char :: rest =>
    if char = quote then some 1
    else if char = '\\' then
      match rest with
      | [] => none
      | escaped :: rest =>
        if escaped = '\n' then none else (quotedLength? quote lines rest).map (· + 2)
    else if char = '\n' ∧ lines = false then none
    else (quotedLength? quote lines rest).map (· + 1)

/-- How far a quoted text goes that a text starts with. -/
def quoteLength? (quote : Char) (lines : Bool) : List Char → Option Nat
  | [] => none
  | char :: rest => if char = quote then (quotedLength? quote lines rest).map (· + 1) else none

variable {α : Type} {quote : Char} {lines : Bool} {accepts : Char → Bool} {offset : Nat} {before : Option Char}
  {text : List Char}

theorem longestRun_congr {next next' : Cursor → Option α}
    (agree : ∀ later : Cursor, later.rest.length ≤ text.length → next later = next' later) :
    longestRun accepts next offset before text = longestRun accepts next' offset before text := by
  induction text generalizing offset before with
  | nil => exact agree ⟨offset, before, []⟩ (Nat.le_refl _)
  | cons char rest ih =>
    rw [longestRun, longestRun, ih fun later shorter => agree later (Nat.le_succ_of_le shorter),
      agree ⟨offset, before, char :: rest⟩ (Nat.le_refl _)]

theorem Pattern.run_escape (escaped : Char) (next : Cursor → Option α) :
    (Pattern.escape accepts).run ⟨offset, before, '\\' :: escaped :: text⟩ next =
      if escaped = '\n' then none else longestRun accepts next (offset + 2) (some escaped) text := by
  by_cases newline : escaped = '\n'
  · simp [escape, Pattern.run, Pattern.all, Pattern.char, Cursor.after, newline]
  · simp [escape, Pattern.run, Pattern.all, Pattern.char, Cursor.after, newline]

theorem Pattern.run_escape_other {char : Char} (plain : char ≠ '\\') (next : Cursor → Option α) :
    (Pattern.escape accepts).run ⟨offset, before, char :: text⟩ next = none := by
  simp [escape, Pattern.run, Pattern.all, Pattern.char, plain]

/-- What is left of a quoted text behind a run of what stands for itself. -/
def Pattern.quoteRow (quote : Char) (lines : Bool) : Pattern :=
  .both (.star (.escape (standsForItself quote lines))) (.char quote)

theorem Pattern.run_quoteTail (cursor : Cursor) (next : Cursor → Option α) :
    (Pattern.quoteTail quote lines).run cursor next =
      longestRun (standsForItself quote lines) (fun middle => (Pattern.quoteRow quote lines).run middle next)
        cursor.offset cursor.before cursor.rest := rfl

theorem Pattern.run_quoteRow (cursor : Cursor) (next : Cursor → Option α) :
    (Pattern.quoteRow quote lines).run cursor next =
      match (Pattern.escape (standsForItself quote lines)).run cursor fun last =>
        if last.rest.length < cursor.rest.length then (Pattern.quoteRow quote lines).run last next else none with
      | some found => some found
      | none => (Pattern.char quote).run cursor next := by
  rw [quoteRow, Pattern.run, Pattern.run, longestRow]
  rfl

/-- Behind a backslash the tail of a quoted text goes on after the next character, unless that is a newline. -/
theorem Pattern.run_quoteRow_backslash (unquoted : '\\' ≠ quote) (escaped : Char) (next : Cursor → Option α) :
    (Pattern.quoteRow quote lines).run ⟨offset, before, '\\' :: escaped :: text⟩ next =
      if escaped = '\n' then none else (Pattern.quoteTail quote lines).run ⟨offset + 2, some escaped, text⟩ next := by
  have unclosed : (Pattern.char quote).run ⟨offset, before, '\\' :: escaped :: text⟩ next = none := by
    simp [Pattern.char, Pattern.run, unquoted]
  rw [run_quoteRow, run_escape, unclosed]
  by_cases newline : escaped = '\n'
  · rw [if_pos newline, if_pos newline]
  · -- two characters are read, so the row may go on wherever the run behind them stops
    have goesOn : longestRun (standsForItself quote lines) (fun last =>
          if last.rest.length < ('\\' :: escaped :: text).length then (quoteRow quote lines).run last next else none)
        (offset + 2) (some escaped) text =
          (quoteTail quote lines).run ⟨offset + 2, some escaped, text⟩ next :=
      longestRun_congr fun later within => if_pos (Nat.lt_succ_of_lt (Nat.lt_succ_of_le within))
    rw [if_neg newline, if_neg newline, goesOn]
    cases (quoteTail quote lines).run ⟨offset + 2, some escaped, text⟩ next <;> rfl

theorem Pattern.run_quoteRow_nil (next : Cursor → Option α) :
    (Pattern.quoteRow quote lines).run ⟨offset, before, []⟩ next = none := by
  rw [run_quoteRow]
  simp [escape, Pattern.run, Pattern.all, Pattern.char]

theorem Pattern.run_quoteRow_singleton (unquoted : '\\' ≠ quote) (next : Cursor → Option α) :
    (Pattern.quoteRow quote lines).run ⟨offset, before, ['\\']⟩ next = none := by
  rw [run_quoteRow]
  simp [escape, Pattern.run, Pattern.all, Pattern.char, Cursor.after, unquoted]

theorem Pattern.run_quoteRow_other {char : Char} (plain : char ≠ '\\') (next : Cursor → Option α) :
    (Pattern.quoteRow quote lines).run ⟨offset, before, char :: text⟩ next =
      if char = quote then next ⟨offset + 1, some char, text⟩ else none := by
  rw [run_quoteRow, run_escape_other plain]
  simp [Pattern.run, Pattern.char, Cursor.after]

/-- What stands for itself is passed, since nothing else goes on in front of it. -/
theorem Pattern.run_quoteTail_pass {char : Char} (stands : standsForItself quote lines char = true)
    (next : Cursor → Option α) : (Pattern.quoteTail quote lines).run ⟨offset, before, char :: text⟩ next =
      (Pattern.quoteTail quote lines).run ⟨offset + 1, some char, text⟩ next := by
  have parts := stands
  simp only [standsForItself, Bool.and_eq_true, bne_iff_ne, ne_eq] at parts
  obtain ⟨⟨unquoted, plain⟩, _⟩ := parts
  have stuck : (quoteRow quote lines).run ⟨offset, before, char :: text⟩ next = none := by
    rw [run_quoteRow_other plain, if_neg unquoted]
  rw [run_quoteTail, run_quoteTail]
  dsimp only
  rw [longestRun, if_pos stands, stuck]
  cases longestRun (standsForItself quote lines) (fun middle => (quoteRow quote lines).run middle next) (offset + 1)
    (some char) text <;> rfl

/-- A run stops in front of anything else. -/
theorem Pattern.run_quoteTail_stop {char : Char} (stops : standsForItself quote lines char = false)
    (next : Cursor → Option α) : (Pattern.quoteTail quote lines).run ⟨offset, before, char :: text⟩ next =
      (Pattern.quoteRow quote lines).run ⟨offset, before, char :: text⟩ next := by
  rw [run_quoteTail]
  dsimp only
  rw [longestRun, if_neg (Bool.eq_false_iff.mp stops)]

theorem standsForItself_quote : standsForItself quote lines quote = false := by
  simp [standsForItself]

theorem standsForItself_backslash : standsForItself quote lines '\\' = false := by
  simp [standsForItself]

/-- Read character by character, the tail of a quoted text goes to its closing quote. -/
theorem Pattern.goesAs_quoteTail (unquoted : '\\' ≠ quote) :
    (Pattern.quoteTail quote lines).GoesAs (quotedLength? quote lines) := by
  rintro ⟨offset, before, text⟩
  show _ = (quotedLength? quote lines text).map (offset + ·)
  fun_induction quotedLength? quote lines text generalizing offset before with
  | case1 => exact run_quoteRow_nil _
  | case2 rest =>
    rw [run_quoteTail_stop standsForItself_quote, run_quoteRow_other (Ne.symm unquoted), if_pos rfl]
    rfl
  | case3 => rw [run_quoteTail_stop standsForItself_backslash, run_quoteRow_singleton unquoted, Option.map_none]
  | case4 rest =>
    rw [run_quoteTail_stop standsForItself_backslash, run_quoteRow_backslash unquoted, if_pos rfl, Option.map_none]
  | case5 escaped rest newline _ ih =>
    rw [run_quoteTail_stop standsForItself_backslash, run_quoteRow_backslash unquoted, if_neg newline, ih]
    cases quotedLength? quote lines rest <;> simp [Nat.add_assoc, Nat.add_comm 2]
  | case6 char rest unclosed plain newline =>
    have stops : standsForItself quote lines char = false := by simp [standsForItself, newline]
    rw [run_quoteTail_stop stops, run_quoteRow_other plain, if_neg unclosed, Option.map_none]
  | case7 char rest unclosed plain fits ih =>
    have stands : standsForItself quote lines char = true := by
      simp only [standsForItself, Bool.and_eq_true, bne_iff_ne, ne_eq, Bool.or_eq_true]
      refine ⟨⟨unclosed, plain⟩, ?_⟩
      grind
    rw [run_quoteTail_pass stands, ih]
    cases quotedLength? quote lines rest <;> simp [Nat.add_assoc, Nat.add_comm 1]

theorem Pattern.goesAs_quoted (unquoted : '\\' ≠ quote) : (Pattern.quoted quote lines).GoesAs (quoteLength? quote lines) := by
  rintro ⟨offset, before, text⟩
  rw [quoted, Pattern.run, Pattern.char, Pattern.run]
  cases text with
  | nil => rfl
  | cons char rest =>
    dsimp only [quoteLength?]
    by_cases quotes : char = quote
    · rw [if_pos (by simpa using quotes), if_pos quotes, goesAs_quoteTail unquoted]
      dsimp only [Cursor.after]
      cases quotedLength? quote lines rest <;> simp [Nat.add_assoc, Nat.add_comm 1]
    · rw [if_neg (by simpa using quotes), if_neg quotes, Option.map_none]

end quotes

/-- With at most one of some letters in front, with the letter first. -/
def letteredLength? (letters : String) (reader : List Char → Option Nat) : List Char → Option Nat
  | [] => reader []
  | char :: rest =>
    if isOneOf letters char then ((reader rest).map (· + 1)).or (reader (char :: rest)) else reader (char :: rest)

theorem Pattern.GoesAs.lettered {pattern : Pattern} {reader : List Char → Option Nat} (goes : pattern.GoesAs reader)
    (letters : String) : (pattern.lettered letters).GoesAs (letteredLength? letters reader) := by
  rintro ⟨offset, before, text⟩
  have plain := goes ⟨offset, before, text⟩
  rw [Pattern.lettered, Pattern.run, Pattern.optional, Pattern.run, Pattern.run, Pattern.run, plain]
  cases text with
  | nil => rfl
  | cons char rest =>
    dsimp only [letteredLength?]
    by_cases lettered : isOneOf letters char = true
    · rw [if_pos lettered, if_pos lettered, goes]
      dsimp only [Cursor.after]
      cases reader rest <;> simp [Nat.add_assoc, Nat.add_comm 1]
    · rw [if_neg lettered, if_neg lettered]

end Marginalia
