import Marginalia.Json.Basic
import Marginalia.Number.Shortest
import Marginalia.Text.Digit
import Marginalia.Text.Numeral

namespace Marginalia

inductive JsonToken
  | openArray
  | closeArray
  | openObject
  | closeObject
  | comma
  | colon
  | scalar (value : Json)
  /-- The rest of the text, where no other unit starts. -/
  | broken

/-- The value of four hexadecimal digits, and what follows them. -/
def fourHex? : List Char → Option (Nat × List Char)
  | a :: b :: c :: d :: rest => do
    let a ← hexValue? a
    let b ← hexValue? b
    let c ← hexValue? c
    let d ← hexValue? d
    some (((a * 16 + b) * 16 + c) * 16 + d, rest)
  | _ => none

theorem length_of_fourHex? {text rest : List Char} {value : Nat} (read : fourHex? text = some (value, rest)) :
    rest.length < text.length := by
  match text with
  | a :: b :: c :: d :: later =>
    simp only [fourHex?, bind, Option.bind_eq_some_iff, Option.some.injEq, Prod.mk.injEq] at read
    obtain ⟨_, _, _, _, _, _, _, _, _, rfl⟩ := read
    simp only [List.length_cons]
    omega
  | [] => simp [fourHex?] at read
  | [_] => simp [fourHex?] at read
  | [_, _] => simp [fourHex?] at read
  | [_, _, _] => simp [fourHex?] at read

/-- What an escaped unit stands for when no other one belongs to it. -/
def unitGlyph (unit : Nat) : Glyph :=
  if 0xD800 ≤ unit ∧ unit < 0xE000 then .half unit else .char (Char.ofNat unit)

/-- The character after a backslash that stands for one character. -/
def shortEscape? : Char → Option Char
  | '"' => some '"'
  | '\\' => some '\\'
  | '/' => some '/'
  | 'b' => some '\x08'
  | 'f' => some '\x0c'
  | 'n' => some '\n'
  | 'r' => some '\r'
  | 't' => some '\t'
  | _ => none

/-- One part of a quoted string, and what follows it. Control characters may not stand there. -/
def stringGlyph? : List Char → Option (Glyph × List Char)
  | [] => none
  | '\\' :: 'u' :: rest => do
    let (unit, rest) ← fourHex? rest
    match rest with
    | '\\' :: 'u' :: more =>
      match fourHex? more with
      | some (low, last) =>
        if 0xD800 ≤ unit ∧ unit < 0xDC00 ∧ 0xDC00 ≤ low ∧ low < 0xE000 then
          some (.char (Char.ofNat (0x10000 + (unit - 0xD800) * 0x400 + (low - 0xDC00))), last)
        else some (unitGlyph unit, '\\' :: 'u' :: more)
      | none => some (unitGlyph unit, '\\' :: 'u' :: more)
    | rest => some (unitGlyph unit, rest)
  | '\\' :: letter :: rest => (shortEscape? letter).map (.char ·, rest)
  | char :: rest => if char.toNat < 0x20 then none else some (.char char, rest)

theorem length_of_stringGlyph? {text rest : List Char} {glyph : Glyph} (read : stringGlyph? text = some (glyph, rest)) :
    rest.length < text.length := by
  unfold stringGlyph? at read
  split at read
  · simp at read
  · rename_i escaped
    simp only [bind, Option.bind_eq_some_iff] at read
    obtain ⟨⟨unit, after⟩, first, read⟩ := read
    have shorter := length_of_fourHex? first
    simp only at read
    split at read
    · rename_i more
      split at read
      · rename_i low last second
        have shorter' := length_of_fourHex? second
        simp only [List.length_cons] at shorter ⊢
        split at read
        · simp only [Option.some.injEq, Prod.mk.injEq] at read
          obtain ⟨_, rfl⟩ := read
          omega
        · simp only [Option.some.injEq, Prod.mk.injEq] at read
          obtain ⟨_, rfl⟩ := read
          simp only [List.length_cons]
          omega
      · simp only [Option.some.injEq, Prod.mk.injEq] at read
        obtain ⟨_, rfl⟩ := read
        simp only [List.length_cons] at shorter ⊢
        omega
    · simp only [Option.some.injEq, Prod.mk.injEq] at read
      obtain ⟨_, rfl⟩ := read
      simp only [List.length_cons]
      omega
  · rename_i letter later _
    simp only [Option.map_eq_some_iff, Prod.mk.injEq] at read
    obtain ⟨_, _, _, rfl⟩ := read
    simp only [List.length_cons]
    omega
  · split at read
    · simp at read
    · simp only [Option.some.injEq, Prod.mk.injEq] at read
      obtain ⟨_, rfl⟩ := read
      simp

/-- The parts of a string up to the closing quote, and what follows it. -/
def stringBody? (text : List Char) : Option (List Glyph × List Char) :=
  match text with
  | '"' :: rest => some ([], rest)
  | text =>
    match read : stringGlyph? text with
    | none => none
    | some (glyph, rest) =>
      have := length_of_stringGlyph? read
      (stringBody? rest).map fun (glyphs, after) => (glyph :: glyphs, after)
termination_by text.length

theorem length_of_stringBody? {text after : List Char} {glyphs : List Glyph}
    (read : stringBody? text = some (glyphs, after)) : after.length < text.length := by
  fun_induction stringBody? text generalizing glyphs with
  | case1 rest =>
    simp only [Option.some.injEq, Prod.mk.injEq] at read
    simp [read.2]
  | case2 => simp at read
  | case3 text _ glyph rest first shorter ih =>
    simp only [Option.map_eq_some_iff, Prod.mk.injEq] at read
    obtain ⟨⟨more, last⟩, second, _, rfl⟩ := read
    have := ih second
    omega

/-- ASCII decimal digits at the start of a text, and what follows them. -/
def spanDigits (text : List Char) : List Char × List Char :=
  (text.takeWhile Char.isDigit, text.dropWhile Char.isDigit)

theorem length_spanDigits (text : List Char) :
    (spanDigits text).1.length + (spanDigits text).2.length = text.length := by
  rw [spanDigits, ← List.length_append, List.takeWhile_append_dropWhile]

def digitsValue (digits : List Char) : Nat :=
  ofDigits (digits.map fun digit => digit.toNat - '0'.toNat)

/-- The fraction of a number, if digits follow the point. -/
def fraction? : List Char → Option (List Char × List Char)
  | '.' :: rest =>
    match spanDigits rest with
    | ([], _) => none
    | (digits, after) => some (digits, after)
  | _ => none

theorem length_of_fraction? {text digits after : List Char} (read : fraction? text = some (digits, after)) :
    after.length ≤ text.length := by
  unfold fraction? at read
  split at read
  · rename_i rest
    have whole := length_spanDigits rest
    split at read
    · simp at read
    · rename_i parts
      simp only [Option.some.injEq, Prod.mk.injEq] at read
      obtain ⟨_, rfl⟩ := read
      simp only [parts] at whole
      simp only [List.length_cons]
      omega
  · simp at read

/-- Whether a minus sign stands in front, and what follows the sign, if there is one. -/
def splitSign : List Char → Bool × List Char
  | '-' :: rest => (true, rest)
  | '+' :: rest => (false, rest)
  | rest => (false, rest)

theorem length_splitSign (text : List Char) : (splitSign text).2.length ≤ text.length := by
  unfold splitSign
  split <;> simp

/-- The exponent of a number, if digits follow the letter. -/
def exponent? : List Char → Option (Int × List Char)
  | letter :: rest =>
    if letter == 'e' || letter == 'E' then
      match spanDigits (splitSign rest).2 with
      | ([], _) => none
      | (digits, after) =>
        let value : Int := digitsValue digits
        some (if (splitSign rest).1 then -value else value, after)
    else none
  | [] => none

theorem length_of_exponent? {text after : List Char} {power : Int} (read : exponent? text = some (power, after)) :
    after.length ≤ text.length := by
  unfold exponent? at read
  split at read
  · rename_i letter rest
    have whole := length_spanDigits (splitSign rest).2
    have sign := length_splitSign rest
    split at read
    · split at read
      · simp at read
      · rename_i parts
        simp only [Option.some.injEq, Prod.mk.injEq] at read
        obtain ⟨_, rfl⟩ := read
        simp only [parts] at whole
        simp only [List.length_cons]
        omega
    · simp at read
  · simp at read

/-- The digits in front of the point: a zero stands alone. -/
def wholeDigits : List Char → List Char × List Char
  | '0' :: rest => (['0'], rest)
  | text => spanDigits text

theorem length_wholeDigits (text : List Char) :
    (wholeDigits text).1.length + (wholeDigits text).2.length = text.length := by
  unfold wholeDigits
  split
  · simp [Nat.add_comm]
  · exact length_spanDigits _

/-- An integer of the given digits, unless they are too many. -/
def integerOf? (negative : Bool) (digits : List Char) : Option Json :=
  let value : Int := digitsValue digits
  if numeralLimit < digits.length then none else some (.integer (if negative then -value else value))

/-- The number of the given digits, of which those in `places` follow the point. -/
def numberOf (negative : Bool) (digits places : List Char) (power : Int) : Json :=
  let size := nearestFloat (digitsValue (digits ++ places)) (power - places.length)
  .number (if negative then -size else size)

/-- A number without its sign. One without fraction and exponent is an integer. -/
def unsignedNumber? (negative : Bool) (text : List Char) : Option (Json × List Char) :=
  match wholeDigits text with
  | ([], _) => none
  | (digits, rest) =>
    match fraction? rest with
    | some (places, rest) =>
      match exponent? rest with
      | some (power, rest) => some (numberOf negative digits places power, rest)
      | none => some (numberOf negative digits places 0, rest)
    | none =>
      match exponent? rest with
      | some (power, rest) => some (numberOf negative digits [] power, rest)
      | none => (integerOf? negative digits).map (·, rest)

theorem length_of_unsignedNumber? {negative : Bool} {text after : List Char} {value : Json}
    (read : unsignedNumber? negative text = some (value, after)) : after.length < text.length := by
  have whole := length_wholeDigits text
  unfold unsignedNumber? at read
  split at read
  · simp at read
  · rename_i digits rest some_digit parts
    have : digits.length ≠ 0 := fun empty => some_digit (List.length_eq_zero_iff.mp empty)
    simp only [parts] at whole
    split at read <;> split at read
    · rename_i first _ _ _ second
      have := length_of_fraction? first
      have := length_of_exponent? second
      simp only [Option.some.injEq, Prod.mk.injEq] at read
      obtain ⟨_, rfl⟩ := read
      omega
    · rename_i first _ second
      have := length_of_fraction? first
      simp only [Option.some.injEq, Prod.mk.injEq] at read
      obtain ⟨_, rfl⟩ := read
      omega
    · rename_i _ _ _ _ second
      have := length_of_exponent? second
      simp only [Option.some.injEq, Prod.mk.injEq] at read
      obtain ⟨_, rfl⟩ := read
      omega
    · simp only [Option.map_eq_some_iff, Prod.mk.injEq] at read
      obtain ⟨_, _, _, rfl⟩ := read
      omega

def jsonWords : List (List Char × Json) :=
  [("null".toList, .null), ("true".toList, .bool true), ("false".toList, .bool false),
    ("NaN".toList, .number (0.0 / 0.0)), ("Infinity".toList, .number (1.0 / 0.0)),
    ("-Infinity".toList, .number (-1.0 / 0.0))]

/-- A word or number at the start of a text, and what follows it. -/
def plainScalar? (text : List Char) : Option (Json × List Char) :=
  match jsonWords.find? fun (word, _) => word.isPrefixOf text with
  | some (word, value) => some (value, text.drop word.length)
  | none =>
    match text with
    | '-' :: rest => unsignedNumber? true rest
    | text => unsignedNumber? false text

theorem length_of_plainScalar? {text after : List Char} {value : Json}
    (read : plainScalar? text = some (value, after)) : after.length < text.length := by
  unfold plainScalar? at read
  split at read
  · rename_i word _ found
    have listed := List.mem_of_find?_eq_some found
    have starts := List.find?_some found
    have long : 0 < word.length := by
      simp only [jsonWords, List.mem_cons, Prod.mk.injEq, List.not_mem_nil, or_false] at listed
      rcases listed with ⟨rfl, _⟩ | ⟨rfl, _⟩ | ⟨rfl, _⟩ | ⟨rfl, _⟩ | ⟨rfl, _⟩ | ⟨rfl, _⟩ <;> decide
    have := (List.isPrefixOf_iff_prefix.mp starts).length_le
    simp only [Option.some.injEq, Prod.mk.injEq] at read
    obtain ⟨_, rfl⟩ := read
    simp only [List.length_drop]
    omega
  · split at read
    · have := length_of_unsignedNumber? read
      simp only [List.length_cons]
      omega
    · exact length_of_unsignedNumber? read

/-- The first token of a text that does not start with a blank, and what follows it. -/
def jsonToken? : List Char → Option (JsonToken × List Char)
  | '[' :: rest => some (.openArray, rest)
  | ']' :: rest => some (.closeArray, rest)
  | '{' :: rest => some (.openObject, rest)
  | '}' :: rest => some (.closeObject, rest)
  | ',' :: rest => some (.comma, rest)
  | ':' :: rest => some (.colon, rest)
  | '"' :: rest => (stringBody? rest).map fun (glyphs, after) => (.scalar (.text ⟨glyphs⟩), after)
  | text => (plainScalar? text).map fun (value, after) => (.scalar value, after)

theorem length_of_jsonToken? {text after : List Char} {token : JsonToken}
    (read : jsonToken? text = some (token, after)) : after.length < text.length := by
  unfold jsonToken? at read
  split at read
  case h_7 rest =>
    simp only [Option.map_eq_some_iff, Prod.mk.injEq] at read
    obtain ⟨⟨_, _⟩, body, _, rfl⟩ := read
    have := length_of_stringBody? body
    simp only [List.length_cons]
    omega
  case h_8 =>
    simp only [Option.map_eq_some_iff, Prod.mk.injEq] at read
    obtain ⟨⟨_, _⟩, scalar, _, rfl⟩ := read
    exact length_of_plainScalar? scalar
  all_goals
    simp only [Option.some.injEq, Prod.mk.injEq] at read
    obtain ⟨_, rfl⟩ := read
    simp

def isJsonBlank (char : Char) : Bool :=
  char == ' ' || char == '\t' || char == '\n' || char == '\r'

/-- The tokens of a text. Every token takes at least one character. -/
def jsonTokens (text : List Char) : List JsonToken :=
  match text with
  | [] => []
  | char :: rest =>
    if isJsonBlank char then jsonTokens rest
    else
      match read : jsonToken? (char :: rest) with
      | none => [.broken]
      | some (token, after) =>
        have : after.length ≤ rest.length := Nat.le_of_lt_succ (length_of_jsonToken? read)
        token :: jsonTokens after
termination_by text.length

end Marginalia
