import Marginalia.Json.Printer
import Marginalia.Json.Reader
import Marginalia.Proofs.EncodedText
import Marginalia.Proofs.WrittenNumerals

namespace Marginalia

section texts

variable {rest : List Char} {unit : Nat}

theorem hexValue?_hexDigit : ∀ value < 16, hexValue? (hexDigit value) = some value := by decide

theorem hexDigits_small (small : unit < 16) : hexDigits unit = [hexDigit unit] := by
  rw [hexDigits, if_pos small]

theorem hexDigits_large (large : 16 ≤ unit) : hexDigits unit = hexDigits (unit / 16) ++ [hexDigit (unit % 16)] := by
  conv_lhs => rw [hexDigits]
  rw [if_neg (Nat.not_lt.mpr large)]

/-- The last one of several digits, zeros in front included. -/
theorem padZeros_hexDigits_succ (width unit : Nat) : padZeros (width + 2) (hexDigits unit) =
    padZeros (width + 1) (hexDigits (unit / 16)) ++ [hexDigit (unit % 16)] := by
  by_cases small : unit < 16
  · have zero : hexDigits 0 = ['0'] := hexDigits_small (by decide)
    rw [hexDigits_small small, Nat.div_eq_of_lt small, Nat.mod_eq_of_lt small, zero]
    simp [padZeros, List.replicate_succ']
  · rw [hexDigits_large (Nat.le_of_not_lt small)]
    simp [padZeros]

theorem fourHex?_unicode (within : unit < 0x10000) (rest : List Char) :
    fourHex? (padZeros 4 (hexDigits unit) ++ rest) = some (unit, rest) := by
  have first : padZeros 1 (hexDigits (unit / 16 / 16 / 16)) = [hexDigit (unit / 16 / 16 / 16)] := by
    rw [hexDigits_small (by omega)]
    rfl
  rw [padZeros_hexDigits_succ, padZeros_hexDigits_succ, padZeros_hexDigits_succ, first]
  simp only [List.cons_append, List.nil_append, fourHex?, bind, Option.bind_some,
    hexValue?_hexDigit _ (show unit / 16 / 16 / 16 < 16 by omega),
    hexValue?_hexDigit _ (show unit / 16 / 16 % 16 < 16 by omega),
    hexValue?_hexDigit _ (show unit / 16 % 16 < 16 by omega), hexValue?_hexDigit _ (show unit % 16 < 16 by omega)]
  congr 2
  omega

/-- A unit that is no half is read back, whatever follows it. -/
theorem stringGlyph?_unicode (within : unit < 0x10000) (whole : unit < 0xD800 ∨ 0xDFFF < unit) (rest : List Char) :
    stringGlyph? (unicodeEscape unit ++ rest) = some (.char (Char.ofNat unit), rest) := by
  have noHalf : unitGlyph unit = .char (Char.ofNat unit) := if_neg (by omega)
  have noPair (low : Nat) : ¬(0xD800 ≤ unit ∧ unit < 0xDC00 ∧ 0xDC00 ≤ low ∧ low < 0xE000) := by omega
  simp only [unicodeEscape, List.cons_append, stringGlyph?, fourHex?_unicode within, bind, Option.bind_some]
  split
  · split
    · rw [if_neg (noPair _), noHalf]
    · rw [noHalf]
  · rw [noHalf]

/-- Two halves are read back as the character they make up. -/
theorem stringGlyph?_pair {high low : Nat} (first : 0xD800 ≤ high ∧ high < 0xDC00)
    (second : 0xDC00 ≤ low ∧ low < 0xE000) (rest : List Char) :
    stringGlyph? (unicodeEscape high ++ unicodeEscape low ++ rest) =
      some (.char (Char.ofNat (0x10000 + (high - 0xD800) * 0x400 + (low - 0xDC00))), rest) := by
  have pair : 0xD800 ≤ high ∧ high < 0xDC00 ∧ 0xDC00 ≤ low ∧ low < 0xE000 := by omega
  simp only [unicodeEscape, List.cons_append, List.append_assoc, stringGlyph?, bind, Option.bind_some,
    @fourHex?_unicode high (by omega), @fourHex?_unicode low (by omega), if_pos pair]

/-- A character is read back from what it is written as. -/
theorem stringGlyph?_escapeChar (char : Char) (rest : List Char) :
    stringGlyph? (escapeChar char ++ rest) = some (.char char, rest) := by
  have valid : char.toNat < 0xD800 ∨ 0xDFFF < char.toNat ∧ char.toNat < 0x110000 := char.valid
  unfold escapeChar
  split
  case h_8 noQuote noBackslash _ _ _ _ _ =>
    dsimp only
    split
    · rename_i printed
      have unescaped : char ≠ '\\' := noBackslash
      rw [List.singleton_append, stringGlyph?.eq_def]
      split
      · rename_i h; cases h
      · rename_i h; cases h; exact absurd rfl unescaped
      · rename_i h; cases h; exact absurd rfl unescaped
      · rename_i h; cases h; rw [if_neg (by omega)]
    · split
      · rename_i basic
        rw [stringGlyph?_unicode basic (by omega), Char.ofNat_toNat]
      · have high : 0xD800 ≤ 0xD800 + (char.toNat - 0x10000) / 0x400 ∧
            0xD800 + (char.toNat - 0x10000) / 0x400 < 0xDC00 := by omega
        have low : 0xDC00 ≤ 0xDC00 + (char.toNat - 0x10000) % 0x400 ∧
            0xDC00 + (char.toNat - 0x10000) % 0x400 < 0xE000 := by omega
        have code : 0x10000 + (0xD800 + (char.toNat - 0x10000) / 0x400 - 0xD800) * 0x400 +
            (0xDC00 + (char.toNat - 0x10000) % 0x400 - 0xDC00) = char.toNat := by omega
        rw [stringGlyph?_pair high low, code, Char.ofNat_toNat]
  all_goals rfl

/-- What a character is written as does not end a text. -/
theorem escapeChar_ne (char : Char) : ∃ first more, escapeChar char = first :: more ∧ first ≠ '"' := by
  unfold escapeChar
  split
  case h_8 noQuote _ _ _ _ _ _ =>
    dsimp only
    split
    · exact ⟨char, [], rfl, noQuote⟩
    · split
      · exact ⟨_, _, rfl, by decide⟩
      · exact ⟨_, _, rfl, by decide⟩
  all_goals exact ⟨_, _, rfl, by decide⟩

theorem stringBody?_escaped (chars rest : List Char) :
    stringBody? (chars.flatMap escapeChar ++ '"' :: rest) = some (chars.map .char, rest) := by
  induction chars with
  | nil => rw [List.flatMap_nil, List.nil_append, stringBody?, List.map_nil]
  | cons char chars ih =>
    obtain ⟨first, more, written, goesOn⟩ := escapeChar_ne char
    have read := stringGlyph?_escapeChar char (chars.flatMap escapeChar ++ '"' :: rest)
    rw [List.flatMap_cons, List.append_assoc]
    rw [written] at read ⊢
    rw [List.cons_append] at read ⊢
    rw [stringBody?.eq_def]
    split
    · rename_i h; cases h; exact absurd rfl goesOn
    · split
      · rename_i unread
        cases unread.symm.trans read
      · rename_i glyph after again
        obtain ⟨rfl, rfl⟩ := Prod.mk.inj (Option.some.inj (again.symm.trans read))
        dsimp only
        rw [ih]
        rfl

end texts

section tokens

variable {char : Char} {rest after : List Char} {token : JsonToken}

theorem jsonTokens_of_token (unblank : isJsonBlank char = false)
    (read : jsonToken? (char :: rest) = some (token, after)) : jsonTokens (char :: rest) = token :: jsonTokens after := by
  rw [jsonTokens, if_neg (by simp [unblank])]
  split
  · rename_i unread
    cases unread.symm.trans read
  · rename_i again
    obtain ⟨rfl, rfl⟩ := Prod.mk.inj (Option.some.inj (again.symm.trans read))
    rfl

theorem jsonTokens_blanks {blanks : List Char} (blank : ∀ char ∈ blanks, isJsonBlank char = true) (rest : List Char) :
    jsonTokens (blanks ++ rest) = jsonTokens rest := by
  induction blanks with
  | nil => rfl
  | cons char blanks ih =>
    obtain ⟨here, later⟩ := List.forall_mem_cons.mp blank
    rw [List.cons_append, jsonTokens, if_pos here, ih later]

theorem toList_quoteJson (text : String) :
    (quoteJson (.ofString text)).toList = '"' :: (text.toList.flatMap escapeChar ++ ['"']) := by
  rw [quoteJson, String.toList_ofList, JsonText.ofString, List.flatMap_map]
  rfl

/-- A quoted text is one token. -/
theorem jsonTokens_quoteJson (text : String) (rest : List Char) :
    jsonTokens ((quoteJson (.ofString text)).toList ++ rest) = .scalar (.text (.ofString text)) :: jsonTokens rest := by
  rw [toList_quoteJson, List.cons_append, List.append_assoc, List.singleton_append]
  refine jsonTokens_of_token rfl ?_
  rw [jsonToken?, stringBody?_escaped]
  rfl

/-- What may follow a number, so that it goes no further. -/
def EndsNumber (rest : List Char) : Prop :=
  ∀ char ∈ rest.head?, char.isDigit = false ∧ char ≠ '.' ∧ char ≠ 'e' ∧ char ≠ 'E'

theorem spanDigits_append {digits : List Char} (numeral : ∀ char ∈ digits, char.isDigit = true) (ends : EndsNumber rest) :
    spanDigits (digits ++ rest) = (digits, rest) := by
  have stops : rest.takeWhile Char.isDigit = [] ∧ rest.dropWhile Char.isDigit = rest := by
    cases rest with
    | nil => exact ⟨rfl, rfl⟩
    | cons char rest => simp [(ends char rfl).1]
  rw [spanDigits, List.takeWhile_append_of_pos numeral, List.dropWhile_append_of_pos numeral, stops.1, stops.2,
    List.append_nil]

/-- A numeral starts with a zero only if it is one. -/
theorem toDigits_eq_cons (value : Nat) :
    ∃ first more, Nat.toDigits 10 value = first :: more ∧ first.isDigit = true ∧ (0 < value → first ≠ '0') := by
  induction value using Nat.strong_induction_on with
  | h value ih =>
    by_cases small : value < 10
    · have digit : ∀ digit < 10, digit.digitChar.isDigit = true ∧ (0 < digit → digit.digitChar ≠ '0') := by decide
      exact ⟨value.digitChar, [], Nat.toDigits_of_lt_base small, digit value small⟩
    · obtain ⟨first, more, split, digit, nonzero⟩ := ih (value / 10) (by omega)
      refine ⟨first, more ++ [(value % 10).digitChar], ?_, digit, fun _ => nonzero (by omega)⟩
      rw [Nat.toDigits_of_base_le (by decide) (Nat.le_of_not_lt small), split, List.cons_append]

theorem wholeDigits_append (value : Nat) (ends : EndsNumber rest) :
    wholeDigits (Nat.toDigits 10 value ++ rest) = (Nat.toDigits 10 value, rest) := by
  have digits : ∀ char ∈ Nat.toDigits 10 value, char.isDigit = true := fun char member =>
    Nat.isDigit_of_mem_toDigits (by decide) (by decide) member
  obtain ⟨first, more, split, digit, nonzero⟩ := toDigits_eq_cons value
  by_cases zero : value = 0
  · subst zero
    rfl
  · have span := spanDigits_append digits ends
    rw [split, List.cons_append] at span ⊢
    rw [← span]
    exact wholeDigits.eq_2 _ fun rest same => nonzero (Nat.pos_of_ne_zero zero) (List.cons.inj same).1

theorem unsignedNumber?_append (negative : Bool) {value : Nat} (short : (Nat.toDigits 10 value).length ≤ numeralLimit)
    (ends : EndsNumber rest) : unsignedNumber? negative (Nat.toDigits 10 value ++ rest) =
      some (.integer (if negative then -value else value), rest) := by
  have noFraction : fraction? rest = none := by
    cases rest with
    | nil => rfl
    | cons char rest =>
      exact fraction?.eq_2 _ fun later same => (ends char rfl).2.1 (List.cons.inj same).1
  have noExponent : exponent? rest = none := by
    cases rest with
    | nil => rfl
    | cons char rest =>
      obtain ⟨_, _, small, large⟩ := ends char rfl
      simp [exponent?, small, large]
  have total : digitsValue (Nat.toDigits 10 value) = value := by
    rw [digitsValue, ofDigits, List.foldl_map]
    exact Nat.ofDigitChars_ten_toDigits
  obtain ⟨first, more, split, _⟩ := toDigits_eq_cons value
  have integer : integerOf? negative (Nat.toDigits 10 value) = some (.integer (if negative then -value else value)) := by
    rw [integerOf?, if_neg (Nat.not_lt.mpr short), total]
  rw [unsignedNumber?, wholeDigits_append value ends]
  rw [split] at integer ⊢
  dsimp only
  rw [noFraction]
  dsimp only
  rw [noExponent]
  dsimp only
  rw [integer]
  rfl

/-- Where no bracket, comma, colon or quote stands, a token is a word or a number. -/
theorem jsonTokens_of_plainScalar {value : Json} (unblank : isJsonBlank char = false)
    (plain : char ∉ ['[', ']', '\x7b', '\x7d', ',', ':', '"']) (read : plainScalar? (char :: rest) = some (value, after)) :
    jsonTokens (char :: rest) = .scalar value :: jsonTokens after := by
  refine jsonTokens_of_token unblank ?_
  rw [jsonToken?.eq_def]
  split
  case h_8 => rw [read]; rfl
  all_goals
    rename_i same
    obtain ⟨rfl, _⟩ := List.cons.inj same
    exact absurd (by decide) plain

theorem beq_false_of_isDigit (digit : char.isDigit = true) {letter : Char} (noDigit : letter.isDigit = false) :
    (letter == char) = false := by
  rw [beq_eq_false_iff_ne]
  rintro rfl
  cases noDigit.symm.trans digit

/-- No word begins with a digit. -/
theorem plainScalar?_digit (digit : char.isDigit = true) :
    plainScalar? (char :: rest) = unsignedNumber? false (char :: rest) := by
  have differs {letter : Char} := @beq_false_of_isDigit char digit letter
  have unworded : ∀ entry ∈ jsonWords, entry.1.isPrefixOf (char :: rest) = false := by
    simp [jsonWords, List.isPrefixOf, @differs 'n' rfl, @differs 't' rfl, @differs 'f' rfl, @differs 'N' rfl,
      @differs 'I' rfl, @differs '-' rfl]
  rw [plainScalar?, List.find?_eq_none.mpr fun entry member => Bool.eq_false_iff.mp (unworded entry member)]
  intro later same
  obtain ⟨rfl, _⟩ := List.cons.inj same
  cases digit

theorem plainScalar?_minus (digit : char.isDigit = true) :
    plainScalar? ('-' :: char :: rest) = unsignedNumber? true (char :: rest) := by
  have differs {letter : Char} := @beq_false_of_isDigit char digit letter
  have unworded : ∀ entry ∈ jsonWords, entry.1.isPrefixOf ('-' :: char :: rest) = false := by
    simp [jsonWords, List.isPrefixOf, @differs 'I' rfl]
  rw [plainScalar?, List.find?_eq_none.mpr fun entry member => Bool.eq_false_iff.mp (unworded entry member)]

theorem isDigit_plain (digit : char.isDigit = true) :
    isJsonBlank char = false ∧ char ∉ ['[', ']', '\x7b', '\x7d', ',', ':', '"'] := by
  have differs {other : Char} (noDigit : other.isDigit = false) : char ≠ other := by
    rintro rfl
    cases noDigit.symm.trans digit
  simp [isJsonBlank, differs]

theorem jsonTokens_integer {value : Int} (short : isWritable value = true) (ends : EndsNumber rest) :
    jsonTokens ((toString value).toList ++ rest) = .scalar (.integer value) :: jsonTokens rest := by
  have length : (Nat.toDigits 10 value.natAbs).length ≤ numeralLimit := by
    have written := of_decide_eq_true short
    rwa [Nat.toString_eq_repr, ← String.length_toList, Nat.toList_repr] at written
  obtain ⟨first, more, split, digit, _⟩ := toDigits_eq_cons value.natAbs
  have read (negative : Bool) := unsignedNumber?_append negative length ends
  rw [toList_toString]
  rw [split, List.cons_append] at read
  by_cases positive : 0 ≤ value
  · rw [if_pos positive, List.nil_append, split, List.cons_append,
      jsonTokens_of_plainScalar (isDigit_plain digit).1 (isDigit_plain digit).2
        ((plainScalar?_digit digit).trans (read false))]
    rw [if_neg Bool.false_ne_true, Int.natAbs_of_nonneg positive]
  · have sign : -(value.natAbs : Int) = value := by omega
    rw [if_neg positive, List.singleton_append, List.cons_append, split, List.cons_append,
      jsonTokens_of_plainScalar rfl (by decide) ((plainScalar?_minus digit).trans (read true))]
    rw [if_pos rfl, sign]

end tokens

mutual

/-- Data that is read back from what it is written as: its texts are strings, its integers are short enough to be
written, its objects have different keys, and no other numbers are in it. -/
def Json.Plain : Json → Prop
  | .integer value => isWritable value = true
  | .number _ => False
  | .text value => ∃ string, value = .ofString string
  | .array items => Json.PlainItems items
  | .object members => (members.map (·.1)).Nodup ∧ Json.PlainMembers members
  | _ => True

def Json.PlainItems : List Json → Prop
  | [] => True
  | item :: rest => item.Plain ∧ Json.PlainItems rest

def Json.PlainMembers : List (JsonText × Json) → Prop
  | [] => True
  | (key, value) :: rest => (∃ string, key = .ofString string) ∧ value.Plain ∧ Json.PlainMembers rest

end

/-- The state after all tokens of a text. -/
def JsonState.read (limit : Nat) (state : JsonState) (text : List Char) : Except JsonFault JsonState :=
  (jsonTokens text).foldlM (JsonState.step limit) state

section reading

variable {layout : JsonLayout} {limit level : Nat} {state next : JsonState} {text after rest : List Char}
  {token : JsonToken} {frames : List JsonFrame} {expects : JsonExpects}

theorem JsonState.read_token (tokens : jsonTokens text = token :: jsonTokens after)
    (step : state.step limit token = .ok next) : state.read limit text = next.read limit after := by
  rw [read, tokens, List.foldlM_cons, step]
  rfl

/-- Where a value is expected. -/
def JsonExpects.TakesValue (expects : JsonExpects) : Prop :=
  expects = .value ∨ expects = .valueOrClose

theorem JsonState.step_scalar (takes : expects.TakesValue) (value : Json) :
    (⟨frames, expects⟩ : JsonState).step limit (.scalar value) = .ok (.finish value frames) := by
  rcases takes with rfl | rfl <;> rfl

theorem JsonState.step_openArray (takes : expects.TakesValue) (room : frames.length < limit) :
    (⟨frames, expects⟩ : JsonState).step limit .openArray = .ok ⟨.array [] :: frames, .valueOrClose⟩ := by
  rcases takes with rfl | rfl <;> simp [step, step?, JsonToken.opens, room]

theorem JsonState.step_openObject (takes : expects.TakesValue) (room : frames.length < limit) :
    (⟨frames, expects⟩ : JsonState).step limit .openObject = .ok ⟨frames, .keyOrClose []⟩ := by
  rcases takes with rfl | rfl <;> simp [step, step?, JsonToken.opens, room]

theorem lineBreak_blank (layout : JsonLayout) (level : Nat) :
    ∀ char ∈ (layout.lineBreak level).toList, isJsonBlank char = true := by
  intro char member
  cases layout with
  | compact => cases member
  | indented step =>
    rw [JsonLayout.lineBreak, String.toList_append, List.mem_append] at member
    rcases member with newline | blank
    · rw [List.mem_singleton.mp newline]
      rfl
    · rw [String.toList_ofList] at blank
      rw [(List.mem_replicate.mp blank).2]
      rfl

theorem JsonState.read_lineBreak (layout : JsonLayout) (level : Nat) (state : JsonState) (rest : List Char) :
    state.read limit ((layout.lineBreak level).toList ++ rest) = state.read limit rest := by
  rw [read, jsonTokens_blanks (lineBreak_blank layout level), read]

/-- A line break or a closing bracket ends a number. -/
theorem endsNumber_lineBreak (layout : JsonLayout) (level : Nat) {char : Char} (closes : char ∈ [']', '\x7d'])
    (rest : List Char) : EndsNumber ((layout.lineBreak level).toList ++ char :: rest) := by
  cases layout with
  | compact =>
    simp only [List.mem_cons, List.not_mem_nil, or_false] at closes
    rcases closes with rfl | rfl <;> simp [JsonLayout.lineBreak, EndsNumber]
  | indented step => simp [JsonLayout.lineBreak, EndsNumber]

/-- Behind an item and a comma the next item is expected. -/
theorem JsonState.read_itemComma {items : List Json} (inner : Nat) (rest : List Char) :
    (⟨.array items :: frames, .commaOrClose⟩ : JsonState).read limit
        (',' :: ((layout.lineBreak inner).toList ++ rest)) =
      (⟨.array items :: frames, .value⟩ : JsonState).read limit rest := by
  have comma : jsonTokens (',' :: ((layout.lineBreak inner).toList ++ rest)) = .comma :: jsonTokens _ :=
    jsonTokens_of_token rfl rfl
  rw [read_token comma rfl, read_lineBreak]

theorem JsonState.read_memberComma {members : List (JsonText × Json)} {key : JsonText} (inner : Nat) (rest : List Char) :
    (⟨.object members key :: frames, .commaOrClose⟩ : JsonState).read limit
        (',' :: ((layout.lineBreak inner).toList ++ rest)) =
      (⟨frames, .key members⟩ : JsonState).read limit rest := by
  have comma : jsonTokens (',' :: ((layout.lineBreak inner).toList ++ rest)) = .comma :: jsonTokens _ :=
    jsonTokens_of_token rfl rfl
  rw [read_token comma rfl, read_lineBreak]

/-- Where a key is expected, and the members before it. -/
def JsonExpects.TakesKey (members : List (JsonText × Json)) (expects : JsonExpects) : Prop :=
  expects = .key members ∨ expects = .keyOrClose members

theorem JsonState.read_key {members : List (JsonText × Json)} (takes : expects.TakesKey members) (key : String)
    (rest : List Char) :
    (⟨frames, expects⟩ : JsonState).read limit ((quoteJson (.ofString key)).toList ++ ':' :: ' ' :: rest) =
      (⟨.object members (.ofString key) :: frames, .value⟩ : JsonState).read limit rest := by
  have step : (⟨frames, expects⟩ : JsonState).step limit (.scalar (.text (.ofString key))) =
      .ok ⟨frames, .colon members (.ofString key)⟩ := by
    rcases takes with rfl | rfl <;> rfl
  have colon : jsonTokens (':' :: ' ' :: rest) = .colon :: jsonTokens (' ' :: rest) := jsonTokens_of_token rfl rfl
  have blank : jsonTokens (' ' :: rest) = jsonTokens rest := @jsonTokens_blanks [' '] (by simp [isJsonBlank]) rest
  rw [read_token (jsonTokens_quoteJson key _) step, read_token colon rfl, read, blank, read]

theorem putKey_of_not_mem {key : JsonText} {members : List (JsonText × Json)} (new : key ∉ members.map (·.1))
    (value : Json) : putKey key value members = members ++ [(key, value)] := by
  induction members with
  | nil => rfl
  | cons member rest ih =>
    obtain ⟨known, old⟩ := member
    rw [List.map_cons, List.mem_cons, not_or] at new
    rw [putKey, if_neg (by simpa using Ne.symm new.1), ih new.2, List.cons_append]

theorem toList_enclose {opening closing : String} {first last : Char} (opens : opening.toList = [first])
    (closes : closing.toList = [last]) {items : List String} (some : items ≠ []) (rest : List Char) :
    (layout.enclose level opening closing items).toList ++ rest =
      first :: ((layout.lineBreak (level + 1)).toList ++
        ((String.intercalate ("," ++ layout.lineBreak (level + 1)) items).toList ++
          ((layout.lineBreak level).toList ++ last :: rest))) := by
  rw [JsonLayout.enclose, if_neg (by simpa using some)]
  simp only [String.toList_append, List.append_assoc, opens, closes, List.cons_append, List.nil_append]

theorem toList_enclose_nil {opening closing : String} {first last : Char} (opens : opening.toList = [first])
    (closes : closing.toList = [last]) (rest : List Char) :
    (layout.enclose level opening closing []).toList ++ rest = first :: last :: rest := by
  rw [JsonLayout.enclose, if_pos List.isEmpty_nil, String.toList_append, opens, closes]
  rfl

theorem toList_intercalate_cons (separator first next : String) (more : List String) (rest : List Char) :
    (String.intercalate separator (first :: next :: more)).toList ++ rest =
      first.toList ++ (separator.toList ++ ((String.intercalate separator (next :: more)).toList ++ rest)) := by
  simp only [String.toList_intercalate, List.map_cons, List.intercalate_cons_cons, List.append_assoc]

theorem toList_comma (layout : JsonLayout) (level : Nat) (rest : List Char) :
    ("," ++ layout.lineBreak level).toList ++ rest = ',' :: ((layout.lineBreak level).toList ++ rest) := by
  rw [String.toList_append, List.append_assoc]
  rfl

theorem toList_intercalate_singleton (separator text : String) :
    (String.intercalate separator [text]).toList = text.toList := by
  simp

theorem toList_member (key : JsonText) (value : Json) (layout : JsonLayout) (level : Nat) (rest : List Char) :
    (quoteJson key ++ ": " ++ value.print layout level).toList ++ rest =
      (quoteJson key).toList ++ ':' :: ' ' :: ((value.print layout level).toList ++ rest) := by
  simp only [String.toList_append, List.append_assoc]
  rfl

/-- A key that comes later in an object has not been there before. -/
theorem not_mem_of_nodup_keys {done members : List (JsonText × Json)} {key : JsonText} {value : Json}
    (different : ((done ++ (key, value) :: members).map (·.1)).Nodup) : key ∉ done.map (·.1) := by
  rw [List.map_append, List.map_cons] at different
  exact fun old => (List.nodup_append.mp different).2.2 key old key List.mem_cons_self rfl

mutual

/-- Where a value is expected, what it is written as is read as the value. -/
theorem Json.read_print (layout : JsonLayout) (limit level : Nat) (frames : List JsonFrame) (expects : JsonExpects)
    (rest : List Char) (ends : EndsNumber rest) (takes : expects.TakesValue) : ∀ value : Json, value.Plain →
      frames.length + value.depth ≤ limit →
      (⟨frames, expects⟩ : JsonState).read limit ((value.print layout level).toList ++ rest) =
        (JsonState.finish value frames).read limit rest
  | .null, _, _ => by
    have word : jsonTokens ('n' :: 'u' :: 'l' :: 'l' :: rest) = .scalar .null :: jsonTokens rest :=
      jsonTokens_of_plainScalar rfl (by decide) rfl
    rw [Json.print]
    exact JsonState.read_token word (JsonState.step_scalar takes _)
  | .bool true, _, _ => by
    have word : jsonTokens ('t' :: 'r' :: 'u' :: 'e' :: rest) = .scalar (.bool true) :: jsonTokens rest :=
      jsonTokens_of_plainScalar rfl (by decide) rfl
    rw [Json.print]
    exact JsonState.read_token word (JsonState.step_scalar takes _)
  | .bool false, _, _ => by
    have word : jsonTokens ('f' :: 'a' :: 'l' :: 's' :: 'e' :: rest) = .scalar (.bool false) :: jsonTokens rest :=
      jsonTokens_of_plainScalar rfl (by decide) rfl
    rw [Json.print]
    exact JsonState.read_token word (JsonState.step_scalar takes _)
  | .integer _, plain, _ => JsonState.read_token (jsonTokens_integer plain ends) (JsonState.step_scalar takes _)
  | .number _, plain, _ => plain.elim
  | .text _, plain, _ => by
    obtain ⟨string, rfl⟩ := plain
    exact JsonState.read_token (jsonTokens_quoteJson string rest) (JsonState.step_scalar takes _)
  | .array [], _, fits => by
    have opened : jsonTokens ('[' :: ']' :: rest) = .openArray :: jsonTokens (']' :: rest) := jsonTokens_of_token rfl rfl
    have closed : jsonTokens (']' :: rest) = .closeArray :: jsonTokens rest := jsonTokens_of_token rfl rfl
    rw [Json.print, Json.printItems, @toList_enclose_nil _ _ _ _ '[' ']' rfl rfl]
    exact (JsonState.read_token opened (JsonState.step_openArray takes fits)).trans (JsonState.read_token closed rfl)
  | .array (item :: items), plain, fits => by
    obtain ⟨first, others⟩ := plain
    simp only [Json.depth] at fits
    have room : frames.length < limit := by omega
    have opened (text : List Char) : jsonTokens ('[' :: text) = .openArray :: jsonTokens text :=
      jsonTokens_of_token rfl rfl
    have closed : jsonTokens (']' :: rest) = .closeArray :: jsonTokens rest := jsonTokens_of_token rfl rfl
    rw [Json.print, @toList_enclose _ _ _ _ '[' ']' rfl rfl _ (by simp [Json.printItems])]
    rw [JsonState.read_token (opened _) (JsonState.step_openArray takes room), JsonState.read_lineBreak,
      Json.read_printItems layout limit (level + 1) frames _ (endsNumber_lineBreak layout level (by decide) rest) item items
        [] .valueOrClose (Or.inr rfl) first others (by omega),
      JsonState.read_lineBreak, JsonState.read_token closed rfl]
    simp
  | .object [], _, fits => by
    have opened : jsonTokens ('\x7b' :: '\x7d' :: rest) = .openObject :: jsonTokens ('\x7d' :: rest) :=
      jsonTokens_of_token rfl rfl
    have closed : jsonTokens ('\x7d' :: rest) = .closeObject :: jsonTokens rest := jsonTokens_of_token rfl rfl
    rw [Json.print, Json.printMembers, @toList_enclose_nil _ _ _ _ '\x7b' '\x7d' rfl rfl]
    exact (JsonState.read_token opened (JsonState.step_openObject takes fits)).trans (JsonState.read_token closed rfl)
  | .object ((key, value) :: members), plain, fits => by
    obtain ⟨different, named, first, others⟩ := plain
    simp only [Json.depth] at fits
    have room : frames.length < limit := by omega
    have opened (text : List Char) : jsonTokens ('\x7b' :: text) = .openObject :: jsonTokens text :=
      jsonTokens_of_token rfl rfl
    have closed : jsonTokens ('\x7d' :: rest) = .closeObject :: jsonTokens rest := jsonTokens_of_token rfl rfl
    obtain ⟨last, read⟩ := Json.read_printMembers layout limit (level + 1) frames _
      (@endsNumber_lineBreak layout level '\x7d' (by decide) rest) key value members [] (.keyOrClose []) (Or.inr rfl)
      named first others different (by omega)
    rw [Json.print, @toList_enclose _ _ _ _ '\x7b' '\x7d' rfl rfl _ (by simp [Json.printMembers]),
      JsonState.read_token (opened _) (JsonState.step_openObject takes room), JsonState.read_lineBreak, read,
      JsonState.read_lineBreak, JsonState.read_token closed rfl]
    rfl
termination_by value => sizeOf value

/-- Items are read one after the other into the innermost open array. -/
theorem Json.read_printItems (layout : JsonLayout) (limit level : Nat) (frames : List JsonFrame) (rest : List Char)
    (ends : EndsNumber rest) : ∀ (item : Json) (items done : List Json) (expects : JsonExpects), expects.TakesValue →
      item.Plain → Json.PlainItems items → frames.length + 1 + Json.itemDepth (item :: items) ≤ limit →
      (⟨.array done :: frames, expects⟩ : JsonState).read limit
          ((String.intercalate ("," ++ layout.lineBreak level)
            (Json.printItems layout level (item :: items))).toList ++ rest) =
        (⟨.array ((item :: items).reverse ++ done) :: frames, .commaOrClose⟩ : JsonState).read limit rest
  | item, [], done, expects, takes, plain, _, fits => by
    simp only [Json.itemDepth] at fits
    rw [Json.printItems, Json.printItems, toList_intercalate_singleton,
      Json.read_print layout limit level (.array done :: frames) expects rest ends takes item plain
        (by rw [List.length_cons]; omega)]
    rfl
  | item, next :: items, done, expects, takes, plain, plains, fits => by
    simp only [Json.itemDepth] at fits
    have follows (text : List Char) : EndsNumber (',' :: text) := by simp [EndsNumber]
    rw [Json.printItems, Json.printItems, toList_intercalate_cons, toList_comma,
      Json.read_print layout limit level (.array done :: frames) expects _ (follows _) takes item plain
        (by rw [List.length_cons]; omega),
      JsonState.finish, JsonState.read_itemComma, ← Json.printItems,
      Json.read_printItems layout limit level frames rest ends next items (item :: done) .value (Or.inl rfl) plains.1
        plains.2 (by simp only [Json.itemDepth]; omega)]
    simp
termination_by item items => sizeOf (item :: items)

/-- Members are read one after the other, and their keys are all new. -/
theorem Json.read_printMembers (layout : JsonLayout) (limit level : Nat) (frames : List JsonFrame) (rest : List Char)
    (ends : EndsNumber rest) : ∀ (key : JsonText) (value : Json) (members done : List (JsonText × Json))
      (expects : JsonExpects), expects.TakesKey done → (∃ string, key = .ofString string) → value.Plain →
      Json.PlainMembers members → ((done ++ (key, value) :: members).map (·.1)).Nodup →
      frames.length + 1 + Json.memberDepth ((key, value) :: members) ≤ limit →
      ∃ last, (⟨frames, expects⟩ : JsonState).read limit
          ((String.intercalate ("," ++ layout.lineBreak level)
            (Json.printMembers layout level ((key, value) :: members))).toList ++ rest) =
        (⟨.object (done ++ (key, value) :: members) last :: frames, .commaOrClose⟩ : JsonState).read limit rest
  | _, value, [], done, expects, takes, ⟨name, rfl⟩, plain, _, different, fits => by
    simp only [Json.memberDepth] at fits
    refine ⟨.ofString name, ?_⟩
    rw [Json.printMembers, Json.printMembers, toList_intercalate_singleton, toList_member, JsonState.read_key takes,
      Json.read_print layout limit level (.object done (.ofString name) :: frames) .value rest ends (Or.inl rfl) value plain
        (by rw [List.length_cons]; omega),
      JsonState.finish, putKey_of_not_mem (not_mem_of_nodup_keys different)]
  | _, value, (next, later) :: members, done, expects, takes, ⟨name, rfl⟩, plain, plains, different, fits => by
    simp only [Json.memberDepth] at fits
    have follows (text : List Char) : EndsNumber (',' :: text) := by simp [EndsNumber]
    have new := not_mem_of_nodup_keys different
    rw [List.append_cons] at different
    obtain ⟨last, read⟩ := Json.read_printMembers layout limit level frames rest ends next later members
      (done ++ [(.ofString name, value)]) (.key _) (Or.inl rfl) plains.1 plains.2.1 plains.2.2 different
      (by simp only [Json.memberDepth]; omega)
    refine ⟨last, ?_⟩
    rw [List.append_assoc, List.singleton_append] at read
    rw [Json.printMembers, Json.printMembers, toList_intercalate_cons, toList_comma, toList_member,
      JsonState.read_key takes,
      Json.read_print layout limit level (.object done (.ofString name) :: frames) .value _ (follows _) (Or.inl rfl) value
        plain (by rw [List.length_cons]; omega),
      JsonState.finish, putKey_of_not_mem new, JsonState.read_memberComma, ← Json.printMembers, read]
termination_by key value members => sizeOf ((key, value) :: members)

end

/-- Data is read back from what it is written as, in whatever layout. -/
theorem Json.parse_print {value : Json} (plain : value.Plain) (shallow : value.depth ≤ limit) (layout : JsonLayout) :
    Json.parse limit (value.print layout 0).toList = .ok value := by
  have ends : EndsNumber [] := by simp [EndsNumber]
  have read := Json.read_print layout limit 0 [] .value [] ends (Or.inl rfl) value plain (by simpa using shallow)
  have done : (JsonState.finish value []).read limit [] = .ok ⟨[], .nothing value⟩ := by
    rw [JsonState.read, jsonTokens]
    rfl
  rw [List.append_nil, done, JsonState.read] at read
  rw [Json.parse, read]
  rfl

theorem Json.ofBytes_indented {value : Json} (plain : value.Plain) (shallow : value.depth ≤ openLimit) :
    Json.ofBytes (encodeUtf8 value.indented) = .ok value := by
  rw [Json.ofBytes, Encoding.read?_encodeUtf8]
  exact Json.parse_print plain shallow _

end reading

end Marginalia
