import Marginalia.Proofs.LiteralDigits
import Marginalia.Proofs.RoundedQuotients
import Mathlib.Data.List.TakeWhile

namespace Marginalia

variable {digits literal : List Char} {char : Char}

/-- Number signs, any number of them, and behind them three, four, six or eight hexadecimal digits. -/
structure SpellsColor (digits literal : List Char) : Prop where
  signed : ∃ signs, literal = List.replicate signs '#' ++ digits
  length : digits.length ∈ [3, 4, 6, 8]
  hexadecimal : ∀ digit ∈ digits, digit ∈ "0123456789abcdefABCDEF".toList

/-- The color of a literal in its long form. -/
def longColor (digits : List Char) : Rgba where
  rgb := ⟨pairAt 0 digits, pairAt 1 digits, pairAt 2 digits⟩
  alpha := .part (if digits.length = 8 then Float.ofNat (pairAt 3 digits) / 255 else 1.0)

theorem forall_hexDigit {holds : Char → Prop} (ascii : ∀ code < 128, isHexDigit (Char.ofNat code) = true →
    holds (Char.ofNat code)) (digit : isHexDigit char = true) : holds char := by
  have within : char.toNat < 128 := by
    by_contra beyond
    have none : hexValue? char = none := hexValue?_eq_none (by change 102 < _; omega)
    rw [isHexDigit, none] at digit
    cases digit
  have same := ascii char.toNat within
  rw [Char.ofNat_toNat] at same
  exact same digit

theorem isHexDigit_iff : isHexDigit char = true ↔ char ∈ "0123456789abcdefABCDEF".toList := by
  constructor
  · exact forall_hexDigit (by decide +kernel)
  · have digits : "0123456789abcdefABCDEF".toList.all isHexDigit = true := by decide +kernel
    exact List.all_eq_true.mp digits char

/-- A digit has a value, and the value is written as the digit in lower case. -/
theorem hexValue?_of_isHexDigit (digit : isHexDigit char = true) :
    ∃ value < 16, hexValue? char = some value ∧ hexDigit value = lowerChar char :=
  @forall_hexDigit char (fun char => ∃ value < 16, hexValue? char = some value ∧ hexDigit value = lowerChar char)
    (by decide +kernel) digit

theorem lowerAfter_eq_map (before : List Char) (hexadecimal : digits.all isHexDigit = true) :
    lowerAfter before digits = digits.map lowerChar := by
  induction digits generalizing before with
  | nil => rfl
  | cons digit rest ih =>
    obtain ⟨first, later⟩ := Bool.and_eq_true_iff.mp hexadecimal
    rcases lowerAfter_cons before digit rest with ⟨_, lowered⟩ | ⟨other, _⟩
    · rw [lowered, List.map_cons, ih _ later]
    · cases first.symm.trans other

/-- A number below 256 is written with two digits. -/
theorem channelText_pair {high low : Nat} (high_lt : high < 16) (low_lt : low < 16) :
    channelText ((high * 16 + low : Nat) : Int) = [hexDigit high, hexDigit low] := by
  have written : padZeros 2 (hexDigits (high * 16 + low)) = [hexDigit high, hexDigit low] := by
    rcases Nat.eq_zero_or_pos high with rfl | some
    · rw [Nat.zero_mul, Nat.zero_add, hexDigits, if_pos low_lt]
      rfl
    · have front : (high * 16 + low) / 16 = high := by omega
      have back : (high * 16 + low) % 16 = low := by omega
      rw [hexDigits, if_neg (by omega), front, back, hexDigits, if_pos high_lt]
      rfl
  rw [channelText, if_neg (by omega), Int.natAbs_natCast, written]

/-- A pair of digits says a number below 256, and this number is written with the same digits. -/
theorem pairAt_spec (hexadecimal : digits.all isHexDigit = true) (place : Nat) (within : 2 * place + 2 ≤ digits.length) :
    pairAt place digits < 256 ∧ channelText (pairAt place digits) = ((lowerCase digits).drop (2 * place)).take 2 := by
  have atLeast : 2 ≤ (digits.drop (2 * place)).length := by
    rw [List.length_drop]
    omega
  obtain ⟨first, second, rest, split⟩ : ∃ first second rest, digits.drop (2 * place) = first :: second :: rest := by
    match digits.drop (2 * place), atLeast with
    | first :: second :: rest, _ => exact ⟨first, second, rest, rfl⟩
  have isDigit : ∀ digit ∈ digits.drop (2 * place), isHexDigit digit = true := fun digit member =>
    List.all_eq_true.mp hexadecimal digit (List.mem_of_mem_drop member)
  rw [split] at isDigit
  obtain ⟨high, high_lt, highValue, highText⟩ := hexValue?_of_isHexDigit (isDigit first (by simp))
  obtain ⟨low, low_lt, lowValue, lowText⟩ := hexValue?_of_isHexDigit (isDigit second (by simp))
  have value : pairAt place digits = high * 16 + low := by
    rw [pairAt, split]
    simp [highValue, lowValue]
  have text : ((lowerCase digits).drop (2 * place)).take 2 = [hexDigit high, hexDigit low] := by
    rw [lowerCase, lowerAfter_eq_map [] hexadecimal, ← List.map_drop, split, highText, lowText]
    rfl
  rw [value, text]
  exact ⟨by omega, channelText_pair high_lt low_lt⟩

theorem SpellsColor.all_isHexDigit (spelled : SpellsColor digits literal) : digits.all isHexDigit = true :=
  List.all_eq_true.mpr fun digit member => isHexDigit_iff.mpr (spelled.hexadecimal digit member)

theorem SpellsColor.bareDigits_eq (spelled : SpellsColor digits literal) : bareDigits literal = digits := by
  obtain ⟨signs, rfl⟩ := spelled.signed
  have length := spelled.length
  rw [bareDigits, List.dropWhile_append_of_pos fun sign member => by simp [List.eq_of_mem_replicate member]]
  cases digits with
  | nil => simp at length
  | cons digit rest =>
    have different : digit ≠ '#' := by
      rintro rfl
      exact absurd (spelled.hexadecimal '#' (List.mem_cons_self ..)) (by decide)
    exact List.dropWhile_cons_of_neg (by simpa using different)

theorem spellsColor_iff : SpellsColor digits literal ↔
    digits = bareDigits literal ∧ digits.length ∈ [3, 4, 6, 8] ∧ digits.all isHexDigit = true := by
  constructor
  · intro spelled
    exact ⟨spelled.bareDigits_eq.symm, spelled.length, spelled.all_isHexDigit⟩
  · rintro ⟨rfl, length, hexadecimal⟩
    refine ⟨⟨(literal.takeWhile (· == '#')).length, ?_⟩, length, fun digit member =>
      isHexDigit_iff.mp (List.all_eq_true.mp hexadecimal digit member)⟩
    have signs : literal.takeWhile (· == '#') = List.replicate (literal.takeWhile (· == '#')).length '#' :=
      List.eq_replicate_iff.mpr ⟨rfl, fun sign member => by simpa using List.mem_takeWhile_imp member⟩
    rw [← signs, bareDigits, List.takeWhile_append_dropWhile]

theorem length_expandDigits (length : digits.length ∈ [3, 4, 6, 8]) :
    (expandDigits digits).length = if digits.length ∈ [3, 6] then 6 else 8 := by
  rw [expandDigits, apply_ite List.length, List.length_flatMap]
  simp only [List.mem_cons, List.not_mem_nil, or_false] at length
  rcases length with length | length | length | length <;> simp [length]

theorem length_expandDigits_eq_eight_iff (length : digits.length ∈ [3, 4, 6, 8]) :
    (expandDigits digits).length = 8 ↔ digits.length ∈ [4, 8] := by
  rw [length_expandDigits length]
  simp only [List.mem_cons, List.not_mem_nil, or_false] at length ⊢
  split <;> omega

theorem expandDigits_expandDigits (length : digits.length ∈ [3, 4, 6, 8]) :
    expandDigits (expandDigits digits) = expandDigits digits := by
  have long := length_expandDigits length
  rw [expandDigits]
  exact if_neg (by split at long <;> omega)

theorem all_isHexDigit_expandDigits (hexadecimal : digits.all isHexDigit = true) :
    (expandDigits digits).all isHexDigit = true := by
  rw [List.all_eq_true] at hexadecimal ⊢
  intro char member
  rw [expandDigits] at member
  split at member
  · obtain ⟨digit, inDigits, isDigit⟩ := List.mem_flatMap.mp member
    have same : char = digit := by simpa using isDigit
    exact same ▸ hexadecimal digit inDigits
  · exact hexadecimal char member

theorem SpellsColor.decodeColor_eq (spelled : SpellsColor digits literal) :
    decodeColor literal = .ok (longColor (expandDigits digits)) := by
  rw [decodeColor, spelled.bareDigits_eq, if_pos ⟨spelled.length, spelled.all_isHexDigit⟩, longColor]
  simp only [length_expandDigits_eq_eight_iff spelled.length]

theorem decodeColor_eq_error (unspelled : ¬∃ digits, SpellsColor digits literal) :
    decodeColor literal = .error (.notAColor (String.ofList literal)) := by
  rw [decodeColor]
  refine if_neg fun readable => unspelled ⟨_, spellsColor_iff.mpr ⟨rfl, readable⟩⟩

/-- A color of six or eight digits is written as the first six of them in lower case. -/
theorem hex_longColor (hexadecimal : digits.all isHexDigit = true) (long : 6 ≤ digits.length) :
    (longColor digits).rgb.hex = String.ofList ('#' :: (lowerCase digits).take 6) := by
  have red := (pairAt_spec hexadecimal 0 (by omega)).2
  have green := (pairAt_spec hexadecimal 1 (by omega)).2
  have blue := (pairAt_spec hexadecimal 2 (by omega)).2
  have parts : (lowerCase digits).take 6 = (lowerCase digits).take 2 ++ ((lowerCase digits).drop 2).take 2 ++
      ((lowerCase digits).drop 4).take 2 := by
    rw [← List.take_add, ← List.take_add]
  rw [Rgb.hex, longColor, red, green, blue, parts]
  rfl

/-- A pair of digits over the largest one, to fifty-three digits. -/
theorem share_error {value : Nat} (small : value < 256) :
    ∃ share, (Binary64.ofFloat (Float.ofNat value / 255)).dyadic? = some share ∧
      |share.value - (value : ℚ) / 255| ≤ (value : ℚ) / 255 / 2 ^ 53 := by
  have quotients : ∀ value : Fin 256, (Binary64.ofFloat (Float.ofNat value / 255)).dyadic? =
      some (if value = 0 then ⟨0, -1074⟩ else roundedRatio value 255) := by
    decide +kernel
  refine ⟨_, quotients ⟨value, small⟩, ?_⟩
  split
  · rename_i zero
    obtain rfl : value = 0 := congrArg Fin.val zero
    simp [Dyadic.value]
  · exact_mod_cast @roundedRatio_error value 255 (by norm_num)

theorem SpellsColor.expand (spelled : SpellsColor digits literal) (signs : Nat) :
    SpellsColor (expandDigits digits) (List.replicate signs '#' ++ expandDigits digits) := by
  refine ⟨⟨signs, rfl⟩, ?_, fun digit member =>
    isHexDigit_iff.mp (List.all_eq_true.mp (all_isHexDigit_expandDigits spelled.all_isHexDigit) digit member)⟩
  rw [length_expandDigits spelled.length]
  split <;> decide

/-- A literal has a color exactly when it spells digits; otherwise there is a value error. The color is written as the first
six digits of the long form in lower case, its channels are those of a byte, and it covers all below it unless a fourth pair of
digits says which part. The long form and other letter cases of a literal have the same color. -/
theorem decodeColor_spelled (literal : List Char) :
    ((∃ color, decodeColor literal = .ok color) ↔ ∃ digits, SpellsColor digits literal) ∧
    ((¬∃ digits, SpellsColor digits literal) →
      ∃ fault, decodeColor literal = .error fault ∧ fault.kind = "ValueError") ∧
    ∀ digits color, SpellsColor digits literal → decodeColor literal = .ok color →
      color.rgb.hex = String.ofList ('#' :: (lowerCase (expandDigits digits)).take 6) ∧
      (∀ channel ∈ [color.rgb.red, color.rgb.green, color.rgb.blue], 0 ≤ channel ∧ channel ≤ 255) ∧
      (digits.length ∈ [3, 6] → color.alpha = .part 1.0) ∧
      (digits.length ∈ [4, 8] → ∃ value : Nat, value < 256 ∧
        channelText value = (lowerCase (expandDigits digits)).drop 6 ∧
        color.alpha = .part (Float.ofNat value / 255) ∧
        ∃ share, (Binary64.ofFloat (Float.ofNat value / 255)).dyadic? = some share ∧
          |share.value - (value : ℚ) / 255| ≤ (value : ℚ) / 255 / 2 ^ 53) ∧
      (digits.length ≤ 4 → ∀ signs,
        decodeColor (List.replicate signs '#' ++ digits.flatMap fun digit => [digit, digit]) = .ok color) ∧
      ∀ other, lowerCase (bareDigits other) = lowerCase digits → decodeColor other = .ok color := by
  refine ⟨⟨?_, ?_⟩, fun unspelled => ⟨_, decodeColor_eq_error unspelled, rfl⟩, ?_⟩
  · rintro ⟨color, decoded⟩
    by_contra unspelled
    rw [decodeColor_eq_error unspelled] at decoded
    cases decoded
  · rintro ⟨digits, spelled⟩
    exact ⟨_, spelled.decodeColor_eq⟩
  · intro digits color spelled decoded
    obtain rfl : longColor (expandDigits digits) = color := Except.ok.inj (spelled.decodeColor_eq.symm.trans decoded)
    have hexadecimal := all_isHexDigit_expandDigits spelled.all_isHexDigit
    have length := length_expandDigits spelled.length
    have long : 6 ≤ (expandDigits digits).length := by split at length <;> omega
    have channel (place : Nat) (within : place ≤ 2) :
        (0 : Int) ≤ pairAt place (expandDigits digits) ∧ (pairAt place (expandDigits digits) : Int) ≤ 255 := by
      have bound := (pairAt_spec hexadecimal place (by omega)).1
      omega
    refine ⟨hex_longColor hexadecimal long, ?_, fun six => ?_, fun eight => ?_, fun short signs => ?_, fun other same => ?_⟩
    · refine List.forall_mem_cons.mpr ⟨channel 0 (by decide), List.forall_mem_cons.mpr ⟨channel 1 (by decide), ?_⟩⟩
      exact List.forall_mem_singleton.mpr (channel 2 (by decide))
    · rw [if_pos six] at length
      rw [longColor, length]
      rfl
    · have eight : (expandDigits digits).length = 8 := (length_expandDigits_eq_eight_iff spelled.length).mpr eight
      obtain ⟨small, written⟩ := pairAt_spec hexadecimal 3 (by omega)
      refine ⟨_, small, ?_, by rw [longColor, if_pos eight], share_error small⟩
      rw [written]
      refine List.take_of_length_le ?_
      rw [List.length_drop, lowerCase, lowerAfter_eq_map [] hexadecimal, List.length_map]
      omega
    · have doubled : (digits.flatMap fun digit => [digit, digit]) = expandDigits digits := (if_pos short).symm
      rw [doubled, (spelled.expand signs).decodeColor_eq, expandDigits_expandDigits spelled.length]
    · rw [← spelled.bareDigits_eq] at same
      exact decodeColor_congr same.symm decoded

/-- A literal with two number signs and letters of both cases. -/
theorem decodeColor_spelled_mixed :
    ∃ color, decodeColor "##F0a8".toList = .ok color ∧ color.rgb.hex = "#ff00aa" ∧
      (∃ value : Nat, value < 256 ∧ channelText value = ['8', '8'] ∧ color.alpha = .part (Float.ofNat value / 255)) ∧
      decodeColor "#FF00aa88".toList = .ok color ∧ decodeColor "f0A8".toList = .ok color ∧
      ∃ fault, decodeColor "#F0a80".toList = .error fault ∧ fault.kind = "ValueError" := by
  obtain ⟨accepted, _, colors⟩ := decodeColor_spelled "##F0a8".toList
  have spelled : SpellsColor "F0a8".toList "##F0a8".toList := spellsColor_iff.mpr ⟨by decide, by decide, by decide⟩
  obtain ⟨color, decoded⟩ := accepted.mpr ⟨_, spelled⟩
  obtain ⟨hex, _, _, part, long, cases⟩ := colors _ _ spelled decoded
  obtain ⟨value, small, written, alpha, _⟩ := part (by decide)
  have unspelled : ¬∃ digits, SpellsColor digits "#F0a80".toList := by
    rintro ⟨digits, spelled⟩
    obtain ⟨rfl, length, _⟩ := spellsColor_iff.mp spelled
    exact absurd length (by decide)
  refine ⟨color, decoded, hex.trans (by decide), ⟨value, small, written.trans (by decide), alpha⟩, long (by decide) 1,
    cases _ (by decide), (decodeColor_spelled "#F0a80".toList).2.1 unspelled⟩

end Marginalia
