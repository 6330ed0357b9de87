import Mathlib.Data.Char
import Mathlib.Data.List.Basic
import Marginalia.Color.Literal

namespace Marginalia

variable {text left right : List Char} {char : Char}

/-- No character behind the letter f is a hexadecimal digit. -/
theorem hexValue?_eq_none (behind : 'f'.toNat < char.toNat) : hexValue? char = none := by
  have after : ∀ last : Char, last.toNat ≤ 'f'.toNat → ¬char ≤ last := by
    intro last bound before
    have ordered : char.toNat ≤ last.toNat := before
    omega
  rw [hexValue?, if_neg fun range => after _ (by decide) range.2, if_neg fun range => after _ (by decide) range.2,
    if_neg fun range => after _ (by decide) range.2]

/-- What the table of lower-case forms gives outside ASCII lies behind the letter f. -/
theorem lowerSteps_behind : ∀ step ∈ lowerSteps, 128 ≤ step.2.1 → ('f'.toNat : Int) < step.1 + step.2.2.2 := by
  decide +kernel

theorem hexValue?_ofNat_eq_none {code : Nat} (behind : 'f'.toNat < code) : hexValue? (Char.ofNat code) = none := by
  by_cases valid : code.isValidChar
  · refine hexValue?_eq_none ?_
    have code : (Char.ofNat code).toNat = code := by
      rw [Char.ofNat, dif_pos valid]
      rfl
    rwa [code]
  · rw [Char.ofNat, dif_neg valid]
    rfl

/-- Lower-casing a character keeps its value as a hexadecimal digit, and makes none of another character. -/
theorem hexValue?_lowerChar (char : Char) : hexValue? (lowerChar char) = hexValue? char := by
  -- beyond ASCII, where the table is asked, there is no digit, and none comes out of it
  have ascii : ∀ code < 128, hexValue? (lowerChar (Char.ofNat code)) = hexValue? (Char.ofNat code) := by decide
  by_cases inAscii : char.toNat < 128
  · have same := ascii char.toNat inAscii
    rwa [Char.ofNat_toNat] at same
  · have other : hexValue? char = none := hexValue?_eq_none (by change 102 < _; omega)
    rw [lowerChar, if_neg inAscii]
    split
    · rw [other]
      rfl
    · dsimp only
      split
      · rename_i first last distance shift found
        have member := List.mem_of_find?_eq_some found
        have range := List.find?_some found
        simp only [Bool.and_eq_true, decide_eq_true_eq] at range
        have behind := lowerSteps_behind _ member (by dsimp only; omega)
        rw [other]
        refine hexValue?_ofNat_eq_none ?_
        dsimp only at behind
        omega
      · rfl

/-- A character is lowered alone when it is a hexadecimal digit; otherwise what it becomes has a character that is
none. -/
theorem lowerAfter_cons (before : List Char) (char : Char) (rest : List Char) :
    isHexDigit char = true ∧ lowerAfter before (char :: rest) = lowerChar char :: lowerAfter (char :: before) rest ∨
      isHexDigit char = false ∧ (lowerAfter before (char :: rest)).all isHexDigit = false := by
  rw [lowerAfter, List.all_append]
  split
  -- a sigma becomes one of two letters, a dotted capital I becomes two characters; neither is a digit
  · rename_i sigma
    have other : hexValue? char = none := hexValue?_eq_none (by rw [beq_iff_eq.mp sigma]; decide)
    refine Or.inr ⟨by rw [isHexDigit, other]; rfl, Bool.and_eq_false_imp.mpr fun lowered => ?_⟩
    split at lowered <;> cases lowered
  · split
    · rename_i dotted
      have other : hexValue? char = none := hexValue?_eq_none (by rw [beq_iff_eq.mp dotted]; decide)
      exact Or.inr ⟨by rw [isHexDigit, other]; rfl, rfl⟩
    · cases digit : isHexDigit char with
      | true => exact Or.inl ⟨rfl, rfl⟩
      | false =>
        have lowered : isHexDigit (lowerChar char) = false := by rwa [isHexDigit, hexValue?_lowerChar]
        exact Or.inr ⟨rfl, by rw [List.all_cons, lowered, Bool.false_and, Bool.false_and]⟩

/-- Lower-casing keeps a text one of hexadecimal digits, or one that is not. -/
theorem all_isHexDigit_lowerAfter (before text : List Char) :
    (lowerAfter before text).all isHexDigit = text.all isHexDigit := by
  induction text generalizing before with
  | nil => rfl
  | cons char rest ih =>
    rcases lowerAfter_cons before char rest with ⟨digit, lowered⟩ | ⟨other, lowered⟩
    · have head : isHexDigit (lowerChar char) = true := by rwa [isHexDigit, hexValue?_lowerChar]
      rw [lowered, List.all_cons, List.all_cons, head, digit, ih]
    · rw [lowered, List.all_cons, other, Bool.false_and]

theorem map_hexValue?_lowerAfter (before : List Char) {text : List Char} (digits : text.all isHexDigit = true) :
    (lowerAfter before text).map hexValue? = text.map hexValue? := by
  induction text generalizing before with
  | nil => rfl
  | cons char rest ih =>
    obtain ⟨digit, digits⟩ := Bool.and_eq_true_iff.mp digits
    rcases lowerAfter_cons before char rest with ⟨_, lowered⟩ | ⟨other, _⟩
    · rw [lowered, List.map_cons, List.map_cons, hexValue?_lowerChar, ih _ digits]
    · cases digit.symm.trans other

/-- Texts with the same lower-case form have the same hexadecimal digits, if one of them has no other characters. -/
theorem map_hexValue?_eq_of_lowerCase_eq (same : lowerCase left = lowerCase right)
    (digits : left.all isHexDigit = true) :
    right.all isHexDigit = true ∧ left.map hexValue? = right.map hexValue? := by
  have others : right.all isHexDigit = true := by
    rw [← all_isHexDigit_lowerAfter [], ← lowerCase, ← same, lowerCase, all_isHexDigit_lowerAfter, digits]
  refine ⟨others, ?_⟩
  rw [← map_hexValue?_lowerAfter [] digits, ← map_hexValue?_lowerAfter [] others]
  exact congrArg (List.map hexValue?) same

theorem pairAt_congr (same : left.map hexValue? = right.map hexValue?) (place : Nat) :
    pairAt place left = pairAt place right := by
  have pair (digits : List Char) : pairAt place digits =
      (((digits.map hexValue?).drop (2 * place)).take 2).foldl (fun total value => total * 16 + value.getD 0) 0 := by
    rw [pairAt, ← List.map_drop, ← List.map_take, List.foldl_map]
  rw [pair, pair, same]

theorem map_hexValue?_expandDigits (same : left.map hexValue? = right.map hexValue?) :
    (expandDigits left).map hexValue? = (expandDigits right).map hexValue? := by
  have expand (digits : List Char) : (expandDigits digits).map hexValue? =
      if (digits.map hexValue?).length ≤ 4 then (digits.map hexValue?).flatMap fun value => [value, value]
      else digits.map hexValue? := by
    rw [expandDigits, List.length_map, apply_ite (List.map hexValue?), List.map_flatMap, List.flatMap_map]
    rfl
  rw [expand, expand, same]

/-- Literals with the same normalized form stand for the same color. -/
theorem decodeColor_congr {left right : List Char} {color : Rgba}
    (same : lowerCase (bareDigits left) = lowerCase (bareDigits right)) (decoded : decodeColor left = .ok color) :
    decodeColor right = .ok color := by
  unfold decodeColor at decoded ⊢
  dsimp only at decoded ⊢
  split at decoded
  · rename_i readable
    obtain ⟨digits, values⟩ := map_hexValue?_eq_of_lowerCase_eq same readable.2
    have lengths : (bareDigits left).length = (bareDigits right).length := by
      simpa using congrArg List.length values
    have expanded := map_hexValue?_expandDigits values
    rw [if_pos ⟨lengths ▸ readable.1, digits⟩, ← decoded, lengths]
    simp only [pairAt_congr expanded]
  · cases decoded

theorem ColorMatch.swatch_congr {left right : ColorMatch} (same : left.normalized = right.normalized)
    {background : Rgb} {style : Style} (accepted : swatch left.literal background = .ok style) :
    swatch right.literal background = .ok style := by
  unfold swatch at accepted ⊢
  cases decoded : decodeColor left.literal with
  | error fault =>
    rw [decoded] at accepted
    cases accepted
  | ok color =>
    rw [decodeColor_congr (String.ofList_injective same) decoded, ← decoded]
    exact accepted

theorem Family.idStart_append_injective (family : Family) : Function.Injective (family.idStart ++ ·) := by
  intro left right same
  have characters := congrArg String.toList same
  rw [String.toList_append, String.toList_append] at characters
  exact String.toList_injective (List.append_cancel_left characters)

theorem ColorMatch.normalized_eq {left right : ColorMatch} (same : left.styleId = right.styleId) :
    left.normalized = right.normalized :=
  Family.color.idStart_append_injective same

end Marginalia
