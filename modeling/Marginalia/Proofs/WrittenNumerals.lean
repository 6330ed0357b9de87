import Marginalia.Attribution.Porcelain
import Mathlib.Algebra.Ring.Nat
import Mathlib.Data.Char

namespace Marginalia

variable {text : List Char} {char : Char}

theorem isWritable_iff {value : Int} : isWritable value = true ↔ value.natAbs < 10 ^ numeralLimit := by
  rw [isWritable, decide_eq_true_iff, Nat.toString_eq_repr, Nat.length_repr_le_iff (by decide)]

/-- A digit of ASCII is read with its distance from the zero. -/
theorem digitValue?_of_isDigit (digit : char.isDigit = true) : digitValue? char = some (char.toNat - '0'.toNat) := by
  have codes : 0x30 ≤ char.toNat ∧ char.toNat ≤ 0x39 := by
    simp only [Char.isDigit, Bool.and_eq_true, decide_eq_true_eq, ge_iff_le, UInt32.le_iff_toNat_le] at digit
    exact digit
  have found : ∀ code < 0x3A, 0x30 ≤ code →
      (digitZeros.find? fun first => first ≤ code && code < first + 10) = some 0x30 := by decide
  rw [digitValue?, found _ (by omega) codes.1]
  rfl

theorem not_isNumeralBlank_of_isDigit (digit : char.isDigit = true) : isNumeralBlank char = false := by
  have none : ∀ code < 128, (Char.ofNat code).isDigit = true → isNumeralBlank (Char.ofNat code) = false := by decide
  have ascii : char.toNat < 128 := by
    simp only [Char.isDigit, Bool.and_eq_true, decide_eq_true_eq, ge_iff_le, UInt32.le_iff_toNat_le] at digit
    change _ ∧ char.toNat ≤ 57 at digit
    omega
  have here := none char.toNat ascii
  rw [Char.ofNat_toNat] at here
  exact here digit

theorem digitRun?_of_isDigit (nonempty : text ≠ []) (digits : ∀ char ∈ text, char.isDigit = true) :
    digitRun? text = some (text.map fun char => char.toNat - '0'.toNat) := by
  induction text with
  | nil => exact absurd rfl nonempty
  | cons char rest ih =>
    obtain ⟨here, later⟩ := List.forall_mem_cons.mp digits
    cases rest with
    | nil =>
      unfold digitRun?
      rw [digitValue?_of_isDigit here]
      rfl
    | cons next rest =>
      have unseparated : ¬(next == '_') = true := by
        intro separator
        have digit := later next (List.mem_cons_self ..)
        rw [beq_iff_eq.mp separator] at digit
        exact absurd digit (by decide)
      unfold digitRun?
      rw [digitValue?_of_isDigit here]
      dsimp only
      rw [if_neg unseparated, ih (List.cons_ne_nil _ _) later]
      rfl

theorem trimBy_of_none {drops : Char → Bool} (none : ∀ char ∈ text, drops char = false) : trimBy drops text = text := by
  have kept : ∀ chars : List Char, (∀ char ∈ chars, drops char = false) → chars.dropWhile drops = chars := by
    intro chars none
    cases chars with
    | nil => rfl
    | cons char rest => exact List.dropWhile_cons_of_neg (by simp [none char (List.mem_cons_self ..)])
  rw [trimBy, kept text none, kept text.reverse (by simpa using none), List.reverse_reverse]

/-- The decimal numeral of a number is read back, as far as numerals are read at all. -/
theorem unsignedNumeral?_toDigits (value : Nat) (short : (Nat.toDigits 10 value).length ≤ numeralLimit) :
    unsignedNumeral? (Nat.toDigits 10 value) = some value := by
  have digits : ∀ char ∈ Nat.toDigits 10 value, char.isDigit = true := fun char member =>
    Nat.isDigit_of_mem_toDigits (by decide) (by decide) member
  have total : ofDigits ((Nat.toDigits 10 value).map fun char => char.toNat - '0'.toNat) = value := by
    rw [ofDigits, List.foldl_map]
    exact Nat.ofDigitChars_ten_toDigits
  unfold unsignedNumeral?
  rw [digitRun?_of_isDigit Nat.toDigits_ne_nil digits]
  change (if _ then _ else _) = _
  rw [if_pos (by simpa using short), total]

theorem isNumeral_toDigits (value : Nat) : isNumeral (Nat.toDigits 10 value) = true := by
  have digits : (Nat.toDigits 10 value).all isDigit = true := by
    refine List.all_eq_true.mpr fun char member => ?_
    rw [isDigit, digitValue?_of_isDigit (Nat.isDigit_of_mem_toDigits (by decide) (by decide) member)]
    rfl
  have nonempty : (Nat.toDigits 10 value).isEmpty = false := by
    rw [List.isEmpty_eq_false_iff]
    exact Nat.toDigits_ne_nil
  rw [isNumeral, digits, nonempty]
  rfl

/-- A text that begins with a digit has no sign. -/
theorem readInteger?_of_isDigit {value : Nat} (digits : ∀ char ∈ text, char.isDigit = true)
    (read : unsignedNumeral? text = some value) : readInteger? text = some (value : Int) := by
  have trimmed : trimBy isNumeralBlank text = text :=
    trimBy_of_none fun char member => not_isNumeralBlank_of_isDigit (digits char member)
  rw [readInteger?, trimmed]
  split
  · exact absurd (digits '-' (List.mem_cons_self ..)) (by decide)
  · exact absurd (digits '+' (List.mem_cons_self ..)) (by decide)
  · rw [read]
    rfl

theorem readInteger?_minus {value : Nat} (digits : ∀ char ∈ text, char.isDigit = true)
    (read : unsignedNumeral? text = some value) : readInteger? ('-' :: text) = some (-(value : Int)) := by
  have unblank : ∀ char ∈ '-' :: text, isNumeralBlank char = false :=
    List.forall_mem_cons.mpr ⟨by decide, fun char member => not_isNumeralBlank_of_isDigit (digits char member)⟩
  rw [readInteger?, trimBy_of_none unblank]
  simp only [read]
  rfl

theorem toList_toString (value : Int) :
    (toString value).toList = (if 0 ≤ value then [] else ['-']) ++ Nat.toDigits 10 value.natAbs := by
  rw [Int.toString_eq_repr, Int.repr_eq_if]
  by_cases positive : 0 ≤ value
  · have size : value.toNat = value.natAbs := by omega
    rw [if_pos positive, if_pos positive, Nat.toList_repr, size, List.nil_append]
  · have size : (-value).toNat = value.natAbs := by omega
    rw [if_neg positive, if_neg positive, String.toList_append, Nat.toList_repr, size]
    rfl

/-- An integer as it is written is read back. -/
theorem readInteger?_toString (value : Int) (short : isWritable value = true) :
    readInteger? (toString value).toList = some value := by
  have length : (Nat.toDigits 10 value.natAbs).length ≤ numeralLimit := by
    have written := of_decide_eq_true short
    rwa [Nat.toString_eq_repr, ← String.length_toList, Nat.toList_repr] at written
  have digits : ∀ char ∈ Nat.toDigits 10 value.natAbs, char.isDigit = true := fun char member =>
    Nat.isDigit_of_mem_toDigits (by decide) (by decide) member
  have read := unsignedNumeral?_toDigits value.natAbs length
  rw [toList_toString]
  by_cases positive : 0 ≤ value
  · rw [if_pos positive, List.nil_append, readInteger?_of_isDigit digits read, Int.natAbs_of_nonneg positive]
  · have sign : -(value.natAbs : Int) = value := by omega
    rw [if_neg positive, List.singleton_append, readInteger?_minus digits read, sign]

end Marginalia
