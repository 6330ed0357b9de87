import Mathlib.Data.Char
import Marginalia.Text.CaseFold
import Marginalia.Text.Word

namespace Marginalia

/-- The letters, digits and underscore of ASCII. -/
def IsPlainLetter (char : Char) : Prop :=
  char.isAlphanum = true ∨ char = '_'

instance : DecidablePred IsPlainLetter :=
  fun _ => inferInstanceAs (Decidable (_ ∨ _))

variable {char wanted : Char}

theorem IsPlainLetter.isWord (plain : IsPlainLetter char) : isWord char = true := by
  rcases plain with alphanumeric | rfl
  · exact isWord_of_isAlphanum alphanumeric
  · exact isWord_underscore

theorem IsPlainLetter.ascii (plain : IsPlainLetter char) : char.toNat < 128 := by
  have below (last : UInt32) (bound : last.toNat < 128) (upTo : char.val ≤ last) : char.toNat < 128 :=
    Nat.lt_of_le_of_lt (UInt32.le_iff_toNat_le.mp upTo) bound
  rcases plain with alphanumeric | rfl
  · rcases Bool.or_eq_true_iff.mp alphanumeric with letter | digit
    · rcases Bool.or_eq_true_iff.mp letter with upper | lower
      · exact below 90 (by decide) (of_decide_eq_true upper).2
      · exact below 122 (by decide) (of_decide_eq_true (Bool.and_eq_true_iff.mp lower).2)
    · exact below 57 (by decide) (of_decide_eq_true (Bool.and_eq_true_iff.mp digit).2)
  · decide

/-- Within ASCII the letters without case are plain exactly if they were before. -/
theorem foldChar_of_ascii (ascii : char.toNat < 128) :
    (foldChar char).toNat < 128 ∧ (IsPlainLetter (foldChar char) ↔ IsPlainLetter char) := by
  have checked : ∀ code < 128, (foldChar (Char.ofNat code)).toNat < 128 ∧
      (IsPlainLetter (foldChar (Char.ofNat code)) ↔ IsPlainLetter (Char.ofNat code)) := by decide +kernel
  have here := checked char.toNat ascii
  rwa [Char.ofNat_toNat] at here

/-- Beyond ASCII the table of lower-case forms leads to code points, to none of the twins, and into ASCII only from single
word characters. -/
theorem lowerSteps_beyond : ∀ step ∈ lowerSteps, 128 ≤ step.2.1 →
    (step.2.1 + step.2.2.2 < 0xD800 ∨ 0xDFFF < step.1 + step.2.2.2 ∧ step.2.1 + step.2.2.2 < 0x110000) ∧
    (∀ twin ∈ [0x131, 0x17F], step.2.1 + step.2.2.2 < twin ∨ twin < step.1 + step.2.2.2) ∧
    (128 ≤ step.1 + step.2.2.2 ∨ step.1 = step.2.1 ∧ wideWordTable.contains step.1 = true) := by
  decide +kernel

theorem isWord_of_wide (wide : 128 ≤ char.toNat) (inTable : wideWordTable.contains char.toNat = true) :
    isWord char = true := by
  simp [isWord, wide, inTable]

/-- Characters beyond ASCII whose lower-case form is in ASCII, or is a twin of such a letter, are word characters. -/
theorem isWord_of_lowerChar (wide : 128 ≤ char.toNat)
    (lowered : (lowerChar char).toNat < 128 ∨ (lowerChar char).toNat ∈ [0x131, 0x17F]) : isWord char = true := by
  rw [lowerChar, if_neg (by omega)] at lowered
  split at lowered
  · rename_i dotted
    refine isWord_of_wide wide ?_
    rw [beq_iff_eq.mp dotted]
    decide +kernel
  · dsimp only at lowered
    split at lowered
    · rename_i first last distance shift found
      have member := List.mem_of_find?_eq_some found
      have range := List.find?_some found
      simp only [Bool.and_eq_true, decide_eq_true_eq] at range
      obtain ⟨valid, untwinned, single⟩ := lowerSteps_beyond _ member (by dsimp only; omega)
      dsimp only at valid untwinned single
      have code : (Char.ofNat (char.toNat + shift).toNat).toNat = (char.toNat + shift).toNat := by
        rw [Char.ofNat, dif_pos (by unfold Nat.isValidChar; omega)]
        rfl
      rw [code] at lowered
      rcases single with beyond | ⟨only, inTable⟩
      · have awayFirst := untwinned 0x131 (by simp)
        have awayLast := untwinned 0x17F (by simp)
        simp only [List.mem_cons, List.not_mem_nil, or_false] at lowered
        omega
      · obtain rfl : char.toNat = first := by omega
        exact isWord_of_wide wide inTable
    · have twins : ∀ twin ∈ [0x131, 0x17F], wideWordTable.contains twin = true := by decide +kernel
      exact isWord_of_wide wide (twins _ (lowered.resolve_left (by omega)))

/-- A character beyond ASCII that is the same letter as one of ASCII is a word character. -/
theorem isWord_of_foldChar (wide : 128 ≤ char.toNat) (folded : (foldChar char).toNat < 128) : isWord char = true := by
  have twins : ∀ entry ∈ caseTwins, (Char.ofNat entry.2).toNat < 128 → entry.1 ∈ [0x131, 0x17F] := by decide +kernel
  refine isWord_of_lowerChar wide ?_
  unfold foldChar at folded
  dsimp only at folded
  split at folded
  · rename_i twin first found
    have atTwin : twin = (lowerChar char).toNat := by simpa using List.find?_some found
    exact Or.inr (atTwin ▸ twins _ (List.mem_of_find?_eq_some found) folded)
  · exact Or.inl folded

/-- A character that is the same letter as a plain one is a word character. -/
theorem IsPlainLetter.isWord_of_sameLetter (plain : IsPlainLetter wanted) (same : sameLetter wanted char = true) :
    Marginalia.isWord char = true := by
  obtain ⟨inAscii, _⟩ := foldChar_of_ascii plain.ascii
  have folds : foldChar wanted = foldChar char := beq_iff_eq.mp same
  by_cases ascii : char.toNat < 128
  · have stays : IsPlainLetter (foldChar wanted) := (foldChar_of_ascii plain.ascii).2.mpr plain
    rw [folds, (foldChar_of_ascii ascii).2] at stays
    exact stays.isWord
  · exact isWord_of_foldChar (by omega) (folds ▸ inAscii)

end Marginalia
