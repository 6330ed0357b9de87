import Marginalia.Proofs.CursorPlaces
import Marginalia.Text.Carve

namespace Marginalia

variable {κ : Type}

/-- An opener that never takes more than there is. -/
def Opener.Bounded (opener : Opener κ) : Prop :=
  ∀ before text kind length, opener before text = some (kind, length) → length ≤ text.length

def Piece.start : Piece κ → Nat
  | .region extent => extent.start
  | .plain offset _ => offset

def Piece.stop : Piece κ → Nat
  | .region extent => extent.stop
  | .plain offset _ => offset + 1

/-- A piece stands where the opener wants it: a region where it opens, a plain character where nothing does. -/
def Piece.FitsIn (opener : Opener κ) (content : List Char) : Piece κ → Prop
  | .region extent =>
    extent.start < extent.stop ∧ extent.stop ≤ content.length ∧
      opener (content.take extent.start).getLast? (content.drop extent.start) =
        some (extent.kind, extent.stop - extent.start)
  | .plain offset char =>
    content[offset]? = some char ∧
      ∀ kind more, opener (content.take offset).getLast? (content.drop offset) ≠ some (kind, more + 1)

theorem lengthThrough_le (mark text : List Char) : lengthThrough mark text ≤ text.length := by
  induction text with
  | nil => simp [lengthThrough]
  | cons char rest ih =>
    unfold lengthThrough
    split
    · rename_i closes
      exact (List.isPrefixOf_iff_prefix.mp closes).length_le
    · exact Nat.succ_le_succ ih

theorem lineLength_le (text : List Char) : lineLength text ≤ text.length :=
  (List.takeWhile_prefix _).length_le

theorem Cursor.StandsIn.carved {content rest : List Char} {offset more : Nat} {before : Option Char} {char : Char}
    (stands : (⟨offset, before, char :: rest⟩ : Cursor).StandsIn content) (within : more ≤ rest.length) :
    (⟨offset + more + 1, some ((rest.take more).getLastD char), rest.drop more⟩ : Cursor).StandsIn content := by
  have moved := stands.step.behind (List.take_prefix more rest)
  have last : ((rest.take more).getLast?).or (some char) = some ((rest.take more).getLastD char) := by
    rw [List.getLastD_eq_getLast?]
    cases (rest.take more).getLast? <;> rfl
  simpa only [Cursor.behind, List.length_take, Nat.min_eq_left within, last, Nat.add_right_comm] using moved

section steps

variable {opener : Opener κ} {offset more : Nat} {before : Option Char} {char : Char} {rest : List Char} {kind : κ}

theorem carve_region (opens : opener before (char :: rest) = some (kind, more + 1)) :
    carve opener offset before (char :: rest) = .region ⟨offset, offset + more + 1, kind⟩ ::
      carve opener (offset + more + 1) (some ((rest.take more).getLastD char)) (rest.drop more) := by
  rw [carve, opens]

theorem carve_plain (closed : ∀ kind more, opener before (char :: rest) ≠ some (kind, more + 1)) :
    carve opener offset before (char :: rest) = .plain offset char :: carve opener (offset + 1) (some char) rest := by
  rw [carve]
  split
  · rename_i opens
    exact absurd opens (closed _ _)
  · rfl

end steps

/-- Every piece lies behind the offset at which reading began, and stands where it has to. -/
theorem carve_pieces {opener : Opener κ} (bounded : Opener.Bounded opener) {content : List Char} {offset : Nat}
    {before : Option Char} {text : List Char} (stands : (⟨offset, before, text⟩ : Cursor).StandsIn content) :
    ∀ piece ∈ carve opener offset before text, offset ≤ piece.start ∧ piece.FitsIn opener content := by
  fun_induction carve opener offset before text with
  | case1 => simp
  | case2 offset before char rest kind more opens ih =>
    have within : more ≤ rest.length := by
      have bound := bounded _ _ _ _ opens
      simp only [List.length_cons] at bound
      omega
    have next := stands.carved within
    have total := next.within
    dsimp only at total
    intro piece member
    rcases List.mem_cons.mp member with rfl | member
    · refine ⟨Nat.le_refl _, by dsimp only; omega, by dsimp only; omega, ?_⟩
      have span : offset + more + 1 - offset = more + 1 := by omega
      rw [← stands.before_eq, ← stands.rest_eq, span]
      exact opens
    · obtain ⟨lower, fits⟩ := ih next piece member
      exact ⟨by omega, fits⟩
  | case3 offset before char rest closed ih =>
    intro piece member
    rcases List.mem_cons.mp member with rfl | member
    · refine ⟨Nat.le_refl _, ?_, ?_⟩
      · have atOffset : (content.drop offset)[0]? = some char := by
          rw [← stands.rest_eq]
          rfl
        simpa using atOffset
      · rw [← stands.before_eq, ← stands.rest_eq]
        exact closed
    · obtain ⟨lower, fits⟩ := ih stands.step piece member
      exact ⟨by omega, fits⟩

theorem carve_ordered {opener : Opener κ} (bounded : Opener.Bounded opener) {content : List Char} {offset : Nat}
    {before : Option Char} {text : List Char} (stands : (⟨offset, before, text⟩ : Cursor).StandsIn content) :
    (carve opener offset before text).Pairwise fun left right => left.stop ≤ right.start := by
  fun_induction carve opener offset before text with
  | case1 => exact .nil
  | case2 offset before char rest kind more opens ih =>
    have within : more ≤ rest.length := by
      have bound := bounded _ _ _ _ opens
      simp only [List.length_cons] at bound
      omega
    have next := stands.carved within
    exact .cons (fun piece member => (carve_pieces bounded next piece member).1) (ih next)
  | case3 offset before char rest closed ih =>
    exact .cons (fun piece member => (carve_pieces bounded stands.step piece member).1) (ih stands.step)

/-- Nothing of the text is left out. -/
theorem carve_covers (opener : Opener κ) (offset : Nat) (before : Option Char) (text : List Char) (place : Nat)
    (lower : offset ≤ place) (upper : place < offset + text.length) :
    ∃ piece ∈ carve opener offset before text, piece.start ≤ place ∧ place < piece.stop := by
  fun_induction carve opener offset before text with
  | case1 => simp only [List.length_nil] at upper; omega
  | case2 offset before char rest kind more opens ih =>
    by_cases inside : place < offset + more + 1
    · exact ⟨_, List.mem_cons_self .., lower, inside⟩
    · simp only [List.length_cons] at upper
      obtain ⟨piece, member, covers⟩ := ih (by omega) (by rw [List.length_drop]; omega)
      exact ⟨piece, List.mem_cons_of_mem _ member, covers⟩
  | case3 offset before char rest closed ih =>
    by_cases here : place = offset
    · exact ⟨_, List.mem_cons_self .., by simp [Piece.start, here], by simp [Piece.stop, here]⟩
    · simp only [List.length_cons] at upper
      obtain ⟨piece, member, covers⟩ := ih (by omega) (by omega)
      exact ⟨piece, List.mem_cons_of_mem _ member, covers⟩

end Marginalia
