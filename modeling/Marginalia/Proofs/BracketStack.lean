import Marginalia.Lexical.Bracket
import Mathlib.Data.List.Nodup

namespace Marginalia

/-- A character together with its offset. -/
abbrev PlacedChar := Nat × Char

def Bracket.owns (bracket : Bracket) (char : Char) : Bool :=
  char == bracket.opener || char == bracket.closer

/-- The brackets of one type among characters. -/
def Bracket.text (bracket : Bracket) (chars : List PlacedChar) : List Char :=
  (chars.map (·.2)).filter bracket.owns

/-- Every opener has its closer behind it, and nothing else is there. -/
inductive Bracket.Balanced (bracket : Bracket) : List Char → Prop
  | empty : Balanced bracket []
  | enclose {inner after : List Char} : Balanced bracket inner → Balanced bracket after →
      Balanced bracket (bracket.opener :: (inner ++ bracket.closer :: after))

theorem Bracket.Balanced.append {bracket : Bracket} {left right : List Char} (balanced : bracket.Balanced left)
    (balanced' : bracket.Balanced right) : bracket.Balanced (left ++ right) := by
  induction balanced with
  | empty => exact balanced'
  | @enclose inner after enclosed _ _ ih =>
    rw [List.cons_append, List.append_assoc, List.cons_append]
    exact .enclose enclosed ih

/-- What one character does to the openers of a type that wait for their closers. -/
def Bracket.read (bracket : Bracket) (waiting : List Nat) (char : PlacedChar) : List Nat :=
  if char.2 = bracket.opener then char.1 :: waiting
  else if char.2 = bracket.closer then waiting.tail
  else waiting

/-- The openers of a type that still wait behind some characters, the last one first. -/
def Bracket.pending (bracket : Bracket) (waiting : List Nat) (chars : List PlacedChar) : List Nat :=
  chars.foldl bracket.read waiting

theorem Bracket.opener_ne_closer (bracket other : Bracket) : bracket.opener ≠ other.closer := by
  cases bracket <;> cases other <;> decide

theorem Bracket.opener_injective {bracket other : Bracket} (same : bracket.opener = other.opener) :
    bracket = other := by
  cases bracket <;> cases other <;> first | rfl | exact absurd same (by decide)

section reading

variable (bracket : Bracket) (waiting : List Nat) (offset : Nat)

theorem Bracket.read_opener : bracket.read waiting (offset, bracket.opener) = offset :: waiting := by
  simp [read]

theorem Bracket.read_closer : bracket.read waiting (offset, bracket.closer) = waiting.tail := by
  simp [read, (bracket.opener_ne_closer bracket).symm]

theorem Bracket.read_other {char : Char} (foreign : bracket.owns char = false) :
    bracket.read waiting (offset, char) = waiting := by
  simp only [owns, Bool.or_eq_false_iff, beq_eq_false_iff_ne] at foreign
  simp [read, foreign.1, foreign.2]

theorem Bracket.owns_cases (char : Char) :
    char = bracket.opener ∨ char = bracket.closer ∨ bracket.owns char = false := by
  by_cases opens : char = bracket.opener
  · exact Or.inl opens
  · by_cases closes : char = bracket.closer
    · exact Or.inr (Or.inl closes)
    · exact Or.inr (Or.inr (by simp [owns, opens, closes]))

theorem Bracket.pending_append (chars later : List PlacedChar) :
    bracket.pending waiting (chars ++ later) = bracket.pending (bracket.pending waiting chars) later :=
  List.foldl_append

theorem Bracket.text_append (chars later : List PlacedChar) :
    bracket.text (chars ++ later) = bracket.text chars ++ bracket.text later := by
  simp [text]

theorem Bracket.text_opener (chars : List PlacedChar) :
    bracket.text ((offset, bracket.opener) :: chars) = bracket.opener :: bracket.text chars := by
  simp [text, owns]

theorem Bracket.text_closer (chars : List PlacedChar) :
    bracket.text ((offset, bracket.closer) :: chars) = bracket.closer :: bracket.text chars := by
  simp [text, owns]

theorem Bracket.text_other {char : Char} (foreign : bracket.owns char = false) (chars : List PlacedChar) :
    bracket.text ((offset, char) :: chars) = bracket.text chars := by
  simp [text, foreign]

end reading

/-- Characters of other kinds do not count. -/
theorem Bracket.pending_filter (bracket : Bracket) (waiting : List Nat) (chars : List PlacedChar) :
    bracket.pending waiting (chars.filter (bracket.owns ·.2)) = bracket.pending waiting chars := by
  induction chars generalizing waiting with
  | nil => rfl
  | cons char rest ih =>
    obtain ⟨offset, char⟩ := char
    rcases bracket.owns_cases char with rfl | rfl | foreign
    · rw [List.filter_cons_of_pos (by simp [owns])]
      exact ih _
    · rw [List.filter_cons_of_pos (by simp [owns])]
      exact ih _
    · rw [List.filter_cons_of_neg (by simp [foreign]), ih]
      exact congrArg (bracket.pending · rest) (bracket.read_other waiting offset foreign).symm

/-- Behind balanced brackets the same openers wait as before. -/
theorem Bracket.Balanced.pending_eq {bracket : Bracket} {word : List Char} (balanced : bracket.Balanced word)
    {chars : List PlacedChar} (spells : chars.map (·.2) = word) (waiting : List Nat) :
    bracket.pending waiting chars = waiting := by
  induction balanced generalizing chars waiting with
  | empty => rw [List.map_eq_nil_iff.mp spells]; rfl
  | @enclose inner after _ _ ihInner ihAfter =>
    obtain ⟨⟨opened, opener⟩, tail, rfl, atOpened, spellsTail⟩ := List.map_eq_cons_iff.mp spells
    obtain ⟨innerChars, behind, rfl, spellsInner, spellsBehind⟩ := List.map_eq_append_iff.mp spellsTail
    obtain ⟨⟨closed, closer⟩, afterChars, rfl, atClosed, spellsAfter⟩ := List.map_eq_cons_iff.mp spellsBehind
    dsimp only at atOpened atClosed
    subst atOpened atClosed
    have inside := ihInner spellsInner (opened :: waiting)
    calc bracket.pending waiting ((opened, bracket.opener) :: (innerChars ++ (closed, bracket.closer) :: afterChars))
        = bracket.pending (opened :: waiting) (innerChars ++ (closed, bracket.closer) :: afterChars) :=
          congrArg (bracket.pending · _) (bracket.read_opener waiting opened)
      _ = bracket.pending (bracket.read (opened :: waiting) (closed, bracket.closer)) afterChars := by
          rw [bracket.pending_append, inside]; rfl
      _ = bracket.pending waiting afterChars := by rw [bracket.read_closer, List.tail_cons]
      _ = waiting := ihAfter spellsAfter waiting

theorem Bracket.pending_of_balanced {bracket : Bracket} {chars : List PlacedChar}
    (balanced : bracket.Balanced (bracket.text chars)) (waiting : List Nat) :
    bracket.pending waiting chars = waiting := by
  rw [← bracket.pending_filter]
  exact balanced.pending_eq (by rw [text, List.filter_map]; rfl) waiting

/-- An opener waits first in line just when it was read and everything of its type behind it is balanced. -/
theorem Bracket.pending_eq_cons_iff {bracket : Bracket} {chars : List PlacedChar} {opened : Nat} {outer : List Nat} :
    bracket.pending [] chars = opened :: outer ↔
      ∃ before after, chars = before ++ (opened, bracket.opener) :: after ∧
        bracket.Balanced (bracket.text after) ∧ bracket.pending [] before = outer := by
  constructor
  · intro waits
    induction size : chars.length using Nat.strongRecOn generalizing chars opened outer with
    | ind size ih =>
      subst size
      rcases List.eq_nil_or_concat chars with rfl | ⟨init, ⟨offset, char⟩, rfl⟩
      · cases waits
      · have shorter : init.length < (init.concat (offset, char)).length := by simp
        rw [List.concat_eq_append] at waits ⊢
        rw [bracket.pending_append] at waits
        rcases bracket.owns_cases char with rfl | rfl | foreign
        · obtain ⟨rfl, rfl⟩ := List.cons.inj ((bracket.read_opener _ offset).symm.trans waits)
          exact ⟨init, [], rfl, .empty, rfl⟩
        · have popped : (bracket.pending [] init).tail = opened :: outer :=
            (bracket.read_closer _ offset).symm.trans waits
          obtain ⟨closedBy, below⟩ : ∃ top, bracket.pending [] init = top :: opened :: outer := by
            cases stack : bracket.pending [] init with
            | nil => simp [stack] at popped
            | cons top rest => exact ⟨top, by rw [← popped, stack]; rfl⟩
          -- the closer answers `closedBy`; what waited under it was balanced off just before it
          obtain ⟨front, inner, rfl, innerBalanced, below⟩ := ih _ shorter below rfl
          have shorter' : front.length <
              ((front ++ (closedBy, bracket.opener) :: inner).concat (offset, bracket.closer)).length := by
            simp only [List.concat_eq_append, List.length_append, List.length_cons]
            omega
          obtain ⟨before, between, rfl, betweenBalanced, rest⟩ := ih _ shorter' below rfl
          refine ⟨before, between ++ (closedBy, bracket.opener) :: (inner ++ [(offset, bracket.closer)]),
            by simp, ?_, rest⟩
          rw [bracket.text_append, bracket.text_opener, bracket.text_append, bracket.text_closer]
          exact betweenBalanced.append (.enclose innerBalanced .empty)
        · have same : bracket.pending [] init = opened :: outer :=
            (bracket.read_other _ offset foreign).symm.trans waits
          obtain ⟨before, after, rfl, balanced, rest⟩ := ih _ shorter same rfl
          refine ⟨before, after ++ [(offset, char)], by simp, ?_, rest⟩
          rwa [bracket.text_append, bracket.text_other _ foreign, show bracket.text [] = [] from rfl, List.append_nil]
  · rintro ⟨before, after, rfl, balanced, rfl⟩
    rw [bracket.pending_append]
    exact (congrArg (bracket.pending · after) (bracket.read_opener _ opened)).trans
      (pending_of_balanced balanced _)

theorem Bracket.mem_of_mem_pending {bracket : Bracket} {waiting : List Nat} {chars : List PlacedChar} {offset : Nat}
    (waits : offset ∈ bracket.pending waiting chars) : offset ∈ waiting ∨ (offset, bracket.opener) ∈ chars := by
  induction chars generalizing waiting with
  | nil => exact Or.inl waits
  | cons char rest ih =>
    obtain ⟨place, char⟩ := char
    rcases ih waits with waits | later
    · rcases bracket.owns_cases char with rfl | rfl | foreign
      · rw [bracket.read_opener] at waits
        rcases List.mem_cons.mp waits with rfl | old
        · exact Or.inr (List.mem_cons_self ..)
        · exact Or.inl old
      · rw [bracket.read_closer] at waits
        exact Or.inl (List.mem_of_mem_tail waits)
      · rw [bracket.read_other _ _ foreign] at waits
        exact Or.inl waits
    · exact Or.inr (List.mem_cons_of_mem _ later)

/-- An opener waits until a closer takes it, at which moment it is first in line. -/
theorem Bracket.pending_or_closed {bracket : Bracket} {waiting : List Nat} {offset : Nat} (waits : offset ∈ waiting)
    (chars : List PlacedChar) :
    offset ∈ bracket.pending waiting chars ∨ ∃ before closed after outer,
      chars = before ++ (closed, bracket.closer) :: after ∧ bracket.pending waiting before = offset :: outer := by
  induction chars generalizing waiting with
  | nil => exact Or.inl waits
  | cons char rest ih =>
    have step (still : offset ∈ bracket.read waiting char) :
        offset ∈ bracket.pending waiting (char :: rest) ∨ ∃ before closed after outer,
          char :: rest = before ++ (closed, bracket.closer) :: after ∧
            bracket.pending waiting before = offset :: outer := by
      rcases ih still with waits | ⟨before, closed, after, outer, rfl, first⟩
      · exact Or.inl waits
      · exact Or.inr ⟨char :: before, closed, after, outer, rfl, first⟩
    obtain ⟨place, char⟩ := char
    rcases bracket.owns_cases char with rfl | rfl | foreign
    · exact step (by rw [bracket.read_opener]; exact List.mem_cons_of_mem _ waits)
    · cases waiting with
      | nil => cases waits
      | cons top outer =>
        rcases List.mem_cons.mp waits with rfl | under
        · exact Or.inr ⟨[], place, rest, outer, rfl, rfl⟩
        · exact step (by rw [bracket.read_closer]; exact under)
    · exact step (by rw [bracket.read_other _ _ foreign]; exact waits)

/-- Openers wait at places of their own. -/
theorem Bracket.pending_nodup {bracket : Bracket} {waiting : List Nat} {chars : List PlacedChar}
    (apart : (waiting ++ chars.map (·.1)).Nodup) : (bracket.pending waiting chars).Nodup := by
  induction chars generalizing waiting with
  | nil => simpa [pending] using apart
  | cons char rest ih =>
    obtain ⟨place, char⟩ := char
    refine ih ?_
    rcases bracket.owns_cases char with rfl | rfl | foreign
    · rw [bracket.read_opener]
      exact List.nodup_middle.mp apart
    · rw [bracket.read_closer]
      exact apart.sublist ((List.tail_sublist _).append (List.sublist_cons_self ..))
    · rw [bracket.read_other _ _ foreign]
      exact apart.sublist ((List.Sublist.refl _).append (List.sublist_cons_self ..))

end Marginalia
