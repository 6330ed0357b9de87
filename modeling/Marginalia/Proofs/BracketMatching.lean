import Marginalia.Proofs.BracketStack

namespace Marginalia

theorem Bracket.openedBy?_eq_some_iff {char : Char} {bracket : Bracket} :
    Bracket.openedBy? char = some bracket ↔ char = bracket.opener := by
  constructor
  · intro found
    have same := List.find?_some found
    exact (beq_iff_eq.mp same).symm
  · rintro rfl
    cases bracket <;> decide

theorem Bracket.closedBy?_eq_some_iff {char : Char} {bracket : Bracket} :
    Bracket.closedBy? char = some bracket ↔ char = bracket.closer := by
  constructor
  · intro found
    have same := List.find?_some found
    exact (beq_iff_eq.mp same).symm
  · rintro rfl
    cases bracket <;> decide

theorem OpenBrackets.eq_of_get {left right : OpenBrackets} (same : ∀ bracket, left.get bracket = right.get bracket) :
    left = right := by
  obtain ⟨round, square, curly, angle⟩ := left
  obtain ⟨round', square', curly', angle'⟩ := right
  obtain rfl : round = round' := same .round
  obtain rfl : square = square' := same .square
  obtain rfl : curly = curly' := same .curly
  obtain rfl : angle = angle' := same .angle
  rfl

theorem OpenBrackets.get_none (bracket : Bracket) : OpenBrackets.get {} bracket = [] := by
  cases bracket <;> rfl

/-- What one character does to the openers of all types. -/
def OpenBrackets.read (waiting : OpenBrackets) (char : PlacedChar) : OpenBrackets :=
  ⟨Bracket.round.read waiting.round char, Bracket.square.read waiting.square char,
    Bracket.curly.read waiting.curly char, Bracket.angle.read waiting.angle char⟩

theorem OpenBrackets.get_read (waiting : OpenBrackets) (char : PlacedChar) (bracket : Bracket) :
    (waiting.read char).get bracket = bracket.read (waiting.get bracket) char := by
  cases bracket <;> rfl

theorem OpenBrackets.set_eq_read (waiting : OpenBrackets) {bracket : Bracket} {char : PlacedChar}
    (foreign : ∀ other, other ≠ bracket → other.owns char.2 = false) :
    waiting.set (bracket.read (waiting.get bracket) char) bracket = waiting.read char := by
  apply eq_of_get
  intro other
  rw [get_read]
  by_cases same : other = bracket
  · rw [same, get_set_self]
  · rw [get_set_of_ne _ _ same]
    exact (other.read_other _ char.1 (foreign other same)).symm

theorem OpenBrackets.read_eq_self (waiting : OpenBrackets) {char : PlacedChar}
    (same : ∀ bracket, bracket.read (waiting.get bracket) char = waiting.get bracket) :
    waiting.read char = waiting := by
  apply eq_of_get
  intro bracket
  rw [get_read, same bracket]

theorem Bracket.owns_opener_of_ne {bracket other : Bracket} (different : other ≠ bracket) :
    other.owns bracket.opener = false := by
  cases bracket <;> cases other <;> first | rfl | exact absurd rfl different

theorem Bracket.owns_closer_of_ne {bracket other : Bracket} (different : other ≠ bracket) :
    other.owns bracket.closer = false := by
  cases bracket <;> cases other <;> first | rfl | exact absurd rfl different

/-- The pair that a character completes, if any. -/
def OpenBrackets.answer (waiting : OpenBrackets) (char : PlacedChar) : List BracketPair :=
  match Bracket.closedBy? char.2 with
  | none => []
  | some bracket =>
    match waiting.get bracket with
    | [] => []
    | opened :: outer => [⟨opened, char.1, bracket, outer.length⟩]

theorem OpenBrackets.mem_answer_iff {waiting : OpenBrackets} {char : PlacedChar} {pair : BracketPair} :
    pair ∈ waiting.answer char ↔ char = (pair.closed, pair.bracket.closer) ∧
      ∃ outer, waiting.get pair.bracket = pair.opened :: outer ∧ pair.depth = outer.length := by
  obtain ⟨offset, char⟩ := char
  constructor
  · intro member
    unfold answer at member
    split at member
    · cases member
    · rename_i bracket found
      have closes := Bracket.closedBy?_eq_some_iff.mp found
      split at member
      · cases member
      · rename_i opened outer stack
        cases List.mem_singleton.mp member
        exact ⟨by rw [← closes], outer, stack, rfl⟩
  · obtain ⟨opened, closed, bracket, depth⟩ := pair
    rintro ⟨atClosed, outer, stack, rfl⟩
    cases atClosed
    dsimp only at stack
    simp [answer, Bracket.closedBy?_eq_some_iff.mpr rfl, stack]

theorem matchBrackets_cons (waiting : OpenBrackets) (char : PlacedChar) (rest : List PlacedChar) :
    matchBrackets waiting (char :: rest) = waiting.answer char ++ matchBrackets (waiting.read char) rest := by
  obtain ⟨offset, char⟩ := char
  rw [matchBrackets]
  split
  · rename_i bracket opens
    obtain rfl := Bracket.openedBy?_eq_some_iff.mp opens
    have unclosed : waiting.answer (offset, bracket.opener) = [] := by
      rw [List.eq_nil_iff_forall_not_mem]
      intro pair member
      exact bracket.opener_ne_closer pair.bracket (congrArg Prod.snd (OpenBrackets.mem_answer_iff.mp member).1)
    rw [unclosed, List.nil_append, ← waiting.set_eq_read fun other different => Bracket.owns_opener_of_ne different,
      Bracket.read_opener]
  · rename_i bracket opens closes
    obtain rfl := Bracket.closedBy?_eq_some_iff.mp closes
    have turned := @OpenBrackets.set_eq_read waiting bracket (offset, bracket.closer) fun other different =>
      Bracket.owns_closer_of_ne different
    rw [Bracket.read_closer] at turned
    simp only [OpenBrackets.answer, closes]
    cases stack : waiting.get bracket with
    | nil =>
      dsimp only
      rw [List.nil_append, waiting.read_eq_self]
      intro other
      by_cases same : other = bracket
      · rw [same, Bracket.read_closer, stack, List.tail_nil]
      · exact other.read_other _ offset (Bracket.owns_closer_of_ne same)
    | cons opened outer =>
      rw [stack, List.tail_cons] at turned
      dsimp only
      rw [turned]
      rfl
  · rename_i opens closes
    have foreign (bracket : Bracket) : bracket.owns char = false := by
      rcases bracket.owns_cases char with rfl | rfl | foreign
      · cases opens.symm.trans (Bracket.openedBy?_eq_some_iff.mpr rfl)
      · cases closes.symm.trans (Bracket.closedBy?_eq_some_iff.mpr rfl)
      · exact foreign
    have unclosed : waiting.answer (offset, char) = [] := by
      simp [OpenBrackets.answer, closes]
    rw [unclosed, List.nil_append, waiting.read_eq_self fun bracket => bracket.read_other _ offset (foreign bracket)]

/-- A closer makes a pair with the opener that waits first in line before it. -/
theorem mem_matchBrackets_iff {waiting : OpenBrackets} {chars : List PlacedChar} {pair : BracketPair} :
    pair ∈ matchBrackets waiting chars ↔ ∃ before after outer,
      chars = before ++ (pair.closed, pair.bracket.closer) :: after ∧
        pair.bracket.pending (waiting.get pair.bracket) before = pair.opened :: outer ∧
        pair.depth = outer.length := by
  induction chars generalizing waiting with
  | nil => simp [matchBrackets]
  | cons char rest ih =>
    rw [matchBrackets_cons, List.mem_append, OpenBrackets.mem_answer_iff, ih]
    constructor
    · rintro (⟨rfl, outer, stack, deep⟩ | ⟨before, after, outer, rfl, stack, deep⟩)
      · exact ⟨[], rest, outer, rfl, stack, deep⟩
      · refine ⟨char :: before, after, outer, rfl, ?_, deep⟩
        rw [OpenBrackets.get_read] at stack
        exact stack
    · rintro ⟨before, after, outer, split, stack, deep⟩
      cases before with
      | nil =>
        obtain ⟨rfl, rfl⟩ := List.cons.inj split
        exact Or.inl ⟨rfl, outer, stack, deep⟩
      | cons first before =>
        obtain ⟨rfl, rfl⟩ := List.cons.inj split
        refine Or.inr ⟨before, after, outer, rfl, ?_, deep⟩
        rw [OpenBrackets.get_read]
        exact stack

theorem matchBrackets_closed_sublist (waiting : OpenBrackets) (chars : List PlacedChar) :
    ((matchBrackets waiting chars).map (·.closed)).Sublist (chars.map (·.1)) := by
  induction chars generalizing waiting with
  | nil => simp [matchBrackets]
  | cons char rest ih =>
    rw [matchBrackets_cons, List.map_append, List.map_cons, ← List.singleton_append]
    refine List.Sublist.append ?_ (ih _)
    unfold OpenBrackets.answer
    split
    · exact List.nil_sublist _
    · split
      · exact List.nil_sublist _
      · exact List.Sublist.refl _

end Marginalia
