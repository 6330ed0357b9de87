import Marginalia.Proofs.BracketMatching
import Mathlib.Data.List.Pairwise

namespace Marginalia

/-- Characters in the order of their places. -/
def Rising (chars : List PlacedChar) : Prop :=
  chars.Pairwise fun left right => left.1 < right.1

/-- The characters strictly between two places. -/
def charsBetween (chars : List PlacedChar) (opened closed : Nat) : List PlacedChar :=
  chars.filter fun char => opened < char.1 ∧ char.1 < closed

/-- Among characters, an opener and a closer with nothing but balanced brackets of their type between them. -/
def Bracket.Pairs (bracket : Bracket) (chars : List PlacedChar) (opened closed : Nat) : Prop :=
  ∃ front middle after,
    chars = front ++ (opened, bracket.opener) :: (middle ++ (closed, bracket.closer) :: after) ∧
      bracket.Balanced (bracket.text middle)

section rising

variable {front middle after : List PlacedChar} {char : PlacedChar}

theorem Rising.before (rising : Rising (front ++ char :: after)) : Rising front :=
  (List.pairwise_append.mp rising).1

theorem Rising.lt_of_mem_front (rising : Rising (front ++ char :: after)) {other : PlacedChar}
    (member : other ∈ front) : other.1 < char.1 :=
  (List.pairwise_append.mp rising).2.2 other member char (List.mem_cons_self ..)

theorem Rising.lt_of_mem_after (rising : Rising (front ++ char :: after)) {other : PlacedChar}
    (member : other ∈ after) : char.1 < other.1 :=
  (List.pairwise_cons.mp (List.pairwise_append.mp rising).2.1).1 other member

theorem Rising.nodup {chars : List PlacedChar} (rising : Rising chars) : (chars.map (·.1)).Nodup :=
  List.pairwise_map.mpr (rising.imp Nat.ne_of_lt)

theorem Rising.filter_before (rising : Rising (front ++ char :: after)) :
    (front ++ char :: after).filter (fun other => other.1 < char.1) = front := by
  have inFront : ∀ other ∈ front, decide (other.1 < char.1) = true := fun other member =>
    decide_eq_true (rising.lt_of_mem_front member)
  have behind : ∀ other ∈ char :: after, ¬decide (other.1 < char.1) = true := by
    intro other member
    rw [decide_eq_true_eq]
    rcases List.mem_cons.mp member with rfl | later
    · exact Nat.lt_irrefl _
    · exact Nat.lt_asymm (rising.lt_of_mem_after later)
  rw [List.filter_append, List.filter_eq_self.mpr inFront, List.filter_eq_nil_iff.mpr behind, List.append_nil]

theorem Rising.charsBetween_eq {char' : PlacedChar} (rising : Rising (front ++ char :: (middle ++ char' :: after))) :
    charsBetween (front ++ char :: (middle ++ char' :: after)) char.1 char'.1 = middle := by
  have regrouped : front ++ char :: (middle ++ char' :: after) = (front ++ char :: middle) ++ char' :: after := by
    simp
  have toRight : Rising ((front ++ char :: middle) ++ char' :: after) := regrouped ▸ rising
  have outside : ∀ other ∈ front ++ [char], ¬decide (char.1 < other.1) = true := by
    intro other member
    rw [decide_eq_true_eq]
    rcases List.mem_append.mp member with inFront | here
    · exact Nat.lt_asymm (rising.lt_of_mem_front inFront)
    · rw [List.mem_singleton.mp here]
      exact Nat.lt_irrefl _
  have inside : ∀ other ∈ middle, decide (char.1 < other.1) = true := fun other member =>
    decide_eq_true (rising.lt_of_mem_after (List.mem_append_left _ member))
  calc charsBetween (front ++ char :: (middle ++ char' :: after)) char.1 char'.1
      = (((front ++ char :: middle) ++ char' :: after).filter fun other => other.1 < char'.1).filter
          fun other => char.1 < other.1 := by
        rw [List.filter_filter, charsBetween, regrouped]
        simp only [Bool.decide_and]
    _ = ((front ++ [char]) ++ middle).filter fun other => char.1 < other.1 := by
        rw [toRight.filter_before, List.append_assoc, List.singleton_append]
    _ = middle := by
        rw [List.filter_append, List.filter_eq_nil_iff.mpr outside, List.filter_eq_self.mpr inside, List.nil_append]

end rising

theorem Bracket.pairs_iff_pending {bracket : Bracket} {chars : List PlacedChar} {opened closed : Nat} :
    bracket.Pairs chars opened closed ↔ ∃ before after outer,
      chars = before ++ (closed, bracket.closer) :: after ∧ bracket.pending [] before = opened :: outer := by
  constructor
  · rintro ⟨front, middle, after, rfl, balanced⟩
    exact ⟨front ++ (opened, bracket.opener) :: middle, after, bracket.pending [] front, by simp,
      pending_eq_cons_iff.mpr ⟨front, middle, rfl, balanced, rfl⟩⟩
  · rintro ⟨before, after, outer, rfl, first⟩
    obtain ⟨front, middle, rfl, balanced, _⟩ := pending_eq_cons_iff.mp first
    exact ⟨front, middle, after, by simp, balanced⟩

theorem mem_matchBrackets_iff_pairs {bracket : Bracket} {chars : List PlacedChar} {opened closed : Nat} :
    (∃ depth, ⟨opened, closed, bracket, depth⟩ ∈ matchBrackets {} chars) ↔ bracket.Pairs chars opened closed := by
  rw [Bracket.pairs_iff_pending]
  constructor
  · rintro ⟨depth, member⟩
    obtain ⟨before, after, outer, split, first, _⟩ := mem_matchBrackets_iff.mp member
    rw [OpenBrackets.get_none] at first
    exact ⟨before, after, outer, split, first⟩
  · rintro ⟨before, after, outer, split, first⟩
    rw [← OpenBrackets.get_none bracket] at first
    exact ⟨outer.length, mem_matchBrackets_iff.mpr ⟨before, after, outer, split, first, rfl⟩⟩

theorem Bracket.Pairs.append {bracket : Bracket} {chars : List PlacedChar} {opened closed : Nat}
    (pairs : bracket.Pairs chars opened closed) (later : List PlacedChar) :
    bracket.Pairs (chars ++ later) opened closed := by
  obtain ⟨front, middle, after, rfl, balanced⟩ := pairs
  exact ⟨front, middle, after ++ later, by simp, balanced⟩

theorem Bracket.Pairs.restrict {bracket : Bracket} {before after : List PlacedChar} {char : PlacedChar}
    {opened closed : Nat} (rising : Rising (before ++ char :: after))
    (pairs : bracket.Pairs (before ++ char :: after) opened closed) (earlier : closed < char.1) :
    bracket.Pairs before opened closed := by
  obtain ⟨front, middle, rest, split, balanced⟩ := pairs
  have regrouped : before ++ char :: after =
      (front ++ (opened, bracket.opener) :: middle) ++ (closed, bracket.closer) :: rest := by
    simpa using split
  have inFront : ∀ other ∈ front ++ (opened, bracket.opener) :: middle, decide (other.1 < char.1) = true := by
    intro other member
    rw [regrouped] at rising
    exact decide_eq_true (Nat.lt_trans (rising.lt_of_mem_front member) earlier)
  have cut := rising.filter_before
  rw [regrouped, List.filter_append, List.filter_eq_self.mpr inFront,
    List.filter_cons_of_pos (by simpa using earlier)] at cut
  refine ⟨front, middle, rest.filter fun other => other.1 < char.1, ?_, balanced⟩
  rw [← cut, List.append_assoc, List.cons_append]

/-- An opener that has its closer waits no longer. -/
theorem Bracket.Pairs.not_pending {bracket : Bracket} {chars : List PlacedChar} {opened closed : Nat}
    (rising : Rising chars) (pairs : bracket.Pairs chars opened closed) : opened ∉ bracket.pending [] chars := by
  obtain ⟨front, middle, after, rfl, balanced⟩ := pairs
  have taken : bracket.pending [] (front ++ (opened, bracket.opener) :: (middle ++ (closed, bracket.closer) :: after)) =
      bracket.pending (bracket.pending [] front) after := by
    have first : bracket.pending [] (front ++ (opened, bracket.opener) :: middle) =
        opened :: bracket.pending [] front :=
      pending_eq_cons_iff.mpr ⟨front, middle, rfl, balanced, rfl⟩
    rw [← List.cons_append, ← List.append_assoc, bracket.pending_append, first]
    exact congrArg (bracket.pending · after) (bracket.read_closer _ closed)
  rw [taken]
  intro waits
  rcases mem_of_mem_pending waits with inFront | inAfter
  · rcases mem_of_mem_pending inFront with none | inFront
    · cases none
    · exact Nat.lt_irrefl _ (rising.lt_of_mem_front inFront)
  · have behind := rising.lt_of_mem_after (List.mem_append_right middle (List.mem_cons_of_mem _ inAfter))
    exact Nat.lt_irrefl _ behind

/-- The openers that wait are those without a closer. -/
theorem Bracket.mem_pending_iff {bracket : Bracket} {chars : List PlacedChar} (rising : Rising chars) {opened : Nat} :
    opened ∈ bracket.pending [] chars ↔
      (opened, bracket.opener) ∈ chars ∧ ∀ closed, ¬bracket.Pairs chars opened closed := by
  constructor
  · intro waits
    refine ⟨?_, fun closed pairs => pairs.not_pending rising waits⟩
    rcases mem_of_mem_pending waits with none | member
    · cases none
    · exact member
  · rintro ⟨member, unpaired⟩
    obtain ⟨front, rest, rfl⟩ := List.append_of_mem member
    have reading : bracket.pending [] (front ++ (opened, bracket.opener) :: rest) =
        bracket.pending (opened :: bracket.pending [] front) rest := by
      rw [bracket.pending_append]
      exact congrArg (bracket.pending · rest) (bracket.read_opener _ opened)
    rcases @pending_or_closed bracket _ _ (List.mem_cons_self ..) rest with
      waits | ⟨before, closed, after, outer, rfl, first⟩
    · rw [reading]
      exact waits
    · refine absurd (pairs_iff_pending.mpr ⟨front ++ (opened, bracket.opener) :: before, after, outer, by simp, ?_⟩)
        (unpaired closed)
      rw [bracket.pending_append, ← first]
      exact congrArg (bracket.pending · before) (bracket.read_opener _ opened)

theorem Bracket.pairs_iff_between {bracket : Bracket} {chars : List PlacedChar} (rising : Rising chars)
    {opened closed : Nat} :
    bracket.Pairs chars opened closed ↔
      opened < closed ∧ (opened, bracket.opener) ∈ chars ∧ (closed, bracket.closer) ∈ chars ∧
        bracket.Balanced (bracket.text (charsBetween chars opened closed)) := by
  constructor
  · rintro ⟨front, middle, after, rfl, balanced⟩
    refine ⟨rising.lt_of_mem_after (List.mem_append_right middle (List.mem_cons_self ..)), by simp, by simp, ?_⟩
    rwa [rising.charsBetween_eq]
  · rintro ⟨less, openedIn, closedIn, balanced⟩
    obtain ⟨front, rest, rfl⟩ := List.append_of_mem openedIn
    have behind : (closed, bracket.closer) ∈ rest := by
      rcases List.mem_append.mp closedIn with inFront | inRest
      · exact absurd (rising.lt_of_mem_front inFront) (Nat.lt_asymm less)
      · rcases List.mem_cons.mp inRest with same | later
        · exact absurd (congrArg Prod.fst same) (Nat.ne_of_gt less)
        · exact later
    obtain ⟨middle, after, rfl⟩ := List.append_of_mem behind
    rw [rising.charsBetween_eq] at balanced
    exact ⟨front, middle, after, rfl, balanced⟩

end Marginalia
