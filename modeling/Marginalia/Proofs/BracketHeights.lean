import Marginalia.Proofs.BracketPairs
import Mathlib.Data.List.Induction
import Mathlib.Data.Nat.Count

namespace Marginalia

variable {content : Content} {bracket : Bracket} {pair : BracketPair} {place : Nat}

/-- How often a character stands in code before a place. -/
def codeCount (content : Content) (char : Char) (place : Nat) : Nat :=
  Nat.count (fun before => content[before]? = some char ∧ InCode content before) place

/-- The code before a place. -/
def codeBefore (content : Content) (place : Nat) : List PlacedChar :=
  (codeChars content).filter fun char => char.1 < place

/-- No opener of the type in code is left open, and no closer of it is passed over. -/
structure Bracket.AllMatched (bracket : Bracket) (content : Content) : Prop where
  openers : ∀ opened, content[opened]? = some bracket.opener → InCode content opened →
    ∃ closed, bracket.Encloses content opened closed
  closers : ∀ closed, content[closed]? = some bracket.closer → InCode content closed →
    ∃ opened, bracket.Encloses content opened closed

theorem Bracket.allMatched_iff : bracket.AllMatched content ↔ ∀ char ∈ codeChars content,
    (char.2 = bracket.opener → ∃ pair ∈ bracketPairs content, pair.bracket = bracket ∧ pair.opened = char.1) ∧
    (char.2 = bracket.closer → ∃ pair ∈ bracketPairs content, pair.bracket = bracket ∧ pair.closed = char.1) := by
  constructor
  · rintro ⟨openers, closers⟩ ⟨place, char⟩ member
    obtain ⟨stands, free⟩ := mem_codeChars_iff.mp member
    constructor
    · rintro rfl
      obtain ⟨closed, encloses⟩ := openers place stands free
      obtain ⟨depth, member⟩ := mem_bracketPairs_iff.mpr encloses
      exact ⟨_, member, rfl, rfl⟩
    · rintro rfl
      obtain ⟨opened, encloses⟩ := closers place stands free
      obtain ⟨depth, member⟩ := mem_bracketPairs_iff.mpr encloses
      exact ⟨_, member, rfl, rfl⟩
  · intro paired
    constructor
    · intro place stands free
      obtain ⟨pair, member, rfl, rfl⟩ := (paired (place, bracket.opener) (mem_codeChars_iff.mpr ⟨stands, free⟩)).1 rfl
      exact ⟨pair.closed, encloses_of_mem member⟩
    · intro place stands free
      obtain ⟨pair, member, rfl, rfl⟩ := (paired (place, bracket.closer) (mem_codeChars_iff.mpr ⟨stands, free⟩)).2 rfl
      exact ⟨pair.opened, encloses_of_mem member⟩

instance Bracket.decidableAllMatched (bracket : Bracket) (content : Content) :
    Decidable (bracket.AllMatched content) :=
  decidable_of_iff _ allMatched_iff.symm

/-- A character is counted by a list of its places. -/
theorem codeCount_eq_length {char : Char} {places : List Nat} (different : places.Nodup)
    (stands : ∀ before, before ∈ places ↔ before < place ∧ content[before]? = some char ∧ InCode content before) :
    codeCount content char place = places.length := by
  rw [codeCount, Nat.count_eq_card_filter_range, ← List.toFinset_card_of_nodup different]
  congr 1
  ext before
  rw [Finset.mem_filter, Finset.mem_range, List.mem_toFinset, stands]

theorem codeBefore_rising (content : Content) (place : Nat) : Rising (codeBefore content place) :=
  (codeChars_rising content).filter _

theorem codeCount_eq_countP (content : Content) (char : Char) (place : Nat) :
    codeCount content char place = (codeBefore content place).countP (·.2 = char) := by
  have apart : (((codeBefore content place).filter (·.2 = char)).map (·.1)).Nodup :=
    Rising.nodup (List.Pairwise.filter _ (codeBefore_rising content place))
  rw [codeCount_eq_length apart, List.length_map, List.countP_eq_length_filter]
  intro before
  constructor
  · intro member
    obtain ⟨⟨offset, other⟩, inFilter, rfl⟩ := List.mem_map.mp member
    obtain ⟨inBefore, same⟩ := List.mem_filter.mp inFilter
    obtain ⟨inCode, earlier⟩ := List.mem_filter.mp inBefore
    obtain rfl : other = char := of_decide_eq_true same
    exact ⟨of_decide_eq_true earlier, mem_codeChars_iff.mp inCode⟩
  · rintro ⟨earlier, stands⟩
    have inBefore : (before, char) ∈ codeBefore content place :=
      List.mem_filter.mpr ⟨mem_codeChars_iff.mpr stands, decide_eq_true earlier⟩
    exact List.mem_map.mpr ⟨_, List.mem_filter.mpr ⟨inBefore, decide_eq_true rfl⟩, rfl⟩

theorem codeBefore_of_split {before after : List PlacedChar} {char : PlacedChar}
    (split : codeChars content = before ++ char :: after) : codeBefore content char.1 = before := by
  have rising := codeChars_rising content
  rw [split] at rising
  rw [codeBefore, split, rising.filter_before]

/-- What stands in front of a character is the same for every later place. -/
theorem codeBefore_of_split_before {before after : List PlacedChar} {char : PlacedChar}
    (split : codeBefore content place = before ++ char :: after) :
    char ∈ codeChars content ∧ codeBefore content char.1 = before := by
  have member : char ∈ codeBefore content place := by simp [split]
  obtain ⟨inCode, earlier⟩ := List.mem_filter.mp member
  have rising := codeBefore_rising content place
  rw [split] at rising
  refine ⟨inCode, ?_⟩
  rw [← rising.filter_before, ← split, codeBefore, codeBefore, List.filter_filter]
  refine List.filter_congr fun other _ => ?_
  rw [decide_eq_true_eq] at earlier
  by_cases front : other.1 < char.1
  · simp [front, front.trans earlier]
  · simp [front]

/-- Where a pair is closed its opener is the first one that waits, and the others are those that waited before the
opener: as many as the pair is deep. -/
theorem pending_of_mem (member : pair ∈ bracketPairs content) :
    pair.bracket.pending [] (codeBefore content pair.closed) =
      pair.opened :: pair.bracket.pending [] (codeBefore content pair.opened) ∧
    pair.depth = (pair.bracket.pending [] (codeBefore content pair.opened)).length := by
  obtain ⟨before, after, outer, split, first, deep⟩ := mem_matchBrackets_iff.mp member
  rw [OpenBrackets.get_none] at first
  have atClosed := codeBefore_of_split split
  obtain ⟨front, middle, rfl, _, rest⟩ := Bracket.pending_eq_cons_iff.mp first
  rw [List.append_assoc, List.cons_append] at split
  have atOpened := codeBefore_of_split split
  dsimp only at atClosed atOpened
  rw [atClosed, atOpened, first, rest]
  exact ⟨rfl, deep⟩

/-- If no closer is passed over, the openers that wait are those that are more than the closers. -/
theorem Bracket.length_pending {chars : List PlacedChar} (answered : ∀ before closed after,
    chars = before ++ (closed, bracket.closer) :: after → bracket.pending [] before ≠ []) :
    (bracket.pending [] chars).length + chars.countP (·.2 = bracket.closer) = chars.countP (·.2 = bracket.opener) := by
  induction chars using List.reverseRecOn with
  | nil => rfl
  | append_singleton chars char ih =>
    have inFront := ih fun before closed after split => answered before closed (after ++ [char]) (by simp [split])
    obtain ⟨offset, char⟩ := char
    have opener_ne := bracket.opener_ne_closer bracket
    rw [bracket.pending_append, List.countP_append, List.countP_append]
    rcases bracket.owns_cases char with rfl | rfl | foreign
    · have reads := bracket.read_opener (bracket.pending [] chars) offset
      rw [pending, List.foldl_cons, List.foldl_nil, reads, List.length_cons]
      simp [opener_ne]
      omega
    · have waits := answered chars offset [] rfl
      have reads := bracket.read_closer (bracket.pending [] chars) offset
      have some := List.length_pos_iff.mpr waits
      rw [pending, List.foldl_cons, List.foldl_nil, reads, List.length_tail]
      simp [opener_ne.symm]
      omega
    · have reads := bracket.read_other (bracket.pending [] chars) offset foreign
      simp only [owns, Bool.or_eq_false_iff, beq_eq_false_iff_ne] at foreign
      rw [pending, List.foldl_cons, List.foldl_nil, reads]
      simp [foreign.1, foreign.2, inFront]

/-- With all closers answered as many openers wait at a place as there are more openers than closers before it. -/
theorem Bracket.AllMatched.length_pending (matched : bracket.AllMatched content) (place : Nat) :
    (bracket.pending [] (codeBefore content place)).length + codeCount content bracket.closer place =
      codeCount content bracket.opener place := by
  rw [codeCount_eq_countP, codeCount_eq_countP]
  refine bracket.length_pending fun before closed after split => ?_
  obtain ⟨inCode, atClosed⟩ := codeBefore_of_split_before split
  obtain ⟨stands, free⟩ := mem_codeChars_iff.mp inCode
  obtain ⟨opened, encloses⟩ := matched.closers closed stands free
  obtain ⟨depth, member⟩ := mem_bracketPairs_iff.mpr encloses
  rw [← atClosed, (pending_of_mem member).1]
  exact List.cons_ne_nil _ _

/-- With all openers closed the openers that wait at a place are no more than those of a pair that it lies in. -/
theorem Bracket.AllMatched.length_pending_le (matched : bracket.AllMatched content) (place : Nat) :
    bracket.pending [] (codeBefore content place) = [] ∨ ∃ pair ∈ bracketPairs content,
      (bracket.pending [] (codeBefore content place)).length = pair.depth + 1 := by
  cases waits : bracket.pending [] (codeBefore content place) with
  | nil => exact Or.inl rfl
  | cons opened outer =>
    obtain ⟨before, after, split, _, rest⟩ := Bracket.pending_eq_cons_iff.mp waits
    obtain ⟨inCode, atOpened⟩ := codeBefore_of_split_before split
    obtain ⟨stands, free⟩ := mem_codeChars_iff.mp inCode
    obtain ⟨closed, encloses⟩ := matched.openers opened stands free
    obtain ⟨depth, member⟩ := mem_bracketPairs_iff.mpr encloses
    refine Or.inr ⟨_, member, ?_⟩
    rw [(pending_of_mem member).2, atOpened, rest, List.length_cons]

end Marginalia
