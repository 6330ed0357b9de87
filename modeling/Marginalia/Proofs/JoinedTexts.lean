import Marginalia.Proofs.BracketPairs
import Marginalia.Proofs.JoinedPieces

namespace Marginalia

def BracketPair.shift (pair : BracketPair) (count : Nat) : BracketPair :=
  { pair with opened := pair.opened + count, closed := pair.closed + count }

section brackets

variable {chars later : List PlacedChar} {waiting : OpenBrackets}

theorem matchBrackets_append (waiting : OpenBrackets) (chars later : List PlacedChar) :
    matchBrackets waiting (chars ++ later) =
      matchBrackets waiting chars ++ matchBrackets (chars.foldl OpenBrackets.read waiting) later := by
  induction chars generalizing waiting with
  | nil => simp [matchBrackets]
  | cons char rest ih =>
    rw [List.cons_append, matchBrackets_cons, matchBrackets_cons, ih, List.append_assoc]
    rfl

theorem OpenBrackets.get_foldl_read (waiting : OpenBrackets) (chars : List PlacedChar) (bracket : Bracket) :
    (chars.foldl OpenBrackets.read waiting).get bracket = bracket.pending (waiting.get bracket) chars := by
  induction chars generalizing waiting with
  | nil => rfl
  | cons char rest ih =>
    rw [List.foldl_cons, ih, get_read]
    rfl

theorem Bracket.read_shift (bracket : Bracket) (waiting : List Nat) (char : PlacedChar) (count : Nat) :
    bracket.read (waiting.map (· + count)) (char.1 + count, char.2) = (bracket.read waiting char).map (· + count) := by
  unfold read
  split
  · rfl
  · split
    · exact (List.map_tail ..).symm
    · rfl

theorem matchBrackets_shift {shifted : OpenBrackets} (count : Nat)
    (same : ∀ bracket, shifted.get bracket = (waiting.get bracket).map (· + count)) (chars : List PlacedChar) :
    matchBrackets shifted (chars.map fun char => (char.1 + count, char.2)) =
      (matchBrackets waiting chars).map (·.shift count) := by
  induction chars generalizing waiting shifted with
  | nil => rfl
  | cons char rest ih =>
    have answers : shifted.answer (char.1 + count, char.2) = (waiting.answer char).map (·.shift count) := by
      unfold OpenBrackets.answer
      dsimp only
      split
      · rfl
      · rename_i bracket _
        rw [same bracket]
        cases waiting.get bracket with
        | nil => rfl
        | cons => simp [BracketPair.shift]
    rw [List.map_cons, matchBrackets_cons, matchBrackets_cons, List.map_append, answers, ih fun bracket => ?_]
    rw [OpenBrackets.get_read, OpenBrackets.get_read, same bracket, Bracket.read_shift]

end brackets

variable {front : Content} {bracket : Bracket}

/-- No opener of a type waits at the end when all of them in code have been matched. -/
theorem Bracket.pending_eq_nil_iff : bracket.pending [] (codeChars front) = [] ↔
    ∀ place, front[place]? = some bracket.opener → InCode front place →
      ∃ pair ∈ bracketPairs front, pair.opened = place := by
  rw [List.eq_nil_iff_forall_not_mem]
  simp only [mem_pending_iff (codeChars_rising front), mem_codeChars_iff, ← encloses_iff, ← mem_bracketPairs_iff]
  constructor
  · intro answered place opens inCode
    by_contra unmatched
    refine answered place ⟨⟨opens, inCode⟩, ?_⟩
    rintro closed ⟨depth, member⟩
    exact unmatched ⟨_, member, rfl⟩
  · rintro matched place ⟨⟨opens, inCode⟩, unanswered⟩
    obtain ⟨⟨opened, closed, other, depth⟩, member, rfl⟩ := matched place opens inCode
    have atOpened := (encloses_of_mem member).atOpened
    obtain rfl : other = bracket := opener_injective (Option.some.inj (atOpened.symm.trans opens))
    exact unanswered closed ⟨depth, member⟩

theorem bracketPairs_append (lines : WholeLines front)
    (closed : ∀ region ∈ lexicalRegions front, region.stop ≠ front.length)
    (matched : ∀ bracket : Bracket, bracket.pending [] (codeChars front) = []) (back : Content) :
    bracketPairs (front ++ back) = bracketPairs front ++ (bracketPairs back).map (·.shift front.length) := by
  rw [bracketPairs, codeChars_append lines closed, matchBrackets_append, matchBrackets_shift front.length fun bracket => ?_]
  · rfl
  · rw [OpenBrackets.get_foldl_read, OpenBrackets.get_none, matched bracket]
    rfl

/-- A region that ends before the text does ends with a quote, a slash or the text of its line. -/
theorem Region.IsLexeme.stop_cases {content : Content} {region : Region Lexeme} (lexeme : region.IsLexeme content)
    (before : region.stop < content.length) :
    content[region.stop]? = some '\n' ∨
      ∃ char ∈ ['"', '\'', '`', '/'], 0 < region.stop ∧ content[region.stop - 1]? = some char := by
  obtain ⟨start, stop, kind⟩ := region
  cases kind with
  | lineComment =>
    obtain ⟨_, _, ⟨place, _, newline, _, rfl⟩ | ⟨_, rfl⟩⟩ := lexeme
    · exact Or.inl newline
    · exact absurd before (Nat.lt_irrefl _)
  | blockComment =>
    obtain ⟨_, _, ⟨place, _, ⟨_, slash⟩, _, rfl⟩ | ⟨_, rfl⟩⟩ := lexeme
    · exact Or.inr ⟨'/', by simp, by simp, slash⟩
    · exact absurd before (Nat.lt_irrefl _)
  | string =>
    obtain ⟨quote, known, _, ⟨place, _, ⟨found, _⟩, _, rfl⟩ | ⟨_, rfl⟩⟩ := lexeme
    · exact Or.inr ⟨quote, List.mem_append_left ['/'] known, by simp, found⟩
    · exact absurd before (Nat.lt_irrefl _)

/-- If one more character leaves the regions of whole lines as they are, none of them goes up to the end. -/
theorem stop_ne_length_of_append (lines : WholeLines front)
    (same : lexicalRegions (front ++ ['x']) = lexicalRegions front) {region : Region Lexeme}
    (member : region ∈ lexicalRegions front) : region.stop ≠ front.length := by
  intro reaches
  have lexeme := (lexicalRegions_partition _).lexemes region (same.symm ▸ member)
  rcases lexeme.stop_cases (by simp [reaches]) with newline | ⟨char, known, nonempty, found⟩
  · rw [reaches, List.getElem?_append_right (Nat.le_refl _), Nat.sub_self] at newline
    exact absurd newline (by decide)
  · rw [reaches] at nonempty found
    rw [List.getElem?_append_left (Nat.sub_one_lt_of_lt nonempty), ← List.getLast?_eq_getElem?] at found
    rcases lines with rfl | last
    · cases found
    · obtain rfl := Option.some.inj (last.symm.trans found)
      exact absurd known (by decide)

/-- If a closer behind whole lines makes no pair with an opener in them, none waits for it. -/
theorem Bracket.pending_eq_nil_of_append (lines : WholeLines front)
    (closed : ∀ region ∈ lexicalRegions front, region.stop ≠ front.length)
    (same : bracketPairs (front ++ [bracket.closer]) = bracketPairs front) : bracket.pending [] (codeChars front) = [] := by
  cases waiting : bracket.pending [] (codeChars front) with
  | nil => rfl
  | cons opened outer =>
    have alone : codeChars [bracket.closer] = [(0, bracket.closer)] := by
      cases bracket <;> decide +kernel
    have joined := codeChars_append lines closed [bracket.closer]
    rw [alone, List.map_singleton, Nat.zero_add] at joined
    have member : ⟨opened, front.length, bracket, outer.length⟩ ∈ bracketPairs (front ++ [bracket.closer]) := by
      refine mem_matchBrackets_iff.mpr ⟨codeChars front, [], outer, joined, ?_, rfl⟩
      rw [OpenBrackets.get_none, waiting]
    rw [same] at member
    have within := (List.getElem?_eq_some_iff.mp (encloses_of_mem member).atClosed).1
    exact absurd within (Nat.lt_irrefl _)

/-- Whole lines can be scanned apart from every text behind them exactly if no string or comment goes up to their end
and every opener in their code has its closer. -/
theorem lexicalScan_append_iff (lines : WholeLines front) :
    (∀ back, lexicalRegions (front ++ back) = lexicalRegions front ++ (lexicalRegions back).map (·.shift front.length) ∧
      bracketPairs (front ++ back) = bracketPairs front ++ (bracketPairs back).map (·.shift front.length)) ↔
    (∀ region ∈ lexicalRegions front, region.stop ≠ front.length) ∧
      ∀ (bracket : Bracket) place, front[place]? = some bracket.opener → InCode front place →
        ∃ pair ∈ bracketPairs front, pair.opened = place := by
  simp only [← Bracket.pending_eq_nil_iff]
  constructor
  · intro splits
    have uncut : lexicalRegions (front ++ ['x']) = lexicalRegions front := by
      rw [(splits ['x']).1, show lexicalRegions ['x'] = [] by decide +kernel, List.map_nil, List.append_nil]
    have closed : ∀ region ∈ lexicalRegions front, region.stop ≠ front.length :=
      fun region member => stop_ne_length_of_append lines uncut member
    refine ⟨closed, fun bracket => Bracket.pending_eq_nil_of_append lines closed ?_⟩
    have unpaired : bracketPairs [bracket.closer] = [] := by
      cases bracket <;> decide +kernel
    rw [(splits [bracket.closer]).2, unpaired, List.map_nil, List.append_nil]
  · rintro ⟨closed, matched⟩ back
    exact ⟨lexicalRegions_append lines closed back, bracketPairs_append lines closed matched back⟩

/-- An escaped quote, a comment and a closer of no opener do not keep lines from being scanned apart. -/
theorem lexicalScan_append_iff_closed :
    let front := "f(\"\\\")\") ] // (\n".toList
    let back := "[\"(\"]".toList
    WholeLines front ∧
      lexicalRegions (front ++ back) = [⟨2, 7, .string⟩, ⟨11, 15, .lineComment⟩, ⟨17, 20, .string⟩] ∧
      bracketPairs (front ++ back) = [⟨1, 7, .round, 0⟩, ⟨16, 20, .square, 0⟩] := by
  have lines : WholeLines "f(\"\\\")\") ] // (\n".toList := by
    unfold WholeLines
    decide
  have matched (bracket : Bracket) : bracket.pending [] (codeChars "f(\"\\\")\") ] // (\n".toList) = [] := by
    cases bracket <;> decide +kernel
  obtain ⟨regions, pairs⟩ := (lexicalScan_append_iff lines).mpr
    ⟨by decide +kernel, fun bracket => Bracket.pending_eq_nil_iff.mp (matched bracket)⟩ "[\"(\"]".toList
  exact ⟨lines, regions.trans (by decide +kernel), pairs.trans (by decide +kernel)⟩

end Marginalia
