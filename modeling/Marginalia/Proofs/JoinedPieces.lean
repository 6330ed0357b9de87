import Marginalia.Proofs.LexicalPartition

namespace Marginalia

def Region.shift {κ : Type} (region : Region κ) (count : Nat) : Region κ :=
  { region with start := region.start + count, stop := region.stop + count }

def Piece.shift {κ : Type} (count : Nat) : Piece κ → Piece κ
  | .region extent => .region (extent.shift count)
  | .plain offset char => .plain (offset + count) char

/-- Whole lines: nothing, or a text with a newline at its end. -/
def WholeLines (content : Content) : Prop :=
  content = [] ∨ content.getLast? = some '\n'

/-- An opener that does not look back, and that finds in front of whole lines what it finds when more text follows,
unless it goes up to their end. -/
structure Opener.Splits {κ : Type} (opener : Opener κ) : Prop where
  blind : ∀ before other text, opener before text = opener other text
  lines : ∀ {before text}, text ≠ [] → WholeLines text →
    (∀ kind length, opener before text = some (kind, length) → length < text.length) →
      ∀ back, opener before (text ++ back) = opener before text

section carving

variable {κ : Type} {opener : Opener κ} {front : Content} {offset : Nat} {before : Option Char}

theorem carve_shift (opener : Opener κ) (offset count : Nat) (before : Option Char) (text : List Char) :
    carve opener (offset + count) before text = (carve opener offset before text).map (·.shift count) := by
  fun_induction carve opener offset before text with
  | case1 => simp [carve]
  | case2 offset before char rest kind more opens ih =>
    rw [carve_region opens, List.map_cons, ← ih]
    simp only [Piece.shift, Region.shift, Nat.add_right_comm _ count]
  | case3 offset before char rest closed ih =>
    rw [carve_plain closed, List.map_cons, ← ih, Nat.add_right_comm]
    rfl

theorem Opener.Splits.carve_eq (splits : opener.Splits) (offset : Nat) (before other : Option Char)
    (text : List Char) : carve opener offset before text = carve opener offset other text := by
  cases text with
  | nil => rw [carve, carve]
  | cons char rest => rw [carve, carve, splits.blind before other]

theorem WholeLines.drop {text : Content} (lines : WholeLines text) (count : Nat) : WholeLines (text.drop count) := by
  rcases lines with rfl | last
  · exact Or.inl List.drop_nil
  · rcases Nat.lt_or_ge count text.length with within | beyond
    · exact Or.inr (by rw [List.getLast?_drop, if_neg (Nat.not_le.mpr within), last])
    · exact Or.inl (List.drop_eq_nil_of_le beyond)

/-- Whole lines in which no region goes up to the end are carved apart from what follows. -/
theorem Opener.Splits.carve_append (splits : opener.Splits) (bounded : opener.Bounded) (lines : WholeLines front)
    (closed : ∀ extent, Piece.region extent ∈ carve opener offset before front → extent.stop ≠ offset + front.length)
    (back : Content) : carve opener offset before (front ++ back) =
      carve opener offset before front ++ carve opener (offset + front.length) none back := by
  -- Each piece of the lines is found again with more text behind it, and leaves whole lines.
  fun_induction carve opener offset before front with
  | case1 offset before =>
    rw [splits.carve_eq offset before none]
    rfl
  | case2 offset before char rest kind more opens ih =>
    have within := bounded _ _ _ _ opens
    have open' := closed _ (List.mem_cons_self ..)
    simp only [List.length_cons] at within open'
    have shorter : more < rest.length := by omega
    have opensJoined : opener before (char :: (rest ++ back)) = some (kind, more + 1) := by
      rw [← List.cons_append, splits.lines (List.cons_ne_nil _ _) lines ?_ back, opens]
      rintro kind' length found
      rw [opens] at found
      cases found
      simpa using shorter
    have behind : WholeLines (rest.drop more) := lines.drop (more + 1)
    have rejoined := ih behind (fun extent member => ?_)
    · rw [List.cons_append, carve_region opensJoined, List.take_append_of_le_length (Nat.le_of_lt shorter),
        List.drop_append_of_le_length (Nat.le_of_lt shorter), rejoined, List.length_drop, List.length_cons,
        List.cons_append]
      congr 3
      omega
    · have apart := closed extent (List.mem_cons_of_mem _ member)
      rw [List.length_cons] at apart
      rw [List.length_drop]
      omega
  | case3 offset before char rest unopened ih =>
    have unopenedJoined : ∀ kind more, opener before (char :: (rest ++ back)) ≠ some (kind, more + 1) := by
      rw [← List.cons_append, splits.lines (List.cons_ne_nil _ _) lines ?_ back]
      · exact unopened
      · rintro kind length found
        cases length with
        | zero => simp
        | succ more => exact absurd found (unopened kind more)
    have behind : WholeLines rest := lines.drop 1
    have rejoined := ih behind (fun extent member => ?_)
    · rw [List.cons_append, carve_plain unopenedJoined, rejoined, List.cons_append, List.length_cons]
      congr 3
      omega
    · have apart := closed extent (List.mem_cons_of_mem _ member)
      rw [List.length_cons] at apart
      omega

end carving

section lexemes

variable {mark text : List Char}

theorem stringLength_append {quote before : Char} (ends : stringLength quote before text < text.length)
    (back : List Char) : stringLength quote before (text ++ back) = stringLength quote before text := by
  induction text generalizing before with
  | nil => exact absurd ends (Nat.not_lt_zero _)
  | cons char rest ih =>
    rw [List.cons_append, stringLength, stringLength]
    by_cases closes : char = quote ∧ before ≠ '\\'
    · rw [if_pos closes, if_pos closes]
    · rw [stringLength, if_neg closes, List.length_cons] at ends
      rw [if_neg closes, if_neg closes, ih (Nat.lt_of_succ_lt_succ ends)]

theorem length_le_of_lengthThrough_lt (ends : lengthThrough mark text < text.length) : mark.length ≤ text.length := by
  induction text with
  | nil => exact absurd ends (Nat.not_lt_zero _)
  | cons char rest ih =>
    rw [lengthThrough] at ends
    split at ends
    · exact Nat.le_of_lt ends
    · exact Nat.le_succ_of_le (ih (Nat.lt_of_succ_lt_succ ends))

theorem lengthThrough_append (ends : lengthThrough mark text < text.length) (back : List Char) :
    lengthThrough mark (text ++ back) = lengthThrough mark text := by
  induction text with
  | nil => exact absurd ends (Nat.not_lt_zero _)
  | cons char rest ih =>
    have fits := length_le_of_lengthThrough_lt ends
    -- The mark that closes the text is whole, so none lies across its end.
    have same : mark.isPrefixOf (char :: (rest ++ back)) = mark.isPrefixOf (char :: rest) := by
      rw [Bool.eq_iff_iff, List.isPrefixOf_iff_prefix, List.isPrefixOf_iff_prefix, ← List.cons_append]
      constructor
      · intro follows
        exact List.prefix_of_prefix_length_le follows (List.prefix_append _ _) fits
      · intro follows
        exact follows.trans (List.prefix_append _ _)
    rw [List.cons_append, lengthThrough, lengthThrough, same]
    split
    · rfl
    · rename_i goesOn
      rw [lengthThrough, if_neg goesOn, List.length_cons] at ends
      rw [ih (Nat.lt_of_succ_lt_succ ends)]

theorem lineLength_append (ends : lineLength text < text.length) (back : List Char) :
    lineLength (text ++ back) = lineLength text := by
  unfold lineLength at ends ⊢
  rw [List.takeWhile_append, if_neg (Nat.ne_of_lt ends)]

theorem lexemeAt_cons {char : Char} {rest : List Char} (before : Option Char)
    (uncommented : ∀ next ∈ ['*', '/'], ∀ tail, char :: rest ≠ '/' :: next :: tail) :
    lexemeAt before (char :: rest) = if isQuote char then some (.string, stringLength char char rest + 1) else none := by
  unfold lexemeAt
  split
  · rename_i same
    exact absurd same (uncommented '*' (by simp) _)
  · rename_i same
    exact absurd same (uncommented '/' (by simp) _)
  · rename_i same
    obtain ⟨rfl, rfl⟩ := List.cons.inj same
    rfl
  · rename_i none
    cases none

/-- What opens is seen from the first two characters. -/
theorem lexeme_cases (text : List Char) :
    text = [] ∨ (∃ rest, text = '/' :: '*' :: rest) ∨ (∃ rest, text = '/' :: '/' :: rest) ∨
      ∃ char rest, text = char :: rest ∧ ∀ next ∈ ['*', '/'], ∀ tail, char :: rest ≠ '/' :: next :: tail := by
  cases text with
  | nil => exact Or.inl rfl
  | cons char rest =>
    by_cases block : ∃ tail, char :: rest = '/' :: '*' :: tail
    · exact Or.inr (Or.inl block)
    · by_cases line : ∃ tail, char :: rest = '/' :: '/' :: tail
      · exact Or.inr (Or.inr (Or.inl line))
      · refine Or.inr (Or.inr (Or.inr ⟨char, rest, rfl, fun next known tail same => ?_⟩))
        simp only [List.mem_cons, List.not_mem_nil, or_false] at known
        rcases known with rfl | rfl
        · exact block ⟨tail, same⟩
        · exact line ⟨tail, same⟩

theorem lexemeAt_splits : Opener.Splits lexemeAt := by
  refine ⟨fun before other text => ?_, fun {before text} nonempty lines ends back => ?_⟩
  · rcases lexeme_cases text with rfl | ⟨rest, rfl⟩ | ⟨rest, rfl⟩ | ⟨char, rest, rfl, uncommented⟩
    · rfl
    · rfl
    · rfl
    · rw [lexemeAt_cons before uncommented, lexemeAt_cons other uncommented]
  · rcases lexeme_cases text with rfl | ⟨rest, rfl⟩ | ⟨rest, rfl⟩ | ⟨char, rest, rfl, uncommented⟩
    · exact absurd rfl nonempty
    · have shorter := ends _ _ rfl
      simp only [List.length_cons] at shorter
      rw [List.cons_append, List.cons_append, lexemeAt, lexemeAt, lengthThrough_append (by omega)]
    · have shorter := ends _ _ rfl
      simp only [List.length_cons] at shorter
      rw [List.cons_append, List.cons_append, lexemeAt, lexemeAt, lineLength_append (by omega)]
    · have uncommentedJoined : ∀ next ∈ ['*', '/'], ∀ tail, char :: (rest ++ back) ≠ '/' :: next :: tail := by
        intro next known tail same
        obtain ⟨rfl, starts⟩ := List.cons.inj same
        cases rest with
        | nil =>
          rcases lines with none | last
          · cases none
          · exact absurd last (by decide)
        | cons second rest =>
          obtain ⟨rfl, _⟩ := List.cons.inj starts
          exact uncommented _ known rest rfl
      rw [lexemeAt_cons before uncommented] at ends ⊢
      rw [List.cons_append, lexemeAt_cons before uncommentedJoined]
      split
      · rename_i quoted
        rw [if_pos quoted] at ends
        have shorter := ends _ _ rfl
        rw [List.length_cons] at shorter
        rw [stringLength_append (Nat.lt_of_succ_lt_succ shorter)]
      · rfl

end lexemes

theorem Piece.region?_shift {κ : Type} (piece : Piece κ) (count : Nat) :
    (piece.shift count).region? = piece.region?.map (·.shift count) := by
  cases piece <;> rfl

theorem Piece.plain?_shift {κ : Type} (piece : Piece κ) (count : Nat) :
    (piece.shift count).plain? = piece.plain?.map fun char => (char.1 + count, char.2) := by
  cases piece <;> rfl

section joining

variable {front : Content}

theorem lexicalPieces_append (lines : WholeLines front)
    (closed : ∀ region ∈ lexicalRegions front, region.stop ≠ front.length) (back : Content) :
    lexicalPieces (front ++ back) = lexicalPieces front ++ (lexicalPieces back).map (·.shift front.length) := by
  have apart : ∀ extent, Piece.region extent ∈ lexicalPieces front → extent.stop ≠ 0 + front.length := by
    intro extent member
    rw [Nat.zero_add]
    exact closed extent (mem_lexicalRegions.mpr member)
  rw [lexicalPieces, lexemeAt_splits.carve_append lexemeAt_bounded lines apart, carve_shift]
  rfl

theorem lexicalRegions_append (lines : WholeLines front)
    (closed : ∀ region ∈ lexicalRegions front, region.stop ≠ front.length) (back : Content) :
    lexicalRegions (front ++ back) = lexicalRegions front ++ (lexicalRegions back).map (·.shift front.length) := by
  unfold lexicalRegions
  rw [lexicalPieces_append lines closed, List.filterMap_append, List.filterMap_map, List.map_filterMap]
  simp only [Function.comp_def, Piece.region?_shift]

theorem codeChars_append (lines : WholeLines front)
    (closed : ∀ region ∈ lexicalRegions front, region.stop ≠ front.length) (back : Content) :
    codeChars (front ++ back) =
      codeChars front ++ (codeChars back).map fun char => (char.1 + front.length, char.2) := by
  unfold codeChars
  rw [lexicalPieces_append lines closed, List.filterMap_append, List.filterMap_map, List.map_filterMap]
  simp only [Function.comp_def, Piece.plain?_shift]

end joining

end Marginalia
