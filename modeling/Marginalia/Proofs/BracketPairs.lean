import Marginalia.Proofs.BracketAnswers
import Marginalia.Proofs.LexicalPartition
import Mathlib.Data.Set.Card

namespace Marginalia

instance Region.decidableCovers {κ : Type} (region : Region κ) (place : Nat) : Decidable (region.Covers place) :=
  inferInstanceAs (Decidable (_ ∧ _))

/-- Neither a string nor a comment lies around a place. -/
def InCode (content : Content) (place : Nat) : Prop :=
  ∀ region ∈ lexicalRegions content, ¬region.Covers place

instance decidableInCode (content : Content) (place : Nat) : Decidable (InCode content place) :=
  inferInstanceAs (Decidable (∀ region ∈ lexicalRegions content, _))

/-- The characters of a content that are in code, with their places. -/
def placedCode (content : Content) : List PlacedChar :=
  (content.zipIdx.map Prod.swap).filter fun char => InCode content char.1

/-- An opener and a closer in code, with nothing but balanced brackets of their type in the code between them. -/
structure Bracket.Encloses (bracket : Bracket) (content : Content) (opened closed : Nat) : Prop where
  order : opened < closed
  atOpened : content[opened]? = some bracket.opener
  atClosed : content[closed]? = some bracket.closer
  openedInCode : InCode content opened
  closedInCode : InCode content closed
  balanced : bracket.Balanced (bracket.text (charsBetween (placedCode content) opened closed))

/-- The openers in code before a place that no closer before the place belongs to. -/
def Bracket.openBefore (bracket : Bracket) (content : Content) (place : Nat) : Set Nat :=
  {opened | opened < place ∧ content[opened]? = some bracket.opener ∧ InCode content opened ∧
    ∀ closed, closed < place → ¬bracket.Encloses content opened closed}

theorem mem_placedCode_iff {content : Content} {place : Nat} {char : Char} :
    (place, char) ∈ placedCode content ↔ content[place]? = some char ∧ InCode content place := by
  simp [placedCode, List.mem_zipIdx_iff_getElem?]

theorem placedCode_rising (content : Content) : Rising (placedCode content) := by
  have places : ((content.zipIdx.map Prod.swap).map (·.1)) = List.range content.length := by
    rw [List.map_map, List.range_eq_range']
    exact List.zipIdx_map_snd 0 content
  have rising : Rising (content.zipIdx.map Prod.swap) := by
    rw [Rising, ← List.pairwise_map (f := Prod.fst) (R := (· < ·)), places]
    exact List.pairwise_lt_range
  exact rising.filter _

theorem mem_codeChars_iff_plain {content : Content} {place : Nat} {char : Char} :
    (place, char) ∈ codeChars content ↔ Piece.plain place char ∈ lexicalPieces content := by
  simp only [codeChars, List.mem_filterMap]
  constructor
  · rintro ⟨piece, member, found⟩
    cases piece with
    | region => cases found
    | plain =>
      cases found
      exact member
  · intro member
    exact ⟨_, member, rfl⟩

theorem codeChars_rising (content : Content) : Rising (codeChars content) := by
  refine List.Pairwise.filterMap _ ?_ (lexicalPieces_ordered content)
  intro left right ordered char found char' found'
  cases left <;> cases found
  cases right <;> cases found'
  exact ordered

theorem mem_codeChars_iff {content : Content} {place : Nat} {char : Char} :
    (place, char) ∈ codeChars content ↔ content[place]? = some char ∧ InCode content place := by
  rw [mem_codeChars_iff_plain]
  constructor
  · intro member
    refine ⟨(lexicalPieces_fit member).1, fun region inRegions covers => ?_⟩
    have disjoint : (lexicalPieces content).Pairwise fun left right => ∀ place,
        left.start ≤ place ∧ place < left.stop → ¬(right.start ≤ place ∧ place < right.stop) := by
      refine (lexicalPieces_ordered content).imp ?_
      rintro left right ordered place ⟨_, before⟩ ⟨after, _⟩
      omega
    cases eq_of_shared_place disjoint member (mem_lexicalRegions.mp inRegions)
      ⟨Nat.le_refl place, Nat.lt_succ_self place⟩ covers
  · rintro ⟨found, free⟩
    obtain ⟨below, _⟩ := List.getElem?_eq_some_iff.mp found
    obtain ⟨piece, member, covers⟩ :=
      carve_covers lexemeAt 0 none content place (Nat.zero_le place) (by simpa using below)
    cases piece with
    | region extent => exact absurd covers (free extent (mem_lexicalRegions.mpr member))
    | plain offset other =>
      obtain rfl : offset = place := Nat.le_antisymm covers.1 (Nat.lt_succ_iff.mp covers.2)
      obtain rfl : other = char := Option.some.inj ((lexicalPieces_fit member).1.symm.trans found)
      exact member

theorem codeChars_eq (content : Content) : codeChars content = placedCode content := by
  refine eq_of_increasing Prod.fst (codeChars_rising content) (placedCode_rising content) ?_
  rintro ⟨place, char⟩
  rw [mem_codeChars_iff, mem_placedCode_iff]

theorem Bracket.encloses_iff {bracket : Bracket} {content : Content} {opened closed : Nat} :
    bracket.Encloses content opened closed ↔ bracket.Pairs (codeChars content) opened closed := by
  rw [codeChars_eq, pairs_iff_between (placedCode_rising content), mem_placedCode_iff, mem_placedCode_iff]
  constructor
  · rintro ⟨order, atOpened, atClosed, openedInCode, closedInCode, balanced⟩
    exact ⟨order, ⟨atOpened, openedInCode⟩, ⟨atClosed, closedInCode⟩, balanced⟩
  · rintro ⟨order, ⟨atOpened, openedInCode⟩, ⟨atClosed, closedInCode⟩, balanced⟩
    exact ⟨order, atOpened, atClosed, openedInCode, closedInCode, balanced⟩

theorem mem_bracketPairs_iff {bracket : Bracket} {content : Content} {opened closed : Nat} :
    (∃ depth, ⟨opened, closed, bracket, depth⟩ ∈ bracketPairs content) ↔ bracket.Encloses content opened closed :=
  mem_matchBrackets_iff_pairs.trans Bracket.encloses_iff.symm

theorem encloses_of_mem {content : Content} {pair : BracketPair} (member : pair ∈ bracketPairs content) :
    pair.bracket.Encloses content pair.opened pair.closed :=
  mem_bracketPairs_iff.mp ⟨pair.depth, member⟩

/-- The openers that wait before a place are those in code that no closer before the place belongs to. -/
theorem Bracket.mem_pending_iff_openBefore {bracket : Bracket} {content : Content} {front after : List PlacedChar}
    {char : PlacedChar} (split : codeChars content = front ++ char :: after) {opened : Nat} :
    opened ∈ bracket.pending [] front ↔ opened ∈ bracket.openBefore content char.1 := by
  have rising := codeChars_rising content
  rw [split] at rising
  have inFront : (opened, bracket.opener) ∈ front ↔
      opened < char.1 ∧ content[opened]? = some bracket.opener ∧ InCode content opened := by
    rw [← mem_codeChars_iff, ← rising.filter_before, List.mem_filter, split, decide_eq_true_eq, and_comm]
  have closedInFront (closed : Nat) : bracket.Pairs front opened closed ↔
      closed < char.1 ∧ bracket.Encloses content opened closed := by
    rw [encloses_iff, split]
    constructor
    · intro pairs
      obtain ⟨_, _, closes, _⟩ := (pairs_iff_between rising.before).mp pairs
      exact ⟨rising.lt_of_mem_front closes, pairs.append _⟩
    · rintro ⟨earlier, pairs⟩
      exact pairs.restrict rising earlier
  rw [mem_pending_iff rising.before, inFront]
  simp only [closedInFront, not_and, openBefore, Set.mem_ofPred_eq, and_assoc]

theorem depth_of_mem {content : Content} {pair : BracketPair} (member : pair ∈ bracketPairs content) :
    pair.depth = (pair.bracket.openBefore content pair.opened).ncard := by
  obtain ⟨before, after, outer, split, first, deep⟩ := mem_matchBrackets_iff.mp member
  rw [OpenBrackets.get_none] at first
  obtain ⟨front, middle, rfl, _, rfl⟩ := Bracket.pending_eq_cons_iff.mp first
  rw [List.append_assoc, List.cons_append] at split
  have rising := codeChars_rising content
  rw [split] at rising
  have apart : (pair.bracket.pending [] front).Nodup :=
    Bracket.pending_nodup rising.before.nodup
  have waits : pair.bracket.openBefore content pair.opened = (pair.bracket.pending [] front).toFinset := by
    ext opened
    rw [List.coe_toFinset, Set.mem_ofPred_eq, Bracket.mem_pending_iff_openBefore split]
  rw [deep, waits, Set.ncard_coe_finset, List.toFinset_card_of_nodup apart]

theorem bracketPairs_increasing (content : Content) :
    (bracketPairs content).Pairwise fun left right => left.closed < right.closed := by
  have rising : ((codeChars content).map (·.1)).Pairwise (· < ·) := List.pairwise_map.mpr (codeChars_rising content)
  exact List.pairwise_map.mp (rising.sublist (matchBrackets_closed_sublist {} _))

theorem Bracket.Encloses.opened_ne {left right : Bracket} {content : Content} {opened closed opened' closed' : Nat}
    (encloses : left.Encloses content opened closed) (encloses' : right.Encloses content opened' closed')
    (earlier : closed < closed') : opened ≠ opened' := by
  rintro rfl
  obtain rfl : left = right :=
    opener_injective (Option.some.inj (encloses.atOpened.symm.trans encloses'.atOpened))
  obtain ⟨before, after, outer, split, first⟩ := pairs_iff_pending.mp (encloses_iff.mp encloses')
  have rising := codeChars_rising content
  have pairs := encloses_iff.mp encloses
  rw [split] at rising pairs
  refine (pairs.restrict rising earlier).not_pending rising.before ?_
  rw [first]
  exact List.mem_cons_self ..

theorem Bracket.Encloses.opened_ne_closed {left right : Bracket} {content : Content}
    {opened closed opened' closed' : Nat} (encloses : left.Encloses content opened closed)
    (encloses' : right.Encloses content opened' closed') : opened ≠ closed' := by
  rintro rfl
  exact left.opener_ne_closer right (Option.some.inj (encloses.atOpened.symm.trans encloses'.atClosed))

theorem bracketPairs_places_nodup (content : Content) :
    ((bracketPairs content).flatMap fun pair => [pair.opened, pair.closed]).Nodup := by
  rw [List.nodup_flatMap]
  constructor
  · intro pair member
    have encloses := encloses_of_mem member
    simp [encloses.opened_ne_closed encloses]
  · refine (bracketPairs_increasing content).imp_of_mem ?_
    intro left right inLeft inRight earlier
    have encloses := encloses_of_mem inLeft
    have encloses' := encloses_of_mem inRight
    have openers := encloses.opened_ne encloses' earlier
    have mixed := encloses.opened_ne_closed encloses'
    have mixed' := encloses'.opened_ne_closed encloses
    simp [Function.onFun, openers.symm, mixed.symm, mixed', Nat.ne_of_gt earlier]

/-- The pairs of a content are the enclosing brackets of each type; their depth counts the openers still without
closer before them, they are listed by their closers, and no two of them share a place. -/
theorem bracketPairs_exact (content : Content) :
    (∀ bracket opened closed, (∃ depth, ⟨opened, closed, bracket, depth⟩ ∈ bracketPairs content) ↔
      bracket.Encloses content opened closed) ∧
    (∀ pair ∈ bracketPairs content, pair.depth = (pair.bracket.openBefore content pair.opened).ncard) ∧
    (bracketPairs content).Pairwise (fun left right => left.closed < right.closed) ∧
    ((bracketPairs content).flatMap fun pair => [pair.opened, pair.closed]).Nodup := by
  refine ⟨fun bracket opened closed => ?_, fun pair member => ?_, ?_, ?_⟩
  · exact mem_bracketPairs_iff
  · exact depth_of_mem member
  · exact bracketPairs_increasing content
  · exact bracketPairs_places_nodup content

end Marginalia
