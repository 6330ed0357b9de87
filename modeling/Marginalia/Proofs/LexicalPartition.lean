import Marginalia.Proofs.LexicalGrammar
import Marginalia.Proofs.OrderedItems

namespace Marginalia

def Region.Covers {κ : Type} (region : Region κ) (place : Nat) : Prop :=
  region.start ≤ place ∧ place < region.stop

/-- A list of regions that cuts a content into strings, comments and code. -/
structure LexicalPartition (content : Content) (regions : List (Region Lexeme)) : Prop where
  nonempty : ∀ region ∈ regions, region.start < region.stop
  within : ∀ region ∈ regions, region.stop ≤ content.length
  disjoint : regions.Pairwise fun left right => ∀ place, left.Covers place → ¬right.Covers place
  increasing : regions.Pairwise fun left right => left.start < right.start
  lexemes : ∀ region ∈ regions, region.IsLexeme content
  code : ∀ place, (∀ region ∈ regions, ¬region.Covers place) → ¬OpensLexeme content place

theorem LexicalPartition.eq_of_covers {content : Content} {regions : List (Region Lexeme)}
    (partition : LexicalPartition content regions) {left right : Region Lexeme} (inLeft : left ∈ regions)
    (inRight : right ∈ regions) {place : Nat} (covers : left.Covers place) (covers' : right.Covers place) :
    left = right :=
  eq_of_shared_place partition.disjoint inLeft inRight covers covers'

/-- Two partitions agree on the regions that start at a place if they agree on all earlier ones. -/
theorem LexicalPartition.mem_of_mem {content : Content} {regions others : List (Region Lexeme)}
    (partition : LexicalPartition content regions) (partition' : LexicalPartition content others)
    {region : Region Lexeme} (member : region ∈ regions)
    (earlier : ∀ other ∈ others, other.start < region.start → other ∈ regions) : region ∈ others := by
  have lexeme := partition.lexemes region member
  have nonempty := partition.nonempty region member
  have covered : ∃ other ∈ others, other.Covers region.start := by
    by_contra free
    exact partition'.code region.start (fun other inOthers covers => free ⟨other, inOthers, covers⟩) lexeme.opens
  obtain ⟨other, inOthers, covers⟩ := covered
  rcases Nat.eq_or_lt_of_le covers.1 with same | less
  · have equal := lexeme.eq_of_start_eq (partition'.lexemes other inOthers) same.symm
    exact equal ▸ inOthers
  · have equal := partition.eq_of_covers (earlier other inOthers less) member covers ⟨Nat.le_refl _, nonempty⟩
    exact equal ▸ inOthers

theorem LexicalPartition.unique {content : Content} {regions others : List (Region Lexeme)}
    (partition : LexicalPartition content regions) (partition' : LexicalPartition content others) :
    regions = others := by
  have agree : ∀ start, ∀ region : Region Lexeme, region.start = start → (region ∈ regions ↔ region ∈ others) := by
    intro start
    induction start using Nat.strong_induction_on with
    | h start ih =>
      rintro region rfl
      constructor
      · intro member
        exact partition.mem_of_mem partition' member fun other inOthers less => (ih _ less other rfl).mpr inOthers
      · intro member
        exact partition'.mem_of_mem partition member fun other inRegions less => (ih _ less other rfl).mp inRegions
  exact eq_of_increasing Region.start partition.increasing partition'.increasing fun region => agree _ region rfl

theorem lexicalPieces_fit {content : Content} {piece : Piece Lexeme} (member : piece ∈ lexicalPieces content) :
    piece.FitsIn lexemeAt content :=
  (carve_pieces lexemeAt_bounded (Cursor.start_standsIn content) piece member).2

theorem lexicalPieces_ordered (content : Content) :
    (lexicalPieces content).Pairwise fun left right => left.stop ≤ right.start :=
  carve_ordered lexemeAt_bounded (Cursor.start_standsIn content)

theorem mem_lexicalRegions {content : Content} {region : Region Lexeme} :
    region ∈ lexicalRegions content ↔ Piece.region region ∈ lexicalPieces content := by
  simp only [lexicalRegions, List.mem_filterMap]
  constructor
  · rintro ⟨piece, member, found⟩
    cases piece with
    | plain => cases found
    | region extent =>
      cases found
      exact member
  · intro member
    exact ⟨_, member, rfl⟩

theorem lexicalRegions_ordered (content : Content) :
    (lexicalRegions content).Pairwise fun left right => left.stop ≤ right.start := by
  refine List.Pairwise.filterMap _ ?_ (lexicalPieces_ordered content)
  intro left right ordered region found region' found'
  cases left <;> cases found
  cases right <;> cases found'
  exact ordered

/-- What the reader finds cuts the content into strings, comments and code. -/
theorem lexicalRegions_partition (content : Content) : LexicalPartition content (lexicalRegions content) := by
  have fits {region : Region Lexeme} (member : region ∈ lexicalRegions content) :=
    lexicalPieces_fit (mem_lexicalRegions.mp member)
  refine ⟨fun region member => (fits member).1, fun region member => (fits member).2.1, ?_, ?_, ?_, ?_⟩
  · refine (lexicalRegions_ordered content).imp ?_
    rintro left right ordered place ⟨_, before⟩ ⟨after, _⟩
    omega
  · refine (lexicalRegions_ordered content).imp_of_mem ?_
    intro left right inLeft _ ordered
    exact Nat.lt_of_lt_of_le (fits inLeft).1 ordered
  · intro region member
    obtain ⟨nonempty, _, opens⟩ := fits member
    have lexeme := (lexemeAt_spec opens).2.2
    rwa [show region.start + (region.stop - region.start) = region.stop by omega] at lexeme
  · intro place free opens
    have below : place < content.length := by
      rcases opens with ⟨quote, _, found⟩ | ⟨found, _⟩
      · exact (List.getElem?_eq_some_iff.mp found).1
      · exact (List.getElem?_eq_some_iff.mp found).1
    obtain ⟨piece, member, covers⟩ :=
      carve_covers lexemeAt 0 none content place (Nat.zero_le place) (by simpa using below)
    cases piece with
    | region extent => exact free extent (mem_lexicalRegions.mpr member) covers
    | plain offset char =>
      obtain rfl : offset = place := Nat.le_antisymm covers.1 (Nat.lt_succ_iff.mp covers.2)
      have closed := (lexicalPieces_fit member).2
      cases found : lexemeAt (content.take offset).getLast? (content.drop offset) with
      | none => exact not_opensLexeme found opens
      | some lexeme =>
        obtain ⟨kind, length⟩ := lexeme
        obtain ⟨positive, _⟩ := lexemeAt_spec found
        obtain ⟨more, rfl⟩ := Nat.exists_eq_succ_of_ne_zero (Nat.pos_iff_ne_zero.mp positive)
        exact closed kind more found

/-- Looking up an offset finds the region around it. -/
theorem regionAt?_eq_some_iff {content : Content} {offset : Int} {region : Region Lexeme} :
    regionAt? (lexicalRegions content) offset = some region ↔
      region ∈ lexicalRegions content ∧ (region.start : Int) ≤ offset ∧ offset < region.stop := by
  have partition := lexicalRegions_partition content
  simp only [regionAt?, Option.filter_eq_some_iff, Region.holds, Bool.and_eq_true, decide_eq_true_eq]
  constructor
  · rintro ⟨found, holds⟩
    exact ⟨(List.takeWhile_sublist _).subset (List.mem_of_getLast? found), holds⟩
  · rintro ⟨member, starts, stops⟩
    refine ⟨?_, starts, stops⟩
    have increasing := partition.increasing.imp fun {left right} less =>
      (Int.ofNat_lt.mpr less : (left.start : Int) < right.start)
    refine getLast?_takeWhile_le increasing member starts fun other inRegions less => ?_
    by_contra inside
    have nonempty := partition.nonempty other inRegions
    have covers : region.Covers other.start := ⟨by omega, by omega⟩
    have equal := partition.eq_of_covers member inRegions covers ⟨Nat.le_refl _, nonempty⟩
    rw [equal] at less
    omega

theorem isCode_iff {content : Content} {offset : Int} :
    isCode (lexicalRegions content) offset = true ↔
      ∀ region ∈ lexicalRegions content, ¬((region.start : Int) ≤ offset ∧ offset < region.stop) := by
  rw [isCode, Option.isNone_iff_eq_none, Option.eq_none_iff_forall_ne_some]
  constructor
  · intro missing region member holds
    exact missing region (regionAt?_eq_some_iff.mpr ⟨member, holds⟩)
  · intro free region found
    obtain ⟨member, holds⟩ := regionAt?_eq_some_iff.mp found
    exact free region member holds

/-- The regions of a content are its only partition into strings, comments and code, and looking up an offset
tells in which of them it lies. -/
theorem lexicalRegions_only_partition (content : Content) :
    (∀ regions, LexicalPartition content regions ↔ regions = lexicalRegions content) ∧
      ∀ offset : Int,
        (∀ region, regionAt? (lexicalRegions content) offset = some region ↔
          region ∈ lexicalRegions content ∧ (region.start : Int) ≤ offset ∧ offset < region.stop) ∧
        (isCode (lexicalRegions content) offset = true ↔
          ∀ region ∈ lexicalRegions content, ¬((region.start : Int) ≤ offset ∧ offset < region.stop)) := by
  refine ⟨fun regions => ⟨fun partition => ?_, ?_⟩, fun offset => ⟨fun region => ?_, ?_⟩⟩
  · exact partition.unique (lexicalRegions_partition content)
  · rintro rfl
    exact lexicalRegions_partition content
  · exact regionAt?_eq_some_iff
  · exact isCode_iff

end Marginalia
