import Marginalia.Proofs.CommitData

namespace Marginalia

variable {listing : List Char} {records : List Record} {record : Record} {attribution : Attribution}
  {lines : List BlameLine} {heads : List EntryHead} {zone : Zone}

/-- A record behind all others joins them, and its place is behind them. -/
theorem InLineOrder.add_last (order : InLineOrder (records ++ [record])) (strict : Bool) :
    Attribution.add strict ⟨records, []⟩ record = .ok ⟨records ++ [record], []⟩ := by
  have front := order.of_append.1
  have lines : record.start < record.stop := order.lines record (by simp)
  have behind : ∀ other ∈ records, other.stop ≤ record.start := fun other member =>
    (List.pairwise_append.mp order.ordered).2.2 other member record (List.mem_singleton_self _)
  have joins : record.Joins records := by
    refine ⟨lines, fun other member => ?_⟩
    have apart := behind other member
    rw [← Bool.not_eq_true, Record.overlaps_iff]
    omega
  have starts : ∀ other ∈ records, decide (other.start < record.start) = true := by
    intro other member
    have apart := behind other member
    have otherLines := front.lines other member
    exact decide_eq_true (by omega)
  have clear : Attribution.clash? ⟨records, []⟩ record = none := (front.clash?_eq_none_iff lines).mpr joins
  have filled : ¬record.isEmpty = true := by simpa [Record.isEmpty] using lines
  rw [Attribution.add, if_neg filled, clear]
  dsimp only [Attribution.place]
  rw [List.takeWhile_eq_self_iff.mpr starts, List.dropWhile_eq_nil_iff.mpr starts]

/-- Records that come in line order are all taken. -/
theorem InLineOrder.ofRecords_eq (order : InLineOrder records) (strict : Bool) :
    Attribution.ofRecords records strict = .ok ⟨records, []⟩ := by
  induction records using List.reverseRecOn with
  | nil => rfl
  | append_singleton records record ih =>
    rw [Attribution.ofRecords, List.foldlM_append, ← Attribution.ofRecords, ih order.of_append.1]
    change (Attribution.add strict ⟨records, []⟩ record >>= pure) = _
    rw [order.add_last]
    rfl

/-- What is found for a line has the line. -/
theorem Attribution.contains_of_lookup? {line : Int} (found : attribution.lookup? line = some record) :
    record ∈ attribution.records ∧ record.contains line = true := by
  obtain ⟨last, covers⟩ := Option.filter_eq_some_iff.mp found
  exact ⟨(List.takeWhile_sublist _).mem (List.mem_of_getLast? last), covers⟩

/-- Among records in line order the one that has a line is found for it. -/
theorem InLineOrder.lookup?_eq (order : InLineOrder attribution.records) (member : record ∈ attribution.records)
    {line : Int} (covers : record.contains line = true) : attribution.lookup? line = some record := by
  obtain ⟨lower, upper⟩ := Record.contains_iff.mp covers
  have last : ∀ other ∈ attribution.records, record.start < other.start → line < other.start := by
    intro other inRecords later
    by_contra reached
    have otherLines := order.lines other inRecords
    -- Both have the start of the later one, which belongs to one record only.
    have inBoth : record.contains other.start = true ∧ other.contains other.start = true :=
      ⟨Record.contains_iff.mpr (by omega), Record.contains_iff.mpr (by omega)⟩
    have same := order.eq_of_contains member inRecords inBoth.1 inBoth.2
    rw [same] at later
    omega
  rw [Attribution.lookup?, getLast?_takeWhile_le order.starts_increase member lower last]
  exact Option.filter_eq_some_iff.mpr ⟨rfl, covers⟩

theorem EntryHead.signed?_eq_some_iff {head : EntryHead} {line : Int} {identifier : String} :
    head.signed? = some (line, identifier) ↔
      readInteger? head.final = some (line + 1) ∧ String.ofList (head.commit.take 8) = identifier := by
  unfold signed?
  rw [Option.map_eq_some_iff]
  constructor
  · rintro ⟨number, read, same⟩
    obtain ⟨rfl, rfl⟩ := Prod.mk.inj same
    rw [Int.sub_add_cancel]
    exact ⟨read, rfl⟩
  · rintro ⟨read, rfl⟩
    exact ⟨line + 1, read, by rw [Int.add_sub_cancel]⟩

/-- The lines of complete entries increase when the numerals in their headers do. -/
theorem increasing_of_heads (signed : heads.map EntryHead.signed? = (lines.map BlameLine.signed).map some)
    (increasing : heads.Pairwise fun left right =>
      ∀ number ∈ readInteger? left.final, ∀ next ∈ readInteger? right.final, number < next) :
    (lines.map BlameLine.signed).Pairwise fun line next => line.1 < next.1 := by
  have shown : (heads.map EntryHead.signed?).Pairwise fun left right =>
      ∀ line ∈ left, ∀ next ∈ right, line.1 < next.1 := by
    refine List.pairwise_map.mpr (increasing.imp fun {left right} less => ?_)
    rintro ⟨line, _⟩ atLeft ⟨next, _⟩ atRight
    have before := less _ (EntryHead.signed?_eq_some_iff.mp atLeft).1 _ (EntryHead.signed?_eq_some_iff.mp atRight).1
    dsimp only
    omega
  rw [signed, List.pairwise_map] at shown
  exact shown.imp fun less => less _ rfl _ rfl

/-- When the entries of a listing come in the order of their lines, its records are taken as they are, also where no
clash is allowed; the line of each entry then leads to a record under the first characters of the entry's change, and
every other line leads to none. -/
theorem recordsOfListing_lookups (made : recordsOfListing listing zone = .ok records)
    (increasing : (entryHeads (splitLines listing)).Pairwise fun left right =>
      ∀ number ∈ readInteger? left.final, ∀ next ∈ readInteger? right.final, number < next) :
    ∃ attribution, Attribution.ofRecords records true = .ok attribution ∧
      attribution.records = records ∧ attribution.dropped = [] ∧
      (∀ head ∈ entryHeads (splitLines listing), ∃ line record, readInteger? head.final = some (line + 1) ∧
        attribution.lookup? line = some record ∧ record.identifier = String.ofList (head.commit.take 8)) ∧
      ∀ line, (∀ head ∈ entryHeads (splitLines listing), readInteger? head.final ≠ some (line + 1)) →
        attribution.lookup? line = none := by
  obtain ⟨lines, read, made⟩ := of_bind_eq_ok made
  obtain ⟨nonempty, signed⟩ := signedLines_recordsOfLines made
  have heads := signed_blameLinesFrom read
  have order : InLineOrder records :=
    inLineOrder_of_increasing nonempty (signed ▸ increasing_of_heads heads increasing)
  -- What an entry shows is the same as what a record has.
  have shown (line : Int) (identifier : String) :
      (∃ head ∈ entryHeads (splitLines listing), head.signed? = some (line, identifier)) ↔
        ∃ record ∈ records, record.contains line = true ∧ record.identifier = identifier := by
    have same : some (line, identifier) ∈ (entryHeads (splitLines listing)).map EntryHead.signed? ↔
        (line, identifier) ∈ records.flatMap Record.signedLines := by
      rw [heads, signed, List.mem_map_of_injective (Option.some_injective _)]
    simpa only [List.mem_map, List.mem_flatMap, Record.mem_signedLines] using same
  refine ⟨⟨records, []⟩, order.ofRecords_eq true, rfl, rfl, fun head member => ?_, fun line unnamed => ?_⟩
  · have numbered : head.signed? ∈ (lines.map BlameLine.signed).map some := heads ▸ List.mem_map_of_mem member
    obtain ⟨⟨line, identifier⟩, _, atHead⟩ := List.mem_map.mp numbered
    obtain ⟨record, inside, covers, named⟩ := (shown line identifier).mp ⟨head, member, atHead.symm⟩
    obtain ⟨final, prefixed⟩ := EntryHead.signed?_eq_some_iff.mp atHead.symm
    have found : Attribution.lookup? ⟨records, []⟩ line = some record := order.lookup?_eq inside covers
    exact ⟨line, record, final, found, named.trans prefixed.symm⟩
  · refine Option.eq_none_iff_forall_ne_some.mpr fun record found => ?_
    obtain ⟨inside, covers⟩ := Attribution.contains_of_lookup? found
    obtain ⟨head, member, atHead⟩ := (shown line _).mpr ⟨record, inside, covers, rfl⟩
    exact unnamed head member (EntryHead.signed?_eq_some_iff.mp atHead).1

/-- A listing with a gap behind its third line; its first two lines are of one change. -/
def gappedListing : List Char :=
  let first := String.ofList (List.replicate 40 'a')
  let second := String.ofList (List.replicate 40 'b')
  endedLines <| List.map String.toList
    [first ++ " 1 1 2", "author ann", "\tx", first ++ " 2 2", "\ty", second ++ " 9 3 1", "author-time 60", "\tz",
      first ++ " 3 7 1", "\tw"]

theorem recordsOfListing_lookups_gapped :
    ∃ records attribution, recordsOfListing gappedListing = .ok records ∧
      Attribution.ofRecords records true = .ok attribution ∧ attribution.dropped = [] ∧
      (∃ record, attribution.lookup? 1 = some record ∧ record.identifier = "aaaaaaaa") ∧
      attribution.lookup? 3 = none := by
  have read : (recordsOfListing gappedListing).toOption.any (fun _ => true) = true := by decide +kernel
  obtain ⟨records, made, _⟩ := exists_ok_of_any read
  have increasing : (entryHeads (splitLines gappedListing)).Pairwise fun left right =>
      ∀ number ∈ readInteger? left.final, ∀ next ∈ readInteger? right.final, number < next := by
    decide +kernel
  obtain ⟨attribution, built, _, dropped, named, others⟩ := recordsOfListing_lookups made increasing
  refine ⟨records, attribution, made, built, dropped, ?_, others 3 (by decide +kernel)⟩
  have second : (⟨List.replicate 40 'a', ['2']⟩ : EntryHead) ∈ entryHeads (splitLines gappedListing) := by
    decide +kernel
  obtain ⟨line, record, final, found, identifier⟩ := named _ second
  obtain rfl : line = 1 := by
    have two : readInteger? ['2'] = some 2 := by decide +kernel
    have same := Option.some.inj (two.symm.trans final)
    omega
  exact ⟨record, found, identifier.trans (by decide)⟩

end Marginalia
