import Marginalia.Proofs.IndexedListings
import Marginalia.Proofs.Tallies
import Mathlib.Algebra.Order.BigOperators.Group.List
import Mathlib.Data.Int.Interval
import Mathlib.Data.Set.Card

namespace Marginalia

/-- The lines for which a record with a property is found. -/
def Attribution.linesWhere (attribution : Attribution) (chosen : Record → Prop) : Set Int :=
  {line | ∃ record, attribution.lookup? line = some record ∧ chosen record}

/-- How a table without zeros shows a count. -/
def shownCount (count : Nat) : Option Int :=
  if count = 0 then none else some count

variable {records : List Record} {record : Record} {attribution : Attribution} {strict : Bool}

theorem InLineOrder.filter (order : InLineOrder records) (chosen : Record → Bool) :
    InLineOrder (records.filter chosen) :=
  ⟨fun record member => order.lines record (List.mem_of_mem_filter member), order.ordered.sublist List.filter_sublist⟩

theorem Record.lineCount_pos (lines : record.start < record.stop) : 0 < record.lineCount :=
  Int.sub_pos_of_lt lines

/-- The lines of a record by themselves are as many as its bounds are apart. -/
theorem Record.ncard_lines (lines : record.start < record.stop) :
    {line : Int | record.contains line = true}.Finite ∧
      ({line : Int | record.contains line = true}.ncard : Int) = record.lineCount := by
  have interval : {line : Int | record.contains line = true} = (Finset.Ico record.start record.stop : Finset Int) := by
    ext line
    rw [Finset.coe_Ico]
    exact Record.contains_iff
  rw [interval, Set.ncard_coe_finset, Int.card_Ico, lineCount]
  exact ⟨Finset.finite_toSet _, Int.toNat_of_nonneg (by omega)⟩

/-- Records in line order share no line, so that their lines are counted by adding up. -/
theorem InLineOrder.ncard_lines (order : InLineOrder records) :
    {line : Int | ∃ record ∈ records, record.contains line = true}.Finite ∧
      ({line : Int | ∃ record ∈ records, record.contains line = true}.ncard : Int) =
        (records.map Record.lineCount).sum := by
  induction records with
  | nil => simp
  | cons record rest ih =>
    have whole : InLineOrder ([record] ++ rest) := order
    obtain ⟨finite, counted⟩ := ih whole.of_append.2
    obtain ⟨finiteHere, countedHere⟩ := Record.ncard_lines (order.lines record (List.mem_cons_self ..))
    have union : {line : Int | ∃ other ∈ record :: rest, other.contains line = true} =
        {line | record.contains line = true} ∪ {line | ∃ other ∈ rest, other.contains line = true} := by
      ext line
      exact List.exists_mem_cons_iff ..
    have apart : Disjoint {line : Int | record.contains line = true}
        {line | ∃ other ∈ rest, other.contains line = true} := by
      rw [Set.disjoint_left]
      rintro line here ⟨other, inRest, there⟩
      have behind := (List.pairwise_cons.mp order.ordered).1 other inRest
      have inHere := Record.contains_iff.mp here
      have inThere := Record.contains_iff.mp there
      omega
    rw [union, Set.ncard_union_eq apart finiteHere finite, List.map_cons, List.sum_cons]
    refine ⟨finiteHere.union finite, ?_⟩
    push_cast
    rw [countedHere, counted]

theorem Record.contains_eq (record : Record) (line : Int) :
    record.contains line = decide (record.start ≤ line ∧ line < record.stop) :=
  (Bool.decide_and ..).symm

/-- Of records in line order a search from the front finds the same one for a line. -/
theorem InLineOrder.lookup?_eq_find? (order : InLineOrder attribution.records) (line : Int) :
    attribution.lookup? line = attribution.records.find? fun record => record.start ≤ line ∧ line < record.stop := by
  simp only [← Record.contains_eq]
  cases found : attribution.records.find? (·.contains line) with
  | none =>
    rw [Option.eq_none_iff_forall_ne_some]
    intro record atLine
    obtain ⟨member, covers⟩ := Attribution.contains_of_lookup? atLine
    exact List.find?_eq_none.mp found record member covers
  | some record =>
    have covers : record.contains line = true := by simpa using List.find?_some found
    exact order.lookup?_eq (List.mem_of_find?_eq_some found) covers

theorem InLineOrder.countP_line_le (order : InLineOrder records) (line : Int) :
    records.countP (fun record => record.start ≤ line ∧ line < record.stop) ≤ 1 := by
  induction records with
  | nil => exact Nat.zero_le 1
  | cons record rest ih =>
    have whole : InLineOrder ([record] ++ rest) := order
    rw [List.countP_cons]
    by_cases covers : record.start ≤ line ∧ line < record.stop
    · have others : rest.countP (fun record => record.start ≤ line ∧ line < record.stop) = 0 := by
        rw [List.countP_eq_zero]
        intro other inRest coversToo
        have behind := (List.pairwise_cons.mp order.ordered).1 other inRest
        have lower := (of_decide_eq_true coversToo).1
        omega
      rw [others, if_pos (decide_eq_true covers)]
    · rw [if_neg (by simpa using covers)]
      exact ih whole.of_append.2

/-- The lines for which a record with a property is found are as many as the records with it have together. -/
theorem InLineOrder.ncard_linesWhere (order : InLineOrder attribution.records) (chosen : Record → Prop)
    [DecidablePred chosen] :
    (attribution.linesWhere chosen).Finite ∧
      ((attribution.linesWhere chosen).ncard : Int) =
        ((attribution.records.filter (chosen ·)).map Record.lineCount).sum := by
  have lines : attribution.linesWhere chosen =
      {line | ∃ record ∈ attribution.records.filter (chosen ·), record.contains line = true} := by
    ext line
    constructor
    · rintro ⟨record, found, has⟩
      obtain ⟨member, covers⟩ := Attribution.contains_of_lookup? found
      exact ⟨record, List.mem_filter.mpr ⟨member, decide_eq_true has⟩, covers⟩
    · rintro ⟨record, member, covers⟩
      obtain ⟨inRecords, has⟩ := List.mem_filter.mp member
      exact ⟨record, order.lookup?_eq inRecords covers, of_decide_eq_true has⟩
  rw [lines]
  exact (order.filter _).ncard_lines

/-- Adding up the lines of records for each value counts the lines for which a record with that value is found. -/
theorem InLineOrder.lookupKey?_tallied {κ : Type} [DecidableEq κ] (order : InLineOrder attribution.records)
    (keyOf : Record → κ) (key : κ) :
    lookupKey? key (tallied keyOf Record.lineCount attribution.records) =
      shownCount (attribution.linesWhere fun record => keyOf record = key).ncard := by
  have counted := (order.ncard_linesWhere fun record => keyOf record = key).2
  rw [Marginalia.lookupKey?_tallied, ← counted, shownCount]
  by_cases member : key ∈ attribution.records.map keyOf
  · obtain ⟨record, inRecords, has⟩ := List.mem_map.mp member
    have chosen : record ∈ attribution.records.filter (keyOf · = key) :=
      List.mem_filter.mpr ⟨inRecords, decide_eq_true has⟩
    have positive : 0 < ((attribution.records.filter (keyOf · = key)).map Record.lineCount).sum := by
      refine List.sum_pos _ (fun count inCounts => ?_) (List.ne_nil_of_mem (List.mem_map_of_mem chosen))
      obtain ⟨other, inFilter, rfl⟩ := List.mem_map.mp inCounts
      exact Record.lineCount_pos (order.lines other (List.mem_of_mem_filter inFilter))
    rw [if_pos member, if_neg (by omega)]
  · have none : attribution.records.filter (keyOf · = key) = [] := by
      refine List.filter_eq_nil_iff.mpr fun record inRecords has => member ?_
      exact List.mem_map.mpr ⟨record, inRecords, of_decide_eq_true has⟩
    rw [none, List.map_nil, List.sum_nil] at counted
    rw [if_neg member, if_pos (Int.natCast_eq_zero.mp counted)]

/-- Counts per author and per age are tallies over the records. -/
theorem Attribution.stats_eq (attribution : Attribution) (now : Moment) :
    attribution.stats now =
      ⟨tallied (·.author) Record.lineCount attribution.records,
        tallied (fun record => Age.of record.time now) Record.lineCount attribution.records,
        (attribution.records.map Record.lineCount).sum⟩ := by
  unfold Attribution.stats
  induction attribution.records using List.reverseRecOn with
  | nil => rfl
  | append_singleton records record ih =>
    rw [List.foldl_concat, ih, AttributionStats.add, tallied_concat, tallied_concat, List.map_append, List.sum_append,
      List.map_singleton, List.sum_singleton]

theorem Attribution.inLineOrder_of_ofRecords (built : Attribution.ofRecords records strict = .ok attribution) :
    InLineOrder attribution.records := by
  rw [← (Attribution.ofRecords_eq_ok built).2]
  exact (follows_greedyWalk records).order

/-- The record that is found for a line is the one that a search from the front finds, and no other record has the line.
The counts of an attribution are those of its lines: all that have a record, those with a record of each author, and those
with a record of each age; authors and ages without lines are left out. -/
theorem Attribution.stats_lookups (built : Attribution.ofRecords records strict = .ok attribution) :
    (∀ line,
      attribution.lookup? line = attribution.records.find? (fun record => record.start ≤ line ∧ line < record.stop) ∧
      attribution.records.countP (fun record => record.start ≤ line ∧ line < record.stop) ≤ 1) ∧
    ∀ now,
      {line | attribution.lookup? line ≠ none}.Finite ∧
      (attribution.stats now).total = {line | attribution.lookup? line ≠ none}.ncard ∧
      (∀ author, lookupKey? author (attribution.stats now).byAuthor =
        shownCount (attribution.linesWhere fun record => record.author = author).ncard) ∧
      (∀ age, lookupKey? age (attribution.stats now).byAge =
        shownCount (attribution.linesWhere fun record => Age.of record.time now = age).ncard) ∧
      ((attribution.stats now).byAuthor.map (·.1)).Nodup ∧ ((attribution.stats now).byAge.map (·.1)).Nodup ∧
      ((attribution.stats now).byAuthor.map (·.2)).sum = (attribution.stats now).total ∧
      ((attribution.stats now).byAge.map (·.2)).sum = (attribution.stats now).total := by
  have order := Attribution.inLineOrder_of_ofRecords built
  refine ⟨fun line => ⟨order.lookup?_eq_find? line, order.countP_line_le line⟩, fun now => ?_⟩
  have found : {line | attribution.lookup? line ≠ none} = attribution.linesWhere fun _ => True := by
    ext line
    exact Option.ne_none_iff_exists'.trans (by simp [Attribution.linesWhere])
  obtain ⟨finite, counted⟩ := order.ncard_linesWhere fun _ => True
  rw [List.filter_eq_self.mpr fun _ _ => decide_eq_true trivial] at counted
  rw [attribution.stats_eq now, found]
  exact ⟨finite, counted.symm, order.lookupKey?_tallied (·.author),
    order.lookupKey?_tallied fun record => Age.of record.time now, nodup_tallied _, nodup_tallied _, sum_tallied _,
    sum_tallied _⟩

/-- Records with negative lines, without lines between them and with a gap; the third one runs into the others. -/
def gappedRecords : List Record :=
  [⟨-2, 1, "ann", ⟨0⟩, "", ""⟩, ⟨1, 3, "bob", ⟨0⟩, "", ""⟩, ⟨0, 2, "eve", ⟨0⟩, "", ""⟩, ⟨6, 7, "ann", ⟨0⟩, "", ""⟩]

theorem Attribution.stats_lookups_gapped :
    ∃ attribution, Attribution.ofRecords gappedRecords false = .ok attribution ∧
      attribution.lookup? 0 = attribution.records.find? (fun record => record.start ≤ 0 ∧ 0 < record.stop) ∧
      {line | attribution.lookup? line ≠ none}.ncard = 6 ∧
      shownCount (attribution.linesWhere fun record => record.author = "ann").ncard = some 4 ∧
      shownCount (attribution.linesWhere fun record => record.author = "eve").ncard = none := by
  have read : (Attribution.ofRecords gappedRecords false).toOption.any (fun attribution =>
      decide ((attribution.stats ⟨0⟩).total = 6 ∧ lookupKey? "ann" (attribution.stats ⟨0⟩).byAuthor = some 4 ∧
        lookupKey? "eve" (attribution.stats ⟨0⟩).byAuthor = none)) = true := by
    decide +kernel
  obtain ⟨attribution, built, seen⟩ := exists_ok_of_any read
  obtain ⟨total, ann, eve⟩ := of_decide_eq_true seen
  obtain ⟨lookups, counts⟩ := Attribution.stats_lookups built
  obtain ⟨_, counted, byAuthor, _⟩ := counts ⟨0⟩
  refine ⟨attribution, built, (lookups 0).1, ?_, (byAuthor "ann").symm.trans ann, (byAuthor "eve").symm.trans eve⟩
  rw [total] at counted
  omega

end Marginalia
