import Marginalia.Proofs.BlameRuns
import Marginalia.Proofs.KeptRecords
import Marginalia.Proofs.ListedEntries
import Mathlib.Data.Int.Init

namespace Marginalia

variable {zone : Zone}

/-- What an entry tells about its line: who changed it, when, and what for. -/
def ListedEntry.told (entry : ListedEntry zone) : String × Moment × String :=
  (String.ofList entry.author, entry.time, String.ofList entry.summary)

def Record.told (record : Record) : String × Moment × String :=
  (record.author, record.time, record.message)

variable {record left right : Record} {records : List Record} {lines run rest : List BlameLine}
  {entry : ListedEntry zone} {entries : List (ListedEntry zone)}

theorem exists_recordsOfLines (timed : ∀ line ∈ lines, ∃ record, BlameLine.record line zone = .ok record) :
    ∃ records, recordsOfLines zone lines = .ok records := by
  refine exists_recordsOfLines_iff.mpr fun run member first atHead => timed first ?_
  have inLines := List.mem_flatten_of_mem member (List.mem_of_mem_head? atHead)
  rwa [blameRuns, List.flatten_splitBy] at inLines

theorem Record.contains_iff {line : Int} : record.contains line = true ↔ record.start ≤ line ∧ line < record.stop := by
  simp [contains]

theorem Record.mem_signedLines {line : Int} {identifier : String} :
    (line, identifier) ∈ record.signedLines ↔ record.contains line = true ∧ record.identifier = identifier := by
  simp only [signedLines, List.mem_map, List.mem_range, Prod.mk.injEq, contains_iff, lineCount]
  constructor
  · rintro ⟨place, below, rfl, rfl⟩
    exact ⟨by omega, rfl⟩
  · rintro ⟨⟨lower, upper⟩, rfl⟩
    refine ⟨(line - record.start).toNat, ?_, ?_, rfl⟩ <;> omega

theorem inLineOrder_of_increasing (nonempty : ∀ record ∈ records, record.start < record.stop)
    (increasing : (records.flatMap Record.signedLines).Pairwise fun line next => line.1 < next.1) :
    InLineOrder records := by
  refine ⟨nonempty, (List.pairwise_flatMap.mp increasing).2.imp_of_mem fun {left right} inLeft inRight apart => ?_⟩
  have linesLeft := nonempty left inLeft
  have linesRight := nonempty right inRight
  have last : (left.stop - 1, left.identifier) ∈ left.signedLines :=
    Record.mem_signedLines.mpr ⟨Record.contains_iff.mpr (by omega), rfl⟩
  have start : (right.start, right.identifier) ∈ right.signedLines :=
    Record.mem_signedLines.mpr ⟨Record.contains_iff.mpr (by omega), rfl⟩
  have behind := apart _ last _ start
  dsimp only at behind
  omega

/-- A line belongs to one record at most. -/
theorem InLineOrder.eq_of_contains (order : InLineOrder records) (inLeft : left ∈ records) (inRight : right ∈ records)
    {line : Int} (leftHas : left.contains line = true) (rightHas : right.contains line = true) : left = right := by
  refine @eq_of_shared_place _ _ (fun record line => record.contains line = true) records ?_ _ _ inLeft inRight _
    leftHas rightHas
  refine order.ordered.imp fun {left right} behind line inFront after => ?_
  rw [Record.contains_iff] at inFront after
  omega

/-- When no record goes on with the next one, none goes on with any other. -/
theorem InLineOrder.not_meets (order : InLineOrder records)
    (apart : records.IsChain fun record next => ¬(record.identifier = next.identifier ∧ record.stop = next.start))
    (inLeft : left ∈ records) (inRight : right ∈ records) :
    ¬(left.identifier = right.identifier ∧ left.stop = right.start) := by
  rintro ⟨identifier, meets⟩
  have linesLeft := order.lines left inLeft
  have linesRight := order.lines right inRight
  obtain ⟨before, after, rfl⟩ := List.append_of_mem inLeft
  obtain ⟨_, ordered, across⟩ := List.pairwise_append.mp order.ordered
  obtain ⟨behind, later⟩ := List.pairwise_cons.mp ordered
  rcases List.mem_append.mp inRight with inBefore | inRest
  · have inFront := across right inBefore left (List.mem_cons_self ..)
    omega
  · rcases List.mem_cons.mp inRest with rfl | inAfter
    · omega
    · cases after with
      | nil => cases inAfter
      | cons next after =>
        rcases List.mem_cons.mp inAfter with rfl | beyond
        · exact (List.isChain_cons_cons.mp apart.right_of_append).1 ⟨identifier, meets⟩
        -- The next record lies between the two, which leaves it no line.
        · have nextBehind := behind next (List.mem_cons_self ..)
          have linesNext := order.lines next (by simp)
          have rightBehind := (List.pairwise_cons.mp later).1 right beyond
          omega

/-- Records that share out the lines of entries among them. -/
structure SharesOut (records : List Record) (entries : List (ListedEntry zone)) : Prop where
  order : InLineOrder records
  owner : ∀ entry ∈ entries, ∃ record ∈ records, record.contains entry.line = true ∧
    record.identifier = entry.blameLine.identifier
  owned : ∀ record ∈ records, ∀ line, record.contains line = true → ∃ entry ∈ entries, entry.line = line ∧
    entry.blameLine.identifier = record.identifier
  starts : ∀ record ∈ records, ∃ entry ∈ entries, entry.line = record.start ∧ record.told = entry.told
  apart : ∀ left ∈ records, ∀ right ∈ records, ¬(left.identifier = right.identifier ∧ left.stop = right.start)

theorem ListedEntry.record_blameLine (entry : ListedEntry zone) : entry.blameLine.record zone = .ok
    ⟨entry.line, entry.line + 1, String.ofList entry.author, entry.time, entry.blameLine.identifier,
      String.ofList entry.summary⟩ := by
  have read : Moment.ofEpoch entry.blameLine.seconds 0 zone = .ok entry.time := entry.seconds_eq
  rw [BlameLine.record, read]
  rfl

theorem Record.StandsFor.told_eq (stands : record.StandsFor zone run) (atHead : entry.blameLine ∈ run.head?) :
    entry.line = record.start ∧ record.told = entry.told := by
  obtain ⟨first, atStart, last, _, time, read, rfl⟩ := stands
  obtain rfl : first = entry.blameLine := Option.some.inj (atStart.symm.trans atHead)
  obtain rfl : entry.time = time := Except.ok.inj (entry.seconds_eq.symm.trans read)
  exact ⟨rfl, rfl⟩

theorem sharesOut_of_recordsOfLines (increasing : entries.Pairwise fun left right => left.line < right.line)
    (made : recordsOfLines zone (entries.map ListedEntry.blameLine) = .ok records) : SharesOut records entries := by
  have stand := forall₂_recordsOfLines made
  have chains : ∀ run ∈ blameRuns (entries.map ListedEntry.blameLine),
      run.IsChain fun line next => line.precedes next = true := fun run => List.isChain_of_mem_splitBy
  obtain ⟨nonempty, signed⟩ := signedLines_recordsOfLines made
  have whole : (blameRuns (entries.map ListedEntry.blameLine)).flatten = entries.map ListedEntry.blameLine :=
    List.flatten_splitBy ..
  rw [List.map_map] at signed
  have order : InLineOrder records := by
    refine inLineOrder_of_increasing nonempty ?_
    rw [signed, List.pairwise_map]
    exact increasing
  have cuts := isChain_records stand chains (List.isChain_getLast_head_splitBy ..)
  refine ⟨order, ?_, ?_, ?_, fun left inLeft right inRight => order.not_meets cuts inLeft inRight⟩
  · intro entry member
    have shown : entry.blameLine.signed ∈ records.flatMap Record.signedLines :=
      signed ▸ List.mem_map_of_mem member
    obtain ⟨record, inside, lines⟩ := List.mem_flatMap.mp shown
    exact ⟨record, inside, Record.mem_signedLines.mp lines⟩
  · intro record member line covers
    have shown : (line, record.identifier) ∈ records.flatMap Record.signedLines :=
      List.mem_flatMap.mpr ⟨record, member, Record.mem_signedLines.mpr ⟨covers, rfl⟩⟩
    rw [signed] at shown
    obtain ⟨entry, inside, same⟩ := List.mem_map.mp shown
    exact ⟨entry, inside, congrArg Prod.fst same, congrArg Prod.snd same⟩
  · intro record member
    obtain ⟨run, inRuns, stands⟩ := exists_partner stand member
    obtain ⟨first, rest, rfl⟩ := List.exists_cons_of_ne_nil stands.ne_nil
    have inLines : first ∈ entries.map ListedEntry.blameLine :=
      whole ▸ List.mem_flatten_of_mem inRuns (List.mem_cons_self ..)
    obtain ⟨entry, inside, rfl⟩ := List.mem_map.mp inLines
    exact ⟨entry, inside, stands.told_eq rfl⟩

theorem eq_of_line_eq (increasing : entries.Pairwise fun left right => left.line < right.line)
    {left right : ListedEntry zone} (inLeft : left ∈ entries) (inRight : right ∈ entries) (same : left.line = right.line) :
    left = right := by
  refine @eq_of_shared_place _ _ (fun entry line => ListedEntry.line entry = line) entries ?_ _ _ inLeft inRight _ same
    rfl
  refine increasing.imp fun {left right} less line atLeft atRight => ?_
  omega

/-- Along a record nothing changes when nothing changes from a line to the next one under the same identifier. -/
theorem SharesOut.told_eq (shares : SharesOut records entries)
    (increasing : entries.Pairwise fun left right => left.line < right.line)
    (agree : ∀ left ∈ entries, ∀ right ∈ entries, left.line + 1 = right.line →
      left.blameLine.identifier = right.blameLine.identifier → left.told = right.told)
    (inRecords : record ∈ records) (inEntries : entry ∈ entries) (covers : record.contains entry.line = true) :
    record.told = entry.told := by
  have along : ∀ line, record.start ≤ line → line < record.stop →
      ∀ entry ∈ entries, entry.line = line → record.told = entry.told := by
    -- From the start of the record on, where `starts` gives the entry; `owned` gives that of every further line.
    intro line lower
    induction line, lower using Int.leInduction with
    | base =>
      intro _ entry member atLine
      obtain ⟨first, inside, atStart, tells⟩ := shares.starts record inRecords
      obtain rfl := eq_of_line_eq increasing inside member (atStart.trans atLine.symm)
      exact tells
    | succ line lower ih =>
      intro upper next nextMember atNext
      obtain ⟨entry, member, atLine, identifier⟩ :=
        shares.owned record inRecords line (Record.contains_iff.mpr ⟨lower, by omega⟩)
      obtain ⟨other, otherMember, atOther, otherIdentifier⟩ :=
        shares.owned record inRecords (line + 1) (Record.contains_iff.mpr ⟨by omega, upper⟩)
      obtain rfl := eq_of_line_eq increasing otherMember nextMember (atOther.trans atNext.symm)
      have told := ih (by omega) entry member atLine
      rw [told]
      exact agree entry member other otherMember (by omega) (identifier.trans otherIdentifier.symm)
  obtain ⟨lower, upper⟩ := Record.contains_iff.mp covers
  exact along entry.line lower upper entry inEntries rfl

/-- Consecutive lines under the same identifier are in the same record. -/
theorem SharesOut.shared (shares : SharesOut records entries) {line next : ListedEntry zone} (inLine : line ∈ entries)
    (inNext : next ∈ entries) (behind : line.line + 1 = next.line)
    (identifier : line.blameLine.identifier = next.blameLine.identifier) :
    ∃ record ∈ records, record.contains line.line = true ∧ record.contains next.line = true := by
  obtain ⟨left, inLeft, leftHas, leftIdentifier⟩ := shares.owner line inLine
  obtain ⟨right, inRight, rightHas, rightIdentifier⟩ := shares.owner next inNext
  obtain ⟨leftLower, leftUpper⟩ := Record.contains_iff.mp leftHas
  obtain ⟨rightLower, rightUpper⟩ := Record.contains_iff.mp rightHas
  by_cases further : next.line < left.stop
  · exact ⟨left, inLeft, leftHas, Record.contains_iff.mpr ⟨by omega, further⟩⟩
  · by_cases earlier : right.start ≤ line.line
    · exact ⟨right, inRight, Record.contains_iff.mpr ⟨earlier, by omega⟩, rightHas⟩
    -- Neither record has both lines, so that one ends where the other starts.
    · have sameIdentifier : left.identifier = right.identifier := by rw [leftIdentifier, rightIdentifier, identifier]
      have meets : left.stop = right.start := by omega
      exact absurd ⟨sameIdentifier, meets⟩ (shares.apart left inLeft right inRight)

theorem ListedEntry.identifier_eq_iff {left right : ListedEntry zone} :
    left.blameLine.identifier = right.blameLine.identifier ↔ left.commit.take 8 = right.commit.take 8 :=
  String.ofList_inj

theorem exists_recordsOfListing (increasing : entries.Pairwise fun left right => left.line < right.line) :
    ∃ records, recordsOfListing (listingOf entries) zone = .ok records ∧ SharesOut records entries := by
  have timed : ∀ line ∈ entries.map ListedEntry.blameLine, ∃ record, BlameLine.record line zone = .ok record := by
    intro line member
    obtain ⟨entry, _, rfl⟩ := List.mem_map.mp member
    exact ⟨_, entry.record_blameLine⟩
  obtain ⟨records, made⟩ := exists_recordsOfLines timed
  refine ⟨records, ?_, sharesOut_of_recordsOfLines increasing made⟩
  rw [recordsOfListing, blameLines_listingOf]
  exact made

/-- Every line of a listing has one record, which tells what the entry at its start tells. Where entries of one change
agree, the record of a line tells what the line's own entry tells, for every line, exactly when no two changes that differ
in what they tell have the same first eight characters and consecutive lines. -/
theorem recordsOfListing_tells
    (consistent : ∀ left ∈ entries, ∀ right ∈ entries, left.commit = right.commit → left.told = right.told)
    (increasing : entries.Pairwise fun left right => left.line < right.line) :
    ∃ records, recordsOfListing (listingOf entries) zone = .ok records ∧
      (∀ entry ∈ entries, ∃! record, record ∈ records ∧ record.contains entry.line = true) ∧
      (∀ record ∈ records, ∃ entry ∈ entries, entry.line = record.start ∧ record.told = entry.told) ∧
      ((∀ entry ∈ entries, ∀ record ∈ records, record.contains entry.line = true → record.told = entry.told) ↔
        ∀ left ∈ entries, ∀ right ∈ entries, left.line + 1 = right.line → left.commit ≠ right.commit →
          left.commit.take 8 = right.commit.take 8 → left.told = right.told) := by
  obtain ⟨records, made, shares⟩ := exists_recordsOfListing increasing
  refine ⟨records, made, fun entry member => ?_, shares.starts, ?_, ?_⟩
  · obtain ⟨record, inside, covers, _⟩ := shares.owner entry member
    refine ⟨record, ⟨inside, covers⟩, ?_⟩
    rintro other ⟨otherInside, otherCovers⟩
    exact shares.order.eq_of_contains otherInside inside otherCovers covers
  · intro kept left inLeft right inRight behind _ prefixes
    obtain ⟨record, inside, hasLeft, hasRight⟩ :=
      shares.shared inLeft inRight behind (ListedEntry.identifier_eq_iff.mpr prefixes)
    exact (kept left inLeft record inside hasLeft).symm.trans (kept right inRight record inside hasRight)
  · intro agree entry member record inside covers
    refine shares.told_eq increasing ?_ inside member covers
    intro left inLeft right inRight behind identifier
    by_cases same : left.commit = right.commit
    · exact consistent left inLeft right inRight same
    · exact agree left inLeft right inRight behind same (ListedEntry.identifier_eq_iff.mp identifier)

def aliceLine : ListedEntry .universal where
  commit := "a1b2c3d4".toList ++ List.replicate 32 '0'
  inCommit := "1".toList
  final := "1".toList
  group := some "1".toList
  details := ["author alice", "author-time 1735689600", "summary one", "filename a.py"].map String.toList
  source := "x = 1".toList
  line := 0
  author := "alice".toList
  clock := "1735689600".toList
  seconds := 1735689600
  time := ⟨1735689600000000⟩
  summary := "one".toList
  commit_name := by decide +kernel
  inCommit_numeral := by decide +kernel
  final_numeral := by decide +kernel
  group_numeral := by decide +kernel
  final_eq := by decide +kernel
  source_unbroken := by decide +kernel
  untabbed := by decide +kernel
  author_said := by decide +kernel
  clock_said := by decide +kernel
  summary_said := by decide +kernel
  clock_eq := by decide +kernel
  seconds_eq := by decide +kernel

/-- The line behind, from another change. -/
def bobLine (commit : List Char) (commit_name : isCommitName commit = true) : ListedEntry .universal where
  commit := commit
  inCommit := "2".toList
  final := "2".toList
  group := none
  details := ["author bob", "author-time 1738368000", "summary two", "filename a.py"].map String.toList
  source := "y = 2".toList
  line := 1
  author := "bob".toList
  clock := "1738368000".toList
  seconds := 1738368000
  time := ⟨1738368000000000⟩
  summary := "two".toList
  commit_name := commit_name
  inCommit_numeral := by decide +kernel
  final_numeral := by decide +kernel
  group_numeral := nofun
  final_eq := by decide +kernel
  source_unbroken := by decide +kernel
  untabbed := by decide +kernel
  author_said := by decide +kernel
  clock_said := by decide +kernel
  summary_said := by decide +kernel
  clock_eq := by decide +kernel
  seconds_eq := by decide +kernel

/-- Two changes on consecutive lines, told apart by their first characters. -/
theorem recordsOfListing_tells_apart :
    let entries := [aliceLine, bobLine (List.replicate 40 'b') (by decide +kernel)]
    ∃ records, recordsOfListing (listingOf entries) .universal = .ok records ∧
      ∀ entry ∈ entries, ∀ record ∈ records, record.contains entry.line = true → record.told = entry.told := by
  intro entries
  have consistent : ∀ left ∈ entries, ∀ right ∈ entries, left.commit = right.commit → left.told = right.told := by
    decide +kernel
  have increasing : entries.Pairwise fun left right => left.line < right.line := by decide +kernel
  obtain ⟨records, made, _, _, keeps⟩ := recordsOfListing_tells consistent increasing
  exact ⟨records, made, keeps.mpr (by decide +kernel)⟩

/-- Two changes with the same first characters become one record, and the line of the second is lost to the first. -/
theorem recordsOfListing_tells_merged :
    let next := bobLine ("a1b2c3d4".toList ++ List.replicate 32 '1') (by decide +kernel)
    let record : Record := ⟨0, 2, "alice", aliceLine.time, "a1b2c3d4", "one"⟩
    aliceLine.commit ≠ next.commit ∧ aliceLine.line < next.line ∧
      recordsOfListing (listingOf [aliceLine, next]) .universal = .ok [record] ∧
      record.contains next.line = true ∧ record.told ≠ next.told := by
  decide +kernel

end Marginalia
