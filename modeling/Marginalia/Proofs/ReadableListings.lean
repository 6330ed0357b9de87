import Marginalia.Attribution.Load
import Marginalia.Proofs.PrintedListings

namespace Marginalia

/-- An entry as the lines of a listing show it: its head, the lines between the header and the next one with a tab in
front, and whether there is such a line. -/
structure EntryBlock where
  head : EntryHead
  details : List (List Char)
  completed : Bool
deriving DecidableEq, Repr

/-- The numerals of an entry that are read: that of its line, and those of its times. -/
def EntryBlock.numerals (block : EntryBlock) : List (List Char) :=
  block.head.final :: saidBehind "author-time " block.details

/-- What an entry tells: of everything what is said last. -/
def EntryBlock.blameLine (block : EntryBlock) : BlameLine where
  commit := block.head.commit
  line := (readInteger? block.head.final).getD 0 - 1
  author := ((saidBehind "author " block.details).getLast?.map String.ofList).getD ""
  seconds := ((saidBehind "author-time " block.details).getLast?.bind readInteger?).getD 0
  summary := ((saidBehind "summary " block.details).getLast?.map String.ofList).getD ""

/-- The entry that a header opens in front of some lines. -/
def EntryBlock.opening (head : EntryHead) (rest : List (List Char)) : EntryBlock where
  head := head
  details := rest.takeWhile (!startsWithTab ·)
  completed := rest.any startsWithTab

/-- The entries that open among the lines of a listing, with the last one even if nothing completes it. -/
def entryBlocks : List (List Char) → List EntryBlock
  | [] => []
  | text :: rest =>
    match blameHeader? text with
    | none => entryBlocks rest
    | some (commit, final) =>
      .opening ⟨commit, final⟩ rest :: entryBlocks (rest.dropWhile (!startsWithTab ·)).tail
termination_by texts => texts.length
decreasing_by
  · simp
  · have shorter := (List.dropWhile_sublist (l := rest) (!startsWithTab ·)).length_le
    simp only [List.length_tail, List.length_cons]
    omega

/-- The complete entries of a listing. -/
def completeEntries (texts : List (List Char)) : List BlameLine :=
  ((entryBlocks texts).filter EntryBlock.completed).map EntryBlock.blameLine

/-- Whether records can be made of a listing: every numeral that is read is one, and the zone has a time for each
record. -/
structure IsReadable (zone : Zone) (listing : List Char) : Prop where
  numerals : ∀ block ∈ entryBlocks (splitLines listing), ∀ numeral ∈ block.numerals, (readInteger? numeral).isSome
  times : ∀ run ∈ blameRuns (completeEntries (splitLines listing)), ∀ first ∈ run.head?,
    zone.Tells first.seconds

instance (zone : Zone) (listing : List Char) : Decidable (IsReadable zone listing) :=
  decidable_of_iff (_ ∧ _)
    ⟨fun ⟨numerals, times⟩ => ⟨numerals, times⟩, fun readable => ⟨readable.numerals, readable.times⟩⟩

variable {text : List Char} {texts rest : List (List Char)} {finished : BlameLine} {lines : List BlameLine}
  {zone : Zone}

theorem EntryBlock.blameLine_of_foldlM_extend {commit final : List Char} {number : Int}
    (numbered : readInteger? final = some number)
    (extended : (rest.takeWhile (!startsWithTab ·)).foldlM BlameLine.extend { commit := commit, line := number - 1 } =
      .ok finished) :
    (EntryBlock.opening ⟨commit, final⟩ rest).blameLine = finished := by
  obtain ⟨sameCommit, line⟩ := BlameLine.foldlM_extend_keeps extended
  obtain ⟨author, seconds, summary⟩ := BlameLine.tells_of_foldlM_extend extended
  cases finished
  simp_all [blameLine, opening]

/-- An entry that opens is read exactly if its numerals are. What is read then begins with it if it is complete. -/
theorem blameLinesFrom_opening {commit final : List Char} (header : blameHeader? text = some (commit, final)) :
    blameLinesFrom none (text :: rest) = .ok lines ↔
      (∀ numeral ∈ (EntryBlock.opening ⟨commit, final⟩ rest).numerals, (readInteger? numeral).isSome) ∧
        if rest.any startsWithTab then
          ∃ later, blameLinesFrom none (rest.dropWhile (!startsWithTab ·)).tail = .ok later ∧
            (EntryBlock.opening ⟨commit, final⟩ rest).blameLine :: later = lines
        else [] = lines := by
  cases numbered : readInteger? final with
  | none =>
    constructor
    · intro read
      obtain ⟨number, found⟩ := exists_number_of_blameLinesFrom header read
      cases numbered.symm.trans found
    · rintro ⟨readable, _⟩
      have read := readable final (List.mem_cons_self ..)
      rw [numbered] at read
      cases read
  | some number =>
    have numerals : (∀ numeral ∈ (EntryBlock.opening ⟨commit, final⟩ rest).numerals, (readInteger? numeral).isSome) ↔
        ∃ finished, (rest.takeWhile (!startsWithTab ·)).foldlM BlameLine.extend
          { commit := commit, line := number - 1 } = .ok finished := by
      rw [BlameLine.exists_foldlM_extend_iff, EntryBlock.numerals, List.forall_mem_cons]
      exact and_iff_right (numbered ▸ rfl)
    rw [blameLinesFrom_header header numbered, blameLinesFrom_some, numerals]
    cases extended : (rest.takeWhile (!startsWithTab ·)).foldlM BlameLine.extend
        { commit := commit, line := number - 1 } with
    | error fault =>
      constructor
      · intro read
        cases read
      · rintro ⟨⟨_, never⟩, _⟩
        cases never
    | ok finished =>
      obtain rfl := EntryBlock.blameLine_of_foldlM_extend numbered extended
      refine Iff.trans ?_ (and_iff_right ⟨_, rfl⟩).symm
      change (if rest.any startsWithTab then _ else _) = Except.ok lines ↔ _
      cases rest.any startsWithTab with
      | false => exact ⟨Except.ok.inj, congrArg Except.ok⟩
      | true =>
        cases blameLinesFrom none (rest.dropWhile (!startsWithTab ·)).tail <;> simp [Except.map]

/-- A listing is read exactly if all its numerals are, and then as its complete entries. -/
theorem blameLinesFrom_eq_ok_iff :
    blameLinesFrom none texts = .ok lines ↔
      (∀ block ∈ entryBlocks texts, ∀ numeral ∈ block.numerals, (readInteger? numeral).isSome) ∧
        completeEntries texts = lines := by
  unfold completeEntries
  fun_induction entryBlocks texts generalizing lines with
  | case1 => simp [blameLinesFrom]
  | case2 text rest header ih =>
    rw [blameLinesFrom_passed header]
    exact ih
  | case3 text rest commit final header ih =>
    rw [blameLinesFrom_opening header, List.forall_mem_cons, and_assoc]
    refine and_congr_right fun _ => ?_
    cases completed : rest.any startsWithTab with
    | false =>
      have ends : (rest.dropWhile (!startsWithTab ·)).tail = [] := by
        have none : rest.dropWhile (!startsWithTab ·) = [] := by simpa [List.dropWhile_eq_nil_iff] using completed
        rw [none, List.tail_nil]
      have unfinished : (EntryBlock.opening ⟨commit, final⟩ rest).completed = false := completed
      simp [ends, entryBlocks, unfinished]
    | true =>
      have finished : (EntryBlock.opening ⟨commit, final⟩ rest).completed = true := completed
      simp [ih, finished, and_assoc]

theorem BlameLine.exists_record_iff (line : BlameLine) :
    (∃ record, line.record zone = .ok record) ↔ zone.Tells line.seconds := by
  rw [← @Moment.exists_ofEpoch_iff zone line.seconds 0, BlameLine.record]
  cases Moment.ofEpoch line.seconds 0 zone <;> simp [bind, Except.bind, pure, Except.pure]

/-- Records are made of a listing exactly if it can be read. -/
theorem exists_recordsOfListing_iff {listing : List Char} :
    (∃ records, recordsOfListing listing zone = .ok records) ↔ IsReadable zone listing := by
  have split : (∃ records, recordsOfListing listing zone = .ok records) ↔
      ∃ lines, blameLines listing = .ok lines ∧ ∃ records, recordsOfLines zone lines = .ok records := by
    rw [recordsOfListing]
    cases blameLines listing <;> simp [bind, Except.bind]
  rw [split]
  simp only [blameLines, blameLinesFrom_eq_ok_iff, exists_recordsOfLines_iff, BlameLine.exists_record_iff]
  constructor
  · rintro ⟨lines, ⟨numerals, rfl⟩, times⟩
    exact ⟨numerals, times⟩
  · intro readable
    exact ⟨_, ⟨readable.numerals, rfl⟩, readable.times⟩

theorem TimeFault.kind_mem (fault : TimeFault) : fault.kind ∈ ["ValueError", "OverflowError", "OSError"] := by
  cases fault <;> simp [kind]

/-- A run of the history tool gives the records of its listing exactly if the tool ended well and its listing can be
read. It breaks off exactly if the tool ended well and the listing cannot be read. Every other run tells a reason. -/
theorem recordsOfRun_answers (zone : Zone) (run : ToolRun) :
    ((∃ records, recordsOfRun run zone = .ok records) ↔
      ∃ output errors, run = .exited 0 output errors ∧ IsReadable zone output.toList) ∧
    ((∃ cause, recordsOfRun run zone = .error (.brokenOff cause) ∧ cause.kind ∈ ["ValueError", "OverflowError", "OSError"]) ↔
      ∃ output errors, run = .exited 0 output errors ∧ ¬IsReadable zone output.toList) ∧
    ((∃ reason, recordsOfRun run zone = .error (.noHistory reason)) ↔ ∀ output errors, run ≠ .exited 0 output errors) := by
  cases run with
  | failed reason => simp [recordsOfRun]
  | exited code output errors =>
    by_cases well : code = 0
    · subst well
      have read : recordsOfRun (.exited 0 output errors) zone =
          (recordsOfListing output.toList zone).mapError fun fault => .brokenOff (.record (.badTime fault)) := by
        rw [recordsOfRun, if_pos rfl]
      rw [read]
      cases made : recordsOfListing output.toList zone with
      | ok records =>
        have readable : IsReadable zone output.toList := exists_recordsOfListing_iff.mp ⟨records, made⟩
        simp [Except.mapError, readable]
      | error fault =>
        have unreadable : ¬IsReadable zone output.toList := fun readable => by
          obtain ⟨records, given⟩ := exists_recordsOfListing_iff.mpr readable
          cases made.symm.trans given
        simpa [Except.mapError, unreadable, LoadBreak.kind, RecordFault.kind] using fault.kind_mem
    · simp [recordsOfRun, well]

/-- A listing of one line, which tells a time. -/
def timedListing (time : String) : String :=
  String.ofList <| endedLines <| List.map String.toList
    [String.ofList (List.replicate 40 'a') ++ " 1 1 1", "author alice", "author-time " ++ time, "\tx"]

/-- A minute is told; a time in words, and one out of all bounds, break off a run that ended well. -/
theorem recordsOfRun_answers_timed :
    recordsOfRun (.exited 0 (timedListing "60") "") .universal = .ok [⟨0, 1, "alice", ⟨60000000⟩, "aaaaaaaa", ""⟩] ∧
      recordsOfRun (.exited 0 (timedListing "later") "") .universal = .error (.brokenOff (.record (.badTime .malformed))) ∧
      recordsOfRun (.exited 0 (timedListing "10000000000000000000") "") .universal =
        .error (.brokenOff (.record (.badTime .overflow))) := by
  decide +kernel

end Marginalia
