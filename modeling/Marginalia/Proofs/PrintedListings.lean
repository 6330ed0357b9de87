import Marginalia.Proofs.CommitData
import Marginalia.Proofs.LocalTimes
import Marginalia.Proofs.WrittenNumerals

namespace Marginalia

/-- A line of a file, counted from one, and the change it comes from, at a time that the zone has a clock for. The further
header lines stand behind the author, behind the time and behind the summary. -/
structure BlamedLine (zone : Zone) where
  commit : List Char
  number : Nat
  author : List Char
  behindAuthor : List (List Char)
  seconds : Int
  behindTime : List (List Char)
  summary : List Char
  behindSummary : List (List Char)
  source : List Char
  commit_name : isCommitName commit = true
  number_written : isWritable number = true
  seconds_told : zone.Tells seconds

variable {zone : Zone}

namespace BlamedLine

def numeral (line : BlamedLine zone) : List Char :=
  (toString line.number).toList

def header (line : BlamedLine zone) : List Char :=
  headerText line.commit line.numeral line.numeral (some ['1'])

def details (line : BlamedLine zone) : List (List Char) :=
  ["author ".toList ++ line.author] ++ line.behindAuthor ++
    ["author-time ".toList ++ (toString line.seconds).toList] ++ line.behindTime ++
    ["summary ".toList ++ line.summary] ++ line.behindSummary

def printed (line : BlamedLine zone) : List Char :=
  endedLines (line.header :: (line.details ++ ['\t' :: line.source]))

/-- What a line tells about its change. -/
def told (line : BlamedLine zone) : String × Moment × String :=
  (String.ofList line.author, ⟨zone.clock line.seconds * microsPerSecond⟩, String.ofList line.summary)

/-- Whether a line of the same change comes right behind. -/
def precedes (line next : BlamedLine zone) : Bool :=
  line.commit == next.commit && line.number + 1 == next.number

/-- The line as it is read. -/
def blameLine (line : BlamedLine zone) : BlameLine :=
  { commit := line.commit
    line := line.number - 1
    author := String.ofList line.author
    seconds := line.seconds
    summary := String.ofList line.summary }

end BlamedLine

def printedListing (lines : List (BlamedLine zone)) : List Char :=
  lines.flatMap BlamedLine.printed

/-- Whether a text inside an entry tells nothing that is read. -/
def IsAside (text : List Char) : Prop :=
  startsWithTab text = false ∧ ∀ word ∈ ["author ", "author-time ", "summary "], ¬word.toList <+: text

instance (text : List Char) : Decidable (IsAside text) :=
  inferInstanceAs (Decidable (_ ∧ _))

/-- Nothing that the further header lines are read as tells anything, and what a source text is read as behind its first
part opens no entry. -/
structure BlamedLine.Settled (line : BlamedLine zone) : Prop where
  asides : ∀ details ∈ [line.behindAuthor, line.behindTime, line.behindSummary],
    ∀ text ∈ splitLines (endedLines details), IsAside text
  strays : ∀ text ∈ (splitLines (endedLines ['\t' :: line.source])).tail, blameHeader? text = none

instance (line : BlamedLine zone) : Decidable line.Settled :=
  decidable_of_iff (_ ∧ _) ⟨fun ⟨asides, strays⟩ => ⟨asides, strays⟩, fun settled => ⟨settled.asides, settled.strays⟩⟩

/-- Lines cut into the longest runs of consecutive lines of one change. -/
def commitRuns (lines : List (BlamedLine zone)) : List (List (BlamedLine zone)) :=
  lines.splitBy BlamedLine.precedes

/-- A record goes from the first line of a run to its last one, and tells what each of the lines tells. -/
structure Record.Restores (record : Record) (run : List (BlamedLine zone)) : Prop where
  starts : ∃ first ∈ run.head?, record.start = first.number - 1 ∧
    record.identifier = String.ofList (first.commit.take 8)
  stops : ∃ last ∈ run.getLast?, record.stop = last.number
  tells : ∀ line ∈ run, record.told = line.told

/-- Whether the texts of an entry are without line breaks. -/
def BlameLine.Whole (line : BlameLine) : Prop :=
  Unbroken line.author.toList ∧ Unbroken line.summary.toList

variable {text : List Char} {texts details rest : List (List Char)} {entry finished : BlameLine}
  {blamed : List BlameLine} {record : Record} {records : List Record} {lines run : List (BlamedLine zone)}

/-- A time that a zone has a clock for is short enough to be written. -/
theorem Zone.Tells.isWritable {seconds : Int} (told : zone.Tells seconds) : isWritable seconds = true := by
  have written := Zone.writes_iff.mp (told seconds (List.mem_cons_self ..))
  have near := zone.near seconds
  simp only [secondsPerDay] at near
  have few : seconds.natAbs < 10 ^ 12 := by omega
  exact isWritable_iff.mpr (few.trans_le (Nat.pow_le_pow_right (by decide) (by decide)))

theorem BlamedLine.ofEpoch_eq (line : BlamedLine zone) :
    Moment.ofEpoch line.seconds 0 zone = .ok ⟨zone.clock line.seconds * microsPerSecond⟩ :=
  Moment.ofEpoch_eq_ok_iff.mpr ⟨line.seconds_told, by rw [Int.add_zero]⟩

theorem IsAside.extend_eq (aside : IsAside text) (entry : BlameLine) : entry.extend text = .ok entry := by
  have none (word : String) (member : word ∈ ["author ", "author-time ", "summary "]) :
      after? word.toList text = none := by
    cases found : after? word.toList text with
    | none => rfl
    | some behind =>
      have split := after?_eq_some_iff.mp found
      exact absurd (split ▸ List.prefix_append ..) (aside.2 word member)
  rw [BlameLine.extend, none "author " (by decide), none "author-time " (by decide), none "summary " (by decide)]

theorem foldlM_extend_asides (asides : ∀ text ∈ details, IsAside text) (entry : BlameLine) :
    details.foldlM BlameLine.extend entry = .ok entry := by
  induction details with
  | nil => rfl
  | cons text details ih =>
    obtain ⟨here, later⟩ := List.forall_mem_cons.mp asides
    rw [List.foldlM_cons, here.extend_eq]
    exact ih later

/-- Lines that open no entry are passed over. -/
theorem blameLinesFrom_strays (strays : ∀ text ∈ texts, blameHeader? text = none) (rest : List (List Char)) :
    blameLinesFrom none (texts ++ rest) = blameLinesFrom none rest := by
  induction texts with
  | nil => rfl
  | cons text texts ih =>
    obtain ⟨here, later⟩ := List.forall_mem_cons.mp strays
    rw [List.cons_append, blameLinesFrom_passed here, ih later]

theorem endedLines_append (left right : List (List Char)) :
    endedLines (left ++ right) = endedLines left ++ endedLines right :=
  List.flatMap_append

theorem unbroken_toString (value : Int) : Unbroken (toString value).toList := by
  have digits : Unbroken (Nat.toDigits 10 value.natAbs) := (unbroken_of_isNumeral (isNumeral_toDigits _)).1
  rw [toList_toString]
  refine Unbroken.append ?_ digits
  split
  · exact .nil
  · decide

theorem splitLines_endedLines_single (unbroken : Unbroken text) : splitLines (endedLines [text]) = [text] :=
  splitLines_endedLines (List.forall_mem_singleton.mpr unbroken)

/-- What is already read of a line stays at its front. -/
theorem exists_splitLinesFrom {line : List Char} (started : line ≠ []) (text : List Char) :
    ∃ first later, splitLinesFrom line text = (line.reverse ++ first) :: later := by
  fun_induction splitLinesFrom line text with
  | case1 line empty => exact absurd (List.isEmpty_iff.mp empty) started
  | case2 line _ => exact ⟨[], [], by rw [List.append_nil]⟩
  | case3 line rest _ => exact ⟨[], _, by rw [List.append_nil]⟩
  | case4 line char rest _ _ _ => exact ⟨[], _, by rw [List.append_nil]⟩
  | case5 line char rest _ _ ih =>
    obtain ⟨first, later, split⟩ := ih (List.cons_ne_nil _ _)
    exact ⟨char :: first, later, by rw [split, List.reverse_cons, List.append_assoc, List.singleton_append]⟩

/-- A source text is read as a line with a tab in front, and what its breaks cut off. -/
theorem BlamedLine.Settled.exists_source {line : BlamedLine zone} (settled : line.Settled) :
    ∃ first strays, splitLines (endedLines ['\t' :: line.source]) = first :: strays ∧ startsWithTab first = true ∧
      ∀ text ∈ strays, blameHeader? text = none := by
  have tab : splitLines (endedLines ['\t' :: line.source]) = splitLinesFrom ['\t'] (line.source ++ ['\n']) := by
    have ended : endedLines ['\t' :: line.source] = '\t' :: (line.source ++ ['\n']) := by simp [endedLines]
    rw [ended, splitLines, splitLinesFrom]
    · rfl
    · simp
  obtain ⟨first, later, split⟩ := exists_splitLinesFrom (List.cons_ne_nil '\t' []) (line.source ++ ['\n'])
  refine ⟨_, later, tab.trans split, rfl, fun text member => settled.strays text ?_⟩
  rw [tab, split]
  exact member

namespace BlamedLine

variable {line next : BlamedLine zone}

theorem isNumeral_numeral (line : BlamedLine zone) : isNumeral line.numeral = true := by
  rw [numeral, Nat.toString_eq_repr, Nat.toList_repr]
  exact isNumeral_toDigits line.number

theorem readInteger?_numeral (line : BlamedLine zone) : readInteger? line.numeral = some (line.number : Int) :=
  readInteger?_toString line.number line.number_written

theorem header_spec (line : BlamedLine zone) :
    blameHeader? line.header = some (line.commit, line.numeral) ∧ Unbroken line.header := by
  have numeral := line.isNumeral_numeral
  have group : ∀ text ∈ some ['1'], isNumeral text = true := by decide
  exact ⟨blameHeader?_headerText line.commit_name numeral numeral group,
    unbroken_headerText line.commit_name numeral numeral group⟩

theorem splitLines_details (author : Unbroken line.author) (summary : Unbroken line.summary) :
    splitLines (endedLines line.details) =
      ["author ".toList ++ line.author] ++ splitLines (endedLines line.behindAuthor) ++
        ["author-time ".toList ++ (toString line.seconds).toList] ++ splitLines (endedLines line.behindTime) ++
        ["summary ".toList ++ line.summary] ++ splitLines (endedLines line.behindSummary) := by
  have ofAuthor : Unbroken ("author ".toList ++ line.author) := .append (by decide) author
  have ofTime : Unbroken ("author-time ".toList ++ (toString line.seconds).toList) :=
    .append (by decide) (unbroken_toString _)
  have ofSummary : Unbroken ("summary ".toList ++ line.summary) := .append (by decide) summary
  simp only [details, endedLines_append, List.append_assoc, splitLines_endedLines_append,
    splitLines_endedLines_single ofAuthor, splitLines_endedLines_single ofTime,
    splitLines_endedLines_single ofSummary]

/-- The details of a line tell its author, its time and its summary. -/
theorem Settled.foldlM_extend (settled : line.Settled) (author : Unbroken line.author)
    (summary : Unbroken line.summary) :
    (splitLines (endedLines line.details)).foldlM BlameLine.extend { commit := line.commit, line := line.number - 1 } =
      .ok line.blameLine := by
  have read : readInteger? (toString line.seconds).toList = some line.seconds :=
    readInteger?_toString line.seconds line.seconds_told.isWritable
  have aside (details : List (List Char)) (member : details ∈ [line.behindAuthor, line.behindTime, line.behindSummary])
      (entry : BlameLine) : (splitLines (endedLines details)).foldlM BlameLine.extend entry = .ok entry :=
    foldlM_extend_asides (settled.asides details member) entry
  have behindAuthor := aside line.behindAuthor (by simp)
  have behindTime := aside line.behindTime (by simp)
  have behindSummary := aside line.behindSummary (by simp)
  -- The details in turn: a line that tells something, then lines that do not.
  rw [splitLines_details author summary]
  simp only [List.foldlM_append, List.foldlM_cons, List.foldlM_nil, bind, Except.bind, pure, Except.pure,
    BlameLine.extend_author, behindAuthor, BlameLine.extend_time _ read, behindTime, BlameLine.extend_summary,
    behindSummary]
  rfl

theorem Settled.untabbed (settled : line.Settled) (author : Unbroken line.author) (summary : Unbroken line.summary) :
    ∀ text ∈ splitLines (endedLines line.details), startsWithTab text = false := by
  have aside (details : List (List Char)) (member : details ∈ [line.behindAuthor, line.behindTime, line.behindSummary])
      (text : List Char) (inside : text ∈ splitLines (endedLines details)) : startsWithTab text = false :=
    (settled.asides details member text inside).1
  rw [splitLines_details author summary]
  intro text member
  simp only [List.mem_append, List.mem_singleton] at member
  rcases member with ((((rfl | inside) | rfl) | inside) | rfl) | inside
  · rfl
  · exact aside line.behindAuthor (by simp) text inside
  · rfl
  · exact aside line.behindTime (by simp) text inside
  · rfl
  · exact aside line.behindSummary (by simp) text inside

theorem Settled.blameLinesFrom_printed (settled : line.Settled) (author : Unbroken line.author)
    (summary : Unbroken line.summary) (rest : List (List Char)) :
    blameLinesFrom none (splitLines line.printed ++ rest) =
      (blameLinesFrom none rest).map (line.blameLine :: ·) := by
  obtain ⟨first, strays, source, tabbed, passed⟩ := settled.exists_source
  obtain ⟨header, unbroken⟩ := line.header_spec
  have texts : splitLines line.printed =
      line.header :: (splitLines (endedLines line.details) ++ (first :: strays)) := by
    rw [printed, ← List.singleton_append, endedLines_append, endedLines_append, splitLines_endedLines_append,
      splitLines_endedLines_append, splitLines_endedLines_single unbroken, source]
    rfl
  rw [texts, List.cons_append, blameLinesFrom_header header line.readInteger?_numeral, List.append_assoc,
    blameLinesFrom_details (settled.untabbed author summary), settled.foldlM_extend author summary]
  change blameLinesFrom (some line.blameLine) (first :: (strays ++ rest)) = _
  rw [blameLinesFrom_completed tabbed, blameLinesFrom_strays passed]

/-- A listing in which nothing is cut is read back. -/
theorem blameLines_printedListing (settled : ∀ line ∈ lines, line.Settled)
    (whole : ∀ line ∈ lines, Unbroken line.author ∧ Unbroken line.summary) :
    blameLines (printedListing lines) = .ok (lines.map blameLine) := by
  rw [blameLines]
  induction lines with
  | nil => rfl
  | cons line rest ih =>
    obtain ⟨settledHere, settledLater⟩ := List.forall_mem_cons.mp settled
    obtain ⟨⟨author, summary⟩, wholeLater⟩ := List.forall_mem_cons.mp whole
    have texts : splitLines (printedListing (line :: rest)) =
        splitLines line.printed ++ splitLines (printedListing rest) :=
      splitLines_endedLines_append (line.header :: (line.details ++ ['\t' :: line.source])) (printedListing rest)
    rw [texts, settledHere.blameLinesFrom_printed author summary, ih settledLater wholeLater]
    rfl

theorem precedes_iff : line.precedes next = true ↔ line.commit = next.commit ∧ line.number + 1 = next.number := by
  simp [precedes]

/-- Where different changes differ in their first characters, lines are cut as their readings are. -/
theorem precedes_blameLine (prefixes : line.commit.take 8 = next.commit.take 8 → line.commit = next.commit) :
    line.blameLine.precedes next.blameLine = line.precedes next := by
  rw [Bool.eq_iff_iff, BlameLine.precedes_iff, precedes_iff]
  have numbers : line.blameLine.line + 1 = next.blameLine.line ↔ line.number + 1 = next.number := by
    simp only [blameLine]
    omega
  have identifiers : line.blameLine.identifier = next.blameLine.identifier ↔ line.commit = next.commit :=
    ⟨fun same => prefixes (String.ofList_inj.mp same), fun same => by simp [blameLine, BlameLine.identifier, same]⟩
  exact and_congr identifiers numbers

theorem map_commitRuns
    (prefixes : ∀ left ∈ lines, ∀ right ∈ lines, left.commit.take 8 = right.commit.take 8 → left.commit = right.commit) :
    blameRuns (lines.map blameLine) = (commitRuns lines).map (List.map blameLine) := by
  have whole : (commitRuns lines).flatten = lines := List.flatten_splitBy ..
  have inside : ∀ run ∈ commitRuns lines, ∀ line ∈ run, line ∈ lines := fun run inRuns line inRun =>
    whole ▸ List.mem_flatten_of_mem inRuns inRun
  have same : ∀ left ∈ lines, ∀ right ∈ lines, left.blameLine.precedes right.blameLine = left.precedes right :=
    fun left inLeft right inRight => precedes_blameLine (prefixes left inLeft right inRight)
  refine List.splitBy_eq_iff.mpr ⟨?_, ?_, ?_, ?_⟩
  · rw [← List.map_flatten, whole]
  · intro empty
    obtain ⟨run, member, mapped⟩ := List.mem_map.mp empty
    exact List.ne_nil_of_mem_splitBy member (List.map_eq_nil_iff.mp mapped)
  · intro run mapped
    obtain ⟨run, member, rfl⟩ := List.mem_map.mp mapped
    refine (List.isChain_map _).mpr ((List.isChain_of_mem_splitBy member).imp_of_mem_imp ?_)
    intro left right inLeft inRight behind
    rw [same left (inside run member left inLeft) right (inside run member right inRight), behind]
  · refine (List.isChain_map _).mpr ((List.isChain_getLast_head_splitBy _ lines).imp_of_mem_imp ?_)
    rintro run next inRun inNext ⟨ended, started, cut⟩
    refine ⟨by simpa using ended, by simpa using started, ?_⟩
    rw [List.getLast_map, List.head_map, same _ (inside run inRun _ (List.getLast_mem ended)) _
      (inside next inNext _ (List.head_mem started)), cut]

/-- All lines of a run come from one change. -/
theorem commit_eq_of_mem_commitRuns (member : run ∈ commitRuns lines) (inLine : line ∈ run) (inNext : next ∈ run) :
    line.commit = next.commit := by
  have chain : run.IsChain fun left right => left.commit = right.commit :=
    (List.isChain_of_mem_splitBy member).imp fun left right behind => (precedes_iff.mp behind).1
  have equal : (run.map commit).Pairwise (· = ·) := ((List.isChain_map commit).mpr chain).pairwise
  exact equal.forall_of_forall (fun _ _ => rfl) (List.mem_map_of_mem inLine) (List.mem_map_of_mem inNext)

end BlamedLine

/-- The record of the readings of a run restores the run. -/
theorem Record.StandsFor.restores (stands : record.StandsFor zone (run.map BlamedLine.blameLine))
    (agree : ∀ line ∈ run, ∀ next ∈ run, line.told = next.told) : record.Restores run := by
  obtain ⟨_, headRead, _, endRead, time, read, rfl⟩ := stands
  rw [List.head?_map] at headRead
  rw [List.getLast?_map] at endRead
  obtain ⟨first, atHead, rfl⟩ := Option.mem_map.mp headRead
  obtain ⟨last, atEnd, rfl⟩ := Option.mem_map.mp endRead
  obtain rfl : time = ⟨zone.clock first.seconds * microsPerSecond⟩ :=
    Except.ok.inj (read.symm.trans first.ofEpoch_eq)
  refine ⟨⟨first, atHead, rfl, rfl⟩, ⟨last, atEnd, Int.sub_add_cancel ..⟩, fun line member => ?_⟩
  exact agree first (List.mem_of_mem_head? atHead) line member

/-- No line of a report has a break inside it. -/
theorem unbroken_of_mem_splitLinesFrom {line report : List Char} (unbroken : Unbroken line)
    (member : text ∈ splitLinesFrom line report) : Unbroken text := by
  have ended (line : List Char) (unbroken : Unbroken line) : Unbroken line.reverse := fun char inside =>
    unbroken char (List.mem_reverse.mp inside)
  fun_induction splitLinesFrom line report with
  | case1 => cases member
  | case2 line _ =>
    rw [List.mem_singleton.mp member]
    exact ended line unbroken
  | case3 line rest ih =>
    rcases List.mem_cons.mp member with rfl | later
    · exact ended line unbroken
    · exact ih .nil later
  | case4 line char rest _ _ ih =>
    rcases List.mem_cons.mp member with rfl | later
    · exact ended line unbroken
    · exact ih .nil later
  | case5 line char rest _ inside ih => exact ih (.cons (Bool.eq_false_iff.mpr inside) unbroken) member

theorem Unbroken.of_append {behind : List Char} (whole : Unbroken (text ++ behind)) : Unbroken behind :=
  fun char member => whole char (List.mem_append_right text member)

theorem BlameLine.Whole.extend (whole : entry.Whole) (unbroken : Unbroken text)
    (extended : entry.extend text = .ok finished) : finished.Whole := by
  rcases BlameLine.extend_cases extended with ⟨author, rfl, rfl⟩ | ⟨_, _, _, _, rfl⟩ | ⟨summary, rfl, rfl⟩ |
    ⟨_, _, _, rfl⟩
  · exact ⟨by simpa using unbroken.of_append, whole.2⟩
  · exact whole
  · exact ⟨whole.1, by simpa using unbroken.of_append⟩
  · exact whole

theorem whole_of_openEntry {next : Option BlameLine} (started : openEntry text = .ok next) :
    ∀ entry ∈ next, entry.Whole := by
  intro entry opened
  unfold openEntry at started
  split at started
  · cases started
    cases opened
  · split at started
    · cases started
      obtain rfl := Option.some.inj opened
      have empty : Unbroken "".toList := by decide
      exact ⟨empty, empty⟩
    · cases started

theorem whole_of_blameLinesFrom {current : Option BlameLine} (unbroken : ∀ text ∈ texts, Unbroken text)
    (opened : ∀ entry ∈ current, entry.Whole) (read : blameLinesFrom current texts = .ok blamed) :
    ∀ line ∈ blamed, line.Whole := by
  induction texts generalizing current blamed with
  | nil =>
    cases read
    exact fun line none => absurd none List.not_mem_nil
  | cons text rest ih =>
    obtain ⟨here, later⟩ := List.forall_mem_cons.mp unbroken
    cases current with
    | none =>
      obtain ⟨next, started, read⟩ := of_bind_eq_ok read
      exact ih later (whole_of_openEntry started) read
    | some entry =>
      have whole := opened entry rfl
      by_cases tabbed : text.head? = some '\t'
      · rw [blameLinesFrom, if_pos tabbed] at read
        obtain ⟨others, behind, same⟩ := of_bind_eq_ok read
        cases same
        have closed : ∀ entry ∈ (none : Option BlameLine), entry.Whole := by simp
        exact List.forall_mem_cons.mpr ⟨whole, ih later closed behind⟩
      · rw [blameLinesFrom, if_neg tabbed] at read
        obtain ⟨next, extended, read⟩ := of_bind_eq_ok read
        refine ih later (fun entry same => ?_) read
        obtain rfl : next = entry := Option.some.inj same
        exact whole.extend here extended

/-- What a record tells is without line breaks. -/
theorem unbroken_of_recordsOfListing {listing : List Char} (made : recordsOfListing listing zone = .ok records)
    (member : record ∈ records) : Unbroken record.author.toList ∧ Unbroken record.message.toList := by
  obtain ⟨blamed, read, made⟩ := of_bind_eq_ok made
  have whole : ∀ line ∈ blamed, line.Whole := by
    refine whole_of_blameLinesFrom (fun text => unbroken_of_mem_splitLinesFrom .nil) ?_ read
    exact fun _ none => absurd none (by simp)
  have flat : (blameRuns blamed).flatten = blamed := List.flatten_splitBy ..
  obtain ⟨run, inRuns, first, atHead, _, _, _, _, rfl⟩ := exists_partner (forall₂_recordsOfLines made) member
  have inBlamed := List.mem_flatten_of_mem inRuns (List.mem_of_mem_head? atHead)
  rw [flat] at inBlamed
  exact whole first inBlamed

/-- Reading a printed listing gives one record for each run of lines of a change, with what the lines tell, exactly
when no author and no summary has a line break inside it. -/
theorem recordsOfListing_printed (settled : ∀ line ∈ lines, line.Settled)
    (prefixes : ∀ left ∈ lines, ∀ right ∈ lines, left.commit.take 8 = right.commit.take 8 → left.commit = right.commit)
    (consistent : ∀ left ∈ lines, ∀ right ∈ lines, left.commit = right.commit → left.told = right.told) :
    (∃ records, recordsOfListing (printedListing lines) zone = .ok records ∧
        List.Forall₂ Record.Restores records (commitRuns lines)) ↔
      ∀ line ∈ lines, Unbroken line.author ∧ Unbroken line.summary := by
  have flat : (commitRuns lines).flatten = lines := List.flatten_splitBy ..
  constructor
  · rintro ⟨records, made, restored⟩ line member
    rw [← flat] at member
    obtain ⟨run, inRuns, inRun⟩ := List.mem_flatten.mp member
    obtain ⟨record, inRecords, restores⟩ := exists_partner restored.flip inRuns
    obtain ⟨author, message⟩ := unbroken_of_recordsOfListing made inRecords
    obtain ⟨sameAuthor, sameRest⟩ := Prod.mk.inj (restores.tells line inRun)
    obtain ⟨_, sameMessage⟩ := Prod.mk.inj sameRest
    rw [sameAuthor, String.toList_ofList] at author
    rw [sameMessage, String.toList_ofList] at message
    exact ⟨author, message⟩
  · intro whole
    have timed : ∀ line ∈ lines.map BlamedLine.blameLine, ∃ record, BlameLine.record line zone = .ok record := by
      intro line mapped
      obtain ⟨line, _, rfl⟩ := List.mem_map.mp mapped
      have read : Moment.ofEpoch line.blameLine.seconds 0 zone = .ok _ := line.ofEpoch_eq
      rw [BlameLine.record, read]
      exact ⟨_, rfl⟩
    obtain ⟨records, made⟩ := exists_recordsOfLines timed
    refine ⟨records, ?_, ?_⟩
    · rw [recordsOfListing, BlamedLine.blameLines_printedListing settled whole]
      exact made
    · have stand := forall₂_recordsOfLines made
      rw [BlamedLine.map_commitRuns prefixes, List.forall₂_map_right_iff] at stand
      have agree : ∀ run ∈ commitRuns lines, ∀ line ∈ run, ∀ next ∈ run, line.told = next.told := by
        intro run inRuns line inLine next inNext
        have inside : ∀ line ∈ run, line ∈ lines := fun line inRun => flat ▸ List.mem_flatten_of_mem inRuns inRun
        exact consistent line (inside line inLine) next (inside next inNext)
          (BlamedLine.commit_eq_of_mem_commitRuns inRuns inLine inNext)
      have told := (List.forall₂_and_left _ _).mpr ⟨agree, stand.flip⟩
      exact (told.imp fun run record both => Record.StandsFor.restores both.2 both.1).flip

/-- A line whose source text has a line separator inside it. -/
def separatedLine : BlamedLine .universal where
  commit := aliceLine.commit
  number := 1
  author := "alice".toList
  behindAuthor := ["author-mail <alice@example.com>".toList]
  seconds := 1735689600
  behindTime := ["author-tz +0000".toList]
  summary := "one".toList
  behindSummary := ["filename a.py".toList]
  source := "x = 1\u2028y = 2".toList
  commit_name := aliceLine.commit_name
  number_written := by decide +kernel
  seconds_told := Zone.universal_tells_iff.mpr (by decide)

/-- Lines of two changes, the first of which has a run on each side of the second. -/
theorem recordsOfListing_printed_runs :
    let lines := [separatedLine, { separatedLine with number := 2, number_written := by decide +kernel },
      { separatedLine with
        number := 3
        number_written := by decide +kernel
        commit := List.replicate 40 'c'
        commit_name := by decide +kernel
        author := [] },
      { separatedLine with number := 4, number_written := by decide +kernel }]
    (commitRuns lines).map List.length = [2, 1, 1] ∧
      ∃ records, recordsOfListing (printedListing lines) .universal = .ok records ∧
        List.Forall₂ Record.Restores records (commitRuns lines) := by
  intro lines
  have settled : ∀ line ∈ lines, line.Settled := by decide +kernel
  have prefixes : ∀ left ∈ lines, ∀ right ∈ lines, left.commit.take 8 = right.commit.take 8 →
      left.commit = right.commit := by
    decide +kernel
  have consistent : ∀ left ∈ lines, ∀ right ∈ lines, left.commit = right.commit → left.told = right.told := by
    decide +kernel
  exact ⟨by decide +kernel, (recordsOfListing_printed settled prefixes consistent).mpr (by decide +kernel)⟩

/-- A line separator inside a summary cuts off the rest of the summary. -/
theorem recordsOfListing_printed_severed :
    let line := { separatedLine with summary := "one\u2028two".toList }
    '\n' ∉ line.author ∧ '\n' ∉ line.summary ∧ '\n' ∉ line.source ∧ line.Settled ∧
      recordsOfListing (printedListing [line]) .universal = .ok [⟨0, 1, "alice", ⟨1735689600000000⟩, "a1b2c3d4", "one"⟩] ∧
      ¬∃ records, recordsOfListing (printedListing [line]) .universal = .ok records ∧
        List.Forall₂ Record.Restores records (commitRuns [line]) := by
  intro line
  have made : recordsOfListing (printedListing [line]) .universal =
      .ok [⟨0, 1, "alice", ⟨1735689600000000⟩, "a1b2c3d4", "one"⟩] := by
    decide +kernel
  refine ⟨by decide +kernel, by decide +kernel, by decide +kernel, by decide +kernel, made, ?_⟩
  rintro ⟨records, others, restored⟩
  cases made.symm.trans others
  have runs : commitRuns [line] = [[line]] := rfl
  rw [runs] at restored
  cases restored with
  | cons restores _ =>
    have told := restores.tells line (List.mem_singleton_self line)
    exact absurd told (by decide +kernel)

end Marginalia
