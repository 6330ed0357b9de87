import Marginalia.Proofs.BlameEntries

namespace Marginalia

/-- One of the details begins with a word, and each that does goes on with the same text. -/
structure Says (word : String) (text : List Char) (details : List (List Char)) : Prop where
  said : word.toList ++ text ∈ details
  only : ∀ detail ∈ details, word.toList <+: detail → detail = word.toList ++ text

instance (word : String) (text : List Char) (details : List (List Char)) : Decidable (Says word text details) :=
  decidable_of_iff (_ ∧ _) ⟨fun ⟨said, only⟩ => ⟨said, only⟩, fun spoken => ⟨spoken.said, spoken.only⟩⟩

/-- An entry of a listing as it is printed, and what it says. Details stand between the header and the source text, in
any order; an author, a time, which the zone has a clock for, and a summary are among the lines that they are read as. -/
structure ListedEntry (zone : Zone) where
  commit : List Char
  inCommit : List Char
  final : List Char
  group : Option (List Char)
  details : List (List Char)
  source : List Char
  line : Int
  author : List Char
  clock : List Char
  seconds : Int
  time : Moment
  summary : List Char
  commit_name : isCommitName commit = true
  inCommit_numeral : isNumeral inCommit = true
  final_numeral : isNumeral final = true
  group_numeral : ∀ text ∈ group, isNumeral text = true
  final_eq : readInteger? final = some (line + 1)
  source_unbroken : Unbroken source
  untabbed : ∀ text ∈ splitLines (endedLines details), startsWithTab text = false
  author_said : Says "author " author (splitLines (endedLines details))
  clock_said : Says "author-time " clock (splitLines (endedLines details))
  summary_said : Says "summary " summary (splitLines (endedLines details))
  clock_eq : readInteger? clock = some seconds
  seconds_eq : Moment.ofEpoch seconds 0 zone = .ok time

variable {zone : Zone}

def ListedEntry.header (entry : ListedEntry zone) : List Char :=
  entry.commit ++ ' ' :: (entry.inCommit ++ ' ' :: (entry.final ++
    match entry.group with
    | none => []
    | some text => ' ' :: text))

def ListedEntry.printed (entry : ListedEntry zone) : List Char :=
  endedLines (entry.header :: (entry.details ++ ['\t' :: entry.source]))

def listingOf (entries : List (ListedEntry zone)) : List Char :=
  entries.flatMap ListedEntry.printed

/-- The lines that an entry is read as. -/
def ListedEntry.texts (entry : ListedEntry zone) : List (List Char) :=
  entry.header :: (splitLines (endedLines entry.details) ++ ['\t' :: entry.source])

/-- The line of the file that an entry is about. -/
def ListedEntry.blameLine (entry : ListedEntry zone) : BlameLine :=
  { commit := entry.commit
    line := entry.line
    author := String.ofList entry.author
    seconds := entry.seconds
    summary := String.ofList entry.summary }

/-- The header of an entry: fields between blanks. -/
def headerText (commit inCommit final : List Char) (group : Option (List Char)) : List Char :=
  commit ++ ' ' :: (inCommit ++ ' ' :: (final ++
    match group with
    | none => []
    | some text => ' ' :: text))

variable {text behind time : List Char} {details : List (List Char)} {seconds : Int}

theorem digitValue?_of_isLineBreak {char : Char} (breaks : isLineBreak char = true) : digitValue? char = none := by
  have codes : char.toNat ∈ [0x0A, 0x0B, 0x0C, 0x0D, 0x1C, 0x1D, 0x1E, 0x85, 0x2028, 0x2029] := by
    simp only [isLineBreak, Bool.or_eq_true, Bool.and_eq_true, decide_eq_true_eq, beq_iff_eq] at breaks
    simp only [List.mem_cons, List.not_mem_nil, or_false]
    omega
  have none : ∀ code ∈ [0x0A, 0x0B, 0x0C, 0x0D, 0x1C, 0x1D, 0x1E, 0x85, 0x2028, 0x2029],
      (digitZeros.find? fun first => first ≤ code && code < first + 10) = none := by decide
  rw [digitValue?, none _ codes]
  rfl

/-- Neither numerals nor names of changes have blanks or line breaks. -/
theorem unbroken_of_isNumeral (numeral : isNumeral text = true) : Unbroken text ∧ ' ' ∉ text := by
  have digits : ∀ char ∈ text, isDigit char = true := List.all_eq_true.mp (Bool.and_eq_true_iff.mp numeral).2
  refine ⟨fun char member => ?_, fun member => absurd (digits ' ' member) (by decide)⟩
  cases breaks : isLineBreak char with
  | false => rfl
  | true =>
    have digit := digits char member
    rw [isDigit, digitValue?_of_isLineBreak breaks] at digit
    cases digit

theorem unbroken_of_isCommitName (named : isCommitName text = true) : Unbroken text ∧ ' ' ∉ text := by
  have codes : ∀ char ∈ text, 0x30 ≤ char.toNat ∧ char.toNat ≤ 0x66 := by
    intro char member
    have digit := List.all_eq_true.mp (Bool.and_eq_true_iff.mp named).2 char member
    simp only [Bool.or_eq_true, Bool.and_eq_true, decide_eq_true_eq, Char.le_def, UInt32.le_iff_toNat_le] at digit
    change 0x30 ≤ char.toNat ∧ char.toNat ≤ 0x39 ∨ 0x61 ≤ char.toNat ∧ char.toNat ≤ 0x66 at digit
    omega
  refine ⟨fun char member => ?_, fun member => ?_⟩
  · obtain ⟨lower, upper⟩ := codes char member
    simp only [isLineBreak, Bool.or_eq_false_iff, Bool.and_eq_false_iff, decide_eq_false_iff_not, beq_eq_false_iff_ne]
    omega
  · obtain ⟨lower, _⟩ := codes ' ' member
    exact absurd lower (by decide)

theorem BlameLine.extend_author (line : BlameLine) (author : List Char) :
    line.extend ("author ".toList ++ author) = .ok { line with author := String.ofList author } := by
  rw [extend, after?_eq_some_iff.mpr rfl]

theorem BlameLine.extend_time (line : BlameLine) (read : readInteger? time = some seconds) :
    line.extend ("author-time ".toList ++ time) = .ok { line with seconds := seconds } := by
  have noAuthor : after? "author ".toList ("author-time ".toList ++ time) = none := rfl
  rw [extend, noAuthor, after?_eq_some_iff.mpr rfl]
  dsimp only
  rw [read]

theorem BlameLine.extend_summary (line : BlameLine) (summary : List Char) :
    line.extend ("summary ".toList ++ summary) = .ok { line with summary := String.ofList summary } := by
  have noAuthor : after? "author ".toList ("summary ".toList ++ summary) = none := rfl
  have noTime : after? "author-time ".toList ("summary ".toList ++ summary) = none := rfl
  rw [extend, noAuthor, noTime, after?_eq_some_iff.mpr rfl]

theorem Says.eq_of_mem_saidBehind {word : String} (spoken : Says word text details) {said : List Char}
    (member : said ∈ saidBehind word details) : said = text := by
  obtain ⟨detail, inDetails, found⟩ := List.mem_filterMap.mp member
  obtain rfl := after?_eq_some_iff.mp found
  exact List.append_cancel_left (spoken.only _ inDetails (List.prefix_append ..))

theorem Says.getLast?_saidBehind {word : String} (spoken : Says word text details) :
    (saidBehind word details).getLast? = some text := by
  have member : text ∈ saidBehind word details :=
    List.mem_filterMap.mpr ⟨_, spoken.said, after?_eq_some_iff.mpr rfl⟩
  rw [List.getLast?_eq_some_getLast (List.ne_nil_of_mem member), spoken.eq_of_mem_saidBehind (List.getLast_mem _)]

/-- The details of an entry tell its author, its time and its summary. -/
theorem ListedEntry.foldlM_extend (entry : ListedEntry zone) :
    (splitLines (endedLines entry.details)).foldlM BlameLine.extend { commit := entry.commit, line := entry.line } =
      .ok entry.blameLine := by
  have readable : ∀ clock ∈ saidBehind "author-time " (splitLines (endedLines entry.details)),
      (readInteger? clock).isSome := by
    intro clock member
    rw [entry.clock_said.eq_of_mem_saidBehind member, entry.clock_eq]
    rfl
  obtain ⟨finished, built⟩ := (BlameLine.exists_foldlM_extend_iff { commit := entry.commit, line := entry.line }).mpr
    readable
  obtain ⟨commit, line⟩ := BlameLine.foldlM_extend_keeps built
  obtain ⟨author, seconds, summary⟩ := BlameLine.tells_of_foldlM_extend built
  rw [entry.author_said.getLast?_saidBehind] at author
  rw [entry.clock_said.getLast?_saidBehind, Option.bind_some, entry.clock_eq] at seconds
  rw [entry.summary_said.getLast?_saidBehind] at summary
  rw [built]
  cases finished
  simp_all [blameLine]

theorem blameHeader?_headerText {commit inCommit final : List Char} {group : Option (List Char)}
    (commit_name : isCommitName commit = true) (inCommit_numeral : isNumeral inCommit = true)
    (final_numeral : isNumeral final = true) (group_numeral : ∀ text ∈ group, isNumeral text = true) :
    blameHeader? (headerText commit inCommit final group) = some (commit, final) := by
  have commitFree := (unbroken_of_isCommitName commit_name).2
  have inCommitFree := (unbroken_of_isNumeral inCommit_numeral).2
  have finalFree := (unbroken_of_isNumeral final_numeral).2
  unfold blameHeader? headerText
  rw [fields_append_cons commitFree, fields_append_cons inCommitFree]
  cases group with
  | none =>
    rw [List.append_nil, fields_of_not_mem finalFree]
    simp [commit_name, inCommit_numeral, final_numeral]
  | some text =>
    have numeral := group_numeral text rfl
    rw [fields_append_cons finalFree, fields_of_not_mem (unbroken_of_isNumeral numeral).2]
    simp [commit_name, inCommit_numeral, final_numeral, numeral]

theorem Unbroken.nil : Unbroken [] :=
  fun _ none => absurd none List.not_mem_nil

theorem Unbroken.append (left : Unbroken text) (right : Unbroken behind) : Unbroken (text ++ behind) := by
  intro char member
  rcases List.mem_append.mp member with member | member
  · exact left char member
  · exact right char member

theorem Unbroken.cons {char : Char} (here : isLineBreak char = false) (rest : Unbroken text) :
    Unbroken (char :: text) :=
  List.forall_mem_cons.mpr ⟨here, rest⟩

theorem unbroken_headerText {commit inCommit final : List Char} {group : Option (List Char)}
    (commit_name : isCommitName commit = true) (inCommit_numeral : isNumeral inCommit = true)
    (final_numeral : isNumeral final = true) (group_numeral : ∀ text ∈ group, isNumeral text = true) :
    Unbroken (headerText commit inCommit final group) := by
  have blank : isLineBreak ' ' = false := by decide
  have named := (unbroken_of_isCommitName commit_name).1
  have counted := (unbroken_of_isNumeral inCommit_numeral).1
  have numbered := (unbroken_of_isNumeral final_numeral).1
  refine named.append (.cons blank (counted.append (.cons blank (numbered.append ?_))))
  cases group with
  | none => exact fun _ => nofun
  | some text => exact .cons blank (unbroken_of_isNumeral (group_numeral text rfl)).1

theorem ListedEntry.blameHeader?_header (entry : ListedEntry zone) :
    blameHeader? entry.header = some (entry.commit, entry.final) :=
  blameHeader?_headerText entry.commit_name entry.inCommit_numeral entry.final_numeral entry.group_numeral

theorem ListedEntry.unbroken_header (entry : ListedEntry zone) : Unbroken entry.header :=
  unbroken_headerText entry.commit_name entry.inCommit_numeral entry.final_numeral entry.group_numeral

theorem splitLines_listingOf (entries : List (ListedEntry zone)) :
    splitLines (listingOf entries) = entries.flatMap ListedEntry.texts := by
  induction entries with
  | nil => rfl
  | cons entry rest ih =>
    have source : Unbroken ('\t' :: entry.source) := .cons (by decide) entry.source_unbroken
    have header : splitLines (endedLines [entry.header]) = [entry.header] :=
      splitLines_endedLines (List.forall_mem_singleton.mpr entry.unbroken_header)
    have ending : splitLines (endedLines ['\t' :: entry.source]) = ['\t' :: entry.source] :=
      splitLines_endedLines (List.forall_mem_singleton.mpr source)
    have pieces : entry.printed = endedLines [entry.header] ++ (endedLines entry.details ++
        endedLines ['\t' :: entry.source]) := by
      simp [ListedEntry.printed, endedLines]
    calc splitLines (listingOf (entry :: rest))
      _ = splitLines (endedLines [entry.header] ++ (endedLines entry.details ++
            (endedLines ['\t' :: entry.source] ++ listingOf rest))) := by
        rw [listingOf, List.flatMap_cons, pieces, List.append_assoc, List.append_assoc]
        rfl
      _ = [entry.header] ++ (splitLines (endedLines entry.details) ++
            (['\t' :: entry.source] ++ rest.flatMap ListedEntry.texts)) := by
        rw [splitLines_endedLines_append, splitLines_endedLines_append, splitLines_endedLines_append, header, ending,
          ih]
      _ = (entry :: rest).flatMap ListedEntry.texts := by
        simp [ListedEntry.texts]

theorem ListedEntry.blameLinesFrom_texts (entry : ListedEntry zone) (rest : List (List Char)) :
    blameLinesFrom none (entry.texts ++ rest) = (blameLinesFrom none rest).map (entry.blameLine :: ·) := by
  have tabbed : startsWithTab ('\t' :: entry.source) = true := rfl
  rw [texts, List.cons_append, blameLinesFrom_header entry.blameHeader?_header entry.final_eq, List.append_assoc,
    blameLinesFrom_details entry.untabbed, Int.add_sub_cancel, entry.foldlM_extend]
  exact blameLinesFrom_completed tabbed

/-- A listing of entries is read back. -/
theorem blameLines_listingOf (entries : List (ListedEntry zone)) :
    blameLines (listingOf entries) = .ok (entries.map ListedEntry.blameLine) := by
  rw [blameLines, splitLines_listingOf]
  induction entries with
  | nil => rfl
  | cons entry rest ih =>
    rw [List.flatMap_cons, entry.blameLinesFrom_texts, ih]
    rfl

end Marginalia
