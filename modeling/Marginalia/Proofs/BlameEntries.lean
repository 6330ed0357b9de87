import Marginalia.Attribution.Porcelain
import Marginalia.Proofs.FaultSteps
import Mathlib.Data.List.Induction
import Mathlib.Data.List.TakeWhile

namespace Marginalia

/-- Lines, each one ended by a newline. -/
def endedLines (texts : List (List Char)) : List Char :=
  texts.flatMap (· ++ ['\n'])

def Unbroken (text : List Char) : Prop :=
  ∀ char ∈ text, isLineBreak char = false

instance (text : List Char) : Decidable (Unbroken text) :=
  List.decidableBAll _ text

/-- The header of an entry: a change, and the numeral of the final line. -/
structure EntryHead where
  commit : List Char
  final : List Char
deriving DecidableEq, Repr

/-- The line of an entry, counted from zero, and the identifier of its change. -/
def EntryHead.signed? (head : EntryHead) : Option (Int × String) :=
  (readInteger? head.final).map fun number => (number - 1, String.ofList (head.commit.take 8))

def BlameLine.signed (line : BlameLine) : Int × String :=
  (line.line, line.identifier)

def startsWithTab (text : List Char) : Bool :=
  text.head? == some '\t'

/-- What the details of an entry say behind a word, in their order. -/
def saidBehind (word : String) (details : List (List Char)) : List (List Char) :=
  details.filterMap (after? word.toList)

/-- The heads of the complete entries among the lines of a listing. An entry opens at a header behind the entry before
it, and the next line with a tab in front completes it. -/
def entryHeads : List (List Char) → List EntryHead
  | [] => []
  | text :: rest =>
    match blameHeader? text with
    | none => entryHeads rest
    | some (commit, final) =>
      if rest.any startsWithTab then
        ⟨commit, final⟩ :: entryHeads (rest.dropWhile (!startsWithTab ·)).tail
      else []
termination_by texts => texts.length
decreasing_by
  · simp
  · have shorter := (List.dropWhile_sublist (l := rest) (!startsWithTab ·)).length_le
    simp only [List.length_tail, List.length_cons]
    omega

variable {word : String} {entry finished : BlameLine} {text : List Char} {texts details rest : List (List Char)}
  {lines : List BlameLine}

theorem splitLinesFrom_ended (unbroken : Unbroken text) (line behind : List Char) :
    splitLinesFrom line (text ++ '\n' :: behind) = (line.reverse ++ text) :: splitLinesFrom [] behind := by
  induction text generalizing line with
  | nil =>
    rw [List.nil_append, List.append_nil, splitLinesFrom]
    · rfl
    · simp
  | cons char text ih =>
    obtain ⟨here, later⟩ := List.forall_mem_cons.mp unbroken
    have noReturn : char ≠ '\r' := by
      rintro rfl
      cases here
    rw [List.cons_append, splitLinesFrom, here, if_neg Bool.false_ne_true, ih later]
    · simp
    · intro _ isReturn
      exact absurd isReturn noReturn

/-- A newline ends a line wherever it stands, also as the second half of a pair. -/
theorem splitLinesFrom_newline (line front behind : List Char) :
    splitLinesFrom line (front ++ '\n' :: behind) =
      splitLinesFrom line (front ++ ['\n']) ++ splitLinesFrom [] behind := by
  fun_induction splitLinesFrom line front with
  | case1 line => simp [splitLinesFrom, isLineBreak]
  | case2 line => simp [splitLinesFrom, isLineBreak]
  | case3 line rest ih => simpa [splitLinesFrom] using ih
  | case4 line char rest unpaired breaks ih =>
    by_cases isReturn : char = '\r'
    · subst isReturn
      cases rest with
      | nil => simp [splitLinesFrom]
      | cons next rest =>
        have unpaired : next ≠ '\n' := by
          rintro rfl
          exact unpaired rest rfl rfl
        simpa [splitLinesFrom, unpaired, isLineBreak] using ih
    · simpa [splitLinesFrom, isReturn, breaks] using ih
  | case5 line char rest unpaired inside ih =>
    have noReturn : char ≠ '\r' := by
      rintro rfl
      exact inside rfl
    simpa [splitLinesFrom, inside, noReturn] using ih

theorem splitLines_endedLines_append (texts : List (List Char)) (behind : List Char) :
    splitLines (endedLines texts ++ behind) = splitLines (endedLines texts) ++ splitLines behind := by
  induction texts with
  | nil => rfl
  | cons text texts ih =>
    have ended : endedLines (text :: texts) = text ++ '\n' :: endedLines texts := by simp [endedLines]
    unfold splitLines at ih ⊢
    rw [ended, List.append_assoc, List.cons_append, splitLinesFrom_newline, ih, splitLinesFrom_newline [] text
      (endedLines texts), List.append_assoc]

/-- Lines without breaks are read back. -/
theorem splitLines_endedLines (unbroken : ∀ text ∈ texts, Unbroken text) : splitLines (endedLines texts) = texts := by
  induction texts with
  | nil => rfl
  | cons text texts ih =>
    obtain ⟨here, later⟩ := List.forall_mem_cons.mp unbroken
    have ended : endedLines (text :: texts) = text ++ '\n' :: endedLines texts := by simp [endedLines]
    rw [ended, splitLines, splitLinesFrom_ended here]
    exact congrArg (text :: ·) (ih later)

/-- A line inside an entry tells the author, the time or the summary, or it is passed over. -/
theorem BlameLine.extend_cases (extended : entry.extend text = .ok finished) :
    (∃ author, text = "author ".toList ++ author ∧ finished = { entry with author := String.ofList author }) ∨
    (∃ time seconds, text = "author-time ".toList ++ time ∧ readInteger? time = some seconds ∧
      finished = { entry with seconds := seconds }) ∨
    (∃ summary, text = "summary ".toList ++ summary ∧ finished = { entry with summary := String.ofList summary }) ∨
    (after? "author ".toList text = none ∧ after? "author-time ".toList text = none ∧
      after? "summary ".toList text = none ∧ finished = entry) := by
  unfold extend at extended
  split at extended
  · rename_i author starts
    cases extended
    exact Or.inl ⟨author, after?_eq_some_iff.mp starts, rfl⟩
  · rename_i unauthored
    split at extended
    · rename_i time starts
      split at extended
      · rename_i seconds read
        cases extended
        exact Or.inr (Or.inl ⟨time, seconds, after?_eq_some_iff.mp starts, read, rfl⟩)
      · cases extended
    · rename_i untimed
      split at extended
      · rename_i summary starts
        cases extended
        exact Or.inr (Or.inr (Or.inl ⟨summary, after?_eq_some_iff.mp starts, rfl⟩))
      · rename_i unsummed
        cases extended
        exact Or.inr (Or.inr (Or.inr ⟨unauthored, untimed, unsummed, rfl⟩))

theorem BlameLine.extend_keeps (extended : entry.extend text = .ok finished) :
    finished.commit = entry.commit ∧ finished.line = entry.line := by
  rcases BlameLine.extend_cases extended with ⟨_, _, rfl⟩ | ⟨_, _, _, _, rfl⟩ | ⟨_, _, rfl⟩ | ⟨_, _, _, rfl⟩ <;>
    exact ⟨rfl, rfl⟩

theorem BlameLine.foldlM_extend_keeps (extended : details.foldlM BlameLine.extend entry = .ok finished) :
    finished.commit = entry.commit ∧ finished.line = entry.line := by
  refine foldlM_reaches (fun current => current.commit = entry.commit ∧ current.line = entry.line) ?_
    (Or.inl ⟨rfl, rfl⟩) extended
  rintro text - current next ⟨commit, line⟩ extended
  obtain ⟨sameCommit, sameLine⟩ := BlameLine.extend_keeps extended
  exact ⟨sameCommit.trans commit, sameLine.trans line⟩

theorem forall_saidBehind_cons {tells : List Char → Prop} :
    (∀ said ∈ saidBehind word (text :: details), tells said) ↔
      (∀ said ∈ after? word.toList text, tells said) ∧ ∀ said ∈ saidBehind word details, tells said := by
  rw [saidBehind, List.filterMap_cons]
  cases after? word.toList text <;> simp [saidBehind]

theorem getLast?_saidBehind_concat (word : String) (details : List (List Char)) (text : List Char) :
    (saidBehind word (details ++ [text])).getLast? =
      (after? word.toList text).or (saidBehind word details).getLast? := by
  rw [saidBehind, List.filterMap_append, List.getLast?_append]
  cases found : after? word.toList text <;> simp [saidBehind, found]

/-- A line inside an entry can be read exactly if the time in it is a numeral. -/
theorem BlameLine.exists_extend_iff (entry : BlameLine) :
    (∃ next, entry.extend text = .ok next) ↔
      ∀ clock ∈ after? "author-time ".toList text, (readInteger? clock).isSome := by
  constructor
  · rintro ⟨next, extended⟩ clock said
    obtain rfl := after?_eq_some_iff.mp said
    have noAuthor : after? "author ".toList ("author-time ".toList ++ clock) = none := rfl
    rw [extend, noAuthor, said] at extended
    dsimp only at extended
    cases read : readInteger? clock with
    | some seconds => rfl
    | none =>
      rw [read] at extended
      cases extended
  · intro readable
    unfold extend
    split
    · exact ⟨_, rfl⟩
    · split
      · rename_i clock said
        obtain ⟨seconds, read⟩ := Option.isSome_iff_exists.mp (readable clock said)
        rw [read]
        exact ⟨_, rfl⟩
      · split <;> exact ⟨_, rfl⟩

theorem BlameLine.exists_foldlM_extend_iff (entry : BlameLine) :
    (∃ finished, details.foldlM BlameLine.extend entry = .ok finished) ↔
      ∀ clock ∈ saidBehind "author-time " details, (readInteger? clock).isSome := by
  induction details generalizing entry with
  | nil => exact ⟨fun _ _ none => absurd none List.not_mem_nil, fun _ => ⟨entry, rfl⟩⟩
  | cons text details ih =>
    rw [forall_saidBehind_cons, ← entry.exists_extend_iff, List.foldlM_cons]
    constructor
    · rintro ⟨finished, built⟩
      obtain ⟨next, extended, later⟩ := of_bind_eq_ok built
      exact ⟨⟨next, extended⟩, (ih next).mp ⟨finished, later⟩⟩
    · rintro ⟨⟨next, extended⟩, later⟩
      rw [extended]
      exact (ih next).mpr later

/-- Of everything that the details of an entry say, the entry has what is said last. -/
theorem BlameLine.tells_of_foldlM_extend (built : details.foldlM BlameLine.extend entry = .ok finished) :
    finished.author = ((saidBehind "author " details).getLast?.map String.ofList).getD entry.author ∧
      finished.seconds = ((saidBehind "author-time " details).getLast?.bind readInteger?).getD entry.seconds ∧
      finished.summary = ((saidBehind "summary " details).getLast?.map String.ofList).getD entry.summary := by
  induction details using List.reverseRecOn generalizing finished with
  | nil =>
    cases built
    exact ⟨rfl, rfl, rfl⟩
  | append_singleton details text ih =>
    rw [List.foldlM_append] at built
    obtain ⟨middle, extended, built⟩ := of_bind_eq_ok built
    obtain ⟨last, told, same⟩ := of_bind_eq_ok built
    cases same
    obtain ⟨author, seconds, summary⟩ := ih extended
    simp only [getLast?_saidBehind_concat]
    rcases BlameLine.extend_cases told with ⟨name, rfl, rfl⟩ | ⟨time, count, rfl, read, rfl⟩ | ⟨title, rfl, rfl⟩ |
      ⟨noAuthor, noTime, noSummary, rfl⟩
    · have noTime : after? "author-time ".toList ("author ".toList ++ name) = none := rfl
      have noSummary : after? "summary ".toList ("author ".toList ++ name) = none := rfl
      rw [after?_eq_some_iff.mpr rfl, noTime, noSummary]
      exact ⟨rfl, seconds, summary⟩
    · have noAuthor : after? "author ".toList ("author-time ".toList ++ time) = none := rfl
      have noSummary : after? "summary ".toList ("author-time ".toList ++ time) = none := rfl
      rw [noAuthor, after?_eq_some_iff.mpr rfl, noSummary, Option.some_or, Option.bind_some, read]
      exact ⟨author, rfl, summary⟩
    · have noAuthor : after? "author ".toList ("summary ".toList ++ title) = none := rfl
      have noTime : after? "author-time ".toList ("summary ".toList ++ title) = none := rfl
      rw [noAuthor, noTime, after?_eq_some_iff.mpr rfl]
      exact ⟨author, seconds, rfl⟩
    · rw [noAuthor, noTime, noSummary]
      exact ⟨author, seconds, summary⟩

/-- Lines without a tab in front extend the open entry one after the other. -/
theorem blameLinesFrom_details (untabbed : ∀ text ∈ details, startsWithTab text = false) :
    blameLinesFrom (some entry) (details ++ rest) =
      details.foldlM BlameLine.extend entry >>= fun entry => blameLinesFrom (some entry) rest := by
  induction details generalizing entry with
  | nil => rfl
  | cons text details ih =>
    obtain ⟨here, later⟩ := List.forall_mem_cons.mp untabbed
    have inside : ¬text.head? = some '\t' := by simpa [startsWithTab] using here
    rw [List.cons_append, blameLinesFrom, if_neg inside, List.foldlM_cons]
    cases entry.extend text with
    | error fault => rfl
    | ok next => exact ih later

theorem blameLinesFrom_completed (tabbed : startsWithTab text = true) :
    blameLinesFrom (some entry) (text :: rest) = (blameLinesFrom none rest).map (entry :: ·) := by
  have ends : text.head? = some '\t' := by simpa [startsWithTab] using tabbed
  rw [blameLinesFrom, if_pos ends]
  cases blameLinesFrom none rest <;> rfl

theorem blameLinesFrom_header {commit final : List Char} {number : Int}
    (header : blameHeader? text = some (commit, final)) (read : readInteger? final = some number) :
    blameLinesFrom none (text :: rest) = blameLinesFrom (some { commit := commit, line := number - 1 }) rest := by
  rw [blameLinesFrom, openEntry, header]
  dsimp only
  rw [read]
  rfl

theorem blameLinesFrom_passed (header : blameHeader? text = none) :
    blameLinesFrom none (text :: rest) = blameLinesFrom none rest := by
  rw [blameLinesFrom, openEntry, header]
  rfl

theorem exists_number_of_blameLinesFrom {commit final : List Char}
    (header : blameHeader? text = some (commit, final)) (read : blameLinesFrom none (text :: rest) = .ok lines) :
    ∃ number, readInteger? final = some number := by
  cases numbered : readInteger? final with
  | some number => exact ⟨number, rfl⟩
  | none =>
    rw [blameLinesFrom, openEntry, header] at read
    dsimp only at read
    rw [numbered] at read
    cases read

/-- The lines in front of the next one with a tab extend an open entry, and that one completes it. -/
theorem blameLinesFrom_some (entry : BlameLine) (texts : List (List Char)) :
    blameLinesFrom (some entry) texts =
      (texts.takeWhile (!startsWithTab ·)).foldlM BlameLine.extend entry >>= fun finished =>
        if texts.any startsWithTab then
          (blameLinesFrom none (texts.dropWhile (!startsWithTab ·)).tail).map (finished :: ·)
        else .ok [] := by
  have untabbed : ∀ text ∈ texts.takeWhile (!startsWithTab ·), startsWithTab text = false := by
    intro text member
    simpa using List.mem_takeWhile_imp member
  conv_lhs => rw [← List.takeWhile_append_dropWhile (p := (!startsWithTab ·)) (l := texts)]
  rw [blameLinesFrom_details untabbed]
  refine bind_congr fun finished => ?_
  cases behind : texts.dropWhile (!startsWithTab ·) with
  | nil =>
    have unfinished : texts.any startsWithTab = false := by simpa [List.dropWhile_eq_nil_iff] using behind
    rw [unfinished]
    rfl
  | cons text rest =>
    have tabbed : startsWithTab text = true := by
      have first := List.head?_dropWhile_not (!startsWithTab ·) texts
      rw [behind] at first
      simpa using first
    have member : text ∈ texts := (List.dropWhile_sublist _).mem (behind ▸ List.mem_cons_self ..)
    rw [blameLinesFrom_completed tabbed, if_pos (List.any_eq_true.mpr ⟨text, member, tabbed⟩)]
    rfl

/-- An open entry is completed by the next line with a tab in front, and left out when there is none. -/
theorem blameLinesFrom_some_cases (read : blameLinesFrom (some entry) texts = .ok lines) :
    (texts.any startsWithTab = false ∧ lines = []) ∨
      (texts.any startsWithTab = true ∧ ∃ finished later, lines = finished :: later ∧
        finished.commit = entry.commit ∧ finished.line = entry.line ∧
        blameLinesFrom none (texts.dropWhile (!startsWithTab ·)).tail = .ok later) := by
  rw [blameLinesFrom_some] at read
  obtain ⟨finished, extended, read⟩ := of_bind_eq_ok read
  obtain ⟨commit, line⟩ := BlameLine.foldlM_extend_keeps extended
  cases completed : texts.any startsWithTab with
  | false =>
    rw [completed] at read
    cases read
    exact Or.inl ⟨rfl, rfl⟩
  | true =>
    rw [completed] at read
    cases others : blameLinesFrom none (texts.dropWhile (!startsWithTab ·)).tail with
    | error fault =>
      rw [others] at read
      cases read
    | ok later =>
      rw [others] at read
      cases read
      exact Or.inr ⟨rfl, finished, later, rfl, commit, line, rfl⟩

/-- The entries that a listing completes are those that its lines show. -/
theorem signed_blameLinesFrom (read : blameLinesFrom none texts = .ok lines) :
    (entryHeads texts).map EntryHead.signed? = (lines.map BlameLine.signed).map some := by
  fun_induction entryHeads texts generalizing lines with
  | case1 =>
    cases read
    rfl
  | case2 text rest header ih =>
    rw [blameLinesFrom_passed header] at read
    exact ih read
  | case3 text rest commit final header completed ih =>
    obtain ⟨number, numbered⟩ := exists_number_of_blameLinesFrom header read
    rw [blameLinesFrom_header header numbered] at read
    rcases blameLinesFrom_some_cases read with ⟨never, _⟩ | ⟨_, finished, later, rfl, sameCommit, sameLine, others⟩
    · cases never.symm.trans completed
    · have first : (EntryHead.mk commit final).signed? = some finished.signed := by
        rw [EntryHead.signed?, BlameLine.signed, BlameLine.identifier, numbered, sameCommit, sameLine]
        rfl
      rw [List.map_cons, ih others, first]
      rfl
  | case4 text rest commit final header unfinished =>
    obtain ⟨number, numbered⟩ := exists_number_of_blameLinesFrom header read
    rw [blameLinesFrom_header header numbered] at read
    rcases blameLinesFrom_some_cases read with ⟨_, rfl⟩ | ⟨completed, _⟩
    · rfl
    · exact absurd completed unfinished

end Marginalia
