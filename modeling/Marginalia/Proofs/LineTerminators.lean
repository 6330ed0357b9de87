import Marginalia.Proofs.LoadedRecords
import Marginalia.SourceFile.Read

namespace Marginalia

/-- What ends a line of a file. -/
inductive Terminator
  | crlf
  | cr
  | lf
deriving DecidableEq, Repr

def Terminator.chars : Terminator → List Char
  | .crlf => ['\r', '\n']
  | .cr => ['\r']
  | .lf => ['\n']

/-- The line ending of a file that has no other terminators. -/
def Terminator.ending : Terminator → LineEnding
  | .crlf => .crlf
  | .cr => .cr
  | .lf => .lf

/-- What a file is read as: a character of a line, or what ends a line. -/
inductive LinePart
  | char (value : Char)
  | terminator (value : Terminator)
deriving DecidableEq, Repr

def LinePart.chars : LinePart → List Char
  | .char value => [value]
  | .terminator value => value.chars

/-- The character of a part when every terminator is a newline. -/
def LinePart.normal : LinePart → Char
  | .char value => value
  | .terminator _ => '\n'

def LinePart.terminator? : LinePart → Option Terminator
  | .char _ => none
  | .terminator value => some value

def terminators (parts : List LinePart) : List Terminator :=
  parts.filterMap LinePart.terminator?

/-- A text is read from left to right, and a carriage return takes the newline behind it along. -/
inductive ReadsAs : List Char → List LinePart → Prop
  | nil : ReadsAs [] []
  | crlf {rest parts} : ReadsAs rest parts → ReadsAs ('\r' :: '\n' :: rest) (.terminator .crlf :: parts)
  | cr {rest parts} : rest.head? ≠ some '\n' → ReadsAs rest parts →
      ReadsAs ('\r' :: rest) (.terminator .cr :: parts)
  | lf {rest parts} : ReadsAs rest parts → ReadsAs ('\n' :: rest) (.terminator .lf :: parts)
  | char {char rest parts} : char ≠ '\r' → char ≠ '\n' → ReadsAs rest parts →
      ReadsAs (char :: rest) (.char char :: parts)

variable {text rest : List Char} {parts other : List LinePart}

@[simp]
theorem terminators_char (char : Char) (parts : List LinePart) :
    terminators (.char char :: parts) = terminators parts :=
  rfl

@[simp]
theorem terminators_terminator (kind : Terminator) (parts : List LinePart) :
    terminators (.terminator kind :: parts) = kind :: terminators parts :=
  rfl

theorem exists_readsAs (text : List Char) : ∃ parts, ReadsAs text parts := by
  induction text with
  | nil => exact ⟨[], .nil⟩
  | cons char rest ih =>
    obtain ⟨parts, reads⟩ := ih
    by_cases newline : char = '\n'
    · subst newline
      exact ⟨_, reads.lf⟩
    · by_cases isReturn : char = '\r'
      · subst isReturn
        -- the newline that was read by itself belongs to the return
        cases reads with
        | lf later => exact ⟨_, later.crlf⟩
        | nil => exact ⟨_, .cr nofun .nil⟩
        | crlf later => exact ⟨_, .cr (by simp) later.crlf⟩
        | cr alone later => exact ⟨_, .cr (by simp) (later.cr alone)⟩
        | char noReturn noNewline later => exact ⟨_, .cr (by simpa using noNewline) (later.char noReturn noNewline)⟩
      · exact ⟨_, reads.char isReturn newline⟩

theorem ReadsAs.unique (reads : ReadsAs text parts) (again : ReadsAs text other) : other = parts := by
  induction reads generalizing other with
  | nil => cases again; rfl
  | crlf later ih =>
    cases again with
    | crlf again => rw [ih again]
    | cr alone again => exact absurd rfl alone
    | char noReturn => exact absurd rfl noReturn
  | cr alone later ih =>
    cases again with
    | crlf again => exact absurd rfl alone
    | cr _ again => rw [ih again]
    | char noReturn => exact absurd rfl noReturn
  | lf later ih =>
    cases again with
    | lf again => rw [ih again]
    | char _ noNewline => exact absurd rfl noNewline
  | char noReturn noNewline later ih =>
    cases again with
    | crlf again => exact absurd rfl noReturn
    | cr _ again => exact absurd rfl noReturn
    | lf again => exact absurd rfl noNewline
    | char _ _ again => rw [ih again]

theorem ReadsAs.joined (reads : ReadsAs text parts) : parts.flatMap LinePart.chars = text := by
  induction reads with
  | nil => rfl
  | crlf later ih => rw [List.flatMap_cons, ih]; rfl
  | cr alone later ih => rw [List.flatMap_cons, ih]; rfl
  | lf later ih => rw [List.flatMap_cons, ih]; rfl
  | char noReturn noNewline later ih => rw [List.flatMap_cons, ih]; rfl

theorem joinPairs_return (alone : rest.head? ≠ some '\n') : joinPairs ('\r' :: rest) = '\r' :: joinPairs rest := by
  refine joinPairs.eq_2 '\r' rest fun later _ split => alone ?_
  rw [split]
  rfl

theorem joinPairs_cons {char : Char} (noReturn : char ≠ '\r') : joinPairs (char :: rest) = char :: joinPairs rest :=
  joinPairs.eq_2 char rest fun _ isReturn _ => noReturn isReturn

theorem countPairs_return (alone : rest.head? ≠ some '\n') : countPairs ('\r' :: rest) = countPairs rest := by
  refine countPairs.eq_2 '\r' rest fun later _ split => alone ?_
  rw [split]
  rfl

theorem countPairs_cons {char : Char} (noReturn : char ≠ '\r') : countPairs (char :: rest) = countPairs rest :=
  countPairs.eq_2 char rest fun _ isReturn _ => noReturn isReturn

/-- A newline stands for each terminator, and nothing else changes. -/
theorem ReadsAs.normalizeLines_eq (reads : ReadsAs text parts) : normalizeLines text = parts.map LinePart.normal := by
  unfold normalizeLines
  induction reads with
  | nil => rfl
  | crlf later ih => rw [joinPairs, List.map_cons, ih]; rfl
  | cr alone later ih => rw [joinPairs_return alone, List.map_cons, ih]; rfl
  | lf later ih => rw [joinPairs_cons (by decide), List.map_cons, ih]; rfl
  | char noReturn noNewline later ih =>
    rw [joinPairs_cons noReturn, List.map_cons, ih, if_neg noReturn]
    rfl

def TerminatorCounts.number (counts : TerminatorCounts) : Terminator → Nat
  | .crlf => counts.crlf
  | .cr => counts.cr
  | .lf => counts.lf

/-- A pair has a newline and a carriage return, so that the lone ones are those left over. -/
theorem ReadsAs.counts (reads : ReadsAs text parts) :
    countPairs text = (terminators parts).count .crlf ∧
      text.count '\n' = (terminators parts).count .crlf + (terminators parts).count .lf ∧
      text.count '\r' = (terminators parts).count .crlf + (terminators parts).count .cr := by
  induction reads with
  | nil => exact ⟨rfl, rfl, rfl⟩
  | crlf later ih =>
    simp only [↓Char.isValue, countPairs, terminators_terminator, List.count_cons_self, List.count_cons_of_ne, ne_eq,
      Char.reduceEq, reduceCtorEq, not_false_eq_true]
    omega
  | cr alone later ih =>
    simp only [↓Char.isValue, countPairs_return alone, terminators_terminator, List.count_cons_self,
      List.count_cons_of_ne, ne_eq, Char.reduceEq, reduceCtorEq, not_false_eq_true]
    omega
  | lf later ih =>
    simp only [↓Char.isValue, countPairs_cons, terminators_terminator, List.count_cons_self, List.count_cons_of_ne,
      ne_eq, Char.reduceEq, reduceCtorEq, not_false_eq_true]
    omega
  | char noReturn noNewline later ih =>
    rw [countPairs_cons noReturn, List.count_cons_of_ne noNewline, List.count_cons_of_ne noReturn, terminators_char]
    exact ih

theorem ReadsAs.number_eq (reads : ReadsAs text parts) (kind : Terminator) :
    (TerminatorCounts.of text).number kind = (terminators parts).count kind := by
  obtain ⟨pairs, newlines, returns⟩ := reads.counts
  cases kind with
  | crlf => exact pairs
  | cr =>
    change text.count '\r' - countPairs text = _
    omega
  | lf =>
    change text.count '\n' - countPairs text = _
    omega

theorem Terminator.forall_iff {holds : Terminator → Prop} :
    (∀ kind, holds kind) ↔ holds .crlf ∧ holds .cr ∧ holds .lf := by
  refine ⟨fun each => ⟨each _, each _, each _⟩, fun ⟨pair, ofReturn, ofNewline⟩ kind => ?_⟩
  cases kind with
  | crlf => exact pair
  | cr => exact ofReturn
  | lf => exact ofNewline

theorem TerminatorCounts.kind_eq_none_iff (counts : TerminatorCounts) :
    counts.kind = .none ↔ ∀ kind, counts.number kind = 0 := by
  obtain ⟨crlf, lf, cr⟩ := counts
  rw [Terminator.forall_iff]
  cases crlf <;> cases lf <;> cases cr <;> simp [kind, number]

theorem TerminatorCounts.kind_eq_ending_iff (counts : TerminatorCounts) (only : Terminator) :
    counts.kind = only.ending ↔ 0 < counts.number only ∧ ∀ kind, kind ≠ only → counts.number kind = 0 := by
  obtain ⟨crlf, lf, cr⟩ := counts
  rw [Terminator.forall_iff]
  cases only <;> cases crlf <;> cases lf <;> cases cr <;> simp [kind, number, Terminator.ending]

theorem LineEnding.eq_mixed_iff (ending : LineEnding) :
    ending = .mixed ↔ ¬ending = .none ∧ ∀ kind : Terminator, ¬ending = kind.ending := by
  rw [Terminator.forall_iff]
  cases ending <;> decide

theorem ReadsAs.ending_eq_none_iff (reads : ReadsAs text parts) :
    LineEnding.of text = .none ↔ terminators parts = [] := by
  rw [LineEnding.of, TerminatorCounts.kind_eq_none_iff, List.eq_nil_iff_forall_not_mem]
  refine forall_congr' fun kind => ?_
  rw [reads.number_eq, List.count_eq_zero]

theorem ReadsAs.ending_eq_iff (reads : ReadsAs text parts) (only : Terminator) :
    LineEnding.of text = only.ending ↔ terminators parts ≠ [] ∧ ∀ kind ∈ terminators parts, kind = only := by
  rw [LineEnding.of, TerminatorCounts.kind_eq_ending_iff, reads.number_eq, List.count_pos_iff]
  constructor
  · rintro ⟨member, others⟩
    refine ⟨List.ne_nil_of_mem member, fun kind found => ?_⟩
    by_contra different
    have absent := others kind different
    rw [reads.number_eq, List.count_eq_zero] at absent
    exact absent found
  · rintro ⟨some, alone⟩
    obtain ⟨kind, found⟩ := List.exists_mem_of_ne_nil _ some
    refine ⟨alone kind found ▸ found, fun kind different => ?_⟩
    rw [reads.number_eq, List.count_eq_zero]
    exact fun found => different (alone kind found)

theorem ReadsAs.ending_eq_mixed_iff (reads : ReadsAs text parts) :
    LineEnding.of text = .mixed ↔ ∃ left ∈ terminators parts, ∃ right ∈ terminators parts, left ≠ right := by
  rw [LineEnding.eq_mixed_iff, reads.ending_eq_none_iff]
  simp only [reads.ending_eq_iff]
  constructor
  · rintro ⟨some, several⟩
    obtain ⟨left, found⟩ := List.exists_mem_of_ne_nil _ some
    by_contra same
    refine several left ⟨some, fun right also => ?_⟩
    by_contra different
    exact same ⟨right, also, left, found, different⟩
  · rintro ⟨left, found, right, also, different⟩
    refine ⟨List.ne_nil_of_mem found, fun kind ⟨_, alone⟩ => different ?_⟩
    exact (alone left found).trans (alone right also).symm

theorem ReadsAs.return_not_mem (reads : ReadsAs text parts) : '\r' ∉ parts.map LinePart.normal := by
  induction reads with
  | nil => exact List.not_mem_nil
  | crlf later ih => exact List.not_mem_cons_of_ne_of_not_mem (by decide) ih
  | cr alone later ih => exact List.not_mem_cons_of_ne_of_not_mem (by decide) ih
  | lf later ih => exact List.not_mem_cons_of_ne_of_not_mem (by decide) ih
  | char noReturn noNewline later ih => exact List.not_mem_cons_of_ne_of_not_mem noReturn.symm ih

theorem ReadsAs.count_newline (reads : ReadsAs text parts) :
    (parts.map LinePart.normal).count '\n' = (terminators parts).length := by
  induction reads with
  | nil => rfl
  | crlf later ih => simp [LinePart.normal, ih]
  | cr alone later ih => simp [LinePart.normal, ih]
  | lf later ih => simp [LinePart.normal, ih]
  | char noReturn noNewline later ih => simp [LinePart.normal, noNewline, ih]

/-- A text without carriage returns is left as it is. -/
theorem normalizeLines_of_not_mem (free : '\r' ∉ text) : normalizeLines text = text := by
  unfold normalizeLines
  induction text with
  | nil => rfl
  | cons char rest ih =>
    have noReturn : char ≠ '\r' := fun isReturn => free (isReturn ▸ List.mem_cons_self)
    rw [joinPairs_cons noReturn, List.map_cons, if_neg noReturn, ih fun later => free (List.mem_cons_of_mem _ later)]

/-- The text of bytes in a named encoding, or what the fallback encoding makes of them where it gives no text. -/
def DecodesAs (decoders : Decoders) (options : ReadOptions) (bytes : Bytes) (name : String) (text : List Char) : Prop :=
  decoders.decode name bytes = .ok text ∨
    name = options.fallbackEncoding ∧ decoders.lenient name bytes = .ok text

/-- A text as it is read, marks at the start of a file with a mark left out. -/
def unmarked (bytes : Bytes) (text : List Char) : List Char :=
  if (markedEncoding? bytes).isSome then text.dropWhile (· == markChar) else text

variable {decoders : Decoders} {options : ReadOptions} {guess : EncodingGuess} {bytes : Bytes} {source : SourceText}

theorem decodesAs_of_decodeOrFallback {name used : String}
    (decoded : decodeOrFallback options name bytes decoders = .ok (text, used)) :
    DecodesAs decoders options bytes used text := by
  obtain ⟨_, _, decoded⟩ := of_bind_eq_ok decoded
  split at decoded
  · rename_i text read
    cases decoded
    exact Or.inl read
  · cases decoded
  · obtain ⟨_, _, decoded⟩ := of_bind_eq_ok decoded
    split at decoded
    · rename_i text read
      cases decoded
      exact Or.inr ⟨rfl, read⟩
    · cases decoded

theorem SourceText.exists_of_ofBytes {encoding : Option String} {filetype : String}
    (read : SourceText.ofBytes options guess encoding filetype bytes decoders = .ok source) :
    ∃ text, DecodesAs decoders options bytes source.encoding text ∧ source.content = normalizeLines (unmarked bytes text) ∧
      source.lineEnding = .of (unmarked bytes text) := by
  unfold SourceText.ofBytes at read
  dsimp only at read
  split at read
  · cases read
  · obtain ⟨⟨text, used⟩, decoded, built⟩ := of_bind_eq_ok read
    cases built
    exact ⟨text, decodesAs_of_decodeOrFallback decoded, rfl, rfl⟩

theorem Files.exists_of_readSource {files : Files} {path : Path} {encoding filetype : Option String}
    (read : files.readSource options guess path encoding filetype decoders = .ok source) :
    ∃ bytes filetype, files.find path = .ok (.file bytes) ∧
      SourceText.ofBytes options guess encoding filetype bytes decoders = .ok source := by
  unfold readSource at read
  split at read
  · cases read
  · cases read
  · cases read
  · rename_i bytes found
    split at read
    · cases read
    · exact ⟨bytes, _, found, read⟩

theorem Files.find_of_read {files : Files} {path : Path} (read : files.read path = .ok bytes) :
    files.find path = .ok (.file bytes) := by
  obtain ⟨entry, found, holds⟩ := of_bind_eq_ok read
  cases entry with
  | folder => cases holds
  | file bytes =>
    cases holds
    exact found

/-- Whatever file is read, and whatever decodes it, its content has a newline for each terminator of its text, read from
left to right, and is that text otherwise; the line ending tells which terminators there were. -/
theorem Files.readSource_terminators {files : Files} {path : Path} {encoding filetype : Option String}
    (read : files.readSource options guess path encoding filetype decoders = .ok source) :
    ∃ bytes decoded, files.find path = .ok (.file bytes) ∧ DecodesAs decoders options bytes source.encoding decoded ∧
      let text := unmarked bytes decoded
      ∃ parts, ReadsAs text parts ∧ (∀ other, ReadsAs text other → other = parts) ∧
        parts.flatMap LinePart.chars = text ∧
        source.content = parts.map LinePart.normal ∧ '\r' ∉ source.content ∧
        source.lineCount = (terminators parts).length + 1 ∧
        normalizeLines source.content = source.content ∧
        (source.lineEnding = .none ↔ terminators parts = []) ∧
        (∀ only : Terminator, source.lineEnding = only.ending ↔
          terminators parts ≠ [] ∧ ∀ kind ∈ terminators parts, kind = only) ∧
        (source.lineEnding = .mixed ↔ ∃ left ∈ terminators parts, ∃ right ∈ terminators parts, left ≠ right) := by
  obtain ⟨bytes, _, found, built⟩ := Files.exists_of_readSource read
  obtain ⟨decoded, decodes, content, ending⟩ := SourceText.exists_of_ofBytes built
  obtain ⟨parts, reads⟩ := exists_readsAs (unmarked bytes decoded)
  have normal : source.content = parts.map LinePart.normal := content.trans reads.normalizeLines_eq
  have free : '\r' ∉ source.content := normal ▸ reads.return_not_mem
  have counted : source.lineCount = (terminators parts).length + 1 := by
    rw [SourceText.lineCount, lineCount, normal, reads.count_newline]
  rw [ending]
  exact ⟨bytes, decoded, found, decodes, parts, reads, fun _ => reads.unique, reads.joined, normal, free, counted,
    normalizeLines_of_not_mem free, reads.ending_eq_none_iff, reads.ending_eq_iff, reads.ending_eq_mixed_iff⟩

/-- A carriage return stands in front of a pair, behind a newline, and at the end. -/
def crowdedLines : List Char :=
  ['a', '\r', '\r', '\n', 'b', '\n', '\r', 'c', '\r']

def crowdedParts : List LinePart :=
  [.char 'a', .terminator .cr, .terminator .crlf, .char 'b', .terminator .lf, .terminator .cr, .char 'c',
    .terminator .cr]

theorem readsAs_crowdedLines : ReadsAs crowdedLines crowdedParts :=
  .char (by decide) (by decide) <| .cr (by decide) <| .crlf <| .char (by decide) (by decide) <| .lf <|
    .cr (by decide) <| .char (by decide) (by decide) <| .cr (by decide) .nil

/-- The same lines in a file, behind a mark. -/
def markedFile : Files :=
  .single "a.txt" (utf8Mark ++ encodeUtf8 (String.ofList crowdedLines))

theorem Files.readSource_terminators_marked :
    ∃ source, markedFile.readSource {} ⟨none, 0⟩ ⟨.here, ["a.txt"]⟩ none none .standard = .ok source ∧
      source.content = "a\n\nb\n\nc\n".toList ∧ source.lineCount = 6 ∧ source.lineEnding = .mixed := by
  let bytes := utf8Mark ++ encodeUtf8 (String.ofList crowdedLines)
  have found : markedFile.find ⟨.here, ["a.txt"]⟩ = .ok (.file bytes) :=
    Files.find_of_read (Files.read_single (by decide) (by decide) (by decide))
  have marked : markedEncoding? bytes = some "utf-8-sig" := by decide +kernel
  have decoded : Decoders.standard.decode "utf-8-sig" bytes = .ok crowdedLines := by
    have read : Encoding.markedUtf8.read? bytes = some crowdedLines := by decide +kernel
    have named : Encoding.ofName? "utf-8-sig" = some .markedUtf8 := by decide +kernel
    have some : bytes.isEmpty = false := by decide +kernel
    simp only [Decoders.decode, some, Decoders.standard, named, read]
    rfl
  have opened : decodeOrFallback {} "utf-8-sig" bytes .standard = .ok (crowdedLines, "utf-8-sig") := by
    have whole : checkName "utf-8-sig" = .ok () := by simp [checkName]
    simp only [decodeOrFallback, whole, decoded]
    rfl
  have small : ¬(20 * 1024 * 1024 : Int) < bytes.length := by decide +kernel
  obtain ⟨source, read, encoding⟩ : ∃ source,
      markedFile.readSource {} ⟨none, 0⟩ ⟨.here, ["a.txt"]⟩ none none .standard = .ok source ∧
        source.encoding = "utf-8-sig" := by
    simp only [Files.readSource, found, if_neg small, SourceText.ofBytes, marked, Option.isNone_some, Bool.false_and,
      Option.filter_none, Option.none_or, Option.getD_some, opened]
    exact ⟨_, rfl, rfl⟩
  obtain ⟨others, text, again, decodes, parts, _, unique, _, normal, _, counted, _, _, _, mixed⟩ :=
    Files.readSource_terminators read
  obtain rfl : bytes = others := Entry.file.inj (Except.ok.inj (found.symm.trans again))
  obtain rfl : crowdedLines = text := by
    rw [encoding] at decodes
    rcases decodes with read | ⟨fallback, _⟩
    · exact Except.ok.inj (decoded.symm.trans read)
    · exact absurd fallback (by decide)
  have text : unmarked bytes crowdedLines = crowdedLines := by
    rw [unmarked, marked]
    rfl
  obtain rfl : crowdedParts = parts := unique _ (text.symm ▸ readsAs_crowdedLines)
  refine ⟨source, read, normal.trans (by decide), counted, mixed.mpr ⟨.cr, by decide, .crlf, by decide, by decide⟩⟩

end Marginalia
