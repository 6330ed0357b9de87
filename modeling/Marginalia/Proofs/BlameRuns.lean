import Marginalia.Proofs.BlameEntries
import Mathlib.Data.List.SplitBy

namespace Marginalia

/-- Whether a line of the same change, as far as its identifier tells, comes right behind. -/
def BlameLine.precedes (line next : BlameLine) : Bool :=
  line.identifier == next.identifier && line.line + 1 == next.line

/-- Lines cut wherever one does not come right behind the other. -/
def blameRuns (lines : List BlameLine) : List (List BlameLine) :=
  lines.splitBy BlameLine.precedes

/-- A record with the lines from the first one of a run to its last one, and with what the first one says. -/
def Record.StandsFor (zone : Zone) (record : Record) (run : List BlameLine) : Prop :=
  ∃ first ∈ run.head?, ∃ last ∈ run.getLast?, ∃ time, Moment.ofEpoch first.seconds 0 zone = .ok time ∧
    record = ⟨first.line, last.line + 1, first.author, time, first.identifier, first.summary⟩

/-- The lines of a record, each with the identifier of the record. -/
def Record.signedLines (record : Record) : List (Int × String) :=
  (List.range record.lineCount.toNat).map fun (place : Nat) => (record.start + place, record.identifier)

variable {zone : Zone} {record current : Record} {records : List Record} {line next first last : BlameLine}
  {lines run rest : List BlameLine}

theorem BlameLine.precedes_iff :
    line.precedes next = true ↔ line.identifier = next.identifier ∧ line.line + 1 = next.line := by
  simp [precedes]

theorem BlameLine.record_eq_ok (made : line.record zone = .ok record) : record.StandsFor zone [line] := by
  obtain ⟨time, read, same⟩ := of_bind_eq_ok made
  cases same
  exact ⟨line, rfl, line, rfl, time, read, rfl⟩

theorem map_signed_of_isChain (chain : (first :: rest).IsChain fun line next => line.precedes next = true) :
    (first :: rest).map BlameLine.signed =
      (List.range (rest.length + 1)).map fun (place : Nat) => (first.line + place, first.identifier) := by
  induction rest generalizing first with
  | nil => simp [BlameLine.signed]
  | cons second rest ih =>
    obtain ⟨behind, chain⟩ := List.isChain_cons_cons.mp chain
    obtain ⟨identifier, line⟩ := BlameLine.precedes_iff.mp behind
    rw [List.map_cons, ih chain, List.length_cons, List.range_succ_eq_map (n := rest.length + 1), List.map_cons,
      List.map_map]
    refine List.cons_eq_cons.mpr ⟨?_, List.map_congr_left fun place _ => ?_⟩
    · simp [BlameLine.signed]
    · have counted : first.line + 1 + (place : Int) = first.line + ((place + 1 : Nat) : Int) := by omega
      rw [Function.comp_apply, identifier, ← line, counted]

theorem signed_of_mem_getLast? (chain : (first :: rest).IsChain fun line next => line.precedes next = true)
    (atEnd : last ∈ (first :: rest).getLast?) : last.signed = (first.line + rest.length, first.identifier) := by
  have shown : ((first :: rest).map BlameLine.signed).getLast? = some last.signed := by
    rw [List.getLast?_map, Option.mem_def.mp atEnd]
    rfl
  rw [map_signed_of_isChain chain, List.range_succ, List.map_append, List.map_singleton, List.getLast?_concat] at shown
  exact (Option.some.inj shown).symm

theorem Record.StandsFor.ne_nil (stands : record.StandsFor zone run) : run ≠ [] := by
  rintro rfl
  obtain ⟨_, none, _⟩ := stands
  cases none

/-- The record of a run has its lines, at least one of them. -/
theorem Record.StandsFor.signedLines_eq (stands : record.StandsFor zone run)
    (chain : run.IsChain fun line next => line.precedes next = true) :
    record.start < record.stop ∧ record.signedLines = run.map BlameLine.signed := by
  obtain ⟨first, atHead, last, atEnd, time, _, rfl⟩ := stands
  obtain ⟨rest, rfl⟩ := List.head?_eq_some_iff.mp atHead
  have stop : last.line = first.line + rest.length := congrArg Prod.fst (signed_of_mem_getLast? chain atEnd)
  have count : (last.line + 1 - first.line).toNat = rest.length + 1 := by omega
  refine ⟨?_, ?_⟩
  · dsimp only
    omega
  · rw [map_signed_of_isChain chain, signedLines, lineCount, count]

theorem Record.StandsFor.starts (stands : record.StandsFor zone run) (atHead : first ∈ run.head?) :
    record.start = first.line ∧ record.identifier = first.identifier := by
  obtain ⟨head, atStart, _, _, _, _, rfl⟩ := stands
  obtain rfl : head = first := Option.some.inj (atStart.symm.trans atHead)
  exact ⟨rfl, rfl⟩

theorem Record.StandsFor.ends (stands : record.StandsFor zone run)
    (chain : run.IsChain fun line next => line.precedes next = true) (atEnd : last ∈ run.getLast?) :
    record.stop = last.line + 1 ∧ record.identifier = last.identifier := by
  obtain ⟨first, atHead, final, atFinal, time, _, rfl⟩ := stands
  obtain ⟨rest, rfl⟩ := List.head?_eq_some_iff.mp atHead
  obtain rfl : final = last := Option.some.inj (atFinal.symm.trans atEnd)
  exact ⟨rfl, (congrArg Prod.snd (signed_of_mem_getLast? chain atEnd)).symm⟩

/-- The record of a run goes on with a line that comes right behind the run. -/
theorem Record.StandsFor.continues_eq (stands : record.StandsFor zone run)
    (chain : run.IsChain fun line next => line.precedes next = true) (atEnd : last ∈ run.getLast?) :
    line.continues record = last.precedes line := by
  obtain ⟨stop, identifier⟩ := stands.ends chain atEnd
  rw [BlameLine.continues, BlameLine.precedes, stop, identifier]

theorem Record.StandsFor.concat (stands : record.StandsFor zone run) (line : BlameLine) :
    Record.StandsFor zone { record with stop := line.line + 1 } (run ++ [line]) := by
  obtain ⟨first, atHead, last, _, time, read, rfl⟩ := stands
  exact ⟨first, List.mem_head?_append_of_mem_head? atHead, line, List.getLast?_concat, time, read, rfl⟩

/-- A line that does not continue a record starts the next one. -/
theorem recordsAfter_apart (apart : line.continues current = false)
    (made : recordsAfter zone current (line :: rest) = .ok records) :
    ∃ next later, line.record zone = .ok next ∧ recordsAfter zone next rest = .ok later ∧ records = current :: later := by
  rw [recordsAfter, apart] at made
  obtain ⟨next, started, made⟩ := of_bind_eq_ok made
  obtain ⟨later, others, made⟩ := of_bind_eq_ok made
  cases made
  exact ⟨next, later, started, others, rfl⟩

/-- A line that continues the record of a run makes the run longer. -/
theorem Record.StandsFor.isChain_concat (stands : record.StandsFor zone run)
    (chain : run.IsChain fun line next => line.precedes next = true) (goesOn : line.continues record = true) :
    (run ++ [line]).IsChain fun line next => line.precedes next = true := by
  refine List.isChain_append.mpr ⟨chain, List.isChain_singleton _, fun last atEnd next only => ?_⟩
  obtain rfl := Option.some.inj only
  rw [← stands.continues_eq chain atEnd, goesOn]

/-- A line that does not continue the record of a run starts the next run. -/
theorem Record.StandsFor.blameRuns_eq (stands : record.StandsFor zone run)
    (chain : run.IsChain fun line next => line.precedes next = true) (apart : line.continues record = false)
    (rest : List BlameLine) : blameRuns (run ++ line :: rest) = run :: blameRuns (line :: rest) := by
  have cut : ∀ last ∈ run.getLast?, last.precedes line = false := fun last atEnd => by
    rw [← stands.continues_eq chain atEnd, apart]
  rw [blameRuns, List.splitBy_append_cons rest cut, List.splitBy_of_isChain stands.ne_nil chain]
  rfl

/-- While a run is open, the records still to come are those of the run with the lines behind it. -/
theorem forall₂_recordsAfter (stands : current.StandsFor zone run)
    (chain : run.IsChain fun line next => line.precedes next = true) (made : recordsAfter zone current rest = .ok records) :
    List.Forall₂ (Record.StandsFor zone) records (blameRuns (run ++ rest)) := by
  -- `run` grows by each line that continues its record, and starts anew at each one that does not.
  induction rest generalizing current run records with
  | nil =>
    cases made
    rw [List.append_nil, blameRuns, List.splitBy_of_isChain stands.ne_nil chain]
    exact .cons stands .nil
  | cons line rest ih =>
    cases goesOn : line.continues current with
    | true =>
      rw [recordsAfter, goesOn] at made
      have grown := ih (stands.concat line) (stands.isChain_concat chain goesOn) made
      rwa [List.append_assoc] at grown
    | false =>
      obtain ⟨next, later, started, others, rfl⟩ := recordsAfter_apart goesOn made
      rw [stands.blameRuns_eq chain goesOn]
      exact .cons stands (ih (BlameLine.record_eq_ok started) (List.isChain_singleton _) others)

theorem forall₂_recordsOfLines (made : recordsOfLines zone lines = .ok records) :
    List.Forall₂ (Record.StandsFor zone) records (blameRuns lines) := by
  cases lines with
  | nil =>
    cases made
    exact .nil
  | cons line rest =>
    obtain ⟨current, started, made⟩ := of_bind_eq_ok made
    exact forall₂_recordsAfter (BlameLine.record_eq_ok started) (List.isChain_singleton _) made

theorem exists_partner {α β : Type} {related : α → β → Prop} {items : List α} {partners : List β}
    (paired : List.Forall₂ related items partners) {item : α} (member : item ∈ items) :
    ∃ partner ∈ partners, related item partner := by
  induction paired with
  | nil => cases member
  | @cons head partner items partners here _ ih =>
    rcases List.mem_cons.mp member with rfl | later
    · exact ⟨partner, List.mem_cons_self .., here⟩
    · obtain ⟨other, inside, there⟩ := ih later
      exact ⟨other, List.mem_cons_of_mem _ inside, there⟩

theorem exists_head_blameRuns (line : BlameLine) (rest : List BlameLine) :
    ∃ run ∈ blameRuns (line :: rest), line ∈ run.head? := by
  have head := List.head_head_splitBy BlameLine.precedes (List.cons_ne_nil line rest)
  exact ⟨_, List.head_mem _, head ▸ List.head_mem_head? _⟩

/-- Only a time that cannot be told at the start of a run stops the making of records. -/
theorem exists_recordsAfter (stands : current.StandsFor zone run)
    (chain : run.IsChain fun line next => line.precedes next = true)
    (timed : ∀ next ∈ blameRuns (run ++ rest), ∀ first ∈ next.head?, ∃ record, BlameLine.record first zone = .ok record) :
    ∃ records, recordsAfter zone current rest = .ok records := by
  induction rest generalizing current run with
  | nil => exact ⟨_, rfl⟩
  | cons line rest ih =>
    rw [recordsAfter]
    cases goesOn : line.continues current with
    | true =>
      refine ih (stands.concat line) (stands.isChain_concat chain goesOn) ?_
      rwa [List.append_assoc]
    | false =>
      rw [stands.blameRuns_eq chain goesOn] at timed
      have later := (List.forall_mem_cons.mp timed).2
      obtain ⟨next, member, atHead⟩ := exists_head_blameRuns line rest
      obtain ⟨record, started⟩ := later next member line atHead
      obtain ⟨others, made⟩ := ih (BlameLine.record_eq_ok started) (List.isChain_singleton _) later
      rw [started]
      change ∃ records, (recordsAfter zone record rest >>= fun others => .ok (current :: others)) = .ok records
      rw [made]
      exact ⟨_, rfl⟩

/-- Records are made of some lines exactly if the time of the first line of each run can be told. -/
theorem exists_recordsOfLines_iff :
    (∃ records, recordsOfLines zone lines = .ok records) ↔
      ∀ run ∈ blameRuns lines, ∀ first ∈ run.head?, ∃ record, BlameLine.record first zone = .ok record := by
  constructor
  · rintro ⟨records, made⟩ run member first atHead
    obtain ⟨record, _, head, atStart, _, _, time, read, _⟩ :=
      exists_partner (List.Forall₂.flip (forall₂_recordsOfLines made)) member
    obtain rfl : head = first := Option.some.inj (atStart.symm.trans atHead)
    rw [BlameLine.record, read]
    exact ⟨_, rfl⟩
  · intro timed
    cases lines with
    | nil => exact ⟨_, rfl⟩
    | cons line rest =>
      obtain ⟨run, member, atHead⟩ := exists_head_blameRuns line rest
      obtain ⟨record, started⟩ := timed run member line atHead
      rw [recordsOfLines, started]
      exact exists_recordsAfter (BlameLine.record_eq_ok started) (List.isChain_singleton _) timed

theorem flatMap_signedLines {runs : List (List BlameLine)} (stand : List.Forall₂ (Record.StandsFor zone) records runs)
    (chains : ∀ run ∈ runs, run.IsChain fun line next => line.precedes next = true) :
    (∀ record ∈ records, record.start < record.stop) ∧
      records.flatMap Record.signedLines = runs.flatten.map BlameLine.signed := by
  induction stand with
  | nil => exact ⟨by simp, rfl⟩
  | @cons record run records runs stands _ ih =>
    obtain ⟨here, later⟩ := List.forall_mem_cons.mp chains
    obtain ⟨lines, signed⟩ := stands.signedLines_eq here
    obtain ⟨others, signedOthers⟩ := ih later
    refine ⟨List.forall_mem_cons.mpr ⟨lines, others⟩, ?_⟩
    rw [List.flatMap_cons, signed, signedOthers, List.flatten_cons, List.map_append]

/-- The records of some lines have these lines, each under its identifier. -/
theorem signedLines_recordsOfLines (made : recordsOfLines zone lines = .ok records) :
    (∀ record ∈ records, record.start < record.stop) ∧
      records.flatMap Record.signedLines = lines.map BlameLine.signed := by
  have whole : (blameRuns lines).flatten = lines := List.flatten_splitBy ..
  have signed := flatMap_signedLines (forall₂_recordsOfLines made) fun run => List.isChain_of_mem_splitBy
  rwa [whole] at signed

/-- When no run goes on with the next one, no record does. -/
theorem isChain_records {runs : List (List BlameLine)} (stand : List.Forall₂ (Record.StandsFor zone) records runs)
    (chains : ∀ run ∈ runs, run.IsChain fun line next => line.precedes next = true)
    (cuts : runs.IsChain fun run next =>
      ∃ some others, BlameLine.precedes (run.getLast some) (next.head others) = false) :
    records.IsChain fun record next => ¬(record.identifier = next.identifier ∧ record.stop = next.start) := by
  induction stand with
  | nil => exact .nil
  | @cons record run records runs stands others ih =>
    obtain ⟨here, later⟩ := List.forall_mem_cons.mp chains
    rw [List.isChain_cons] at cuts ⊢
    refine ⟨fun next atHead => ?_, ih later cuts.2⟩
    cases others with
    | nil => cases atHead
    | @cons head nextRun _ _ standsNext =>
      obtain rfl : head = next := Option.some.inj atHead
      obtain ⟨some, nonempty, cut⟩ := cuts.1 nextRun rfl
      obtain ⟨stop, identifier⟩ := stands.ends here (List.getLast_mem_getLast? some)
      obtain ⟨start, nextIdentifier⟩ := standsNext.starts (List.head_mem_head? nonempty)
      rw [stop, start, identifier, nextIdentifier, ← BlameLine.precedes_iff, cut]
      exact Bool.false_ne_true

/-- The records of a listing have the lines of its complete entries in their order, each under the identifier of the
entry's change. Every record has lines, and none goes on where the one in front of it ends under the same
identifier. -/
theorem recordsOfListing_lines {listing : List Char} (made : recordsOfListing listing zone = .ok records) :
    (entryHeads (splitLines listing)).map EntryHead.signed? = (records.flatMap Record.signedLines).map some ∧
      (∀ record ∈ records, record.start < record.stop) ∧
      records.IsChain fun record next => ¬(record.identifier = next.identifier ∧ record.stop = next.start) := by
  obtain ⟨lines, read, made⟩ := of_bind_eq_ok made
  obtain ⟨nonempty, signed⟩ := signedLines_recordsOfLines made
  refine ⟨?_, nonempty, isChain_records (forall₂_recordsOfLines made) (fun run => List.isChain_of_mem_splitBy)
    (List.isChain_getLast_head_splitBy _ lines)⟩
  rw [signed_blameLinesFrom read, signed]

/-- A listing with a stray line, a header inside an entry, a line that comes again, and an entry without an end. -/
def garbledListing : List Char :=
  let first := String.ofList (List.replicate 40 'a')
  let second := String.ofList (List.replicate 40 'b')
  endedLines <| List.map String.toList
    ["warning: stray", first ++ " 1 1 2", "author ann", "\tx", first ++ " 2 2", second ++ " 9 9", "\ty",
      second ++ " 1 3", "\tz", second ++ " 4 3 1", "author-time 60", "\tz", first ++ " 1 1", "author ann"]

theorem recordsOfListing_lines_garbled :
    ∃ records, recordsOfListing garbledListing = .ok records ∧
      records.flatMap Record.signedLines = [(0, "aaaaaaaa"), (1, "aaaaaaaa"), (2, "bbbbbbbb"), (2, "bbbbbbbb")] ∧
      ∀ record ∈ records, record.start < record.stop := by
  have read : (recordsOfListing garbledListing).toOption.any (fun _ => true) = true := by decide +kernel
  obtain ⟨records, made, _⟩ := exists_ok_of_any read
  obtain ⟨lines, nonempty, _⟩ := recordsOfListing_lines made
  have shown : (entryHeads (splitLines garbledListing)).map EntryHead.signed? =
      [(0, "aaaaaaaa"), (1, "aaaaaaaa"), (2, "bbbbbbbb"), (2, "bbbbbbbb")].map some := by
    decide +kernel
  rw [shown] at lines
  exact ⟨records, made, ((List.map_inj_right fun _ _ => Option.some.inj).mp lines).symm, nonempty⟩

end Marginalia
