import Marginalia.Attribution.Load
import Marginalia.Proofs.LocalTimes

namespace Marginalia

/-- A line number without bound. -/
def Json.IsInfinite : Json → Prop
  | .number value => ∃ negative, Binary64.ofFloat value = .infinite negative
  | _ => False

/-- A time out of all bounds: seconds that no calendar counts, or a date that local time moves out of the years. -/
def Json.IsBeyondTime (zone : Zone) : Json → Prop
  | .integer seconds => zone.IsBeyond seconds
  | .number seconds => ∃ fault ∈ [TimeFault.overflow, .beyondCalendar], Moment.ofEpochFloat seconds zone = .error fault
  | .text date => ∃ chars, dateChars? date = some chars ∧ Moment.ofIso chars zone = .error .overflow
  | _ => False

/-- Values with a line number or a time out of all bounds, where what a record needs in front of it can be read. -/
inductive Json.IsBoundless (zone : Zone) : Json → Prop
  | start {members start} (given : lookupKey? ("line_start" : JsonText) members = some start)
      (infinite : start.IsInfinite) : IsBoundless zone (.object members)
  | stop {members start first stop} (given : lookupKey? ("line_start" : JsonText) members = some start)
      (read : lineNumber start = .ok first) (ended : lookupKey? ("line_end" : JsonText) members = some stop)
      (infinite : stop.IsInfinite) : IsBoundless zone (.object members)
  | time {members start first stop last time} (given : lookupKey? ("line_start" : JsonText) members = some start)
      (read : lineNumber start = .ok first) (ended : lookupKey? ("line_end" : JsonText) members = some stop)
      (readEnd : lineNumber stop = .ok last) (timed : lookupKey? ("timestamp" : JsonText) members = some time)
      (beyond : time.IsBeyondTime zone) : IsBoundless zone (.object members)

/-- What a load does not skip. -/
def BreaksOff {α : Type} (result : Except RecordFault α) : Prop :=
  ∃ fault, result = .error fault ∧ fault.isSkipped = false

variable {α β : Type} {item value : Json} {items rest front back : List Json} {seconds : Int} {text : List Char}
  {files : Files} {path : Path} {bytes : Bytes} {zone : Zone}

theorem RecordFault.isSkipped_eq_false_iff {fault : RecordFault} :
    fault.isSkipped = false ↔ fault.kind ∈ ["OverflowError", "OSError"] := by
  rcases fault with _ | _ | _ | _ | (_ | _ | _ | _) <;> simp [isSkipped, kind, TimeFault.kind]

theorem not_breaksOff_ok (value : α) : ¬BreaksOff (.ok value) := by
  rintro ⟨_, never, _⟩
  cases never

theorem breaksOff_error_iff {fault : RecordFault} :
    BreaksOff (.error fault : Except RecordFault α) ↔ fault.isSkipped = false := by
  constructor
  · rintro ⟨_, same, unskipped⟩
    cases same
    exact unskipped
  · exact fun unskipped => ⟨fault, rfl, unskipped⟩

/-- Two steps break off where the first one does, or where the second one does behind it. -/
theorem breaksOff_bind_iff {first : Except RecordFault α} {next : α → Except RecordFault β} :
    BreaksOff (first >>= next) ↔ BreaksOff first ∨ ∃ middle, first = .ok middle ∧ BreaksOff (next middle) := by
  cases first with
  | error fault =>
    have stops : (Except.error fault >>= next) = .error fault := rfl
    simp [stops, breaksOff_error_iff]
  | ok middle =>
    have goesOn : (Except.ok middle >>= next) = next middle := rfl
    simp [goesOn, not_breaksOff_ok]

theorem requiredKey_eq_ok_iff {key : String} {members : List (JsonText × Json)} :
    requiredKey key members = .ok value ↔ lookupKey? (key : JsonText) members = some value := by
  unfold requiredKey
  cases lookupKey? (key : JsonText) members <;> simp

theorem not_breaksOff_requiredKey (key : String) (members : List (JsonText × Json)) :
    ¬BreaksOff (requiredKey key members) := by
  unfold requiredKey
  cases lookupKey? (key : JsonText) members with
  | none => simp [breaksOff_error_iff, RecordFault.isSkipped]
  | some value => exact not_breaksOff_ok value

theorem breaksOff_lineNumber_iff : BreaksOff (lineNumber value) ↔ value.IsInfinite := by
  cases value with
  | number value =>
    rw [lineNumber, Json.IsInfinite]
    cases Binary64.ofFloat value with
    | finite => simp [not_breaksOff_ok]
    | infinite negative => simp [breaksOff_error_iff, RecordFault.isSkipped]
    | notANumber => simp [breaksOff_error_iff, RecordFault.isSkipped]
  | text value =>
    simp only [lineNumber, Json.IsInfinite]
    cases value.chars?.bind readInteger? with
    | none => simp [breaksOff_error_iff, RecordFault.isSkipped]
    | some number => simp [not_breaksOff_ok]
  | _ => simp [lineNumber, Json.IsInfinite, not_breaksOff_ok, breaksOff_error_iff, RecordFault.isSkipped]

theorem breaksOff_badTime_iff {read : Except TimeFault α} :
    BreaksOff (read.mapError .badTime) ↔ ∃ fault ∈ [TimeFault.overflow, .beyondCalendar], read = .error fault := by
  cases read with
  | ok moment => simp [Except.mapError, not_breaksOff_ok]
  | error fault => cases fault <;> simp [Except.mapError, breaksOff_error_iff, RecordFault.isSkipped]

theorem writtenMoment_ne_beyondCalendar (date : Day) (time : TimeOfDay) (ahead : Option Int) :
    writtenMoment date time ahead zone ≠ .error .beyondCalendar := by
  unfold writtenMoment
  dsimp only
  split_ifs
  · simp
  · cases ahead with
    | none => simp
    | some ahead =>
      dsimp only
      split_ifs <;> simp

theorem Moment.ofIso_ne_beyondCalendar (text : List Char) : Moment.ofIso text zone ≠ .error .beyondCalendar := by
  unfold ofIso
  dsimp only
  split_ifs with short bare
  · simp
  · cases readDate? (dateLength text) text with
    | none => simp
    | some date => exact writtenMoment_ne_beyondCalendar _ _ _
  · cases readDate? (dateLength text) text with
    | none => simp
    | some date =>
      cases readZonedTime? (text.drop (dateLength text + 1)) with
      | none => simp
      | some zoned => exact writtenMoment_ne_beyondCalendar _ _ _

theorem breaksOff_recordTime_iff : BreaksOff (recordTime value zone) ↔ value.IsBeyondTime zone := by
  unfold recordTime
  dsimp only
  rw [breaksOff_badTime_iff]
  cases value with
  | bool value =>
    rw [Moment.ofEpoch_out_of_bounds_iff]
    refine iff_of_false ?_ id
    have near := zone.near (if value = true then 1 else 0)
    have few : (0 : Int) ≤ (if value = true then 1 else 0) ∧ (if value = true then 1 else 0) ≤ (1 : Int) := by
      cases value <;> decide
    simp only [Zone.IsBeyond, calendarSeconds, secondsPerDay] at near ⊢
    omega
  | integer seconds => exact Moment.ofEpoch_out_of_bounds_iff
  | number seconds => rfl
  | text date =>
    cases read : dateChars? date with
    | none => simp [Json.IsBeyondTime, read]
    | some chars => simp [Json.IsBeyondTime, read, Moment.ofIso_ne_beyondCalendar]
  | null => simp [Json.IsBeyondTime]
  | array => simp [Json.IsBeyondTime]
  | object => simp [Json.IsBeyondTime]

/-- A value breaks a load off exactly if a number or a time of it is out of all bounds. -/
theorem breaksOff_ofJson_iff : BreaksOff (Record.ofJson item zone) ↔ item.IsBoundless zone := by
  cases item with
  | object members =>
    simp only [Record.ofJson, breaksOff_bind_iff, breaksOff_lineNumber_iff, breaksOff_recordTime_iff,
      not_breaksOff_requiredKey, requiredKey_eq_ok_iff, false_or]
    constructor
    · rintro ⟨start, given,
        infinite | ⟨first, read, stop, ended, infinite | ⟨last, readEnd, time, timed, beyond | rest⟩⟩⟩
      · exact .start given infinite
      · exact .stop given read ended infinite
      · exact .time given read ended readEnd timed beyond
      · obtain ⟨_, _, never⟩ := rest
        exact absurd never (not_breaksOff_ok _)
    · intro boundless
      cases boundless with
      | start given infinite => exact ⟨_, given, Or.inl infinite⟩
      | stop given read ended infinite => exact ⟨_, given, Or.inr ⟨_, read, _, ended, Or.inl infinite⟩⟩
      | time given read ended readEnd timed beyond =>
        exact ⟨_, given, Or.inr ⟨_, read, _, ended, Or.inr ⟨_, readEnd, _, timed, Or.inl beyond⟩⟩⟩
  | _ =>
    simp only [Record.ofJson, breaksOff_error_iff, RecordFault.isSkipped]
    constructor
    · rintro ⟨⟩
    · rintro ⟨⟩

instance (result : Except RecordFault α) : Decidable (BreaksOff result) :=
  match result with
  | .ok value => isFalse (not_breaksOff_ok value)
  | .error _ => decidable_of_iff _ breaksOff_error_iff.symm

instance (zone : Zone) : DecidablePred (Json.IsBoundless zone) :=
  fun _ => decidable_of_iff _ breaksOff_ofJson_iff

/-- A value within all bounds gives its record or nothing, and the load goes on. -/
theorem recordsOfItems_cons_of_bounded (bounded : ¬item.IsBoundless zone) :
    recordsOfItems zone (item :: rest) = (recordsOfItems zone rest).map ((Record.ofJson item zone).toOption.toList ++ ·) := by
  rw [← breaksOff_ofJson_iff] at bounded
  rw [recordsOfItems]
  cases read : Record.ofJson item zone with
  | ok record => rfl
  | error fault =>
    rw [read, breaksOff_error_iff, Bool.not_eq_false] at bounded
    dsimp only
    rw [if_pos bounded]
    cases recordsOfItems zone rest <;> rfl

theorem recordsOfItems_of_bounded (bounded : ∀ item ∈ items, ¬item.IsBoundless zone) :
    recordsOfItems zone items = .ok (items.filterMap fun item => (Record.ofJson item zone).toOption) := by
  induction items with
  | nil => rfl
  | cons item rest ih =>
    obtain ⟨here, later⟩ := List.forall_mem_cons.mp bounded
    rw [recordsOfItems_cons_of_bounded here, ih later, List.filterMap_cons]
    cases (Record.ofJson item zone).toOption <;> rfl

/-- A value out of all bounds breaks a load off, whatever stands behind it. -/
theorem recordsOfItems_of_boundless (bounded : ∀ earlier ∈ front, ¬earlier.IsBoundless zone)
    (boundless : item.IsBoundless zone) :
    ∃ fault, Record.ofJson item zone = .error fault ∧ fault.isSkipped = false ∧
      recordsOfItems zone (front ++ item :: back) = .error (.brokenOff (.record fault)) := by
  obtain ⟨fault, failed, unskipped⟩ := breaksOff_ofJson_iff.mpr boundless
  refine ⟨fault, failed, unskipped, ?_⟩
  induction front with
  | nil =>
    rw [List.nil_append, recordsOfItems, failed]
    simp [unskipped]
  | cons earlier front ih =>
    obtain ⟨here, later⟩ := List.forall_mem_cons.mp bounded
    rw [List.cons_append, recordsOfItems_cons_of_bounded here, ih later]
    rfl

theorem Files.loadRecords_eq (found : files.read path = .ok bytes) (parsed : Json.ofBytes bytes = .ok (.array items)) :
    files.loadRecords path zone = recordsOfItems zone items := by
  rw [loadRecords, found]
  simp only [parsed]

/-- From a file with a list all records are loaded, in their order and without the values that give none, exactly if
no value has a number or a time out of all bounds. The first such value breaks the load off. -/
theorem Files.loadRecords_list (found : files.read path = .ok bytes)
    (parsed : Json.ofBytes bytes = .ok (.array items)) :
    (files.loadRecords path zone = .ok (items.filterMap fun item => (Record.ofJson item zone).toOption) ↔
      ∀ item ∈ items, ¬item.IsBoundless zone) ∧
    ∀ front item back, items = front ++ item :: back → (∀ earlier ∈ front, ¬earlier.IsBoundless zone) →
      item.IsBoundless zone →
      ∃ fault, Record.ofJson item zone = .error fault ∧ fault.kind ∈ ["OverflowError", "OSError"] ∧
        files.loadRecords path zone = .error (.brokenOff (.record fault)) := by
  have loaded : files.loadRecords path zone = recordsOfItems zone items := Files.loadRecords_eq found parsed
  have breaks {front item back} (split : items = front ++ item :: back)
      (bounded : ∀ earlier ∈ front, ¬earlier.IsBoundless zone) (boundless : item.IsBoundless zone) :
      ∃ fault, Record.ofJson item zone = .error fault ∧ fault.isSkipped = false ∧
        files.loadRecords path zone = .error (.brokenOff (.record fault)) := by
    rw [loaded, split]
    exact recordsOfItems_of_boundless bounded boundless
  refine ⟨⟨fun given other member crossing => ?_, fun bounded => loaded.trans (recordsOfItems_of_bounded bounded)⟩, ?_⟩
  · have known : (items.find? fun item => decide (item.IsBoundless zone)).isSome :=
      List.find?_isSome.mpr ⟨other, member, decide_eq_true crossing⟩
    obtain ⟨item, first⟩ := Option.isSome_iff_exists.mp known
    obtain ⟨boundless, front, back, split, bounded⟩ := List.find?_eq_some_iff_append.mp first
    obtain ⟨fault, _, _, failed⟩ := breaks split (by simpa using bounded) (of_decide_eq_true boundless)
    cases given.symm.trans failed
  · intro front item back split bounded boundless
    obtain ⟨fault, failed, unskipped, broken⟩ := breaks split bounded boundless
    exact ⟨fault, failed, RecordFault.isSkipped_eq_false_iff.mp unskipped, broken⟩

/-- Two records, and values between them that give none: a line is no number, a key is missing, and a date is none. -/
def mixedRecords : Bytes :=
  encodeUtf8 <|
    "[\x7b\"line_start\": 0, \"line_end\": \"2\", \"author\": \"ann\", \"timestamp\": 0\x7d, " ++
    "\x7b\"line_start\": NaN\x7d, \x7b\"line_start\": 2\x7d, " ++
    "\x7b\"line_start\": 2, \"line_end\": 3, \"timestamp\": \"soon\"\x7d, " ++
    "\x7b\"line_start\": 2, \"line_end\": 3, \"timestamp\": 60\x7d]"

/-- A record, and a value that has no last line. -/
def endlessRecords : Bytes :=
  encodeUtf8 <|
    "[\x7b\"line_start\": 0, \"line_end\": 2, \"author\": \"ann\", \"timestamp\": 0\x7d, " ++
    "\x7b\"line_start\": 2, \"line_end\": Infinity, \"author\": \"bob\", \"timestamp\": 0\x7d]"

def Files.single (name : String) (bytes : Bytes) : Files :=
  ⟨[(⟨false, 0, [name]⟩, .file bytes)]⟩

/-- A short name in the current folder is found there, whatever files there are. -/
theorem Files.place_here (files : Files) {name : String} (whole : '\x00' ∉ name.toList)
    (short : name.utf8ByteSize ≤ stepLimit) (downward : name ≠ "..") :
    files.place ⟨.here, [name]⟩ = .ok ⟨false, 0, [name]⟩ := by
  have joined : "" ++ String.intercalate "/" [name] = name := String.empty_append
  have text : (Path.mk .here [name]).text.utf8ByteSize ≤ pathLimit := by
    rw [Path.text, PathRoot.text, joined]
    split_ifs
    · decide
    · exact Nat.le_trans short (by decide)
  have checked : (Path.mk .here [name]).check = .ok () := by
    simp [Path.check, whole, Nat.not_lt.mpr text]
  rw [Files.place, checked]
  simp [PathRoot.place, Files.walk, Files.at?, Nat.not_lt.mpr short, Place.step, downward]
  rfl

theorem Files.read_single {name : String} (whole : '\x00' ∉ name.toList) (short : name.utf8ByteSize ≤ stepLimit)
    (downward : name ≠ "..") : (Files.single name bytes).read ⟨.here, [name]⟩ = .ok bytes := by
  have placed := (Files.single name bytes).place_here whole short downward
  have entry : (Files.single name bytes).at? ⟨false, 0, [name]⟩ = some (.file bytes) := by
    simp [Files.at?, Files.single]
  simp only [Files.read, Files.find, placed, bind, Except.bind, entry]

theorem exists_items_of_seen {read : Except JsonFault Json} {holds : List Json → Bool}
    (seen : (match read with | .ok (.array items) => holds items | _ => false) = true) :
    ∃ items, read = .ok (.array items) ∧ holds items = true := by
  split at seen
  · exact ⟨_, rfl, seen⟩
  · cases seen

/-- The values in the middle are skipped. -/
theorem Files.loadRecords_list_mixed :
    ∃ items, Json.ofBytes mixedRecords = .ok (.array items) ∧ items.length = 5 ∧
      (Files.single "blame.json" mixedRecords).loadRecords ⟨.here, ["blame.json"]⟩ .universal =
        .ok [⟨0, 2, "ann", ⟨0⟩, "", ""⟩, ⟨2, 3, "", ⟨60000000⟩, "", ""⟩] := by
  have found : (Files.single "blame.json" mixedRecords).read ⟨.here, ["blame.json"]⟩ = .ok mixedRecords :=
    Files.read_single (by decide) (by decide) (by decide)
  have seen : (match Json.ofBytes mixedRecords with
      | .ok (.array items) => decide (items.length = 5 ∧ (∀ item ∈ items, ¬item.IsBoundless .universal) ∧
          (items.filterMap fun item => (Record.ofJson item .universal).toOption) =
            [⟨0, 2, "ann", ⟨0⟩, "", ""⟩, ⟨2, 3, "", ⟨60000000⟩, "", ""⟩])
      | _ => false) = true := by
    decide +kernel
  obtain ⟨items, parsed, shown⟩ := exists_items_of_seen seen
  obtain ⟨length, bounded, records⟩ := of_decide_eq_true shown
  refine ⟨items, parsed, length, ?_⟩
  rw [← records]
  exact (Files.loadRecords_list found parsed).1.mpr bounded

/-- The value without a last line breaks the load off, and the record in front of it is lost. -/
theorem Files.loadRecords_list_endless :
    ∃ items, Json.ofBytes endlessRecords = .ok (.array items) ∧
      (items.filterMap fun item => (Record.ofJson item .universal).toOption) = [⟨0, 2, "ann", ⟨0⟩, "", ""⟩] ∧
      (Files.single "blame.json" endlessRecords).loadRecords ⟨.here, ["blame.json"]⟩ .universal =
        .error (.brokenOff (.record .infiniteLine)) := by
  have seen : (match Json.ofBytes endlessRecords with
      | .ok (.array items) =>
        decide ((items.filterMap fun item => (Record.ofJson item .universal).toOption) = [⟨0, 2, "ann", ⟨0⟩, "", ""⟩] ∧
          recordsOfItems .universal items = .error (.brokenOff (.record .infiniteLine)))
      | _ => false) = true := by
    decide +kernel
  obtain ⟨items, parsed, shown⟩ := exists_items_of_seen seen
  obtain ⟨records, broken⟩ := of_decide_eq_true shown
  have found : (Files.single "blame.json" endlessRecords).read ⟨.here, ["blame.json"]⟩ = .ok endlessRecords :=
    Files.read_single (by decide) (by decide) (by decide)
  exact ⟨items, parsed, records, (Files.loadRecords_eq found parsed).trans broken⟩

end Marginalia
