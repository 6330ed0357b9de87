import Marginalia.Proofs.RecordedLines
import Marginalia.Session.Event
import Mathlib.Data.List.TakeWhile

namespace Marginalia

/-- The same change at another time. -/
def Record.redated (times : Record → Moment) (record : Record) : Record :=
  { record with time := times record }

def RecordedLine.redated (times : Record → Moment) (recorded : RecordedLine) : RecordedLine :=
  { recorded with record := recorded.record.redated times }

def Attribution.redated (times : Record → Moment) (attribution : Attribution) : Attribution where
  records := attribution.records.map (Record.redated times)
  dropped := attribution.dropped.map (Record.redated times)

/-- A session whose records have other times. -/
def Session.redated (times : Record → Moment) (session : Session) : Session :=
  { session with blame := { session.blame with attribution := session.blame.attribution.redated times } }

theorem Attribution.clash?_redated (times : Record → Moment) (attribution : Attribution) (record : Record) :
    (attribution.redated times).clash? (record.redated times) =
      (attribution.clash? record).map (Record.redated times) := by
  unfold clash? redated
  dsimp only
  rw [List.takeWhile_map, List.dropWhile_map, List.getLast?_map, List.head?_map, Option.toList_map, Option.toList_map,
    ← List.map_append, List.find?_map]
  rfl

theorem Attribution.place_redated (times : Record → Moment) (attribution : Attribution) (record : Record) :
    (attribution.redated times).place (record.redated times) = (attribution.place record).redated times := by
  unfold place redated
  dsimp only
  rw [List.takeWhile_map, List.dropWhile_map, List.map_append, List.map_cons]
  rfl

theorem Attribution.drop_redated (times : Record → Moment) (attribution : Attribution) (record : Record) :
    (attribution.redated times).drop (record.redated times) = (attribution.drop record).redated times := by
  rw [drop, drop, redated, redated, List.map_append]
  rfl

/-- Whether a record is accepted does not depend on times. -/
theorem Attribution.add_redated (strict : Bool) (times : Record → Moment) (attribution : Attribution)
    (record : Record) : Attribution.add strict (attribution.redated times) (record.redated times) =
      (Attribution.add strict attribution record).map (Attribution.redated times) := by
  unfold add
  rw [clash?_redated, place_redated, drop_redated]
  change (if record.isEmpty = true then requireWritable record.bounds >>= _ else _) = _
  split
  · cases requireWritable record.bounds <;> rfl
  · cases attribution.clash? record with
    | none => rfl
    | some clash =>
      change requireWritable (record.bounds ++ clash.bounds) >>= _ =
        (requireWritable (record.bounds ++ clash.bounds) >>= _).map _
      cases requireWritable (record.bounds ++ clash.bounds) with
      | error fault => rfl
      | ok => cases strict <;> rfl

theorem Attribution.ofRecords_redated (times : Record → Moment) (records : List Record) (strict : Bool) :
    Attribution.ofRecords (records.map (Record.redated times)) strict =
      (Attribution.ofRecords records strict).map (Attribution.redated times) := by
  unfold ofRecords
  rw [List.foldlM_map]
  -- from any attribution, as each record meets the one that the records in front of it left
  have folds (attribution : Attribution) :
      records.foldlM (fun known record => Attribution.add strict known (record.redated times))
        (attribution.redated times) =
      (records.foldlM (Attribution.add strict) attribution).map (Attribution.redated times) := by
    induction records generalizing attribution with
    | nil => rfl
    | cons record rest ih =>
      rw [List.foldlM_cons, List.foldlM_cons, add_redated]
      cases Attribution.add strict attribution record with
      | error fault => rfl
      | ok next => exact ih next
  exact folds {}

/-- Records of other times are installed as the records are, with their times. -/
theorem Session.setAttribution_redated {session : Session} {records : List Record} {reply : Reply}
    (answered : (session.setAttribution records).2 = .ok reply) (times : Record → Moment) :
    (session.setAttribution (records.map (Record.redated times))).1 =
      (session.setAttribution records).1.redated times := by
  unfold setAttribution at answered ⊢
  rw [Attribution.ofRecords_redated]
  cases built : Attribution.ofRecords records session.strict with
  | error fault =>
    rw [built] at answered
    cases answered
  | ok attribution =>
    have authors : (attribution.redated times).records.map (·.author) = attribution.records.map (·.author) := by
      rw [Attribution.redated, List.map_map]
      rfl
    rw [built] at answered
    simp only [Except.map] at answered ⊢
    rw [authors]
    cases given : AuthorStyles.ofAuthors (attribution.records.map (·.author)) session.tints with
    | error fault =>
      rw [given] at answered
      cases answered
    | ok authors =>
      rw [given] at answered
      dsimp only at answered ⊢
      split
      · rename_i registered
        rw [registered] at answered
        cases answered
      · rfl

theorem Attribution.lookup?_redated (times : Record → Moment) (attribution : Attribution) (line : Int) :
    (attribution.redated times).lookup? line = (attribution.lookup? line).map (Record.redated times) := by
  unfold lookup? redated
  dsimp only
  rw [List.takeWhile_map, List.getLast?_map, Option.filter_map]
  rfl

theorem Attribution.recordedLines_redated (times : Record → Moment) (attribution : Attribution) (content : Content) :
    (attribution.redated times).recordedLines content =
      (attribution.recordedLines content).map (RecordedLine.redated times) := by
  unfold recordedLines
  rw [List.map_filterMap]
  refine List.filterMap_congr fun ⟨⟨start, stop⟩, line⟩ _ => ?_
  dsimp only
  rw [lookup?_redated]
  split
  · rw [Option.map_map, Option.map_map]
    rfl
  · rfl

end Marginalia
