import Marginalia.Attribution.Age
import Marginalia.Attribution.Record
import Marginalia.Fault
import Marginalia.Text.Tally

namespace Marginalia

/-- Records in the order of their lines, of which no two share a line, and the records that were refused. -/
structure Attribution where
  records : List Record := []
  dropped : List Record := []
deriving DecidableEq, Repr, Inhabited

/-- The accepted record that a new one runs into: it can only be the last one in front of it or the one behind. -/
def Attribution.clash? (attribution : Attribution) (record : Record) : Option Record :=
  let lower := attribution.records.takeWhile fun other => other.start < record.start
  let upper := attribution.records.dropWhile fun other => other.start < record.start
  (lower.getLast?.toList ++ upper.head?.toList).find? fun other => other.overlaps record

def Attribution.place (attribution : Attribution) (record : Record) : Attribution :=
  let lower := attribution.records.takeWhile fun other => other.start < record.start
  let upper := attribution.records.dropWhile fun other => other.start < record.start
  { attribution with records := lower ++ record :: upper }

def Attribution.drop (attribution : Attribution) (record : Record) : Attribution :=
  { attribution with dropped := attribution.dropped ++ [record] }

/-- Adds a record. One without lines is dropped; one that shares a line with an accepted record is dropped
too, or is a fault when `strict`. Both are put into words before, with the bounds of the records in them. -/
def Attribution.add (strict : Bool) (attribution : Attribution) (record : Record) : Except Fault Attribution :=
  if record.isEmpty then do
    requireWritable record.bounds
    return attribution.drop record
  else
    match attribution.clash? record with
    | none => .ok (attribution.place record)
    | some clash => do
      requireWritable (record.bounds ++ clash.bounds)
      if strict then .error (.overlappingLines record.start record.stop clash.start clash.stop)
      else return attribution.drop record

def Attribution.ofRecords (records : List Record) (strict : Bool) : Except Fault Attribution :=
  records.foldlM (Attribution.add strict) {}

/-- The record of a line: it can only be the last one that starts at or before the line. -/
def Attribution.lookup? (attribution : Attribution) (line : Int) : Option Record :=
  (attribution.records.takeWhile fun record => record.start ≤ line).getLast?.filter (·.contains line)

/-- How many lines each author and each age has, in the order of first appearance. -/
structure AttributionStats where
  byAuthor : List (String × Int) := []
  byAge : List (Age × Int) := []
  total : Int := 0
deriving DecidableEq, Repr

def AttributionStats.add (now : Moment) (stats : AttributionStats) (record : Record) : AttributionStats :=
  { byAuthor := tally record.author record.lineCount stats.byAuthor
    byAge := tally (Age.of record.time now) record.lineCount stats.byAge
    total := stats.total + record.lineCount }

def Attribution.stats (attribution : Attribution) (now : Moment) : AttributionStats :=
  attribution.records.foldl (AttributionStats.add now) {}

/-- One line that tells who changed a line of a content, and when. -/
def Attribution.describe (attribution : Attribution) (line : Int) (now : Moment) : String :=
  let place := "Line " ++ toString (line + 1) ++ ": "
  match attribution.lookup? line with
  | none => place ++ "No blame data"
  | some record =>
    place ++ record.identifier ++ " | " ++ record.author ++ " | " ++ record.time.dayText ++
      " (" ++ (Age.of record.time now).label ++ ") | \"" ++ record.message ++ "\""

/-- The same for any number, which has to be one that is written. -/
def Attribution.describeAny (attribution : Attribution) (line : Int) (now : Moment) : Except Fault String :=
  if isWritable (line + 1) then .ok (attribution.describe line now) else .error (.longNumeral (line + 1))

end Marginalia
