import Marginalia.Attribution.Import
import Marginalia.Attribution.Porcelain
import Marginalia.Json.Reader
import Marginalia.SourceFile.Files

namespace Marginalia

/-- What breaks a load off. -/
inductive LoadBreak
  | record (fault : RecordFault)
  /-- The file holds values inside each other beyond the limit. -/
  | tooDeep
deriving DecidableEq, Repr

def LoadBreak.kind : LoadBreak → String
  | .record fault => fault.kind
  | .tooDeep => "RecursionError"

/-- Why no records are loaded. -/
inductive LoadFault
  | unreadable (path : Path)
  | invalidJson (path : Path)
  | notAList (path : Path)
  /-- The history tool could not be run, or gave up. -/
  | noHistory (reason : String)
  | brokenOff (cause : LoadBreak)
deriving DecidableEq, Repr

/-- The wording of a fault; a load that was broken off has none. -/
def LoadFault.message? : LoadFault → Option String
  | .unreadable path => some ("Could not read " ++ path.text)
  | .invalidJson path => some ("Invalid JSON in " ++ path.text)
  | .notAList path => some ("Expected a list of records in " ++ path.text)
  | .noHistory reason => some reason
  | .brokenOff _ => none

/-- Whether a value that gives no record is skipped. Numbers and times beyond all bounds are not. -/
def RecordFault.isSkipped : RecordFault → Bool
  | .infiniteLine => false
  | .badTime .overflow => false
  | .badTime .beyondCalendar => false
  | _ => true

def recordsOfItems (zone : Zone) : List Json → Except LoadFault (List Record)
  | [] => .ok []
  | item :: rest =>
    match Record.ofJson item zone with
    | .ok record => (recordsOfItems zone rest).map (record :: ·)
    | .error fault => if fault.isSkipped then recordsOfItems zone rest else .error (.brokenOff (.record fault))

/-- Loads records from a JSON file that holds a list of them. -/
def Files.loadRecords (files : Files) (path : Path) (zone : Zone := .universal) : Except LoadFault (List Record) :=
  match files.read path with
  | .error .severed => .error (.invalidJson path)
  | .error _ => .error (.unreadable path)
  | .ok bytes =>
    match Json.ofBytes bytes with
    | .error .malformed => .error (.invalidJson path)
    | .error .tooDeep => .error (.brokenOff .tooDeep)
    | .ok (.array items) => recordsOfItems zone items
    | .ok _ => .error (.notAList path)

/-- How a run of the history tool ended. -/
inductive ToolRun
  /-- The tool could not be run, or did not end in its time. -/
  | failed (reason : String)
  | exited (code : Int) (output errors : String)
deriving DecidableEq, Repr

def blameCommand (executable : String) (path : Path) : List String :=
  [executable, "-C", path.parent.text, "blame", "--line-porcelain", "--", path.name]

def recordsOfRun (run : ToolRun) (zone : Zone := .universal) : Except LoadFault (List Record) :=
  match run with
  | .failed reason => .error (.noHistory reason)
  | .exited code output errors =>
    if code = 0 then (recordsOfListing output.toList zone).mapError fun fault => .brokenOff (.record (.badTime fault))
    else
      let reason := trimBlank errors.toList
      .error (.noHistory
        (if reason.isEmpty then "git blame exited with " ++ toString code else String.ofList reason))

end Marginalia
