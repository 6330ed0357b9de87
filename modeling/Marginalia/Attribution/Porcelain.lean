import Marginalia.Attribution.Record
import Marginalia.Calendar.Reading
import Marginalia.Text.Blank
import Marginalia.Text.Field
import Marginalia.Text.LineEnd

namespace Marginalia

/-- One line of a file in a blame listing, and the change that it comes from. -/
structure BlameLine where
  commit : List Char
  line : Int
  author : String := ""
  seconds : Int := 0
  summary : String := ""
deriving DecidableEq, Repr

/-- Whether a text names a change in full. -/
def isCommitName (text : List Char) : Bool :=
  text.length == 40 && text.all fun char => ('0' ≤ char && char ≤ '9') || ('a' ≤ char && char ≤ 'f')

/-- Whether a text is a run of decimal digits. -/
def isNumeral (text : List Char) : Bool :=
  !text.isEmpty && text.all isDigit

/-- The change and the final line number of a header: a change, the line in it, the final line, and perhaps
the length of the group. -/
def blameHeader? (text : List Char) : Option (List Char × List Char) :=
  match fields ' ' text with
  | [commit, inCommit, final] =>
    if isCommitName commit && isNumeral inCommit && isNumeral final then some (commit, final) else none
  | [commit, inCommit, final, group] =>
    if isCommitName commit && isNumeral inCommit && isNumeral final && isNumeral group then some (commit, final)
    else none
  | _ => none

/-- The first characters of a change's name. -/
def BlameLine.identifier (line : BlameLine) : String :=
  String.ofList (line.commit.take 8)

/-- Opens an entry at a header; anything else is passed over. Lines are counted from one in a listing. -/
def openEntry (text : List Char) : Except TimeFault (Option BlameLine) :=
  match blameHeader? text with
  | none => .ok none
  | some (commit, final) =>
    match readInteger? final with
    | some number => .ok (some { commit := commit, line := number - 1 })
    | none => .error .malformed

/-- What a line inside an entry adds to it. -/
def BlameLine.extend (entry : BlameLine) (text : List Char) : Except TimeFault BlameLine :=
  match after? "author ".toList text with
  | some author => .ok { entry with author := String.ofList author }
  | none =>
    match after? "author-time ".toList text with
    | some time =>
      match readInteger? time with
      | some seconds => .ok { entry with seconds := seconds }
      | none => .error .malformed
    | none =>
      match after? "summary ".toList text with
      | some summary => .ok { entry with summary := String.ofList summary }
      | none => .ok entry

/-- The entries that the lines of a listing complete; `entry` is the one that is open. The source text, which
starts with a tab, ends an entry, and an entry that never ends is left out. -/
def blameLinesFrom (entry : Option BlameLine) : List (List Char) → Except TimeFault (List BlameLine)
  | [] => .ok []
  | text :: rest =>
    match entry with
    | none => do blameLinesFrom (← openEntry text) rest
    | some entry =>
      if text.head? = some '\t' then do
        let later ← blameLinesFrom none rest
        return entry :: later
      else do blameLinesFrom (some (← entry.extend text)) rest

def blameLines (listing : List Char) : Except TimeFault (List BlameLine) :=
  blameLinesFrom none (splitLines listing)

/-- Whether a line goes on where a record of the same change ends. -/
def BlameLine.continues (line : BlameLine) (record : Record) : Bool :=
  record.identifier == line.identifier && record.stop == line.line

def BlameLine.record (line : BlameLine) (zone : Zone) : Except TimeFault Record := do
  let time ← Moment.ofEpoch line.seconds 0 zone
  return ⟨line.line, line.line + 1, line.author, time, line.identifier, line.summary⟩

/-- The records of `current` and of the lines after it. A line that continues a record only makes it longer. -/
def recordsAfter (zone : Zone) (current : Record) : List BlameLine → Except TimeFault (List Record)
  | [] => .ok [current]
  | line :: rest =>
    if line.continues current then recordsAfter zone { current with stop := line.line + 1 } rest
    else do
      let next ← line.record zone
      let later ← recordsAfter zone next rest
      return current :: later

def recordsOfLines (zone : Zone) : List BlameLine → Except TimeFault (List Record)
  | [] => .ok []
  | line :: rest => do recordsAfter zone (← line.record zone) rest

def recordsOfListing (listing : List Char) (zone : Zone := .universal) : Except TimeFault (List Record) := do
  recordsOfLines zone (← blameLines listing)

end Marginalia
