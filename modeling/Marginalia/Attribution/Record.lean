import Marginalia.Calendar.Moment

namespace Marginalia

/-- Who last changed the lines from `start` up to `stop`, when, and in which change. -/
structure Record where
  start : Int
  stop : Int
  author : String
  time : Moment
  identifier : String := ""
  message : String := ""
deriving DecidableEq, Repr, Inhabited

def Record.lineCount (record : Record) : Int :=
  record.stop - record.start

def Record.contains (record : Record) (line : Int) : Bool :=
  record.start ≤ line && line < record.stop

def Record.overlaps (left right : Record) : Bool :=
  left.start < right.stop && right.start < left.stop

def Record.isEmpty (record : Record) : Bool :=
  record.stop ≤ record.start

/-- The numbers that name the lines of a record in a text. -/
def Record.bounds (record : Record) : List Int :=
  [record.start, record.stop]

end Marginalia
