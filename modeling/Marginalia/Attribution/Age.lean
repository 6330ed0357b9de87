import Marginalia.Calendar.Moment
import Marginalia.Number.Binary64

namespace Marginalia

/-- How long ago a change was made, oldest first. -/
inductive Age
  | ancient
  | old
  | medium
  | recent
  | fresh
  | new
deriving DecidableEq, Repr

def Age.label : Age → String
  | .ancient => "ancient"
  | .old => "old"
  | .medium => "medium"
  | .recent => "recent"
  | .fresh => "fresh"
  | .new => "new"

/-- The style of lines of an age. -/
def Age.style (age : Age) : String :=
  "blame." ++ age.label

/-- The days from which on a change counts as that old, oldest first. -/
def Age.thresholds : List (Int × Age) :=
  [(540, .ancient), (365, .old), (180, .medium), (30, .recent), (7, .fresh)]

/-- The time between two moments in seconds, to fifty-three bits. -/
def elapsedSeconds (time now : Moment) : Dyadic :=
  Dyadic.divided ⟨now.micros - time.micros, 0⟩ 1000000

def elapsedDays (time now : Moment) : Dyadic :=
  (elapsedSeconds time now).divided 86400

/-- The age of a change at a moment. A time exactly on a threshold belongs to the older age. -/
def Age.of (time now : Moment) : Age :=
  let days := elapsedDays time now
  ((Age.thresholds.find? fun threshold => days.atLeast threshold.1).map (·.2)).getD .new

end Marginalia
