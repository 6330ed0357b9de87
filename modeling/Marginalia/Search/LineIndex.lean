import Marginalia.Text.Line

namespace Marginalia

/-- The offsets of the newlines of a content, in their order. -/
structure LineIndex where
  newlines : Array Nat

/-- The offsets of the newlines of a content that starts at `offset`. -/
def newlinesFrom (offset : Nat) : Content → List Nat
  | [] => []
  | char :: rest =>
    if char = '\n' then offset :: newlinesFrom (offset + 1) rest
    else newlinesFrom (offset + 1) rest

def LineIndex.ofContent (content : Content) : LineIndex :=
  ⟨(newlinesFrom 0 content).toArray⟩

/-- The place, between two others, up to which increasing numbers are less than a bound. The number in the middle tells
on which side of it the place lies. -/
def bisect (numbers : Array Nat) (bound low high : Nat) : Nat :=
  if low < high then
    let middle := (low + high) / 2
    if numbers.getD middle 0 < bound then bisect numbers bound (middle + 1) high
    else bisect numbers bound low middle
  else low
termination_by high - low
decreasing_by all_goals omega

/-- The line of an offset: as many newlines stand in front of it. -/
def LineIndex.lineOf (index : LineIndex) (offset : Nat) : Nat :=
  bisect index.newlines offset 0 index.newlines.size

/-- The offset at which a line starts: just after the newline in front of it. -/
def LineIndex.lineStart (index : LineIndex) : Nat → Nat
  | 0 => 0
  | line + 1 => index.newlines.getD line 0 + 1

end Marginalia
