namespace Marginalia

/-- The characters of a content. Offsets into it count characters. A half of a surrogate pair on its own is no character:
contents that hold one are not described. -/
abbrev Content := List Char

/-- The number of newlines among the characters before an offset: the line of that offset. -/
def lineAt (content : Content) (offset : Nat) : Nat :=
  (content.take offset).count '\n'

/-- Lines are separated by newlines, so there is one more of them. -/
def lineCount (content : Content) : Nat :=
  content.count '\n' + 1

/-- The extents of the lines of a content that starts at `start`, newlines left out. -/
def lineRangesFrom (start offset : Nat) : Content → List (Nat × Nat)
  | [] => [(start, offset)]
  | char :: rest =>
    if char = '\n' then (start, offset) :: lineRangesFrom (offset + 1) (offset + 1) rest
    else lineRangesFrom start (offset + 1) rest

def lineRanges (content : Content) : List (Nat × Nat) :=
  lineRangesFrom 0 0 content

/-- The offsets just after the newlines of a content that starts at `offset`. -/
def lineStartsFrom (offset : Nat) : Content → List Nat
  | [] => []
  | char :: rest =>
    if char = '\n' then (offset + 1) :: lineStartsFrom (offset + 1) rest
    else lineStartsFrom (offset + 1) rest

def lineStarts (content : Content) : List Nat :=
  0 :: lineStartsFrom 0 content

/-- The texts of the lines, newlines left out. -/
def lineTexts (content : Content) : List Content :=
  (lineRanges content).map fun (start, stop) => (content.drop start).take (stop - start)

theorem length_lineRangesFrom (start offset : Nat) (content : Content) :
    (lineRangesFrom start offset content).length = content.count '\n' + 1 := by
  induction content generalizing start offset with
  | nil => rfl
  | cons char rest ih =>
    by_cases newline : char = '\n'
    · simp [lineRangesFrom, newline, ih]
    · simp [lineRangesFrom, newline, ih]

theorem length_lineRanges (content : Content) : (lineRanges content).length = lineCount content :=
  length_lineRangesFrom 0 0 content

theorem length_lineStartsFrom (offset : Nat) (content : Content) :
    (lineStartsFrom offset content).length = content.count '\n' := by
  induction content generalizing offset with
  | nil => rfl
  | cons char rest ih =>
    by_cases newline : char = '\n'
    · simp [lineStartsFrom, newline, ih]
    · simp [lineStartsFrom, newline, ih]

theorem length_lineStarts (content : Content) : (lineStarts content).length = lineCount content := by
  simp [lineStarts, lineCount, length_lineStartsFrom]

end Marginalia
