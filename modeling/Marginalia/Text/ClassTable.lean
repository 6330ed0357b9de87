namespace Marginalia

/-- A set of code points, written as the increasing list of points where membership changes,
starting from the outside. -/
abbrev ClassTable := List Nat

/-- Membership of `code`, when `inside` says whether the point before the table is in the set. -/
def ClassTable.holds (code : Nat) : ClassTable → Bool → Bool
  | [], inside => inside
  | change :: later, inside => if code < change then inside else holds code later (!inside)

def ClassTable.contains (table : ClassTable) (code : Nat) : Bool :=
  table.holds code false

theorem ClassTable.contains_nil (code : Nat) : ClassTable.contains [] code = false := rfl

theorem ClassTable.contains_of_lt {code change : Nat} {later : ClassTable} (below : code < change) :
    ClassTable.contains (change :: later) code = false := by
  simp [contains, holds, below]

end Marginalia
