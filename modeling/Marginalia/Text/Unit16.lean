namespace Marginalia

/-- The number of sixteen-bit units of a character: characters beyond the basic plane take two. -/
def units16 (char : Char) : Nat :=
  if 0xFFFF < char.toNat then 2 else 1

/-- The unit offsets of the characters of a text that starts at unit `offset`, and of its end. -/
def unitOffsetsFrom (offset : Nat) : List Char → List Nat
  | [] => [offset]
  | char :: rest => offset :: unitOffsetsFrom (offset + units16 char) rest

/-- The unit offset of every character offset; nothing when the two counts coincide everywhere. -/
def unitOffsets? (text : List Char) : Option (List Nat) :=
  if text.all fun char => char.toNat ≤ 0xFFFF then none else some (unitOffsetsFrom 0 text)

def unitLength (text : List Char) : Nat :=
  text.foldr (fun char total => units16 char + total) 0

theorem units16_pos (char : Char) : 0 < units16 char := by
  unfold units16
  split <;> omega

theorem length_unitOffsetsFrom (offset : Nat) (text : List Char) :
    (unitOffsetsFrom offset text).length = text.length + 1 := by
  induction text generalizing offset with
  | nil => rfl
  | cons char rest ih => simp [unitOffsetsFrom, ih]

end Marginalia
