namespace Marginalia

/-- The first `count` items; a negative count leaves out as many at the end. -/
def takeSigned {α : Type} (count : Int) (items : List α) : List α :=
  items.take (if count < 0 then ((items.length : Int) + count).toNat else count.toNat)

theorem takeSigned_natCast {α : Type} (count : Nat) (items : List α) :
    takeSigned (count : Int) items = items.take count := by
  have positive : ¬(count : Int) < 0 := by omega
  simp [takeSigned, positive]

end Marginalia
