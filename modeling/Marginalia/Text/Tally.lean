namespace Marginalia

/-- Adds to the count of a key; a new key goes to the end. -/
def tally {κ ν : Type} [DecidableEq κ] [Add ν] (key : κ) (amount : ν) : List (κ × ν) → List (κ × ν)
  | [] => [(key, amount)]
  | (known, count) :: rest =>
    if known = key then (known, count + amount) :: rest else (known, count) :: tally key amount rest

theorem map_fst_tally {κ ν : Type} [DecidableEq κ] [Add ν] (key : κ) (amount : ν) (counts : List (κ × ν)) :
    (tally key amount counts).map (·.1) =
      if key ∈ counts.map (·.1) then counts.map (·.1) else counts.map (·.1) ++ [key] := by
  induction counts with
  | nil => simp [tally]
  | cons entry rest ih =>
    obtain ⟨known, count⟩ := entry
    by_cases same : known = key
    · simp [tally, same]
    · have other : ¬ key = known := fun equal => same equal.symm
      by_cases member : key ∈ rest.map (·.1)
      · simp only [tally, if_neg same, List.map_cons, ih, List.mem_cons, other, member, or_true, if_true]
      · simp only [tally, if_neg same, List.map_cons, ih, List.mem_cons, other, member, or_self, if_false,
          List.cons_append]

end Marginalia
