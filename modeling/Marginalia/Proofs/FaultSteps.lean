import Mathlib.Data.List.Basic

namespace Marginalia

variable {ε α β : Type}

/-- A step that succeeds behind another one comes behind a success. -/
theorem of_bind_eq_ok {first : Except ε α} {next : α → Except ε β} {value : β} (done : first >>= next = .ok value) :
    ∃ middle, first = .ok middle ∧ next middle = .ok value := by
  cases first with
  | error fault => cases done
  | ok middle => exact ⟨middle, rfl, done⟩

/-- Steps that all succeed give their values in order. -/
theorem mapM_eq_ok {items : List α} {read : α → Except ε β} {value : α → β}
    (each : ∀ item ∈ items, read item = .ok (value item)) : items.mapM read = .ok (items.map value) := by
  induction items with
  | nil => rfl
  | cons item rest ih =>
    rw [List.forall_mem_cons] at each
    rw [List.mapM_cons, each.1, ih each.2]
    rfl

theorem forM_eq_ok_iff {items : List α} {check : α → Except ε Unit} :
    items.forM check = .ok () ↔ ∀ item ∈ items, check item = .ok () := by
  induction items with
  | nil => exact iff_of_true rfl (by simp)
  | cons item rest ih =>
    rw [List.forall_mem_cons, ← ih]
    change (check item >>= fun _ => rest.forM check) = _ ↔ _
    cases check item <;> simp [bind, Except.bind]

theorem exists_of_forM_eq_error {items : List α} {check : α → Except ε Unit} {fault : ε}
    (failed : items.forM check = .error fault) : ∃ item ∈ items, check item = .error fault := by
  by_contra passed
  simp only [not_exists, not_and] at passed
  induction items with
  | nil => cases failed
  | cons item rest ih =>
    obtain ⟨here, later⟩ := List.forall_mem_cons.mp passed
    change (check item >>= fun _ => rest.forM check) = _ at failed
    cases checked : check item with
    | error first =>
      rw [checked] at failed here
      exact here failed
    | ok =>
      rw [checked] at failed
      exact ih failed later

/-- Checks are made in order, and the first one that fails tells its fault. -/
theorem forM_eq_find? {items : List α} {check : α → Except ε Unit} {passes : α → Prop} [DecidablePred passes]
    {fault : α → ε} (each : ∀ item, check item = if passes item then .ok () else .error (fault item)) :
    items.forM check =
      match items.find? fun item => ¬passes item with
      | none => .ok ()
      | some item => .error (fault item) := by
  induction items with
  | nil => rfl
  | cons item rest ih =>
    have first : (item :: rest).forM check = (check item >>= fun _ => rest.forM check) := rfl
    rw [first, each]
    by_cases passed : passes item
    · rw [if_pos passed, List.find?_cons_of_neg (by simpa using passed)]
      exact ih
    · rw [if_neg passed, List.find?_cons_of_pos (by simpa using passed)]
      rfl

/-- What every successful step keeps, successful steps keep together. -/
theorem foldlM_keeps {items : List α} {step : β → α → Except ε β} {keeps : β → Prop}
    (each : ∀ state item next, keeps state → step state item = .ok next → keeps next) {start final : β}
    (kept : keeps start) (built : items.foldlM step start = .ok final) : keeps final := by
  induction items generalizing start with
  | nil =>
    cases built
    exact kept
  | cons item rest ih =>
    rw [List.foldlM_cons] at built
    obtain ⟨next, done, later⟩ := of_bind_eq_ok built
    exact ih (each start item next kept done) later

/-- What some step brings about, and the others keep, holds in the end. -/
theorem foldlM_reaches {items : List α} {step : β → α → Except ε β} (reached : β → Prop)
    (each : ∀ item ∈ items, ∀ state next, reached state → step state item = .ok next → reached next) {start final : β}
    (arrives : reached start ∨ ∃ item ∈ items, ∀ state next, step state item = .ok next → reached next)
    (built : items.foldlM step start = .ok final) : reached final := by
  induction items generalizing start with
  | nil =>
    cases built
    exact arrives.resolve_right (by simp)
  | cons item rest ih =>
    obtain ⟨here, later⟩ := List.forall_mem_cons.mp each
    rw [List.foldlM_cons] at built
    obtain ⟨next, done, rested⟩ := of_bind_eq_ok built
    refine ih later ?_ rested
    rcases arrives with already | ⟨other, member, brings⟩
    · exact Or.inl (here start next already done)
    · rcases List.mem_cons.mp member with rfl | behind
      · exact Or.inl (brings start next done)
      · exact Or.inr ⟨other, behind, brings⟩

theorem exists_ok_of_any {result : Except ε α} {holds : α → Bool} (seen : result.toOption.any holds = true) :
    ∃ value, result = .ok value ∧ holds value = true := by
  cases result with
  | error fault => cases seen
  | ok value => exact ⟨value, rfl, seen⟩

end Marginalia
