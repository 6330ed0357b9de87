import Marginalia.Style.Registry

namespace Marginalia

section lookup

variable {κ α : Type} [DecidableEq κ] {key : κ}

theorem lookupKey?_append (front back : List (κ × α)) :
    lookupKey? key (front ++ back) = (lookupKey? key front).or (lookupKey? key back) := by
  rw [lookupKey?, List.find?_append, lookupKey?, lookupKey?]
  cases front.find? fun entry => entry.1 == key <;> rfl

theorem lookupKey?_singleton (known : κ) (value : α) :
    lookupKey? key [(known, value)] = if known = key then some value else none := by
  by_cases same : known = key <;> simp [lookupKey?, same]

theorem lookupKey?_isSome_iff {entries : List (κ × α)} :
    (lookupKey? key entries).isSome = true ↔ key ∈ entries.map (·.1) := by
  simp [lookupKey?]

theorem lookupKey?_eq_none_iff {entries : List (κ × α)} :
    lookupKey? key entries = none ↔ key ∉ entries.map (·.1) := by
  rw [← Option.not_isSome_iff_eq_none, lookupKey?_isSome_iff]

theorem mem_of_lookupKey? {entries : List (κ × α)} {value : α} (found : lookupKey? key entries = some value) :
    (key, value) ∈ entries := by
  obtain ⟨⟨known, other⟩, atKey, rfl⟩ := Option.map_eq_some_iff.mp found
  obtain rfl : known = key := by simpa using List.find?_some atKey
  exact List.mem_of_find?_eq_some atKey

theorem lookupKey?_map {keys : List κ} (value : κ → α) (member : key ∈ keys) :
    lookupKey? key (keys.map fun key => (key, value key)) = some (value key) := by
  have known : key ∈ (keys.map fun key => (key, value key)).map (·.1) := by
    rw [List.map_map]
    exact List.mem_map.mpr ⟨key, member, rfl⟩
  obtain ⟨other, found⟩ := Option.isSome_iff_exists.mp (lookupKey?_isSome_iff.mpr known)
  obtain ⟨_, _, same⟩ := List.mem_map.mp (mem_of_lookupKey? found)
  cases same
  exact found

end lookup

theorem Registry.get?_eq_or (registry : Registry) (name : String) :
    registry.get? name = (lookupKey? name registry.permanent).or (lookupKey? name registry.versioned) := by
  unfold get?
  cases lookupKey? name registry.permanent <;> rfl

/-- An id without a versioned style has its permanent one. -/
theorem Registry.get?_of_unversioned {registry : Registry} {name : String}
    (absent : name ∉ registry.versioned.map (·.1)) : registry.get? name = lookupKey? name registry.permanent := by
  rw [get?_eq_or, lookupKey?_eq_none_iff.mpr absent, Option.or_none]

theorem Registry.contains_iff {registry : Registry} {name : String} :
    registry.contains name = true ↔
      name ∈ registry.permanent.map (·.1) ∨ name ∈ registry.versioned.map (·.1) := by
  rw [contains, get?_eq_or, Option.isSome_or, Bool.or_eq_true, lookupKey?_isSome_iff, lookupKey?_isSome_iff]

theorem Registry.mem_of_get? {registry : Registry} {name : String} {style : Style}
    (found : registry.get? name = some style) :
    (name, style) ∈ registry.permanent ∨ (name, style) ∈ registry.versioned := by
  rw [get?_eq_or, Option.or_eq_some_iff] at found
  rcases found with permanent | ⟨_, versioned⟩
  · exact Or.inl (mem_of_lookupKey? permanent)
  · exact Or.inr (mem_of_lookupKey? versioned)

/-- The format that a registry gives for a style id. -/
def Registry.formatOf (registry : Registry) (name : String) : Format :=
  (registry.format name).2.toOption.getD {}

theorem Registry.formatOf_eq (registry : Registry) (name : String) :
    registry.formatOf name =
      ((lookupKey? name registry.formats).or ((registry.get? name).map Style.format)).getD {} := by
  unfold formatOf format require
  cases lookupKey? name registry.formats with
  | some format => rfl
  | none => cases registry.get? name <;> rfl

/-- A known style has a format, and asking for it changes neither the styles nor any format. -/
theorem Registry.format_of_contains {registry : Registry} {name : String} (known : registry.contains name = true) :
    ∃ registry', registry.format name = (registry', .ok (registry.formatOf name)) ∧
      registry'.get? = registry.get? ∧ registry'.formatOf = registry.formatOf := by
  cases cached : lookupKey? name registry.formats with
  | some format =>
    refine ⟨registry, ?_, rfl, rfl⟩
    rw [formatOf_eq, cached, Registry.format, cached]
    rfl
  | none =>
    obtain ⟨style, found⟩ := Option.isSome_iff_exists.mp known
    have format_eq : registry.format name =
        ({ registry with formats := registry.formats ++ [(name, style.format)] }, .ok style.format) := by
      simp [format, cached, require, found]
    refine ⟨{ registry with formats := registry.formats ++ [(name, style.format)] }, ?_, rfl, ?_⟩
    · rw [format_eq, formatOf, format_eq]
      rfl
    · funext other
      have same : Registry.get? { registry with formats := registry.formats ++ [(name, style.format)] } other =
          registry.get? other := rfl
      rw [formatOf_eq, formatOf_eq, same, lookupKey?_append, lookupKey?_singleton]
      by_cases equal : name = other
      · rw [← equal, cached, found, if_pos rfl]
        rfl
      · rw [if_neg equal, Option.or_none]

theorem Registry.register_permanent {registry registry' : Registry} {name : String} {style : Style}
    (registered : registry.register name style .permanent = .ok registry') :
    registry'.contains name = true ∧
      (registry' = registry ∨ registry' = { registry with permanent := registry.permanent ++ [(name, style)] }) := by
  unfold register at registered
  cases found : registry.get? name with
  | some known =>
    rw [found] at registered
    dsimp only at registered
    split at registered
    · cases registered
      exact ⟨Option.isSome_iff_exists.mpr ⟨known, found⟩, Or.inl rfl⟩
    · cases registered
  | none =>
    rw [found] at registered
    cases registered
    exact ⟨contains_iff.mpr (Or.inl (by simp)), Or.inr rfl⟩

theorem Registry.contains_of_permanent {registry : Registry} (added : StyleList) {name : String}
    (known : registry.contains name = true) :
    Registry.contains { registry with permanent := registry.permanent ++ added } name = true := by
  rw [contains_iff] at known ⊢
  rcases known with permanent | versioned
  · exact Or.inl (by rw [List.map_append]; exact List.mem_append_left _ permanent)
  · exact Or.inr versioned

/-- Registering permanent styles only adds permanent styles, all of them unless there is a fault. -/
theorem Registry.registerAll_permanent (registry : Registry) (styles : StyleList) :
    ∃ added, (registry.registerAll .permanent styles).1 =
        { registry with permanent := registry.permanent ++ added } ∧
      (∀ entry ∈ added, entry ∈ styles) ∧
      ((registry.registerAll .permanent styles).2 = .ok () → ∀ name ∈ styles.map (·.1),
        (registry.registerAll .permanent styles).1.contains name = true) := by
  induction styles generalizing registry with
  | nil => exact ⟨[], by simp [registerAll], by simp, by simp⟩
  | cons entry rest ih =>
    obtain ⟨name, style⟩ := entry
    rw [registerAll]
    cases registered : registry.register name style .permanent with
    | error fault => exact ⟨[], by simp, by simp, by simp⟩
    | ok next =>
      obtain ⟨known, change⟩ := register_permanent registered
      obtain ⟨added, result, subset, complete⟩ := ih next
      have first : (next.registerAll .permanent rest).1.contains name = true := by
        rw [result]
        exact contains_of_permanent added known
      have all (ok : (next.registerAll .permanent rest).2 = .ok ()) :
          ∀ other ∈ ((name, style) :: rest).map (·.1), (next.registerAll .permanent rest).1.contains other = true := by
        intro other member
        rcases List.mem_cons.mp member with rfl | later
        · exact first
        · exact complete ok other later
      rcases change with rfl | rfl
      · exact ⟨added, result, fun entry member => List.mem_cons_of_mem _ (subset entry member), all⟩
      · refine ⟨(name, style) :: added, ?_, ?_, all⟩
        · rw [result]
          simp
        · intro entry member
          rcases List.mem_cons.mp member with rfl | later
          · exact List.mem_cons_self ..
          · exact List.mem_cons_of_mem _ (subset entry later)

theorem Registry.register_new {registry : Registry} {name : String} (new : registry.contains name = false)
    (opened : registry.isSealed = false) (style : Style) :
    registry.register name style .versioned =
      .ok { registry with versioned := registry.versioned ++ [(name, style)] } := by
  have unknown : registry.get? name = none := Option.isNone_iff_eq_none.mp (by simpa [contains] using new)
  simp [register, unknown, opened]

theorem Registry.beginVersion_of_ne {registry : Registry} {version : String} (stale : registry.version ≠ some version) :
    ∃ opened, registry.beginVersion version = (opened, true) ∧ opened.permanent = registry.permanent ∧
      opened.versioned = [] ∧ opened.version = some version ∧ opened.isSealed = false := by
  unfold beginVersion
  rw [if_neg stale]
  exact ⟨_, rfl, rfl, rfl, rfl, rfl⟩

theorem Registry.beginVersion_of_eq {registry : Registry} {version : String} (same : registry.version = some version) :
    registry.beginVersion version = (registry, false) :=
  if_pos same

end Marginalia
