import Marginalia.Proofs.RegistryCalls

namespace Marginalia

/-- A registry that differs from another one only in formats that it has kept, all of them formats of its styles. -/
def Registry.Keeps (before after : Registry) : Prop :=
  ∃ formats, after = { before with formats := formats } ∧ ∀ entry ∈ formats,
    entry ∈ before.formats ∨ ∃ style, before.get? entry.1 = some style ∧ entry.2 = style.format

/-- Each format that a registry has kept is the one of the style that its id has now. -/
def Registry.Current (registry : Registry) : Prop :=
  ∀ entry ∈ registry.formats, ∃ style, registry.get? entry.1 = some style ∧ entry.2 = style.format

variable {registry before middle after : Registry} {name : String}

theorem Registry.Keeps.refl (registry : Registry) : registry.Keeps registry :=
  ⟨registry.formats, rfl, fun _ member => Or.inl member⟩

theorem Registry.Keeps.trans (first : before.Keeps middle) (second : middle.Keeps after) : before.Keeps after := by
  obtain ⟨kept, rfl, sound⟩ := first
  obtain ⟨formats, rfl, soundLater⟩ := second
  refine ⟨formats, rfl, fun entry member => ?_⟩
  rcases soundLater entry member with old | new
  · exact sound entry old
  · exact Or.inr new

theorem Registry.keeps_format (registry : Registry) (name : String) : registry.Keeps (registry.format name).1 := by
  unfold Registry.format require
  cases lookupKey? name registry.formats with
  | some format => exact .refl registry
  | none =>
    cases found : registry.get? name with
    | none => exact .refl registry
    | some style =>
      refine ⟨_, rfl, fun entry member => ?_⟩
      rcases List.mem_append.mp member with old | new
      · exact Or.inl old
      · rw [List.mem_singleton.mp new]
        exact Or.inr ⟨style, found, rfl⟩

theorem Registry.formats_register {style : Style} {scope : Scope}
    (registered : before.register name style scope = .ok after) : after.formats = before.formats := by
  have outcome := before.registering_register name style scope
  rw [registered] at outcome
  cases outcome <;> rfl

/-- Another version drops the formats of the styles that it forgets. -/
theorem Registry.mem_formats_beginVersion {version : String} (stale : registry.version ≠ some version)
    {entry : String × Format} (member : entry ∈ (registry.beginVersion version).1.formats) :
    entry ∈ registry.formats ∧ entry.1 ∉ registry.versioned.map (·.1) := by
  rw [beginVersion, if_neg stale] at member
  obtain ⟨old, unforgotten⟩ := List.mem_filter.mp member
  exact ⟨old, by simpa using unforgotten⟩

theorem Registry.formats_beginVersion (registry : Registry) (version : String) :
    (registry.beginVersion version).1.formats ⊆ registry.formats := by
  intro entry member
  by_cases same : registry.version = some version
  · rwa [beginVersion_of_eq same] at member
  · exact (mem_formats_beginVersion same member).1

theorem Registry.Current.of_keeps (current : before.Current) (kept : before.Keeps after) : after.Current := by
  obtain ⟨formats, rfl, sound⟩ := kept
  intro entry member
  rcases sound entry member with old | new
  · exact current entry old
  · exact new

theorem Registry.Current.register (current : before.Current) {style : Style} {scope : Scope}
    (registered : before.register name style scope = .ok after) : after.Current := by
  intro entry member
  rw [formats_register registered] at member
  obtain ⟨known, found, same⟩ := current entry member
  exact ⟨known, (extends_register registered).known _ _ found, same⟩

theorem Registry.Current.registerAll (current : registry.Current) (scope : Scope) (styles : StyleList) :
    (registry.registerAll scope styles).1.Current :=
  registerAll_keeps (fun _ _ _ _ current registered => current.register registered) current

/-- A format that is left belongs to a permanent style, which outlives the version. -/
theorem Registry.Current.beginVersion (current : registry.Current) (distinct : registry.names.Nodup)
    (version : String) : (registry.beginVersion version).1.Current := by
  by_cases same : registry.version = some version
  · rwa [beginVersion_of_eq same]
  · intro entry member
    obtain ⟨old, unforgotten⟩ := mem_formats_beginVersion same member
    rw [get?_beginVersion distinct same, if_neg unforgotten]
    exact current entry old

theorem Registry.Current.perform (current : registry.Current) (distinct : registry.names.Nodup)
    (call : Registry.Call) : (registry.perform call).1.Current := by
  cases call with
  | register name style scope =>
    rw [Registry.perform]
    cases registered : registry.register name style scope with
    | ok after => exact current.register registered
    | error fault => exact current
  | registerAll styles scope => exact current.registerAll scope styles
  | beginVersion version => exact current.beginVersion distinct version
  | close => exact current
  | format name => exact current.of_keeps (registry.keeps_format name)
  | snapshot => exact fun _ none => absurd none List.not_mem_nil

theorem Registry.current_formats_run (styles : StyleList) (calls : List Registry.Call) :
    ((Registry.ofStyles styles).1.run calls).Current := by
  have empty : Registry.Current {} := fun _ none => absurd none List.not_mem_nil
  have both : ((Registry.ofStyles styles).1.run calls).names.Nodup ∧
      ((Registry.ofStyles styles).1.run calls).Current := by
    refine run_keeps (motive := fun registry => registry.names.Nodup ∧ registry.Current) ?_
      ⟨nodup_run styles [], empty.registerAll .permanent styles⟩
    rintro registry call - ⟨distinct, current⟩
    exact ⟨nodup_perform distinct call, current.perform distinct call⟩
  exact both.2

theorem Registry.Current.format_eq (current : registry.Current) (name : String) :
    (registry.format name).2 =
      match registry.get? name with
      | some style => .ok style.format
      | none => .error (.unknownStyle name) := by
  unfold Registry.format require
  cases kept : lookupKey? name registry.formats with
  | some format =>
    obtain ⟨style, found, same⟩ := current _ (mem_of_lookupKey? kept)
    dsimp only at found same ⊢
    rw [found, same]
  | none => cases registry.get? name <;> rfl

/-- However a registry came about, a style id is drawn as it is defined now, whatever format it had in an earlier
version, and an id is refused exactly if it is not known now. -/
theorem Registry.format_run (styles : StyleList) (calls : List Registry.Call) (name : String) :
    let registry := (Registry.ofStyles styles).1.run calls
    ((registry.format name).2 =
      match registry.get? name with
      | some style => .ok style.format
      | none => .error (.unknownStyle name)) ∧
    ((registry.format name).2 = .error (.unknownStyle name) ↔ name ∉ registry.names) := by
  intro registry
  have answered : (registry.format name).2 = _ := (current_formats_run styles calls).format_eq name
  refine ⟨answered, ?_⟩
  rw [answered, ← get?_eq_none_iff]
  cases registry.get? name <;> simp

/-- A version gives an id another definition when its format of the version before has been kept. -/
def redrawingCalls : List Registry.Call :=
  [.beginVersion "v1", .register "color.fff" (.paper "#ffffff") .versioned, .close, .format "color.fff",
    .beginVersion "v2", .register "color.fff" (.ink "#000000") .versioned]

example : ((Registry.run {} redrawingCalls).format "color.fff").2 = .ok { foreground := some "#000000" } := by decide

end Marginalia
