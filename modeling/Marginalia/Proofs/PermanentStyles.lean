import Marginalia.Proofs.FaultSteps
import Marginalia.Proofs.RegistryCalls

namespace Marginalia

variable {registry after : Registry} {name : String} {style : Style}

theorem Registry.get?_of_register {scope : Scope} (registered : registry.register name style scope = .ok after) :
    after.get? name = some style := by
  have outcome := registry.registering_register name style scope
  rw [registered] at outcome
  cases outcome with
  | known found => exact found
  | permanent missing =>
    have unfixed : lookupKey? name registry.permanent = none := by
      rw [get?_eq_or, Option.or_eq_none_iff] at missing
      exact missing.1
    refine get?_of_permanent ?_
    rw [withPermanent, lookupKey?_append, unfixed, Option.none_or, lookupKey?_singleton, if_pos rfl]
  | versioned missing =>
    rw [get?_eq_or] at missing ⊢
    rw [lookupKey?_append, ← Option.or_assoc, missing, Option.none_or, lookupKey?_singleton, if_pos rfl]

/-- An id of the version stays one; any other id becomes permanent. -/
theorem Registry.permanent_of_register (registered : registry.register name style .permanent = .ok after) :
    (name ∈ registry.versioned.map (·.1) → after = registry) ∧
      (name ∉ registry.versioned.map (·.1) → lookupKey? name after.permanent = some style) := by
  have outcome := registry.registering_register name style .permanent
  rw [registered] at outcome
  cases outcome with
  | known found =>
    refine ⟨fun _ => rfl, fun absent => ?_⟩
    rwa [get?_of_unversioned absent] at found
  | permanent missing =>
    have absent : name ∉ registry.names := get?_eq_none_iff.mp missing
    refine ⟨fun member => absurd (List.mem_append_right _ member) absent, fun _ => ?_⟩
    rw [get?_eq_or, Option.or_eq_none_iff] at missing
    rw [withPermanent, lookupKey?_append, missing.1, Option.none_or, lookupKey?_singleton, if_pos rfl]

/-- An id that is registered as permanent keeps its style for ever, unless it belongs to the version. Then the
registration changes nothing, and the next version forgets the id. Until then it keeps its style in any case. -/
theorem Registry.registered_run (styles : StyleList) (calls : List Registry.Call) {name : String} {style : Style}
    {after : Registry}
    (registered : ((Registry.ofStyles styles).1.run calls).register name style .permanent = .ok after) :
    let registry := (Registry.ofStyles styles).1.run calls
    (name ∉ registry.versioned.map (·.1) → ∀ later, (after.run later).get? name = some style) ∧
    (name ∈ registry.versioned.map (·.1) → after = registry ∧
      ∀ version, registry.version ≠ some version → (after.run [.beginVersion version]).get? name = none) ∧
    ∀ later, after.StaysFor later → (after.run later).get? name = some style := by
  intro registry
  have distinct : registry.names.Nodup := nodup_run styles calls
  obtain ⟨stays, becomes⟩ := permanent_of_register registered
  refine ⟨fun absent later => ?_, fun member => ⟨stays member, fun version stale => ?_⟩, fun later unchanged => ?_⟩
  · exact get?_of_permanent (lookupKey?_of_initial (after.permanent_run later) (becomes absent))
  · have forgotten := get?_beginVersion distinct stale name
    rw [if_pos member] at forgotten
    rw [stays member]
    exact forgotten
  · exact (extends_run unchanged).known name style (get?_of_register registered)

/-- A tint that comes when the version is closed outlives it, and conflicts change nothing about that. -/
theorem Registry.registered_run_closed :
    let registry := (Registry.ofStyles darkStyles).1.run closingCalls
    ∃ after, registry.register "blame.author.a" (.paper "#1a1a4d") .permanent = .ok after ∧
      (after.run [.register "blame.author.a" (.paper "#1a4d1a") .permanent, .beginVersion "v2", .close]).get?
        "blame.author.a" = some (.paper "#1a1a4d") := by
  intro registry
  have accepted : (registry.register "blame.author.a" (.paper "#1a1a4d") .permanent).toOption.any
      (fun after => after.isSealed) = true := by
    decide +kernel
  obtain ⟨after, registered, _⟩ := exists_ok_of_any accepted
  exact ⟨after, registered, (Registry.registered_run darkStyles closingCalls registered).1 (by decide +kernel) _⟩

/-- A swatch that is registered again as permanent goes with its version. -/
theorem Registry.registered_run_forgotten :
    let registry := (Registry.ofStyles darkStyles).1.run closingCalls
    registry.register "color.fff" (.paper "#ffffff") .permanent = .ok registry ∧
      registry.get? "color.fff" = some (.paper "#ffffff") ∧
      (registry.run [.beginVersion "v2"]).get? "color.fff" = none := by
  decide +kernel

end Marginalia
