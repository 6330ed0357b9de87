import Marginalia.Proofs.KnownStyles

namespace Marginalia

/-- A definition agrees with a registry that does not know its id, or knows it with the same style. -/
def Registry.Agrees (registry : Registry) (entry : String × Style) : Prop :=
  ∀ known ∈ registry.get? entry.1, known = entry.2

instance (registry : Registry) (entry : String × Style) : Decidable (registry.Agrees entry) :=
  inferInstanceAs (Decidable (∀ known ∈ registry.get? entry.1, known = entry.2))

/-- The definitions whose ids a registry does not know. -/
def Registry.unknown (registry : Registry) (styles : StyleList) : StyleList :=
  styles.filter fun entry => !registry.contains entry.1

def Registry.withPermanent (registry : Registry) (added : StyleList) : Registry :=
  { registry with permanent := registry.permanent ++ added }

variable {registry : Registry} {name : String} {style : Style} {styles : StyleList}

theorem Registry.withPermanent_unknown_nil (registry : Registry) :
    registry.withPermanent (registry.unknown []) = registry := by
  rw [withPermanent, unknown, List.filter_nil, List.append_nil]

theorem Registry.withPermanent_withPermanent (registry : Registry) (first second : StyleList) :
    (registry.withPermanent first).withPermanent second = registry.withPermanent (first ++ second) := by
  simp only [withPermanent, List.append_assoc]

theorem Registry.get?_withPermanent_of_ne {other : String} (different : name ≠ other) :
    (registry.withPermanent [(name, style)]).get? other = registry.get? other := by
  rw [get?_eq_or, get?_eq_or, withPermanent, lookupKey?_append, lookupKey?_singleton, if_neg different, Option.or_none]

theorem Registry.unknown_cons (registry : Registry) (entry : String × Style) (rest : StyleList) :
    registry.unknown (entry :: rest) =
      if registry.contains entry.1 then registry.unknown rest else entry :: registry.unknown rest := by
  unfold unknown
  cases known : registry.contains entry.1 <;> simp [known]

theorem Registry.unknown_congr {other : Registry}
    (same : ∀ entry ∈ styles, other.get? entry.1 = registry.get? entry.1) :
    other.unknown styles = registry.unknown styles := by
  refine List.filter_congr fun entry member => ?_
  rw [contains, contains, same entry member]

theorem Registry.register_of_some {known : Style} (found : registry.get? name = some known) (scope : Scope) :
    registry.register name style scope =
      if known = style then .ok registry else .error (.styleConflict name known style) := by
  unfold register
  rw [found]

theorem Registry.register_permanent_of_none (missing : registry.get? name = none) :
    registry.register name style .permanent = .ok (registry.withPermanent [(name, style)]) := by
  unfold register
  rw [missing]
  rfl

/-- Definitions become permanent as far as they agree: all of them, or those in front of one that does not. -/
inductive Registry.Registers (registry : Registry) (styles : StyleList) : Registry × Except Fault Unit → Prop
  | all (agree : ∀ entry ∈ styles, registry.Agrees entry) :
      Registers registry styles (registry.withPermanent (registry.unknown styles), .ok ())
  | upTo {front name proposed rest known} (split : styles = front ++ (name, proposed) :: rest)
      (agree : ∀ entry ∈ front, registry.Agrees entry) (found : registry.get? name = some known)
      (different : known ≠ proposed) :
      Registers registry styles
        (registry.withPermanent (registry.unknown front), .error (.styleConflict name known proposed))

theorem Registry.Agrees.congr {other : Registry} {entry : String × Style} (agrees : registry.Agrees entry)
    (same : other.get? entry.1 = registry.get? entry.1) : other.Agrees entry := by
  unfold Agrees
  rw [same]
  exact agrees

/-- Behind a definition that agrees the others are registered as from the start. -/
theorem Registry.Registers.cons {next : Registry} {entry : String × Style} {rest : StyleList}
    {outcome : Registry × Except Fault Unit} (later : next.Registers rest outcome) (agrees : registry.Agrees entry)
    (same : ∀ other ∈ rest, next.get? other.1 = registry.get? other.1)
    (grown : ∀ passed, (∀ other ∈ passed, other ∈ rest) →
      next.withPermanent (next.unknown passed) = registry.withPermanent (registry.unknown (entry :: passed))) :
    registry.Registers (entry :: rest) outcome := by
  cases later with
  | all agree =>
    rw [grown rest fun _ member => member]
    refine .all (List.forall_mem_cons.mpr ⟨agrees, fun other member => ?_⟩)
    exact (agree other member).congr (same other member).symm
  | @upTo front name proposed behind known split agree found different =>
    subst split
    have inFront : ∀ other ∈ front, other ∈ front ++ (name, proposed) :: behind :=
      fun other member => List.mem_append_left _ member
    rw [grown front inFront]
    refine .upTo rfl (List.forall_mem_cons.mpr ⟨agrees, fun other member => ?_⟩) ?_ different
    · exact (agree other member).congr (same other (inFront other member)).symm
    · rw [← same (name, proposed) (List.mem_append_right _ (List.mem_cons_self ..))]
      exact found

/-- Permanent definitions of different ids are registered up to the first one that does not agree. -/
theorem Registry.registers_registerAll (registry : Registry) (distinct : (styles.map (·.1)).Nodup) :
    registry.Registers styles (registry.registerAll .permanent styles) := by
  induction styles generalizing registry with
  | nil =>
    have none : registry.Registers [] (registry.withPermanent (registry.unknown []), .ok ()) := .all (by simp)
    rwa [withPermanent_unknown_nil] at none
  | cons entry rest ih =>
    obtain ⟨name, style⟩ := entry
    obtain ⟨apart, distinct⟩ := List.nodup_cons.mp distinct
    rw [registerAll]
    cases found : registry.get? name with
    | some known =>
      have contained : registry.contains name = true := Option.isSome_iff_exists.mpr ⟨known, found⟩
      rw [register_of_some found]
      by_cases same : known = style
      · rw [if_pos same]
        refine (ih registry distinct).cons (fun other atName => ?_) (fun _ _ => rfl) fun passed _ => ?_
        · rw [← same]
          exact Option.some.inj (atName.symm.trans found)
        · rw [unknown_cons, if_pos contained]
      · rw [if_neg same]
        have stops : registry.Registers ((name, style) :: rest)
            (registry.withPermanent (registry.unknown []), .error (.styleConflict name known style)) :=
          .upTo (List.nil_append _).symm (by simp) found same
        rwa [withPermanent_unknown_nil] at stops
    | none =>
      have missing : registry.contains name = false := by
        rw [contains, found]
        rfl
      have kept : ∀ other ∈ rest, (registry.withPermanent [(name, style)]).get? other.1 = registry.get? other.1 := by
        intro other member
        refine get?_withPermanent_of_ne fun same => apart ?_
        exact List.mem_map.mpr ⟨other, member, same.symm⟩
      rw [register_permanent_of_none found]
      refine (ih _ distinct).cons (fun other atName => ?_) kept fun passed inRest => ?_
      · cases found.symm.trans atName
      · rw [unknown_congr fun other member => kept other (inRest other member), withPermanent_withPermanent,
          unknown_cons, missing]
        rfl

end Marginalia
