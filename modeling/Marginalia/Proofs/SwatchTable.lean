import Marginalia.Proofs.ColorLiterals
import Marginalia.Proofs.KnownStyles
import Marginalia.Proofs.LiteralDigits
import Marginalia.Style.Swatches
import Marginalia.Text.Line

namespace Marginalia

/-- Style ids that color literals can take. -/
def IsColorId (name : String) : Prop :=
  Family.color.idStart.toList <+: name.toList

/-- The swatches of color literals whose ids are not in `done` yet, each id once. -/
def swatchesFrom (background : Rgb) (done : List String) : List ColorMatch → StyleList
  | [] => []
  | color :: rest =>
    if color.styleId ∈ done then swatchesFrom background done rest
    else
      match swatch color.literal background with
      | .error _ => swatchesFrom background done rest
      | .ok style => (color.styleId, style) :: swatchesFrom background (done ++ [color.styleId]) rest

/-- The swatches of a content. -/
def swatchTable (content : Content) (background : Rgb) : StyleList :=
  swatchesFrom background [] (findColors content)

theorem ColorMatch.isColorId (color : ColorMatch) : IsColorId color.styleId := by
  rw [IsColorId, styleId, String.toList_append]
  exact List.prefix_append ..

/-- Each swatch is that of a literal under the id of the literal. -/
theorem mem_swatchesFrom {background : Rgb} {done : List String} {colors : List ColorMatch} {entry : String × Style}
    (member : entry ∈ swatchesFrom background done colors) :
    ∃ color ∈ colors, color.styleId = entry.1 ∧ swatch color.literal background = .ok entry.2 := by
  fun_induction swatchesFrom background done colors with
  | case1 => cases member
  | case2 done first rest known ih =>
    obtain ⟨color, inRest, found⟩ := ih member
    exact ⟨color, List.mem_cons_of_mem _ inRest, found⟩
  | case3 done first rest new fault refused ih =>
    obtain ⟨color, inRest, found⟩ := ih member
    exact ⟨color, List.mem_cons_of_mem _ inRest, found⟩
  | case4 done first rest new style accepted ih =>
    rcases List.mem_cons.mp member with rfl | later
    · exact ⟨first, List.mem_cons_self .., rfl, accepted⟩
    · obtain ⟨color, inRest, found⟩ := ih later
      exact ⟨color, List.mem_cons_of_mem _ inRest, found⟩

theorem swatchTable_isColorId {content : Content} {background : Rgb} {name : String}
    (member : name ∈ (swatchTable content background).map (·.1)) : IsColorId name := by
  obtain ⟨entry, inTable, rfl⟩ := List.mem_map.mp member
  obtain ⟨color, _, same, _⟩ := mem_swatchesFrom inTable
  exact same ▸ color.isColorId

/-- Readable literals leave their ids in order of first appearance, each once, except those that are done. -/
theorem map_fst_swatchesFrom {background : Rgb} {done : List String} {colors : List ColorMatch}
    (readable : ∀ color ∈ colors, ∃ style, swatch color.literal background = .ok style) :
    (swatchesFrom background done colors).map (·.1) =
      ((colors.map (·.styleId)).filter fun name => name ∉ done).eraseDups := by
  fun_induction swatchesFrom background done colors with
  | case1 => rfl
  | case2 done first rest known ih =>
    obtain ⟨_, later⟩ := List.forall_mem_cons.mp readable
    rw [ih later, List.map_cons, List.filter_cons_of_neg (by simpa using known)]
  | case3 done first rest new fault refused ih =>
    obtain ⟨⟨style, accepted⟩, _⟩ := List.forall_mem_cons.mp readable
    cases refused.symm.trans accepted
  | case4 done first rest new style accepted ih =>
    obtain ⟨_, later⟩ := List.forall_mem_cons.mp readable
    rw [List.map_cons, ih later, List.map_cons, List.filter_cons_of_pos (by simpa using new), List.eraseDups_cons,
      List.filter_filter]
    refine congrArg (first.styleId :: ·.eraseDups) (List.filter_congr fun name _ => ?_)
    by_cases same : name = first.styleId <;> simp [same]

/-- The ids of the swatches of a content are those of its color literals in order of first appearance, each once. -/
theorem map_fst_swatchTable (content : Content) (background : Rgb) :
    (swatchTable content background).map (·.1) = ((findColors content).map (·.styleId)).eraseDups := by
  rw [swatchTable, map_fst_swatchesFrom fun color member =>
    swatch_of_isColorLiteral (findColors_spec member).2.2 background]
  simp

/-- Every color literal of a content has its swatch. -/
theorem styleId_mem_swatchTable {content : Content} (background : Rgb) {color : ColorMatch}
    (member : color ∈ findColors content) : color.styleId ∈ (swatchTable content background).map (·.1) := by
  rw [map_fst_swatchTable, List.mem_eraseDups]
  exact List.mem_map_of_mem member

/-- A literal whose id is among the swatches of a content has its swatch there, which is that of all literals with its
form. -/
theorem lookupKey?_swatchTable {content : Content} {background : Rgb} {color : ColorMatch}
    (member : color.styleId ∈ (swatchTable content background).map (·.1)) :
    ∃ style, lookupKey? color.styleId (swatchTable content background) = some style ∧
      ∀ other : ColorMatch, other.normalized = color.normalized → swatch other.literal background = .ok style := by
  obtain ⟨style, found⟩ := Option.isSome_iff_exists.mp (lookupKey?_isSome_iff.mpr member)
  obtain ⟨first, _, same, accepted⟩ := mem_swatchesFrom (mem_of_lookupKey? found)
  refine ⟨style, found, fun other form => ColorMatch.swatch_congr ?_ accepted⟩
  rw [form, ColorMatch.normalized_eq same]

theorem Registry.registerColors_eq {registry : Registry} {done : List String} (opened : registry.isSealed = false)
    (registered : ∀ name ∈ registry.names, IsColorId name → name ∈ done) (background : Rgb) (colors : List ColorMatch) :
    registry.registerColors background done colors =
      ({ registry with versioned := registry.versioned ++ swatchesFrom background done colors },
        .ok (done.length + (swatchesFrom background done colors).length)) := by
  induction colors generalizing registry done with
  | nil => simp [registerColors, swatchesFrom]
  | cons color rest ih =>
    rw [registerColors, swatchesFrom]
    by_cases known : color.styleId ∈ done
    · rw [if_pos known, if_pos known, ih opened registered]
    · rw [if_neg known, if_neg known]
      cases tried : swatch color.literal background with
      | error fault => exact ih opened registered
      | ok style =>
        have new : registry.contains color.styleId = false := by
          rw [Bool.eq_false_iff, ne_eq, contains_iff, ← List.mem_append]
          exact fun member => known (registered _ member color.isColorId)
        dsimp only
        rw [register_new new opened]
        dsimp only
        refine (ih ?_ ?_).trans ?_
        · exact opened
        · intro name member isColorId
          rw [names, List.map_append, ← List.append_assoc] at member
          rcases List.mem_append.mp member with old | added
          · exact List.mem_append_left _ (registered name old isColorId)
          · exact List.mem_append_right _ added
        · simp [Nat.add_assoc, Nat.add_comm 1]

/-- Without ids that color literals can take, an open registry takes in the swatches of a content. -/
theorem Registry.registerSwatches_eq {registry : Registry} (opened : registry.isSealed = false)
    (colorless : ∀ name ∈ registry.names, ¬IsColorId name) (content : Content) (background : Rgb) :
    registry.registerSwatches content background =
      ({ registry with versioned := registry.versioned ++ swatchTable content background },
        .ok (swatchTable content background).length) := by
  rw [registerSwatches, registerColors_eq opened fun name member isColorId => absurd isColorId (colorless name member),
    List.length_nil, Nat.zero_add]
  rfl

end Marginalia
