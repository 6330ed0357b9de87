import Mathlib.Data.List.Induction
import Mathlib.Data.List.Nodup
import Marginalia.Search.Keyword

namespace Marginalia

variable {α β : Type} [DecidableEq α] [DecidableEq β] {items : List α}

/-- An item behind others is new, or it is dropped. -/
theorem eraseDups_concat (items : List α) (item : α) :
    (items ++ [item]).eraseDups = if item ∈ items then items.eraseDups else items.eraseDups ++ [item] := by
  rw [List.eraseDups_append]
  by_cases known : item ∈ items
  · simp [known, List.removeAll]
  · simp [known, List.removeAll, List.eraseDups_cons]

theorem nodup_eraseDups (items : List α) : items.eraseDups.Nodup := by
  induction items using List.reverseRecOn with
  | nil => exact .nil
  | append_singleton items item ih =>
    rw [eraseDups_concat]
    split
    · exact ih
    · rename_i new
      refine List.nodup_append'.mpr ⟨ih, List.nodup_singleton _, ?_⟩
      rwa [List.disjoint_singleton, List.mem_eraseDups]

theorem eraseDups_of_nodup (different : items.Nodup) : items.eraseDups = items := by
  induction items using List.reverseRecOn with
  | nil => rfl
  | append_singleton items item ih =>
    obtain ⟨earlier, _, apart⟩ := List.nodup_append'.mp different
    rw [eraseDups_concat, if_neg (List.disjoint_singleton.mp apart), ih earlier]

theorem eraseDups_map {value : α → β} (injective : Function.Injective value) (items : List α) :
    (items.map value).eraseDups = items.eraseDups.map value := by
  induction items using List.reverseRecOn with
  | nil => rfl
  | append_singleton items item ih =>
    rw [List.map_append, List.map_singleton, eraseDups_concat, eraseDups_concat, ih, apply_ite (List.map value),
      List.map_append, List.map_singleton]
    exact if_congr (List.mem_map_of_injective injective) rfl rfl

/-- Of ordered items the keys are listed in the order of the first items that have them. -/
theorem pairwise_eraseDups_map {γ : Type} {before : γ → γ → Prop} {key : γ → β} {items : List γ}
    (ordered : items.Pairwise before) :
    (items.map key).eraseDups.Pairwise fun left right =>
      ∃ first ∈ items, key first = left ∧ ∀ other ∈ items, key other = right → before first other := by
  induction items using List.reverseRecOn with
  | nil => exact .nil
  | append_singleton items item ih =>
    obtain ⟨inFront, _, behind⟩ := List.pairwise_append.mp ordered
    have last (first : γ) (member : first ∈ items) : before first item :=
      behind first member item (List.mem_singleton.mpr rfl)
    have known : (items.map key).eraseDups.Pairwise fun left right =>
        ∃ first ∈ items ++ [item], key first = left ∧
          ∀ other ∈ items ++ [item], key other = right → before first other := by
      refine (ih inFront).imp ?_
      rintro left right ⟨first, member, same, least⟩
      refine ⟨first, List.mem_append_left _ member, same, fun other inItems atRight => ?_⟩
      rcases List.mem_append.mp inItems with early | late
      · exact least other early atRight
      · rw [List.mem_singleton.mp late]
        exact last first member
    rw [List.map_append, List.map_singleton, eraseDups_concat]
    split
    · exact known
    · rename_i new
      refine List.pairwise_append.mpr ⟨known, List.pairwise_singleton _ _, ?_⟩
      intro left inKeys right atItem
      obtain rfl := List.mem_singleton.mp atItem
      obtain ⟨first, member, rfl⟩ := List.mem_map.mp (List.mem_eraseDups.mp inKeys)
      refine ⟨first, List.mem_append_left _ member, rfl, fun other inItems same => ?_⟩
      rcases List.mem_append.mp inItems with early | late
      · exact absurd (same ▸ List.mem_map_of_mem early) new
      · rw [List.mem_singleton.mp late]
        exact last first member

theorem distinct_eq_eraseDups (items : List α) : distinct items = items.eraseDups := by
  induction items using List.reverseRecOn with
  | nil => rfl
  | append_singleton items item ih =>
    rw [distinct] at ih
    rw [distinct, List.foldl_append, ih, eraseDups_concat]
    exact if_congr List.mem_eraseDups rfl rfl

end Marginalia
