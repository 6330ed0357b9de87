import Mathlib.Data.List.Pairwise
import Mathlib.Data.List.Sort

namespace Marginalia

variable {α β : Type}

/-- Items in the order of a number of theirs are known by their membership. -/
theorem eq_of_increasing (key : α → Nat) {left right : List α}
    (increasing : left.Pairwise fun first second => key first < key second)
    (increasing' : right.Pairwise fun first second => key first < key second)
    (same : ∀ item, item ∈ left ↔ item ∈ right) : left = right := by
  have irreflexive : Std.Irrefl fun first second : α => key first < key second :=
    ⟨fun item => Nat.lt_irrefl (key item)⟩
  have antisymmetric : Std.Antisymm fun first second : α => key first < key second :=
    ⟨fun first second less more => absurd more (Nat.lt_asymm less)⟩
  exact increasing.eq_of_mem_iff increasing' same

/-- Of items that share no place, only one can be at a place. -/
theorem eq_of_shared_place {covers : α → β → Prop} {items : List α}
    (disjoint : items.Pairwise fun first second => ∀ place, covers first place → ¬covers second place)
    {left right : α} (inLeft : left ∈ items) (inRight : right ∈ items) {place : β} (atLeft : covers left place)
    (atRight : covers right place) : left = right := by
  by_contra different
  have symmetric : Std.Symm fun first second : α => ∀ place, covers first place → ¬covers second place :=
    ⟨fun _ _ separate place atSecond atFirst => separate place atFirst atSecond⟩
  exact disjoint.forall inLeft inRight different place atLeft atRight

/-- Of ordered items each one is alone with its number. -/
theorem filter_key_eq (key : α → Nat) {items : List α}
    (increasing : items.Pairwise fun first second => key first < key second) {item : α} (member : item ∈ items) :
    items.filter (fun other => key other == key item) = [item] := by
  obtain ⟨before, after, rfl⟩ := List.append_of_mem member
  rw [List.pairwise_append, List.pairwise_cons] at increasing
  obtain ⟨_, ⟨behind, _⟩, inFront⟩ := increasing
  have none : before.filter (fun other => key other == key item) = [] :=
    List.filter_eq_nil_iff.mpr fun other inBefore same =>
      (inFront other inBefore item (List.mem_cons_self ..)).ne (beq_iff_eq.mp same)
  have rest : after.filter (fun other => key other == key item) = [] :=
    List.filter_eq_nil_iff.mpr fun other inAfter same => (behind other inAfter).ne' (beq_iff_eq.mp same)
  rw [List.filter_append, none, List.filter_cons, beq_self_eq_true, if_pos rfl, rest]
  rfl

/-- Among ordered items the last one that starts at or before a place is found by reading from the front. -/
theorem getLast?_takeWhile_le {key : α → Int} {items : List α}
    (increasing : items.Pairwise fun first second => key first < key second) {item : α} (member : item ∈ items)
    {place : Int} (starts : key item ≤ place)
    (last : ∀ other ∈ items, key item < key other → place < key other) :
    (items.takeWhile fun other => key other ≤ place).getLast? = some item := by
  obtain ⟨before, after, rfl⟩ := List.append_of_mem member
  rw [List.pairwise_append, List.pairwise_cons] at increasing
  obtain ⟨_, ⟨behind, _⟩, inFront⟩ := increasing
  have passed : ∀ other ∈ before, decide (key other ≤ place) = true := by
    intro other inBefore
    have less := inFront other inBefore item (List.mem_cons_self ..)
    simp only [decide_eq_true_eq]
    omega
  have stops : (after.takeWhile fun other => key other ≤ place) = [] := by
    cases after with
    | nil => rfl
    | cons next rest =>
      have beyond := last next (by simp) (behind next (List.mem_cons_self ..))
      rw [List.takeWhile_cons_of_neg]
      simp only [decide_eq_true_eq]
      omega
  rw [List.takeWhile_append_of_pos passed, List.takeWhile_cons_of_pos (by simpa using starts), stops,
    List.getLast?_append]
  rfl

theorem pairwise_mergeSort_key {γ : Type} [LinearOrder γ] (key : α → γ) (items : List α) :
    (items.mergeSort fun left right => key left ≤ key right).Pairwise fun left right => key left ≤ key right := by
  have sorted : (items.mergeSort fun left right => key left ≤ key right).Pairwise fun left right =>
      decide (key left ≤ key right) = true :=
    List.pairwise_mergeSort (by simpa using fun _ _ _ => le_trans) (by simpa using fun _ _ => le_total _ _) _
  exact sorted.imp of_decide_eq_true

/-- Sorting by a number keeps the order of the items with the same number. -/
theorem filter_mergeSort (key : α → Nat) (items : List α) (value : Nat) :
    (items.mergeSort fun left right => key left ≤ key right).filter (key · = value) =
      items.filter (key · = value) := by
  have inOrder : (items.filter (key · = value)).Pairwise fun left right => decide (key left ≤ key right) = true := by
    refine List.pairwise_of_forall_mem_list fun left inLeft right inRight => ?_
    have atLeft := of_decide_eq_true (List.mem_filter.mp inLeft).2
    have atRight := of_decide_eq_true (List.mem_filter.mp inRight).2
    exact decide_eq_true (by omega)
  have kept : (items.filter (key · = value)).Sublist (items.mergeSort fun left right => key left ≤ key right) :=
    List.sublist_mergeSort (by simpa using fun _ _ _ => Nat.le_trans) (by simpa using fun _ _ => Nat.le_total _ _)
      inOrder List.filter_sublist
  have inside := kept.filter (key · = value)
  simp only [List.filter_filter, Bool.and_self] at inside
  have sameLength := ((List.mergeSort_perm items fun left right => key left ≤ key right).filter (key · = value)).length_eq
  exact (inside.eq_of_length sameLength.symm).symm

/-- Sorted items are known by the items with each number. -/
theorem eq_of_filter_key_eq (key : α → Nat) {left right : List α}
    (ascending : left.Pairwise fun first second => key first ≤ key second)
    (ascending' : right.Pairwise fun first second => key first ≤ key second)
    (same : ∀ value, left.filter (key · = value) = right.filter (key · = value)) : left = right := by
  induction left generalizing right with
  | nil =>
    cases right with
    | nil => rfl
    | cons item rest =>
      have none := same (key item)
      simp at none
  | cons first rest ih =>
    cases right with
    | nil =>
      have none := same (key first)
      simp at none
    | cons other later =>
      obtain ⟨behind, ascendingRest⟩ := List.pairwise_cons.mp ascending
      obtain ⟨behind', ascendingLater⟩ := List.pairwise_cons.mp ascending'
      have inRight : first ∈ other :: later := by
        have atFirst : first ∈ (first :: rest).filter (key · = key first) := by simp
        rw [same] at atFirst
        exact List.mem_of_mem_filter atFirst
      have inLeft : other ∈ first :: rest := by
        have atOther : other ∈ (other :: later).filter (key · = key other) := by simp
        rw [← same] at atOther
        exact List.mem_of_mem_filter atOther
      -- Both lists start with the least number, and so with the same item.
      have least : key first = key other := by
        rcases List.mem_cons.mp inRight with rfl | inLater
        · rfl
        · rcases List.mem_cons.mp inLeft with rfl | inRest
          · rfl
          · exact Nat.le_antisymm (behind other inRest) (behind' first inLater)
      have heads := same (key first)
      rw [List.filter_cons_of_pos (by simp), List.filter_cons_of_pos (by simp [least])] at heads
      obtain rfl := (List.cons.inj heads).1
      refine congrArg (first :: ·) (ih ascendingRest ascendingLater fun value => ?_)
      have blocks := same value
      by_cases here : key first = value
      · rw [List.filter_cons_of_pos (by simpa using here), List.filter_cons_of_pos (by simpa using here)] at blocks
        exact (List.cons.inj blocks).2
      · rwa [List.filter_cons_of_neg (by simpa using here), List.filter_cons_of_neg (by simpa using here)] at blocks

theorem flatMap_ite (items : List α) (chosen : α → Prop) [DecidablePred chosen] (value : α → β) :
    (items.flatMap fun item => if chosen item then [value item] else []) =
      (items.filter (chosen ·)).map value := by
  induction items with
  | nil => rfl
  | cons item rest ih =>
    rw [List.flatMap_cons, ih]
    by_cases here : chosen item
    · rw [if_pos here, List.filter_cons_of_pos (by simpa using here)]
      rfl
    · rw [if_neg here, List.filter_cons_of_neg (by simpa using here)]
      rfl

section parts

variable {γ : Type} [DecidableEq γ] {key : β → γ} {own : α → γ} {partsOf : α → List β}

/-- All parts of an item carry its key. -/
theorem filter_parts (owned : ∀ item, ∀ part ∈ partsOf item, key part = own item) (item : α) (value : γ) :
    (partsOf item).filter (key · = value) = if own item = value then partsOf item else [] := by
  split
  · rename_i same
    exact List.filter_eq_self.mpr fun part inItem => decide_eq_true ((owned item part inItem).trans same)
  · rename_i different
    exact List.filter_eq_nil_iff.mpr fun part inItem atValue =>
      different ((owned item part inItem).symm.trans (of_decide_eq_true atValue))

theorem filter_flatMap_of_not_mem (owned : ∀ item, ∀ part ∈ partsOf item, key part = own item) {items : List α}
    {value : γ} (missing : value ∉ items.map own) : (items.flatMap partsOf).filter (key · = value) = [] := by
  rw [List.filter_flatMap, List.flatMap_eq_nil_iff]
  intro item member
  rw [filter_parts owned, if_neg]
  rintro rfl
  exact missing (List.mem_map_of_mem member)

/-- Of items with different keys, only the one with a key has the parts with that key. -/
theorem filter_flatMap_of_mem (owned : ∀ item, ∀ part ∈ partsOf item, key part = own item) {items : List α} {item : α}
    (different : (items.map own).Nodup) (member : item ∈ items) :
    (items.flatMap partsOf).filter (key · = own item) = partsOf item := by
  induction items with
  | nil => cases member
  | cons first rest ih =>
    obtain ⟨missing, differentRest⟩ := List.nodup_cons.mp different
    rw [List.flatMap_cons, List.filter_append, filter_parts owned]
    rcases List.mem_cons.mp member with rfl | inRest
    · rw [if_pos rfl, filter_flatMap_of_not_mem owned missing, List.append_nil]
    · have other : own first ≠ own item := fun same => missing (same ▸ List.mem_map_of_mem inRest)
      rw [if_neg other, List.nil_append, ih differentRest inRest]

theorem filter_flatMap_range {key : β → Nat} {partsAt : Nat → List β}
    (placed : ∀ place, ∀ part ∈ partsAt place, key part = place) (count value : Nat) :
    ((List.range count).flatMap partsAt).filter (key · = value) = if value < count then partsAt value else [] := by
  split
  · rename_i within
    have different : ((List.range count).map id).Nodup := by simpa using List.nodup_range
    exact filter_flatMap_of_mem placed different (List.mem_range.mpr within)
  · rename_i beyond
    have missing : value ∉ (List.range count).map id := by simpa using beyond
    exact filter_flatMap_of_not_mem placed missing

theorem pairwise_flatMap_range {key : β → Nat} {partsAt : Nat → List β}
    (placed : ∀ place, ∀ part ∈ partsAt place, key part = place) (count : Nat) :
    ((List.range count).flatMap partsAt).Pairwise fun first second => key first ≤ key second := by
  refine List.pairwise_flatMap.mpr ⟨fun place _ => List.pairwise_of_forall_mem_list ?_, List.pairwise_lt_range.imp ?_⟩
  · intro part member other member'
    rw [placed place part member, placed place other member']
  · intro place later inFront part member other member'
    rw [placed place part member, placed later other member']
    exact Nat.le_of_lt inFront

end parts

end Marginalia
