import Marginalia.Proofs.DistinctItems
import Marginalia.Proofs.KnownStyles
import Marginalia.Text.Tally
import Mathlib.Algebra.BigOperators.Group.List.Basic

namespace Marginalia

variable {α κ ν : Type} [DecidableEq κ] {key : κ}

theorem lookupKey?_cons (known : κ) (value : ν) (entries : List (κ × ν)) :
    lookupKey? key ((known, value) :: entries) = if known = key then some value else lookupKey? key entries := by
  by_cases same : known = key <;> simp [lookupKey?, same]

variable [AddCommMonoid ν] {keyOf : α → κ} {amountOf : α → ν}

/-- The amounts of items, added up for each key. -/
def tallied (keyOf : α → κ) (amountOf : α → ν) (items : List α) : List (κ × ν) :=
  items.foldl (fun counts item => tally (keyOf item) (amountOf item) counts) []

theorem tallied_concat (items : List α) (item : α) :
    tallied keyOf amountOf (items ++ [item]) =
      tally (keyOf item) (amountOf item) (tallied keyOf amountOf items) :=
  List.foldl_concat ..

/-- A tally changes the count of its own key only. -/
theorem lookupKey?_tally (known : κ) (amount : ν) (counts : List (κ × ν)) :
    lookupKey? key (tally known amount counts) =
      if known = key then some ((lookupKey? key counts).getD 0 + amount) else lookupKey? key counts := by
  induction counts with
  | nil =>
    rw [tally, lookupKey?_cons]
    by_cases same : known = key <;> simp [lookupKey?, same]
  | cons entry rest ih =>
    obtain ⟨other, count⟩ := entry
    rw [tally]
    by_cases here : other = known
    · subst here
      rw [if_pos rfl, lookupKey?_cons, lookupKey?_cons]
      by_cases same : other = key <;> simp [same]
    · rw [if_neg here, lookupKey?_cons, lookupKey?_cons, ih]
      by_cases same : known = key
      · subst same
        simp [here]
      · simp [same]

theorem sum_tally (known : κ) (amount : ν) (counts : List (κ × ν)) :
    ((tally known amount counts).map (·.2)).sum = (counts.map (·.2)).sum + amount := by
  induction counts with
  | nil => simp [tally]
  | cons entry rest ih =>
    obtain ⟨other, count⟩ := entry
    rw [tally]
    split
    · simp only [List.map_cons, List.sum_cons, add_right_comm]
    · rw [List.map_cons, List.sum_cons, ih, List.map_cons, List.sum_cons, add_assoc]

/-- The count of a key is the sum over the items that have it. -/
theorem lookupKey?_tallied (items : List α) :
    lookupKey? key (tallied keyOf amountOf items) =
      if key ∈ items.map keyOf then some (((items.filter (keyOf · = key)).map amountOf).sum) else none := by
  induction items using List.reverseRecOn with
  | nil => rfl
  | append_singleton items item ih =>
    rw [tallied_concat, lookupKey?_tally, ih]
    by_cases same : keyOf item = key
    · by_cases member : key ∈ items.map keyOf
      · simp [same, member, List.filter_append]
      · have none : items.filter (keyOf · = key) = [] := by
          rw [List.filter_eq_nil_iff]
          intro other inItems has
          exact member (List.mem_map.mpr ⟨other, inItems, of_decide_eq_true has⟩)
        simp [same, member, List.filter_append, none]
    · have different : key ≠ keyOf item := Ne.symm same
      simp [same, different, List.filter_append]

theorem sum_tallied (items : List α) :
    ((tallied keyOf amountOf items).map (·.2)).sum = (items.map amountOf).sum := by
  induction items using List.reverseRecOn with
  | nil => rfl
  | append_singleton items item ih =>
    rw [tallied_concat, sum_tally, ih, List.map_append, List.sum_append, List.map_singleton, List.sum_singleton]

/-- Each key has one count, in the order of first appearance. -/
theorem map_fst_tallied (items : List α) :
    (tallied keyOf amountOf items).map (·.1) = (items.map keyOf).eraseDups := by
  induction items using List.reverseRecOn with
  | nil => rfl
  | append_singleton items item ih =>
    rw [tallied_concat, map_fst_tally, ih, List.map_append, List.map_singleton, eraseDups_concat]
    simp only [List.mem_eraseDups]

theorem nodup_tallied (items : List α) : ((tallied keyOf amountOf items).map (·.1)).Nodup := by
  rw [map_fst_tallied]
  exact nodup_eraseDups _

end Marginalia
