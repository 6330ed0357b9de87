import Marginalia.Text.Carve
import Marginalia.Text.Line
import Mathlib.Data.List.Basic
import Mathlib.Data.Nat.Find

namespace Marginalia

theorem of_drop_eq_cons {α : Type} {items rest : List α} {offset : Nat} {item : α}
    (follows : items.drop offset = item :: rest) :
    items[offset]? = some item ∧ items.drop (offset + 1) = rest ∧ offset < items.length := by
  have length := congrArg List.length follows
  rw [List.length_drop, List.length_cons] at length
  refine ⟨?_, ?_, by omega⟩
  · have first := congrArg (·[0]?) follows
    simpa using first
  · rw [← List.drop_drop, follows]
    rfl

theorem drop_of_drop_eq_cons {α : Type} {items rest : List α} {offset : Nat} {item : α}
    (follows : items.drop offset = item :: rest) (more : Nat) : rest.drop more = items.drop (offset + more + 1) := by
  rw [← (of_drop_eq_cons follows).2.1, List.drop_drop, Nat.add_right_comm]

theorem prefix_drop_pair {content : Content} {place : Nat} {first second : Char} :
    [first, second] <+: content.drop place ↔ content[place]? = some first ∧ content[place + 1]? = some second := by
  constructor
  · rintro ⟨rest, follows⟩
    obtain ⟨atPlace, later, _⟩ := of_drop_eq_cons follows.symm
    exact ⟨atPlace, (of_drop_eq_cons later).1⟩
  · rintro ⟨atPlace, atNext⟩
    obtain ⟨below, rfl⟩ := List.getElem?_eq_some_iff.mp atPlace
    obtain ⟨nextBelow, rfl⟩ := List.getElem?_eq_some_iff.mp atNext
    rw [List.drop_eq_getElem_cons below, List.drop_eq_getElem_cons nextBelow]
    exact ⟨_, rfl⟩

theorem prefix_drop_singleton {content : Content} {place : Nat} {char : Char} :
    [char] <+: content.drop place ↔ content[place]? = some char := by
  constructor
  · rintro ⟨rest, follows⟩
    exact (of_drop_eq_cons follows.symm).1
  · intro atPlace
    obtain ⟨below, rfl⟩ := List.getElem?_eq_some_iff.mp atPlace
    rw [List.drop_eq_getElem_cons below]
    exact ⟨_, rfl⟩

/-- `stop` lies `more` characters behind the first marked place from `start` on, or at the end of a text with
the given length when no place is marked. -/
def StopsBehindFirst (Marked : Nat → Prop) (start more length stop : Nat) : Prop :=
  (∃ place, start ≤ place ∧ Marked place ∧ (∀ earlier, start ≤ earlier → earlier < place → ¬Marked earlier) ∧
    stop = place + more) ∨
  (∀ place, start ≤ place → ¬Marked place) ∧ stop = length

theorem StopsBehindFirst.unique {Marked : Nat → Prop} {start more length stop other : Nat}
    (left : StopsBehindFirst Marked start more length stop)
    (right : StopsBehindFirst Marked start more length other) : stop = other := by
  rcases left with ⟨place, lower, marked, first, rfl⟩ | ⟨none, rfl⟩
  · rcases right with ⟨place', lower', marked', first', rfl⟩ | ⟨none, _⟩
    · rcases Nat.lt_trichotomy place place' with less | same | more
      · exact absurd marked (first' place lower less)
      · rw [same]
      · exact absurd marked' (first place' lower' more)
    · exact absurd marked (none place lower)
  · rcases right with ⟨place, lower, marked, _⟩ | ⟨_, rfl⟩
    · exact absurd marked (none place lower)
    · rfl

theorem StopsBehindFirst.here {Marked : Nat → Prop} {start more length : Nat} (marked : Marked start) :
    StopsBehindFirst Marked start more length (start + more) :=
  Or.inl ⟨start, Nat.le_refl _, marked, fun _ lower upper => by omega, rfl⟩

theorem StopsBehindFirst.later {Marked : Nat → Prop} {start more length stop : Nat} (unmarked : ¬Marked start)
    (stops : StopsBehindFirst Marked (start + 1) more length stop) :
    StopsBehindFirst Marked start more length stop := by
  have skip {place : Nat} (lower : start ≤ place) (marked : Marked place) : start + 1 ≤ place := by
    rcases Nat.eq_or_lt_of_le lower with rfl | above
    · exact absurd marked unmarked
    · exact above
  rcases stops with ⟨place, lower, marked, first, rfl⟩ | ⟨none, rfl⟩
  · refine Or.inl ⟨place, by omega, marked, fun earlier below before found => ?_, rfl⟩
    exact first earlier (skip below found) before found
  · exact Or.inr ⟨fun place below found => none place (skip below found) found, rfl⟩

theorem StopsBehindFirst.start_le {Marked : Nat → Prop} {start more length stop : Nat}
    (stops : StopsBehindFirst Marked start more length stop) (within : start ≤ length) : start ≤ stop := by
  rcases stops with ⟨place, lower, _, _, rfl⟩ | ⟨_, rfl⟩
  · exact Nat.le_add_right_of_le lower
  · exact within

theorem StopsBehindFirst.congr {Marked Marked' : Nat → Prop} {start more length stop : Nat}
    (same : ∀ place, start ≤ place → (Marked place ↔ Marked' place))
    (stops : StopsBehindFirst Marked start more length stop) : StopsBehindFirst Marked' start more length stop := by
  rcases stops with ⟨place, lower, marked, first, rfl⟩ | ⟨none, rfl⟩
  · refine Or.inl ⟨place, lower, (same place lower).mp marked, fun earlier below before found => ?_, rfl⟩
    exact first earlier below before ((same earlier below).mpr found)
  · exact Or.inr ⟨fun place below found => none place below ((same place below).mpr found), rfl⟩

open Classical in
theorem exists_stopsBehindFirst (Marked : Nat → Prop) (start more length : Nat) :
    ∃ stop, StopsBehindFirst Marked start more length stop := by
  by_cases marked : ∃ place, start ≤ place ∧ Marked place
  · obtain ⟨lower, found⟩ := Nat.find_spec marked
    refine ⟨_, Or.inl ⟨Nat.find marked, lower, found, fun earlier below before foundEarlier => ?_, rfl⟩⟩
    exact Nat.find_min marked before ⟨below, foundEarlier⟩
  · exact ⟨length, Or.inr ⟨fun place lower found => marked ⟨place, lower, found⟩, rfl⟩⟩

section wider

variable {Marked Wider : Nat → Prop} {start more length stop other : Nat}

/-- With more marks a text stops no later. -/
theorem StopsBehindFirst.le_of_imp (wider : ∀ place, start ≤ place → Marked place → Wider place)
    (within : ∀ place, start ≤ place → Wider place → place + more ≤ length)
    (stops : StopsBehindFirst Marked start more length stop)
    (stops' : StopsBehindFirst Wider start more length other) : other ≤ stop := by
  rcases stops' with ⟨first, lower, found, least, rfl⟩ | ⟨none, rfl⟩
  · rcases stops with ⟨place, lower', marked, _, rfl⟩ | ⟨_, rfl⟩
    · refine Nat.add_le_add_right (Nat.le_of_not_lt fun before => ?_) more
      exact least place lower' before (wider place lower' marked)
    · exact within first lower found
  · rcases stops with ⟨place, lower, marked, _, rfl⟩ | ⟨_, rfl⟩
    · exact absurd (wider place lower marked) (none place lower)
    · exact Nat.le_refl _

/-- With more marks a text stops at the same place when none of them comes before the last character. -/
theorem StopsBehindFirst.eq_iff_of_imp (wider : ∀ place, start ≤ place → Marked place → Wider place)
    (within : ∀ place, start ≤ place → Wider place → place + more ≤ length)
    (stops : StopsBehindFirst Marked start more length stop)
    (stops' : StopsBehindFirst Wider start more length other) :
    other = stop ↔ ∀ place, start ≤ place → place + more < stop → ¬Wider place := by
  constructor
  · rintro rfl place lower before found
    rcases stops' with ⟨first, _, _, least, rfl⟩ | ⟨none, _⟩
    · exact least place lower (Nat.lt_of_add_lt_add_right before) found
    · exact none place lower found
  · intro free
    refine Nat.le_antisymm (stops.le_of_imp wider within stops') (Nat.le_of_not_lt fun before => ?_)
    rcases stops' with ⟨first, lower, found, _, rfl⟩ | ⟨none, rfl⟩
    · exact free first lower before found
    · rcases stops with ⟨place, lower, marked, _, rfl⟩ | ⟨_, rfl⟩
      · exact none place lower (wider place lower marked)
      · exact Nat.lt_irrefl _ before

end wider

/-- A closing mark is passed where it first follows. -/
theorem lengthThrough_stops {mark content text : List Char} {offset : Nat} (nonempty : mark ≠ [])
    (follows : content.drop offset = text) (within : offset ≤ content.length) :
    StopsBehindFirst (fun place => mark <+: content.drop place) offset mark.length content.length
      (offset + lengthThrough mark text) := by
  induction text generalizing offset with
  | nil =>
    refine Or.inr ⟨fun place lower found => ?_, ?_⟩
    · have past : content.drop place = [] :=
        List.drop_eq_nil_of_le (Nat.le_trans (List.drop_eq_nil_iff.mp follows) lower)
      exact nonempty (List.prefix_nil.mp (past ▸ found))
    · have bound := List.drop_eq_nil_iff.mp follows
      simp only [lengthThrough]
      omega
  | cons char rest ih =>
    obtain ⟨_, later, below⟩ := of_drop_eq_cons follows
    by_cases closes : mark <+: content.drop offset
    · rw [lengthThrough, if_pos (List.isPrefixOf_iff_prefix.mpr (follows ▸ closes))]
      exact .here closes
    · rw [lengthThrough, if_neg (fun starts => closes (follows ▸ List.isPrefixOf_iff_prefix.mp starts))]
      have stops := StopsBehindFirst.later closes (ih later below)
      rwa [show offset + (lengthThrough mark rest + 1) = offset + 1 + lengthThrough mark rest by omega]

/-- A line goes on up to its newline. -/
theorem lineLength_stops {content text : List Char} {offset : Nat} (follows : content.drop offset = text)
    (within : offset ≤ content.length) :
    StopsBehindFirst (fun place => content[place]? = some '\n') offset 0 content.length
      (offset + lineLength text) := by
  induction text generalizing offset with
  | nil =>
    have bound := List.drop_eq_nil_iff.mp follows
    refine Or.inr ⟨fun place lower found => ?_, by simp only [lineLength, List.takeWhile_nil, List.length_nil]; omega⟩
    have outside := List.getElem?_eq_none (Nat.le_trans bound lower)
    cases outside.symm.trans found
  | cons char rest ih =>
    obtain ⟨atOffset, later, below⟩ := of_drop_eq_cons follows
    by_cases newline : char = '\n'
    · subst newline
      exact .here atOffset
    · have passed : lineLength (char :: rest) = lineLength rest + 1 := by simp [lineLength, newline]
      have stops := StopsBehindFirst.later (by simp [atOffset, newline]) (ih later below)
      rwa [passed, show offset + (lineLength rest + 1) = offset + 1 + lineLength rest by omega]

end Marginalia
