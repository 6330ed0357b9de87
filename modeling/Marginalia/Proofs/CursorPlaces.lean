import Marginalia.Text.Pattern
import Mathlib.Data.List.Basic

namespace Marginalia

/-- The place behind a stretch of what follows a cursor. -/
def Cursor.behind (cursor : Cursor) (text : List Char) : Cursor :=
  ⟨cursor.offset + text.length, text.getLast?.or cursor.before, cursor.rest.drop text.length⟩

theorem Cursor.behind_nil (cursor : Cursor) : cursor.behind [] = cursor := by
  simp [behind]

theorem Cursor.behind_append (cursor : Cursor) (first second : List Char) :
    cursor.behind (first ++ second) = (cursor.behind first).behind second := by
  simp only [behind, List.length_append, List.getLast?_append, List.drop_drop, Option.or_assoc]
  congr 1
  omega

theorem Cursor.behind_cons (cursor : Cursor) (char : Char) (text : List Char) :
    cursor.behind (char :: text) = (cursor.behind [char]).behind text :=
  cursor.behind_append [char] text

theorem Cursor.after_eq_behind {cursor : Cursor} {char : Char} {rest : List Char}
    (follows : cursor.rest = char :: rest) : cursor.after char rest = cursor.behind [char] := by
  simp [after, behind, follows]

theorem Cursor.follows_append_iff {cursor : Cursor} {front back : List Char} :
    front ++ back <+: cursor.rest ↔ front <+: cursor.rest ∧ back <+: (cursor.behind front).rest := by
  constructor
  · rintro ⟨rest, split⟩
    rw [List.append_assoc] at split
    refine ⟨⟨_, split⟩, rest, ?_⟩
    rw [behind, ← split, List.drop_left]
  · rintro ⟨⟨rest, split⟩, later⟩
    rw [behind, ← split, List.drop_left] at later
    rw [← split]
    exact (List.prefix_append_right_inj front).mpr later

theorem Cursor.follows_cons_iff {cursor : Cursor} {char : Char} {text : List Char} :
    char :: text <+: cursor.rest ↔ [char] <+: cursor.rest ∧ text <+: (cursor.behind [char]).rest := by
  rw [← List.singleton_append, follows_append_iff]

/-- A cursor stands in a content: it knows the character before it and what follows. -/
structure Cursor.StandsIn (content : List Char) (cursor : Cursor) : Prop where
  within : cursor.offset ≤ content.length
  before_eq : cursor.before = (content.take cursor.offset).getLast?
  rest_eq : cursor.rest = content.drop cursor.offset

theorem Cursor.start_standsIn (content : List Char) : (Cursor.start content).StandsIn content :=
  ⟨Nat.zero_le _, by simp [start], by simp [start]⟩

theorem Cursor.StandsIn.offset_add_length {content : List Char} {cursor : Cursor} (stands : cursor.StandsIn content) :
    cursor.offset + cursor.rest.length = content.length := by
  have within := stands.within
  rw [stands.rest_eq, List.length_drop]
  omega

theorem Cursor.StandsIn.behind {content text : List Char} {cursor : Cursor} (stands : cursor.StandsIn content)
    (follows : text <+: cursor.rest) : (cursor.behind text).StandsIn content := by
  obtain ⟨rest, split⟩ := follows
  have shape : content = content.take cursor.offset ++ (text ++ rest) := by
    rw [split, stands.rest_eq, List.take_append_drop]
  have front : (content.take cursor.offset).length = cursor.offset := by
    rw [List.length_take]
    exact Nat.min_eq_left stands.within
  refine ⟨?_, ?_, ?_⟩
  · have total := congrArg List.length shape
    simp only [List.length_append, front] at total
    simp only [Cursor.behind]
    omega
  · have taken : content.take (cursor.offset + text.length) = content.take cursor.offset ++ text := by
      rw [List.take_add, ← stands.rest_eq, ← split, List.take_left]
    simp only [Cursor.behind, taken, List.getLast?_append, stands.before_eq]
  · simp only [Cursor.behind, stands.rest_eq, List.drop_drop]

theorem Cursor.StandsIn.step {content rest : List Char} {offset : Nat} {before : Option Char} {char : Char}
    (stands : (⟨offset, before, char :: rest⟩ : Cursor).StandsIn content) :
    (⟨offset + 1, some char, rest⟩ : Cursor).StandsIn content := by
  have moved : ((⟨offset, before, char :: rest⟩ : Cursor).behind [char]).StandsIn content :=
    stands.behind (by simp)
  simpa [Cursor.behind] using moved

theorem Cursor.StandsIn.slice {content text : List Char} {cursor : Cursor} (stands : cursor.StandsIn content)
    (follows : text <+: cursor.rest) : (content.drop cursor.offset).take text.length = text := by
  rw [← stands.rest_eq]
  exact (List.prefix_iff_eq_take.mp follows).symm

end Marginalia
