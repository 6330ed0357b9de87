import Marginalia.Proofs.FamilyEvents
import Marginalia.Proofs.LineNumbers
import Mathlib.Data.Int.ModEq

namespace Marginalia

/-- A way to go from match to match. -/
inductive MatchMove
  | next
  | previous
  | jump (index : Int)
deriving DecidableEq, Repr

def Selection.move (selection : Selection) : MatchMove → Selection
  | .next => selection.next
  | .previous => selection.previous
  | .jump index => selection.jump index

def Selection.moves (selection : Selection) (moves : List MatchMove) : Selection :=
  moves.foldl Selection.move selection

/-- As many matches forward, or backward when negative, one after the other. -/
def Selection.turn (selection : Selection) : Int → Selection
  | .ofNat steps => Selection.next^[steps] selection
  | .negSucc steps => Selection.previous^[steps + 1] selection

variable {selection : Selection} {content : Content} {hit : SearchMatch}

theorem Selection.jump_of_nil (none : selection.found = []) (index : Int) : selection.jump index = selection := by
  rw [jump, none]
  rfl

theorem Selection.jump_of_ne_nil (some : selection.found ≠ []) (index : Int) :
    selection.jump index = { selection with index := index % selection.count } :=
  if_neg (by simpa using some)

/-- A jump counted from where the last one led is counted from where that one was to lead. -/
theorem Selection.jump_jump_add (selection : Selection) (index steps : Int) :
    (selection.jump index).jump ((selection.jump index).index + steps) = selection.jump (index + steps) := by
  by_cases none : selection.found = []
  · rw [jump_of_nil none, jump_of_nil none, jump_of_nil none]
  · have kept : (selection.jump index).found ≠ [] := by
      rwa [(selection.jump_found index).1]
    rw [jump_of_ne_nil kept, jump_of_ne_nil none, jump_of_ne_nil none]
    exact congrArg (Selection.mk selection.term selection.found) (Int.emod_add_emod ..)

theorem Selection.next_jump (selection : Selection) (index : Int) :
    (selection.jump index).next = selection.jump (index + 1) :=
  selection.jump_jump_add index 1

theorem Selection.previous_jump (selection : Selection) (index : Int) :
    (selection.jump index).previous = selection.jump (index - 1) :=
  selection.jump_jump_add index (-1)

theorem Selection.iterate_next_jump (selection : Selection) (index : Int) (steps : Nat) :
    Selection.next^[steps] (selection.jump index) = selection.jump (index + steps) := by
  induction steps with
  | zero => rw [Int.natCast_zero, Int.add_zero]; rfl
  | succ steps ih => rw [Function.iterate_succ_apply', ih, next_jump, Int.add_assoc, Int.natCast_succ]

theorem Selection.iterate_previous_jump (selection : Selection) (index : Int) (steps : Nat) :
    Selection.previous^[steps] (selection.jump index) = selection.jump (index - steps) := by
  induction steps with
  | zero => rw [Int.natCast_zero, Int.sub_zero]; rfl
  | succ steps ih => rw [Function.iterate_succ_apply', ih, previous_jump, Int.sub_sub, Int.natCast_succ]

theorem Selection.turn_jump (selection : Selection) (index steps : Int) :
    (selection.jump index).turn steps = selection.jump (index + steps) := by
  cases steps with
  | ofNat steps => exact selection.iterate_next_jump index steps
  | negSucc steps =>
    rw [Int.negSucc_eq, ← Int.natCast_succ, ← Int.sub_eq_add_neg]
    exact selection.iterate_previous_jump index (steps + 1)

theorem Selection.Stands.jump_index (stands : selection.Stands) : selection.jump selection.index = selection := by
  by_cases none : selection.found = []
  · exact jump_of_nil none _
  · obtain ⟨lower, upper⟩ := stands.inside none
    rw [jump_of_ne_nil none, Int.emod_eq_of_lt lower upper]

theorem Selection.Stands.turn_eq (stands : selection.Stands) (steps : Int) :
    selection.turn steps = selection.jump (selection.index + steps) := by
  have turned := selection.turn_jump selection.index steps
  rwa [stands.jump_index] at turned

theorem Selection.Stands.turn_add (stands : selection.Stands) (first second : Int) :
    selection.turn (first + second) = (selection.turn first).turn second := by
  rw [stands.turn_eq, stands.turn_eq, turn_jump, Int.add_assoc]

theorem Selection.Stands.previous_next (stands : selection.Stands) : selection.next.previous = selection := by
  rw [next, previous_jump, Int.add_sub_cancel, stands.jump_index]

theorem Selection.Stands.next_previous (stands : selection.Stands) : selection.previous.next = selection := by
  rw [previous, next_jump, Int.sub_add_cancel, stands.jump_index]

/-- Only whole rounds lead back. -/
theorem Selection.Stands.turn_eq_self_iff (stands : selection.Stands) (some : selection.found ≠ []) (steps : Int) :
    selection.turn steps = selection ↔ (selection.count : Int) ∣ steps := by
  obtain ⟨lower, upper⟩ := stands.inside some
  have rounds : (selection.index + steps) % selection.count = selection.index ↔ (selection.count : Int) ∣ steps := by
    conv_lhs => rhs; rw [← Int.emod_eq_of_lt lower upper]
    rw [eq_comm, ← Int.ModEq, Int.modEq_iff_dvd, add_sub_cancel_left]
  rw [stands.turn_eq, jump_of_ne_nil some, ← rounds]
  constructor
  · exact fun same => congrArg Selection.index same
  · intro same
    rw [same]

theorem Selection.current?_jump (some : selection.found ≠ []) (index : Int) :
    (selection.jump index).current? = selection.found[(index % selection.count).toNat]? := by
  have positive : (selection.count : Int) ≠ 0 :=
    Int.natCast_ne_zero.mpr (List.length_pos_iff.mpr some).ne'
  rw [jump_of_ne_nil some, current?, if_pos (Int.emod_nonneg _ positive)]

/-- Of the steps of one round, one alone leads to a given place. -/
theorem emod_add_eq_iff {count start place steps : Int} (lower : 0 ≤ place) (upper : place < count)
    (forward : 0 ≤ steps) (within : steps < count) :
    (start + steps) % count = place ↔ steps = (place - start) % count := by
  constructor
  · rintro rfl
    rw [Int.emod_sub_emod, add_sub_cancel_left, Int.emod_eq_of_lt forward within]
  · rintro rfl
    rw [Int.add_emod_emod, add_sub_cancel, Int.emod_eq_of_lt lower upper]

theorem Selection.Stands.iterate_next (stands : selection.Stands) (steps : Nat) :
    Selection.next^[steps] selection = selection.jump (selection.index + steps) :=
  stands.turn_eq steps

/-- One round forward comes to each match once. -/
theorem Selection.Stands.existsUnique_call (stands : selection.Stands) (different : selection.found.Nodup)
    (member : hit ∈ selection.found) :
    ∃! call, call < selection.count ∧ (Selection.next^[call + 1] selection).current? = some hit := by
  have some : selection.found ≠ [] := List.ne_nil_of_mem member
  obtain ⟨place, inside, rfl⟩ := List.getElem_of_mem member
  have positive : (0 : Int) < selection.count := Int.natCast_pos.mpr (List.length_pos_iff.mpr some)
  have upper : (place : Int) < selection.count := Int.ofNat_lt.mpr inside
  have reaches (call : Nat) (within : call < selection.count) :
      (Selection.next^[call + 1] selection).current? = .some selection.found[place] ↔
        (call : Int) = (place - (selection.index + 1)) % selection.count := by
    have lower := Int.emod_nonneg (selection.index + 1 + call) positive.ne'
    have further : selection.index + (call + 1 : Nat) = selection.index + 1 + call := by omega
    rw [stands.iterate_next, further, current?_jump some, ← List.getElem?_eq_getElem inside, eq_comm,
      List.getElem?_inj inside different,
      ← emod_add_eq_iff (Int.natCast_nonneg place) upper (Int.natCast_nonneg call) (Int.ofNat_lt.mpr within)]
    omega
  have lower := Int.emod_nonneg (place - (selection.index + 1)) positive.ne'
  have last := Int.emod_lt_of_pos (place - (selection.index + 1)) positive
  refine ⟨((place - (selection.index + 1)) % selection.count).toNat, ⟨by omega, ?_⟩, ?_⟩
  · exact (reaches _ (by omega)).mpr (Int.toNat_of_nonneg lower)
  · rintro call ⟨within, stood⟩
    have call_eq := (reaches call within).mp stood
    omega

/-- The first line to show is at most the wanted number of lines above the match, and not below it. -/
theorem Selection.Stands.exists_scrollTarget (stands : selection.Stands) (found : selection.FoundIn content)
    (some : selection.found ≠ []) {context : Int} (upward : 0 ≤ context) :
    ∃ current line, selection.current? = .some current ∧ selection.scrollTarget? context = .some line ∧
      0 ≤ line ∧ line < lineCount content ∧ current.line - context ≤ line ∧ line ≤ current.line := by
  obtain ⟨current, stood⟩ := stands.exists_current some
  obtain ⟨_, atIndex⟩ := Option.ite_none_right_eq_some.mp stood
  have member := List.mem_of_getElem? atIndex
  rw [found] at member
  obtain ⟨place, _, _, line, _⟩ := exists_place_of_mem_findMatches member
  have below := lineAt_lt_lineCount content place
  refine ⟨current, max 0 (current.line - context), stood, ?_, ?_⟩
  · rw [scrollTarget?, stood]
    rfl
  · omega

theorem Selection.exists_jump_of_move (selection : Selection) (move : MatchMove) :
    ∃ index, selection.move move = selection.jump index := by
  cases move with
  | next => exact ⟨_, rfl⟩
  | previous => exact ⟨_, rfl⟩
  | jump index => exact ⟨index, rfl⟩

/-- Whatever way is taken, the term and its matches stay, and the selection stands at one of them. -/
theorem Selection.Stands.moves (stands : selection.Stands) (moves : List MatchMove) :
    (selection.moves moves).Stands ∧ (selection.moves moves).found = selection.found ∧
      (selection.moves moves).term = selection.term ∧
      (selection.found = [] → selection.moves moves = selection) := by
  induction moves generalizing selection with
  | nil => exact ⟨stands, rfl, rfl, fun _ => rfl⟩
  | cons move rest ih =>
    obtain ⟨index, moved⟩ := selection.exists_jump_of_move move
    have further : selection.moves (move :: rest) = (selection.jump index).moves rest := by
      rw [Selection.moves, List.foldl_cons, moved]
      rfl
    obtain ⟨kept, term⟩ := selection.jump_found index
    obtain ⟨later, found, sameTerm, unmoved⟩ := ih (stands.jump index)
    rw [further]
    refine ⟨later, found.trans kept, sameTerm.trans term, fun none => ?_⟩
    rw [unmoved (kept.trans none), jump_of_nil none]

theorem nodup_findMatches (content : Content) (term : String) : (findMatches content term).Nodup :=
  (pairwise_findMatches content term).imp fun order same => absurd (congrArg SearchMatch.start same) order.ne

/-- Whatever way is taken from the first match of a term, the matches stay in a ring that is turned by a number of
steps: forward and backward undo each other, turns add up, a jump is a turn, and a whole round comes to each match once
and back. What is scrolled to keeps the match in sight. Without matches nothing happens. -/
theorem Selection.moves_ofTerm (content : Content) (term : String) (moves : List MatchMove) :
    let reached := (Selection.ofTerm content term).moves moves
    let count := (findMatches content term).length
    reached.term = term ∧ reached.found = findMatches content term ∧
    (count = 0 → reached = Selection.ofTerm content term) ∧
    (1 ≤ count →
      (0 ≤ reached.index ∧ reached.index < count) ∧
      reached.next.previous = reached ∧ reached.previous.next = reached ∧
      (∀ steps, reached.turn steps = reached.jump (reached.index + steps)) ∧
      (∀ first second, reached.turn (first + second) = (reached.turn first).turn second) ∧
      (∀ steps, reached.turn steps = reached ↔ (count : Int) ∣ steps) ∧
      Selection.next^[count] reached = reached ∧
      (∀ hit ∈ findMatches content term,
        ∃! call, call < count ∧ (Selection.next^[call + 1] reached).current? = some hit) ∧
      ∀ context : Int, 0 ≤ context →
        ∃ current line, reached.current? = some current ∧ reached.scrollTarget? context = some line ∧
          0 ≤ line ∧ line < lineCount content ∧ current.line - context ≤ line ∧ line ≤ current.line) := by
  intro reached count
  obtain ⟨stands, found, sameTerm, unmoved⟩ := (Selection.stands_ofTerm content term).moves moves
  refine ⟨sameTerm, found, fun none => unmoved (List.eq_nil_of_length_eq_zero none), fun positive => ?_⟩
  have all : reached.found = findMatches content term := found
  have some : reached.found ≠ [] := all ▸ List.ne_nil_of_length_pos positive
  have counted : reached.count = count := congrArg List.length all
  have searched : reached.FoundIn content := all.trans (congrArg _ sameTerm.symm)
  have turning := stands.turn_eq_self_iff some
  have inside := stands.inside some
  have each (hit : SearchMatch) (member : hit ∈ findMatches content term) :
      ∃! call, call < count ∧ (Selection.next^[call + 1] reached).current? = .some hit := by
    rw [← counted]
    exact stands.existsUnique_call (all ▸ nodup_findMatches content term) (all ▸ member)
  rw [counted] at turning inside
  have round : Selection.next^[count] reached = reached := (turning count).mpr (Int.dvd_refl _)
  exact ⟨inside, stands.previous_next, stands.next_previous, stands.turn_eq, stands.turn_add, turning, round, each,
    fun context upward => stands.exists_scrollTarget searched some upward⟩

/-- The last match comes before the first one, also when it is counted from the end. -/
example : ((Selection.ofTerm "abcab".toList "AB").moves [.previous, .jump (-3)]).index = 1 ∧
    ((Selection.ofTerm "abcab".toList "AB").moves [.previous, .jump (-3), .next]).index = 0 := by
  decide +kernel

end Marginalia
