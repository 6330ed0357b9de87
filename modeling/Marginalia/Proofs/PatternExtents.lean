import Marginalia.Proofs.CursorPlaces

namespace Marginalia

/-- A row of stretches, of which each is read behind the one before and holds something. -/
inductive ReadsRow (reads : Cursor → List Char → Prop) : Cursor → List Char → Prop
  | done {cursor} : ReadsRow reads cursor []
  | more {cursor front back} : reads cursor front → front ≠ [] → ReadsRow reads (cursor.behind front) back →
      ReadsRow reads cursor (front ++ back)

/-- What a pattern can read at a cursor. A stretch that is read always follows the cursor; `edge` and its
kind read nothing and only look around. -/
def Pattern.Reads : Pattern → Cursor → List Char → Prop
  | .empty, _, text => text = []
  | .one accepts, cursor, text => text <+: cursor.rest ∧ ∃ char, text = [char] ∧ accepts char = true
  | .many accepts, cursor, text => text <+: cursor.rest ∧ ∀ char ∈ text, accepts char = true
  | .few accepts, cursor, text => text <+: cursor.rest ∧ ∀ char ∈ text, accepts char = true
  | .both first second, cursor, text =>
    ∃ front back, text = front ++ back ∧ first.Reads cursor front ∧ second.Reads (cursor.behind front) back
  | .either first second, cursor, text => first.Reads cursor text ∨ second.Reads cursor text
  | .star body, cursor, text => ReadsRow body.Reads cursor text
  | .edge, cursor, text => text = [] ∧ wordEdge cursor.before cursor.rest.head? = true
  | .lineStart, cursor, text => text = [] ∧ cursor.before.all (· == '\n') = true
  | .textEnd, cursor, text => text = [] ∧ cursor.rest.isEmpty = true
  | .notBefore rejects, cursor, text => text = [] ∧ cursor.rest.head?.any rejects = false
  | .notBehind rejects, cursor, text => text = [] ∧ cursor.before.any rejects = false

theorem ReadsRow.follows {reads : Cursor → List Char → Prop} {cursor : Cursor} {text : List Char}
    (follows : ∀ {cursor text}, reads cursor text → text <+: cursor.rest) (row : ReadsRow reads cursor text) :
    text <+: cursor.rest := by
  induction row with
  | done => exact List.nil_prefix
  | more readsFront _ _ ih => exact Cursor.follows_append_iff.mpr ⟨follows readsFront, ih⟩

theorem Pattern.Reads.follows {pattern : Pattern} {cursor : Cursor} {text : List Char}
    (reads : pattern.Reads cursor text) : text <+: cursor.rest := by
  induction pattern generalizing cursor text with
  | empty => exact reads ▸ List.nil_prefix
  | one => exact reads.1
  | many => exact reads.1
  | few => exact reads.1
  | both first second ihFirst ihSecond =>
    obtain ⟨front, back, rfl, readsFront, readsBack⟩ := reads
    exact Cursor.follows_append_iff.mpr ⟨ihFirst readsFront, ihSecond readsBack⟩
  | either first second ihFirst ihSecond =>
    rcases reads with reads | reads
    · exact ihFirst reads
    · exact ihSecond reads
  | star body ih => exact ReadsRow.follows ih reads
  | edge => exact reads.1 ▸ List.nil_prefix
  | lineStart => exact reads.1 ▸ List.nil_prefix
  | textEnd => exact reads.1 ▸ List.nil_prefix
  | notBefore => exact reads.1 ▸ List.nil_prefix
  | notBehind => exact reads.1 ▸ List.nil_prefix

theorem longestRun_eq_some {α : Type} {accepts : Char → Bool} {next : Cursor → Option α} {found : α}
    {offset : Nat} {before : Option Char} {rest : List Char}
    (run : longestRun accepts next offset before rest = some found) :
    ∃ text, text <+: rest ∧ (∀ char ∈ text, accepts char = true) ∧
      next ((⟨offset, before, rest⟩ : Cursor).behind text) = some found := by
  induction rest generalizing offset before with
  | nil => exact ⟨[], List.nil_prefix, by simp, by rw [Cursor.behind_nil]; exact run⟩
  | cons char rest ih =>
    have stop (here : next ⟨offset, before, char :: rest⟩ = some found) :
        ∃ text, text <+: char :: rest ∧ (∀ char ∈ text, accepts char = true) ∧
          next ((⟨offset, before, char :: rest⟩ : Cursor).behind text) = some found :=
      ⟨[], List.nil_prefix, by simp, by rw [Cursor.behind_nil]; exact here⟩
    simp only [longestRun] at run
    split at run
    · rename_i accepted
      cases later : longestRun accepts next (offset + 1) (some char) rest with
      | none => exact stop (by simpa only [later] using run)
      | some result =>
        simp only [later, Option.some.injEq] at run
        obtain ⟨text, follows, members, ends⟩ := ih (later.trans (congrArg some run))
        refine ⟨char :: text, List.cons_prefix_cons.mpr ⟨rfl, follows⟩, ?_, ?_⟩
        · exact List.forall_mem_cons.mpr ⟨accepted, members⟩
        · rw [Cursor.behind_cons]
          simpa [Cursor.behind] using ends
    · exact stop run

theorem shortestRun_eq_some {α : Type} {accepts : Char → Bool} {next : Cursor → Option α} {found : α}
    {offset : Nat} {before : Option Char} {rest : List Char}
    (run : shortestRun accepts next offset before rest = some found) :
    ∃ text, text <+: rest ∧ (∀ char ∈ text, accepts char = true) ∧
      next ((⟨offset, before, rest⟩ : Cursor).behind text) = some found := by
  induction rest generalizing offset before with
  | nil => exact ⟨[], List.nil_prefix, by simp, by rw [Cursor.behind_nil]; exact run⟩
  | cons char rest ih =>
    simp only [shortestRun] at run
    split at run
    · rename_i result here
      exact ⟨[], List.nil_prefix, by simp, by rw [Cursor.behind_nil]; exact here.trans run⟩
    · obtain ⟨accepted, later⟩ := Option.ite_none_right_eq_some.mp run
      obtain ⟨text, follows, members, ends⟩ := ih later
      refine ⟨char :: text, List.cons_prefix_cons.mpr ⟨rfl, follows⟩, ?_, ?_⟩
      · exact List.forall_mem_cons.mpr ⟨accepted, members⟩
      · rw [Cursor.behind_cons]
        simpa [Cursor.behind] using ends

theorem longestRow_eq_some {α : Type} {body : Cursor → (Cursor → Option α) → Option α}
    {reads : Cursor → List Char → Prop} {cursor : Cursor} {next : Cursor → Option α} {found : α}
    (readsBody : ∀ {cursor : Cursor} {next : Cursor → Option α}, body cursor next = some found →
      ∃ text, reads cursor text ∧ next (cursor.behind text) = some found)
    (run : longestRow body next cursor = some found) :
    ∃ text, ReadsRow reads cursor text ∧ next (cursor.behind text) = some found := by
  fun_induction longestRow body next cursor with
  | case1 cursor result row ih =>
    obtain ⟨front, readsFront, later⟩ := readsBody (row.trans run)
    obtain ⟨shorter, later⟩ := Option.dite_none_right_eq_some.mp later
    obtain ⟨back, readsBack, ends⟩ := ih _ shorter later
    have nonempty : front ≠ [] := by
      rintro rfl
      exact absurd shorter (by rw [Cursor.behind_nil]; exact Nat.lt_irrefl _)
    exact ⟨front ++ back, .more readsFront nonempty readsBack, by rw [Cursor.behind_append]; exact ends⟩
  | case2 cursor _ _ => exact ⟨[], .done, by rw [Cursor.behind_nil]; exact run⟩

/-- A run of a pattern that succeeds has read something, and went on behind it. -/
theorem Pattern.reads_of_run {α : Type} {pattern : Pattern} {cursor : Cursor} {next : Cursor → Option α}
    {found : α} (run : pattern.run cursor next = some found) :
    ∃ text, pattern.Reads cursor text ∧ next (cursor.behind text) = some found := by
  induction pattern generalizing cursor next with
  | empty => exact ⟨[], rfl, by rw [Cursor.behind_nil]; exact run⟩
  | one accepts =>
    simp only [Pattern.run] at run
    split at run
    · simp at run
    · rename_i char rest follows
      split at run
      · rename_i accepted
        refine ⟨[char], ⟨by simp [follows], char, rfl, accepted⟩, ?_⟩
        rw [← Cursor.after_eq_behind follows]
        exact run
      · simp at run
  | many accepts =>
    obtain ⟨text, follows, members, ends⟩ := longestRun_eq_some run
    exact ⟨text, ⟨follows, members⟩, ends⟩
  | few accepts =>
    obtain ⟨text, follows, members, ends⟩ := shortestRun_eq_some run
    exact ⟨text, ⟨follows, members⟩, ends⟩
  | both first second ihFirst ihSecond =>
    obtain ⟨front, readsFront, run⟩ := ihFirst run
    obtain ⟨back, readsBack, run⟩ := ihSecond run
    exact ⟨front ++ back, ⟨front, back, rfl, readsFront, readsBack⟩, by rw [Cursor.behind_append]; exact run⟩
  | either first second ihFirst ihSecond =>
    simp only [Pattern.run] at run
    split at run
    · rename_i result taken
      obtain ⟨text, reads, ends⟩ := ihFirst (taken.trans run)
      exact ⟨text, Or.inl reads, ends⟩
    · obtain ⟨text, reads, ends⟩ := ihSecond run
      exact ⟨text, Or.inr reads, ends⟩
  | star body ih => exact longestRow_eq_some ih run
  | edge =>
    obtain ⟨holds, run⟩ := Option.ite_none_right_eq_some.mp run
    exact ⟨[], ⟨rfl, holds⟩, by rw [Cursor.behind_nil]; exact run⟩
  | lineStart =>
    obtain ⟨holds, run⟩ := Option.ite_none_right_eq_some.mp run
    exact ⟨[], ⟨rfl, holds⟩, by rw [Cursor.behind_nil]; exact run⟩
  | textEnd =>
    obtain ⟨holds, run⟩ := Option.ite_none_right_eq_some.mp run
    exact ⟨[], ⟨rfl, holds⟩, by rw [Cursor.behind_nil]; exact run⟩
  | notBefore rejects =>
    simp only [Pattern.run, Option.ite_none_left_eq_some, Bool.not_eq_true] at run
    exact ⟨[], ⟨rfl, run.1⟩, by rw [Cursor.behind_nil]; exact run.2⟩
  | notBehind rejects =>
    simp only [Pattern.run, Option.ite_none_left_eq_some, Bool.not_eq_true] at run
    exact ⟨[], ⟨rfl, run.1⟩, by rw [Cursor.behind_nil]; exact run.2⟩

theorem Pattern.length?_le {pattern : Pattern} {before : Option Char} {text : List Char} {length : Nat}
    (counted : pattern.length? before text = some length) : length ≤ text.length := by
  obtain ⟨front, reads, ends⟩ := Pattern.reads_of_run counted
  have total := Option.some.inj ends
  have bound := reads.follows.length_le
  dsimp only [Cursor.behind] at total bound
  omega

/-- What a match of a shape knows: the three stretches that its parts have read. -/
theorem Shape.match?_reads {shape : Shape} {cursor : Cursor} {found : Found}
    (run : shape.match? cursor = some found) :
    ∃ lead body tail, shape.lead.Reads cursor lead ∧ shape.body.Reads (cursor.behind lead) body ∧
      shape.tail.Reads ((cursor.behind lead).behind body) tail ∧
      found = ⟨cursor.offset + lead.length, cursor.offset + lead.length + body.length,
        ((cursor.behind lead).behind body).behind tail⟩ := by
  obtain ⟨lead, readsLead, run⟩ := Pattern.reads_of_run run
  obtain ⟨body, readsBody, run⟩ := Pattern.reads_of_run run
  obtain ⟨tail, readsTail, run⟩ := Pattern.reads_of_run run
  exact ⟨lead, body, tail, readsLead, readsBody, readsTail, (Option.some.inj run).symm⟩

theorem Shape.beyond_standsIn {shape : Shape} {content : List Char} {cursor : Cursor} {found : Found}
    (stands : cursor.StandsIn content) (matched : shape.match? cursor = some found) :
    found.beyond.StandsIn content := by
  obtain ⟨lead, body, tail, readsLead, readsBody, readsTail, rfl⟩ := Shape.match?_reads matched
  exact ((stands.behind readsLead.follows).behind readsBody.follows).behind readsTail.follows

theorem Shape.mem_search {shape : Shape} {content : List Char} {offset : Nat} {before : Option Char}
    {text : List Char} {extent : Nat × Nat} (stands : (⟨offset, before, text⟩ : Cursor).StandsIn content)
    (member : extent ∈ shape.search offset before text) :
    ∃ cursor found, cursor.StandsIn content ∧ shape.match? cursor = some found ∧
      extent = (found.start, found.stop) := by
  fun_induction Shape.search shape offset before text with
  | case1 => simp at member
  | case2 offset before char rest found matched shorter ih =>
    rw [List.mem_cons] at member
    rcases member with rfl | member
    · exact ⟨_, found, stands, matched, rfl⟩
    · exact ih (Shape.beyond_standsIn stands matched) member
  | case3 offset before char rest found matched longer ih =>
    exact ih stands.step member
  | case4 offset before char rest unmatched ih =>
    exact ih stands.step member

/-- Every extent of a shape is where its body was read in the content. -/
theorem Shape.mem_extents {shape : Shape} {content : List Char} {start stop : Nat}
    (member : (start, stop) ∈ shape.extents content) :
    ∃ cursor text, cursor.StandsIn content ∧ shape.body.Reads cursor text ∧
      start = cursor.offset ∧ stop = cursor.offset + text.length := by
  obtain ⟨cursor, found, stands, matched, extent⟩ := Shape.mem_search (Cursor.start_standsIn content) member
  obtain ⟨lead, body, tail, readsLead, readsBody, _, rfl⟩ := Shape.match?_reads matched
  obtain ⟨rfl, rfl⟩ := Prod.mk.inj extent
  exact ⟨cursor.behind lead, body, stands.behind readsLead.follows, readsBody, rfl, rfl⟩

theorem Shape.extents_within {shape : Shape} {content : List Char} {start stop : Nat}
    (member : (start, stop) ∈ shape.extents content) : start ≤ stop ∧ stop ≤ content.length := by
  obtain ⟨cursor, text, stands, reads, rfl, rfl⟩ := Shape.mem_extents member
  exact ⟨Nat.le_add_right _ _, (stands.behind reads.follows).within⟩

end Marginalia
