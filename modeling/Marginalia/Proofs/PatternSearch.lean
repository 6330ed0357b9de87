import Marginalia.Proofs.PatternExtents

namespace Marginalia

/-- The cursor at a place of a content. -/
def cursorAt (content : List Char) (place : Nat) : Cursor :=
  ⟨place, (content.take place).getLast?, content.drop place⟩

/-- The matches of a shape stand apart: each leads beyond its place, and no other starts before it ends. -/
def Shape.Apart (shape : Shape) (content : List Char) : Prop :=
  ∀ place found, shape.match? (cursorAt content place) = some found → place < found.beyond.offset ∧
    ∀ other, place < other → other < found.beyond.offset → shape.match? (cursorAt content other) = none

/-- The extent of the match of a shape at a place. -/
def Shape.extentAt? (shape : Shape) (content : List Char) (place : Nat) : Option (Nat × Nat) :=
  (shape.match? (cursorAt content place)).map fun found => (found.start, found.stop)

variable {α : Type} {content : List Char} {cursor : Cursor} {shape : Shape}

theorem Cursor.StandsIn.eq_cursorAt (stands : cursor.StandsIn content) : cursor = cursorAt content cursor.offset := by
  rw [cursorAt, ← stands.before_eq, ← stands.rest_eq]

theorem longestRun_isSome {accepts : Char → Bool} {next : Cursor → Option α} {offset : Nat} {before : Option Char}
    {rest text : List Char} (follows : text <+: rest) (accepted : ∀ char ∈ text, accepts char = true)
    (ends : (next ((⟨offset, before, rest⟩ : Cursor).behind text)).isSome = true) :
    (longestRun accepts next offset before rest).isSome = true := by
  induction rest generalizing text offset before with
  | nil =>
    obtain rfl := List.prefix_nil.mp follows
    rwa [Cursor.behind_nil] at ends
  | cons char rest ih =>
    rw [longestRun]
    cases text with
    | nil =>
      rw [Cursor.behind_nil] at ends
      split
      · split
        · rfl
        · exact ends
      · exact ends
    | cons first text =>
      obtain ⟨rfl, followsRest⟩ := List.cons_prefix_cons.mp follows
      obtain ⟨here, later⟩ := List.forall_mem_cons.mp accepted
      rw [Cursor.behind_cons] at ends
      have found : (longestRun accepts next (offset + 1) (some first) rest).isSome = true :=
        ih followsRest later (by simpa [Cursor.behind] using ends)
      obtain ⟨result, run⟩ := Option.isSome_iff_exists.mp found
      rw [if_pos here, run]
      rfl

theorem shortestRun_isSome {accepts : Char → Bool} {next : Cursor → Option α} {offset : Nat} {before : Option Char}
    {rest text : List Char} (follows : text <+: rest) (accepted : ∀ char ∈ text, accepts char = true)
    (ends : (next ((⟨offset, before, rest⟩ : Cursor).behind text)).isSome = true) :
    (shortestRun accepts next offset before rest).isSome = true := by
  induction rest generalizing text offset before with
  | nil =>
    obtain rfl := List.prefix_nil.mp follows
    rwa [Cursor.behind_nil] at ends
  | cons char rest ih =>
    rw [shortestRun]
    split
    · rfl
    · rename_i stopped
      cases text with
      | nil =>
        rw [Cursor.behind_nil, stopped] at ends
        cases ends
      | cons first text =>
        obtain ⟨rfl, followsRest⟩ := List.cons_prefix_cons.mp follows
        obtain ⟨here, later⟩ := List.forall_mem_cons.mp accepted
        rw [Cursor.behind_cons] at ends
        rw [if_pos here]
        exact ih followsRest later (by simpa [Cursor.behind] using ends)

theorem longestRow_isSome {body : Cursor → (Cursor → Option α) → Option α} {reads : Cursor → List Char → Prop}
    {next : Cursor → Option α} {text : List Char}
    (follows : ∀ {cursor text}, reads cursor text → text <+: cursor.rest)
    (succeeds : ∀ {cursor : Cursor} {next : Cursor → Option α} (text : List Char), reads cursor text →
      (next (cursor.behind text)).isSome = true → (body cursor next).isSome = true)
    (row : ReadsRow reads cursor text) (ends : (next (cursor.behind text)).isSome = true) :
    (longestRow body next cursor).isSome = true := by
  induction row with
  | done =>
    rw [Cursor.behind_nil] at ends
    rw [longestRow]
    split
    · rfl
    · exact ends
  | @more cursor front back readsFront nonempty _ ih =>
    have shorter : (cursor.behind front).rest.length < cursor.rest.length := by
      have bound := (follows readsFront).length_le
      have positive := List.length_pos_of_ne_nil nonempty
      simp only [Cursor.behind, List.length_drop]
      omega
    rw [Cursor.behind_append] at ends
    rw [longestRow]
    split
    · rfl
    · rename_i unread
      refine absurd (succeeds front readsFront ?_) (by rw [unread]; exact Bool.false_ne_true)
      rw [if_pos shorter]
      exact ih ends

/-- A run of a pattern succeeds when it can read something behind which it can go on. -/
theorem Pattern.run_isSome_iff {pattern : Pattern} {next : Cursor → Option α} :
    (pattern.run cursor next).isSome = true ↔
      ∃ text, pattern.Reads cursor text ∧ (next (cursor.behind text)).isSome = true := by
  constructor
  · intro succeeds
    obtain ⟨found, run⟩ := Option.isSome_iff_exists.mp succeeds
    obtain ⟨text, reads, ends⟩ := Pattern.reads_of_run run
    exact ⟨text, reads, Option.isSome_iff_exists.mpr ⟨found, ends⟩⟩
  · rintro ⟨text, reads, ends⟩
    induction pattern generalizing cursor text next with
    | empty =>
      obtain rfl := reads
      rwa [Cursor.behind_nil] at ends
    | one accepts =>
      obtain ⟨⟨rest, follows⟩, char, rfl, accepted⟩ := reads
      rw [← Cursor.after_eq_behind follows.symm] at ends
      rw [Pattern.run, ← follows]
      dsimp only [List.singleton_append]
      rwa [if_pos accepted]
    | many accepts => exact longestRun_isSome reads.1 reads.2 ends
    | few accepts => exact shortestRun_isSome reads.1 reads.2 ends
    | both first second ihFirst ihSecond =>
      obtain ⟨front, back, rfl, readsFront, readsBack⟩ := reads
      rw [Cursor.behind_append] at ends
      exact ihFirst front readsFront (ihSecond back readsBack ends)
    | either first second ihFirst ihSecond =>
      rw [Pattern.run]
      rcases reads with reads | reads
      · obtain ⟨result, run⟩ := Option.isSome_iff_exists.mp (ihFirst text reads ends)
        rw [run]
        rfl
      · split
        · rfl
        · exact ihSecond text reads ends
    | star body ih => exact longestRow_isSome Pattern.Reads.follows ih reads ends
    | edge =>
      obtain ⟨rfl, holds⟩ := reads
      rw [Cursor.behind_nil] at ends
      rwa [Pattern.run, if_pos holds]
    | lineStart =>
      obtain ⟨rfl, holds⟩ := reads
      rw [Cursor.behind_nil] at ends
      rwa [Pattern.run, if_pos holds]
    | textEnd =>
      obtain ⟨rfl, holds⟩ := reads
      rw [Cursor.behind_nil] at ends
      rwa [Pattern.run, if_pos holds]
    | notBefore rejects =>
      obtain ⟨rfl, holds⟩ := reads
      rw [Cursor.behind_nil] at ends
      rwa [Pattern.run, if_neg (Bool.eq_false_iff.mp holds)]
    | notBehind rejects =>
      obtain ⟨rfl, holds⟩ := reads
      rw [Cursor.behind_nil] at ends
      rwa [Pattern.run, if_neg (Bool.eq_false_iff.mp holds)]

/-- A shape matches where its three parts can read one after the other. -/
theorem Shape.match?_isSome_iff : (shape.match? cursor).isSome = true ↔
    ∃ lead body tail, shape.lead.Reads cursor lead ∧ shape.body.Reads (cursor.behind lead) body ∧
      shape.tail.Reads ((cursor.behind lead).behind body) tail := by
  constructor
  · intro succeeds
    obtain ⟨found, run⟩ := Option.isSome_iff_exists.mp succeeds
    obtain ⟨lead, body, tail, readsLead, readsBody, readsTail, _⟩ := Shape.match?_reads run
    exact ⟨lead, body, tail, readsLead, readsBody, readsTail⟩
  · rintro ⟨lead, body, tail, readsLead, readsBody, readsTail⟩
    refine Pattern.run_isSome_iff.mpr ⟨lead, readsLead, ?_⟩
    refine Pattern.run_isSome_iff.mpr ⟨body, readsBody, ?_⟩
    exact Pattern.run_isSome_iff.mpr ⟨tail, readsTail, rfl⟩

/-- A search behind a match misses nothing when the matches stand apart. -/
theorem Shape.search_eq {offset : Nat} {before : Option Char} {text : List Char} (apart : shape.Apart content)
    (stands : (⟨offset, before, text⟩ : Cursor).StandsIn content) :
    shape.search offset before text = (List.range' offset text.length).filterMap (shape.extentAt? content) := by
  fun_induction Shape.search shape offset before text with
  | case1 => rfl
  | case2 offset before char rest found matched shorter ih =>
    have here : shape.extentAt? content offset = some (found.start, found.stop) := by
      rw [extentAt?, ← stands.eq_cursorAt, matched]
      rfl
    have moved := Shape.beyond_standsIn stands matched
    rw [stands.eq_cursorAt] at matched
    obtain ⟨forward, none⟩ := apart offset found matched
    have skipped : (List.range' (offset + 1) (found.beyond.offset - (offset + 1))).filterMap (shape.extentAt? content) =
        [] := by
      refine List.filterMap_eq_nil_iff.mpr fun other inside => ?_
      obtain ⟨behind, inFront⟩ := List.mem_range'_1.mp inside
      rw [extentAt?, none other (by omega) (by omega)]
      rfl
    have size := stands.offset_add_length
    have sizeBeyond := moved.offset_add_length
    dsimp only [List.length_cons] at size
    have parts : List.range' (offset + 1) rest.length =
        List.range' (offset + 1) (found.beyond.offset - (offset + 1)) ++
          List.range' found.beyond.offset found.beyond.rest.length := by
      have total : rest.length = found.beyond.offset - (offset + 1) + found.beyond.rest.length := by omega
      have start : found.beyond.offset = offset + 1 + (found.beyond.offset - (offset + 1)) := by omega
      rw [total, ← List.range'_append_1, ← start]
    rw [ih moved, List.length_cons, List.range'_succ, List.filterMap_cons_some here, parts, List.filterMap_append,
      skipped, List.nil_append]
  | case3 offset before char rest found matched longer ih =>
    have moved := Shape.beyond_standsIn stands matched
    rw [stands.eq_cursorAt] at matched
    obtain ⟨forward, _⟩ := apart offset found matched
    have size := stands.offset_add_length
    have sizeBeyond := moved.offset_add_length
    dsimp only [List.length_cons] at size
    omega
  | case4 offset before char rest unmatched ih =>
    have here : shape.extentAt? content offset = none := by
      rw [extentAt?, ← stands.eq_cursorAt, unmatched]
      rfl
    rw [ih stands.step, List.length_cons, List.range'_succ, List.filterMap_cons_none here]

end Marginalia
