import Marginalia.Proofs.TermOccurrences
import Marginalia.Session.Event
import Marginalia.SourceFile.Read
import Mathlib.Data.List.Triplewise

namespace Marginalia

/-- A line goes from one offset up to another one, where its newline stands or the content ends. -/
def LineGoes (content : Content) (line start stop : Nat) : Prop :=
  (lineRanges content)[line]? = some (start, stop)

variable {content front rest : Content} {place line start stop : Nat} {term : List Char} {hit : SearchMatch}

/-- The extents of lines lie one behind another, at least a newline apart. -/
theorem lineRangesFrom_apart {first offset : Nat} (inOrder : first ≤ offset) (content : Content) :
    ((lineRangesFrom first offset content).Pairwise fun left right => left.2 < right.1) ∧
      ∀ range ∈ lineRangesFrom first offset content, first ≤ range.1 := by
  induction content generalizing first offset with
  | nil => exact ⟨List.pairwise_singleton .., by simp [lineRangesFrom]⟩
  | cons char rest ih =>
    by_cases newline : char = '\n'
    · obtain ⟨apart, behind⟩ := ih (Nat.le_refl (offset + 1))
      rw [lineRangesFrom, if_pos newline]
      refine ⟨List.pairwise_cons.mpr ⟨fun range member => behind range member, apart⟩, ?_⟩
      refine List.forall_mem_cons.mpr ⟨Nat.le_refl first, fun range member => ?_⟩
      have later := behind range member
      omega
    · rw [lineRangesFrom, if_neg newline]
      exact ih (by omega)

/-- Every place is on the line that the newlines in front of it count, and on no other. -/
theorem LineGoes.lineAt_eq (goes : LineGoes content line start stop) (behind : start ≤ place) (inFront : place ≤ stop) :
    lineAt content place = line := by
  have within : place ≤ content.length := inFront.trans (stop_le_of_mem_lineRanges (List.mem_of_getElem? goes))
  obtain ⟨first, found, before⟩ := lineRanges_at within
  have apart : (lineRanges content).Pairwise fun left right => left.2 < right.1 :=
    (lineRangesFrom_apart (Nat.le_refl 0) content).1
  obtain ⟨atLine, goes⟩ := List.getElem?_eq_some_iff.mp goes
  obtain ⟨counted, found⟩ := List.getElem?_eq_some_iff.mp found
  -- Of two different lines the later one would start behind the place.
  rcases Nat.lt_trichotomy (lineAt content place) line with less | same | more
  · have order := List.pairwise_iff_getElem.mp apart _ _ counted atLine less
    rw [found, goes] at order
    dsimp only at order
    omega
  · exact same
  · have order := List.pairwise_iff_getElem.mp apart _ _ atLine counted more
    rw [found, goes] at order
    dsimp only at order
    omega

/-- What stands between the start of its line and a place begins at that start. -/
theorem LineGoes.length_lineTextBefore (goes : LineGoes content line start stop) (behind : start ≤ place)
    (inFront : place ≤ stop) : start + (lineTextBefore content place).length = place := by
  have within : place ≤ content.length := inFront.trans (stop_le_of_mem_lineRanges (List.mem_of_getElem? goes))
  obtain ⟨first, found, before⟩ := lineRanges_at within
  rw [goes.lineAt_eq behind inFront] at found
  obtain ⟨rfl, _⟩ := Prod.mk.inj (Option.some.inj (goes.symm.trans found))
  exact before

theorem existsUnique_line (within : place ≤ content.length) :
    ∃! line, ∃ start stop, LineGoes content line start stop ∧ start ≤ place ∧ place ≤ stop := by
  obtain ⟨start, found, before⟩ := lineRanges_at within
  refine ⟨lineAt content place, ⟨start, _, found, by omega, by omega⟩, ?_⟩
  rintro line ⟨first, last, goes, behind, inFront⟩
  exact (goes.lineAt_eq behind inFront).symm

/-- The newlines in front of a place come first among all newlines. -/
theorem length_takeWhile_idxsOf (offset : Nat) (content : Content) (place : Nat) :
    ((content.idxsOf '\n' offset).takeWhile (· < offset + place)).length = lineAt content place := by
  induction content generalizing offset place with
  | nil => simp [lineAt]
  | cons char rest ih =>
    cases place with
    | zero =>
      have none : ((char :: rest).idxsOf '\n' offset).takeWhile (· < offset + 0) = [] := by
        cases found : (char :: rest).idxsOf '\n' offset with
        | nil => rfl
        | cons newline later =>
          have behind := List.ge_of_mem_idxsOf newline (found ▸ List.mem_cons_self ..)
          exact List.takeWhile_cons_of_neg (by simpa using behind)
      rw [none]
      rfl
    | succ place =>
      have later := ih (offset + 1) place
      rw [Nat.add_right_comm, Nat.add_assoc] at later
      rw [List.idxsOf_cons]
      by_cases newline : char = '\n'
      · rw [if_pos (beq_iff_eq.mpr newline), List.takeWhile_cons_of_pos (by simp), List.length_cons, later, lineAt,
          lineAt, List.take_succ_cons, newline, List.count_cons_self]
      · rw [if_neg (by simpa using newline), later, lineAt, lineAt, List.take_succ_cons,
          List.count_cons_of_ne newline]

theorem exists_place_of_mem_findMatches {term : String} (member : hit ∈ findMatches content term) :
    ∃ place ≤ content.length, hit.start = place ∧ hit.line = lineAt content place ∧
      hit.column = (lineTextBefore content place).length := by
  obtain ⟨_, place, occurs, rfl⟩ := mem_findMatches_iff.mp member
  exact ⟨place, (occursAt_iff.mp occurs).1, rfl, rfl, rfl⟩

theorem line_of_mem_findKeywords {keywords : List Keyword} {found : KeywordMatch}
    (member : found ∈ findKeywords content keywords) : found.line = lineAt content found.start := by
  obtain ⟨keyword, _, atKeyword⟩ := List.mem_flatMap.mp (List.mem_mergeSort.mp member)
  obtain ⟨place, _, rfl⟩ := List.mem_map.mp atKeyword
  exact LineIndex.lineOf_ofContent content place

/-- The texts of the lines are what stands between the newlines. -/
theorem map_lineRangesFrom_eq_splitOn {whole text rest : Content} {first : Nat}
    (behind : whole.drop first = text ++ rest) (free : '\n' ∉ text) :
    (lineRangesFrom first (first + text.length) rest).map (fun (start, stop) => (whole.drop start).take (stop - start)) =
        (text ++ rest).splitOn '\n' ∧
      ∀ line ∈ (text ++ rest).splitOn '\n', '\n' ∉ line := by
  induction rest generalizing text first with
  | nil =>
    rw [List.append_nil] at behind ⊢
    rw [List.splitOn_eq_singleton free, lineRangesFrom, List.map_singleton]
    dsimp only
    rw [behind, Nat.add_sub_cancel_left, List.take_length]
    exact ⟨rfl, List.forall_mem_singleton.mpr free⟩
  | cons char rest ih =>
    by_cases newline : char = '\n'
    · have next : whole.drop (first + text.length + 1) = [] ++ rest := by
        rw [Nat.add_assoc, ← List.drop_drop, behind, List.append_cons, List.drop_left' (by simp), List.nil_append]
      obtain ⟨texts, frees⟩ := ih next List.not_mem_nil
      rw [newline, List.splitOn_append_cons_self_of_not_mem free, lineRangesFrom, if_pos rfl, List.map_cons]
      refine ⟨List.cons_eq_cons.mpr ⟨?_, texts⟩, List.forall_mem_cons.mpr ⟨free, frees⟩⟩
      dsimp only
      rw [behind, Nat.add_sub_cancel_left, List.take_left]
    · rw [List.append_cons] at behind ⊢
      rw [lineRangesFrom, if_neg newline, Nat.add_assoc, ← List.length_singleton (a := char), ← List.length_append]
      exact ih behind (by simp [free, Ne.symm newline])

theorem lineTexts_eq_splitOn (content : Content) :
    lineTexts content = content.splitOn '\n' ∧ ∀ text ∈ lineTexts content, '\n' ∉ text := by
  have whole : content.drop 0 = [] ++ content := rfl
  obtain ⟨texts, free⟩ := map_lineRangesFrom_eq_splitOn whole List.not_mem_nil
  exact ⟨texts, fun text member => free text (texts ▸ member)⟩

/-- A line is gone to when there is one with its number; else nothing happens. -/
theorem Session.requestLine_of_lineCount (session : Session) (number : Int) :
    ((session.requestLine number).2 = true ↔ 1 ≤ number ∧ number ≤ lineCount session.source.content) ∧
      ((session.requestLine number).2 = false → (session.requestLine number).1 = session) := by
  unfold requestLine jumpToLine
  dsimp only
  by_cases within : 0 ≤ number - 1 ∧ number - 1 < lineCount session.source.content
  · rw [if_pos within]
    exact ⟨⟨fun _ => by omega, fun _ => rfl⟩, nofun⟩
  · rw [if_neg within]
    exact ⟨⟨nofun, fun inside => absurd inside (by omega)⟩, fun _ => rfl⟩

/-- Every way to number lines gives a place the one line that goes over it. -/
theorem lineNumbers_agree (content : Content) :
    ((lineRanges content).length = lineCount content ∧ (lineStarts content).length = lineCount content ∧
      ∀ text : SourceText, text.content = content → text.lineCount = lineCount content) ∧
    (∀ place ≤ content.length,
      (∃! line, ∃ start stop, LineGoes content line start stop ∧ start ≤ place ∧ place ≤ stop) ∧
      ∀ line start stop, LineGoes content line start stop → start ≤ place → place ≤ stop →
        lineOfOffset (lineStarts content) place = line ∧
        ((content.idxsOf '\n').takeWhile (· < place)).length = line ∧
        (LineIndex.ofContent content).lineOf place = line ∧ (LineIndex.ofContent content).lineStart line = start ∧
        (∀ term, ∀ hit ∈ findMatches content term, hit.start = place → hit.line = line ∧ hit.column = place - start) ∧
        ∀ keywords, ∀ hit ∈ findKeywords content keywords, hit.start = place → hit.line = line) ∧
    ((∀ text ∈ lineTexts content, '\n' ∉ text) ∧ ['\n'].intercalate (lineTexts content) = content) ∧
    ∀ session : Session, session.source.content = content → ∀ number : Int,
      ((session.requestLine number).2 = true ↔ 1 ≤ number ∧ number ≤ lineCount content) ∧
      ((session.requestLine number).2 = false → (session.requestLine number).1 = session) := by
  obtain ⟨texts, free⟩ := lineTexts_eq_splitOn content
  refine ⟨⟨length_lineRanges content, length_lineStarts content, ?_⟩, ?_, ⟨free, ?_⟩, ?_⟩
  · rintro text rfl
    rfl
  · refine fun place within => ⟨existsUnique_line within, fun line start stop goes behind inFront => ?_⟩
    have line_eq := goes.lineAt_eq behind inFront
    have column := goes.length_lineTextBefore behind inFront
    have newlines := length_takeWhile_idxsOf 0 content place
    rw [Nat.zero_add] at newlines
    have lookedUp := (LineIndex.lineOf_ofContent content place).trans line_eq
    have startOf := LineIndex.lineStart_lineAt within
    rw [line_eq] at startOf
    refine ⟨(lineOfOffset_lineStarts content place).trans line_eq, newlines.trans line_eq, lookedUp,
      Nat.add_right_cancel (startOf.trans column.symm), ?_, ?_⟩
    · intro term hit member here
      obtain ⟨start, _, stands, ofLine, ofColumn⟩ := exists_place_of_mem_findMatches member
      obtain rfl : start = place := by omega
      rw [ofLine, ofColumn, line_eq]
      exact ⟨rfl, by omega⟩
    · intro keywords hit member here
      rw [line_of_mem_findKeywords member, here, line_eq]
  · rw [texts, List.intercalate_splitOn]
  · rintro session rfl number
    exact session.requestLine_of_lineCount number

end Marginalia
