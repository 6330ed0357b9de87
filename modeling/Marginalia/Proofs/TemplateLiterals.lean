import Marginalia.Proofs.StringsAndComments

namespace Marginalia

variable {content : Content} {filetype : String} {place close : Nat}

/-- At a backtick only a template literal can open. -/
theorem openRegion_backtick (before : Option Char) (rest : List Char) :
    openRegion javaScript.regions before ('`' :: rest) =
      (quotedLength? '`' true rest).map fun length => ("string", length + 1) := by
  have block := (Pattern.goesAs_delimited "/*" "*/").length?_eq before ('`' :: rest)
  have line := (Pattern.goesAs_restOfLine "//").length?_eq before ('`' :: rest)
  have template := (@Pattern.goesAs_quoted '`' true (by decide)).length?_eq before ('`' :: rest)
  have double := (@Pattern.goesAs_quoted '"' false (by decide)).length?_eq before ('`' :: rest)
  have single := (@Pattern.goesAs_quoted '\'' false (by decide)).length?_eq before ('`' :: rest)
  simp only [openRegion, javaScript, List.findSome?_cons, block, line, template, double, single]
  cases closes : quotedLength? '`' true rest <;>
    simp [delimitedLength?, restOfLineLength?, quoteLength?, dropMark?, closes]

/-- A region that starts at a backtick outside the regions before it is a template literal up to the backtick that
closes it, and there is one exactly if no newline in between is escaped. -/
theorem mem_regionSpans_backtick_iff {stop : Nat} {style : String} (backtick : content[place]? = some '`')
    (outside : ∀ span ∈ javaScript.regionSpans content, span.start < place → span.stop ≤ place) :
    ⟨place, stop, style, none⟩ ∈ javaScript.regionSpans content ↔
      style = "string" ∧ ∃ close, Closes content '`' place close ∧ NewlinesFit true content place close ∧
        stop = close + 1 := by
  obtain ⟨within, here⟩ := List.getElem?_eq_some_iff.mp backtick
  rw [Language.mem_regionSpans_iff_of_outside within outside, List.drop_eq_getElem_cons within, here]
  simp only [openRegion_backtick, Option.map_eq_some_iff, quotedLength?_eq_some_iff, Prod.mk.injEq]
  constructor
  · rintro ⟨length, ⟨inner, ⟨closes, fit⟩, rfl, same⟩, rfl⟩
    exact ⟨rfl, place + inner, closes, fit, by omega⟩
  · rintro ⟨rfl, close, closes, fit, rfl⟩
    obtain ⟨inner, rfl⟩ := Nat.exists_eq_add_of_lt closes.behind
    exact ⟨inner + 1, ⟨inner + 1, ⟨closes, fit⟩, rfl, rfl⟩, rfl⟩

/-- A backtick outside the strings and comments before it opens a template literal up to the first backtick behind it
that is not escaped, on whatever line that is, exactly if no newline in between is escaped. Nothing else starts there. -/
theorem tokenize_template (named : Language.ofFiletype? filetype = some javaScript)
    (backtick : content[place]? = some '`')
    (outside : ∀ span ∈ stringsAndComments (tokenize content filetype), span.start < place → span.stop ≤ place)
    (closes : Closes content '`' place close) :
    (⟨place, close + 1, "string", none⟩ ∈ tokenize content filetype ↔
      ∀ newline < close, place < newline → content[newline]? = some '\n' → ¬Escaped content place newline) ∧
    ∀ span ∈ stringsAndComments (tokenize content filetype), span.start = place →
      span = ⟨place, close + 1, "string", none⟩ := by
  have regions := stringsAndComments_tokenize named content
  have isString : ⟨place, close + 1, "string", none⟩ ∈ tokenize content filetype ↔
      ⟨place, close + 1, "string", none⟩ ∈ stringsAndComments (tokenize content filetype) := by
    simp [stringsAndComments]
  rw [isString, regions]
  rw [regions] at outside
  constructor
  · rw [mem_regionSpans_backtick_iff backtick outside, and_iff_right rfl]
    constructor
    · rintro ⟨other, closes', fit, same⟩ newline before behind atNewline
      obtain rfl := Nat.succ.inj same
      exact (fit newline before behind atNewline).2
    · intro unescaped
      exact ⟨close, closes, fun newline before behind here => ⟨rfl, unescaped newline before behind here⟩, rfl⟩
  · rintro ⟨start, stop, style, note⟩ member rfl
    obtain rfl : note = none := (Language.mem_regionSpans_iff.mp member).1
    obtain ⟨rfl, other, closes', _, rfl⟩ := (mem_regionSpans_backtick_iff backtick outside).mp member
    rw [closes.unique closes']

/-- Escaped backticks, a backslash that is escaped itself and plain newlines do not end or break a literal. -/
theorem tokenize_template_lines :
    let content := "`a\\`\n// ${b}\\\\` // c".toList
    Language.ofFiletype? "TSX" = some javaScript ∧ content[0]? = some '`' ∧ Closes content '`' 0 14 ∧
      (⟨0, 15, "string", none⟩ : Span) ∈ tokenize content "TSX" := by
  have named : Language.ofFiletype? "TSX" = some javaScript := rfl
  have closes : Closes "`a\\`\n// ${b}\\\\` // c".toList '`' 0 14 :=
    ⟨by decide, by decide, by decide, by decide⟩
  obtain ⟨spans, _⟩ := tokenize_template named rfl (fun _ _ before => absurd before (Nat.not_lt_zero _)) closes
  exact ⟨named, rfl, closes, spans.mpr (by decide)⟩

/-- A literal with an escaped newline is missed. -/
theorem tokenize_template_escaped :
    let content := "`a\\\n// b`".toList
    Language.ofFiletype? "javascript" = some javaScript ∧ content[0]? = some '`' ∧ Closes content '`' 0 8 ∧
      (⟨0, 9, "string", none⟩ : Span) ∉ stringsAndComments (tokenize content "javascript") := by
  have named : Language.ofFiletype? "javascript" = some javaScript := rfl
  have closes : Closes "`a\\\n// b`".toList '`' 0 8 := ⟨by decide, by decide, by decide, by decide⟩
  refine ⟨named, rfl, closes, fun literal => ?_⟩
  rw [stringsAndComments_tokenize named,
    mem_regionSpans_backtick_iff rfl (fun _ _ before => absurd before (Nat.not_lt_zero _))] at literal
  obtain ⟨_, close, closes', fit, same⟩ := literal
  obtain rfl := Nat.succ.inj same
  -- the backslash at 2 takes the newline along
  exact (fit 3 (by decide) (by decide) rfl).2 (by decide)

end Marginalia
