import Marginalia.Proofs.EscapedChars
import Marginalia.Proofs.LexicalPartition

namespace Marginalia

/-- Where a string that starts at `start` stops if it is the number of backslashes directly before a quote of its kind
that decides whether the quote ends it. -/
def StringStops (Ends : Nat → Prop) (content : Content) (quote : Char) (start stop : Nat) : Prop :=
  StopsBehindFirst (fun place => content[place]? = some quote ∧ Ends (backslashesBefore content start place))
    (start + 1) 1 content.length stop

variable {content : Content} {region : Region Lexeme} {quote : Char} {start stop place : Nat}

theorem backslashesBefore_eq_zero_iff (opens : content[start]? ≠ some '\\') (behind : start < place) :
    backslashesBefore content start place = 0 ↔ content[place - 1]? ≠ some '\\' := by
  obtain ⟨before, rfl⟩ := Nat.exists_eq_succ_of_ne_zero (Nat.ne_zero_of_lt behind)
  rw [backslashesBefore.eq_def, Nat.succ_sub_one]
  dsimp only
  rcases Nat.eq_or_lt_of_le (Nat.lt_succ_iff.mp behind) with rfl | within
  · simpa using opens
  · split
    · rename_i backslash
      simp [backslash.2]
    · rename_i other
      simpa [within] using other

/-- Looking back at one character finds the quotes without a backslash before them. -/
theorem Region.IsLexeme.stringStops (lexeme : Region.IsLexeme content ⟨start, stop, .string⟩) :
    ∃ quote ∈ ['"', '\'', '`'], content[start]? = some quote ∧ StringStops (· = 0) content quote start stop := by
  obtain ⟨quote, known, opens, stops⟩ := lexeme
  have unslashed : content[start]? ≠ some '\\' := by
    rintro slashed
    rw [opens, Option.some.injEq] at slashed
    subst slashed
    exact absurd known (by decide)
  refine ⟨quote, known, opens, stops.congr fun place behind => and_congr_right fun _ => ?_⟩
  exact (backslashesBefore_eq_zero_iff unslashed behind).symm

/-- An even number of backslashes before it leaves a quote unescaped. A string that any such quote ends stops no later
than one that needs a quote without backslashes, and at the same place exactly if there is none of the others in it. -/
theorem StringStops.unescaped (stops : StringStops (· = 0) content quote start stop) :
    ∃ unescaped, StringStops Even content quote start unescaped ∧ unescaped ≤ stop ∧
      (unescaped = stop ↔ ∀ place, start < place → place + 1 < stop → content[place]? = some quote →
        Escaped content start place) := by
  have wider : ∀ place, start + 1 ≤ place → content[place]? = some quote ∧ backslashesBefore content start place = 0 →
      content[place]? = some quote ∧ Even (backslashesBefore content start place) := by
    rintro place _ ⟨found, none⟩
    exact ⟨found, none ▸ Even.zero⟩
  have within : ∀ place, start + 1 ≤ place →
      content[place]? = some quote ∧ Even (backslashesBefore content start place) → place + 1 ≤ content.length :=
    fun place _ found => (List.getElem?_eq_some_iff.mp found.1).1
  obtain ⟨unescaped, first⟩ := exists_stopsBehindFirst
    (fun place => content[place]? = some quote ∧ Even (backslashesBefore content start place)) (start + 1) 1 content.length
  refine ⟨unescaped, first, StopsBehindFirst.le_of_imp wider within stops first, ?_⟩
  rw [StopsBehindFirst.eq_iff_of_imp wider within stops first]
  simp only [not_and, Nat.not_even_iff_odd, Escaped, Nat.succ_le_iff]

/-- A string stops behind the first quote of its kind without a backslash before it. That is never earlier than where
only escaped quotes keep it open, and the same exactly if all quotes of its kind inside it are escaped. -/
theorem stringRegion_stops (member : region ∈ lexicalRegions content) (string : region.kind = .string) :
    ∃ quote ∈ ['"', '\'', '`'], content[region.start]? = some quote ∧
      StringStops (· = 0) content quote region.start region.stop ∧
      ∃ stop, StringStops Even content quote region.start stop ∧ stop ≤ region.stop ∧
        (stop = region.stop ↔ ∀ place, region.start < place → place + 1 < region.stop → content[place]? = some quote →
          Escaped content region.start place) := by
  have lexeme := (lexicalRegions_partition content).lexemes region member
  obtain ⟨start, stop, kind⟩ := region
  obtain rfl : kind = .string := string
  obtain ⟨quote, known, opens, stops⟩ := lexeme.stringStops
  exact ⟨quote, known, opens, stops, stops.unescaped⟩

/-- The string stops behind its third quote: the second one is escaped. -/
theorem stringRegion_stops_escaped :
    let content := "\"a\\\"(\" ()".toList
    ⟨0, 6, .string⟩ ∈ lexicalRegions content ∧
      ∃ quote ∈ ['"', '\'', '`'], content[0]? = some quote ∧ StringStops (· = 0) content quote 0 6 := by
  have member : ⟨0, 6, .string⟩ ∈ lexicalRegions "\"a\\\"(\" ()".toList := by decide +kernel
  obtain ⟨quote, known, opens, stops, _⟩ := stringRegion_stops member rfl
  exact ⟨member, quote, known, opens, stops⟩

/-- The second quote is not escaped, since the backslash before it is, and yet it does not end the string. -/
theorem stringRegion_stops_paired :
    let content := "\"\\\\\" (x)".toList
    ⟨0, 8, .string⟩ ∈ lexicalRegions content ∧ StringStops Even content '"' 0 4 ∧
      ¬StringStops Even content '"' 0 8 := by
  have member : ⟨0, 8, .string⟩ ∈ lexicalRegions "\"\\\\\" (x)".toList := by decide +kernel
  have stops : StringStops Even "\"\\\\\" (x)".toList '"' 0 4 :=
    Or.inl ⟨3, by decide, by decide, by decide, rfl⟩
  exact ⟨member, stops, fun later => absurd (stops.unique later) (by decide)⟩

end Marginalia
