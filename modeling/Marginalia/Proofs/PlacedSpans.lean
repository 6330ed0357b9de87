import Marginalia.Proofs.BaseSpans
import Marginalia.Proofs.OrderedItems
import Marginalia.Proofs.PaintedSpans

namespace Marginalia

/-- Two spans share a character. -/
def Span.Meets (left right : Span) : Prop :=
  ∃ place, left.Covers place ∧ right.Covers place

theorem Span.Meets.symm {left right : Span} (meets : left.Meets right) : right.Meets left := by
  obtain ⟨place, inLeft, inRight⟩ := meets
  exact ⟨place, inRight, inLeft⟩

theorem Span.meets_iff_overlaps {left right : Span} (nonempty : left.start < left.stop)
    (nonempty' : right.start < right.stop) : left.Meets right ↔ left.overlaps right = true := by
  unfold Meets Covers overlaps
  rw [Bool.and_eq_true, decide_eq_true_iff, decide_eq_true_iff]
  constructor
  · rintro ⟨place, inLeft, inRight⟩
    omega
  · rintro ⟨before, behind⟩
    exact ⟨max left.start right.start, by omega, by omega⟩

/-- Spans that cover something each and share no character. -/
structure SpansApart (spans : List Span) : Prop where
  nonempty : ∀ span ∈ spans, span.start < span.stop
  apart : spans.Pairwise fun left right => ¬left.Meets right

variable {spans candidates before after : List Span} {span candidate : Span}

theorem SpansApart.not_meets (apart : SpansApart spans) {left right : Span} (inLeft : left ∈ spans)
    (inRight : right ∈ spans) (different : left ≠ right) : ¬left.Meets right := by
  have disjoint := apart.apart.imp fun separate place covers covers' => separate ⟨place, covers, covers'⟩
  rintro ⟨place, covers, covers'⟩
  exact different (eq_of_shared_place disjoint inLeft inRight covers covers')

theorem prefix_placeIfFree (spans : List Span) (span : Span) : spans <+: placeIfFree spans span := by
  unfold placeIfFree
  split
  · exact List.prefix_append ..
  · exact List.prefix_rfl

/-- A place once taken is kept. -/
theorem prefix_foldl_placeIfFree (candidates spans : List Span) : spans <+: candidates.foldl placeIfFree spans := by
  induction candidates generalizing spans with
  | nil => exact List.prefix_rfl
  | cons candidate rest ih => exact (prefix_placeIfFree spans candidate).trans (ih _)

theorem SpansApart.place (apart : SpansApart spans) (span : Span) : SpansApart (placeIfFree spans span) := by
  unfold placeIfFree
  split
  · rename_i free
    obtain ⟨nonempty, alone⟩ := free
    rw [List.any_eq_true] at alone
    constructor
    · intro other member
      rcases List.mem_append.mp member with old | new
      · exact apart.nonempty other old
      · rw [List.mem_singleton.mp new]
        exact nonempty
    · refine List.pairwise_append.mpr ⟨apart.apart, List.pairwise_singleton .., fun other old new added meets => ?_⟩
      rw [List.mem_singleton.mp added] at meets
      exact alone ⟨other, old, (Span.meets_iff_overlaps nonempty (apart.nonempty other old)).mp meets.symm⟩
  · exact apart

theorem SpansApart.placeAll (apart : SpansApart spans) (candidates : List Span) :
    SpansApart (candidates.foldl placeIfFree spans) := by
  induction candidates generalizing spans with
  | nil => exact apart
  | cons candidate rest ih => exact ih (apart.place candidate)

/-- A span that covers something finds its place unless it shares a character with one that was there before. -/
theorem SpansApart.placed_or_met (apart : SpansApart spans) (nonempty : span.start < span.stop) :
    span ∈ placeIfFree spans span ∨ ∃ other ∈ spans, span.Meets other := by
  unfold placeIfFree
  by_cases blocked : spans.any span.overlaps
  · obtain ⟨other, member, overlaps⟩ := List.any_eq_true.mp blocked
    exact Or.inr ⟨other, member, (Span.meets_iff_overlaps nonempty (apart.nonempty other member)).mpr overlaps⟩
  · rw [if_pos ⟨nonempty, blocked⟩]
    exact Or.inl (List.mem_append_right _ (List.mem_singleton_self span))

/-- After a whole run of candidates, each one that covers something has its place, or shares a character with a span
that was there at first or came earlier in the run. -/
theorem SpansApart.placedAll_or_met (apart : SpansApart spans) (nonempty : candidate.start < candidate.stop) :
    candidate ∈ (before ++ candidate :: after).foldl placeIfFree spans ∨
      ∃ other ∈ (before ++ candidate :: after).foldl placeIfFree spans,
        candidate.Meets other ∧ (other ∈ spans ∨ other ∈ before) := by
  rw [List.foldl_append, List.foldl_cons]
  have later := prefix_foldl_placeIfFree after (placeIfFree (before.foldl placeIfFree spans) candidate)
  rcases (apart.placeAll before).placed_or_met nonempty with placed | ⟨other, member, meets⟩
  · exact Or.inl (later.subset placed)
  · have stays := later.subset ((prefix_placeIfFree _ candidate).subset member)
    rcases mem_foldl_placeIfFree member with first | ⟨earlier, _⟩
    · exact Or.inr ⟨other, stays, meets, Or.inl first⟩
    · exact Or.inr ⟨other, stays, meets, Or.inr earlier⟩

/-- Spans that share no character follow one another once they are sorted by their starts. -/
theorem SpansApart.sorted (apart : SpansApart spans) :
    (spans.mergeSort fun left right => left.start ≤ right.start).Pairwise fun left right =>
      left.start < right.start ∧ ¬left.Meets right := by
  have ascending : (spans.mergeSort fun left right => left.start ≤ right.start).Pairwise fun left right =>
      left.start ≤ right.start := pairwise_mergeSort_key ..
  have same := List.mergeSort_perm spans fun left right => decide (left.start ≤ right.start)
  have separate := apart.apart.perm same.symm fun separate meets => separate meets.symm
  refine (ascending.and separate).imp_of_mem fun {left right} inLeft inRight ⟨ordered, separate⟩ => ⟨?_, separate⟩
  have nonempty := apart.nonempty left (same.subset inLeft)
  have nonempty' := apart.nonempty right (same.subset inRight)
  refine Nat.lt_of_le_of_ne ordered fun equal => ?_
  exact separate ⟨left.start, ⟨Nat.le_refl _, nonempty⟩, by rw [equal]; exact ⟨Nat.le_refl _, nonempty'⟩⟩

theorem Language.regionSpans_apart (language : Language) (content : List Char) :
    SpansApart (language.regionSpans content) := by
  refine ⟨fun span member => (Language.allows_of_mem_regionSpans member).1, ?_⟩
  unfold regionSpans
  refine List.Pairwise.filterMap _ (fun left right ordered span opened span' opened' meets => ?_)
    (carve_ordered (openRegion_bounded language.regions) (Cursor.start_standsIn content))
  obtain ⟨place, inside, inside'⟩ := meets
  cases left with
  | plain => cases opened
  | region extent =>
    cases right with
    | plain => cases opened'
    | region extent' =>
      cases opened
      cases opened'
      exact absurd (Nat.lt_of_lt_of_le inside.2 ordered) (Nat.not_lt.mpr inside'.1)

theorem Language.placedSpans_apart (language : Language) (content : List Char) :
    SpansApart (language.placedSpans content) :=
  (language.regionSpans_apart content).placeAll _

/-- Spans that hold every string and comment of a content, outside of them tokens only, and as many tokens as find
a place: the matches of the rules come one rule after the other, and those of a rule from left to right. -/
structure Language.Fills (language : Language) (content : List Char) (spans : List Span) : Prop where
  regions : ∀ region ∈ language.regionSpans content, region ∈ spans
  tokens : ∀ span ∈ spans, span ∉ language.regionSpans content →
    (∃ rule ∈ language.tokens, span ∈ rule.candidates content) ∧
      ∀ region ∈ language.regionSpans content, ¬span.Meets region
  maximal : ∀ earlier rule later, language.tokens = earlier ++ rule :: later →
    ∀ before candidate after, rule.candidates content = before ++ candidate :: after →
      candidate.start < candidate.stop →
        candidate ∈ spans ∨ ∃ span ∈ spans, candidate.Meets span ∧
          (span ∈ language.regionSpans content ∨ (∃ other ∈ earlier, span ∈ other.candidates content) ∨ span ∈ before)

theorem Language.placedSpans_fill (language : Language) (content : List Char) :
    language.Fills content (language.placedSpans content) := by
  have regions : ∀ region ∈ language.regionSpans content, region ∈ language.placedSpans content :=
    fun region member => (prefix_foldl_placeIfFree _ _).subset member
  refine ⟨regions, fun span member outside => ⟨?_, fun region inRegions => ?_⟩, ?_⟩
  · rcases mem_foldl_placeIfFree member with region | ⟨candidate, _⟩
    · exact absurd region outside
    · exact List.mem_flatMap.mp candidate
  · have different : span ≠ region := fun same => outside (same ▸ inRegions)
    exact (language.placedSpans_apart content).not_meets member (regions region inRegions) different
  · intro earlier rule later rules before candidate after found nonempty
    have order : (language.tokens.flatMap fun rule => rule.candidates content) =
        ((earlier.flatMap fun rule => rule.candidates content) ++ before) ++
          candidate :: (after ++ later.flatMap fun rule => rule.candidates content) := by
      rw [rules, List.flatMap_append, List.flatMap_cons, found]
      simp only [List.append_assoc, List.cons_append]
    unfold placedSpans
    rw [order]
    rcases (language.regionSpans_apart content).placedAll_or_met nonempty with placed | ⟨span, member, meets, origin⟩
    · exact Or.inl placed
    · refine Or.inr ⟨span, member, meets, origin.imp_right fun came => ?_⟩
      rcases List.mem_append.mp came with fromEarlier | sameRule
      · exact Or.inl (List.mem_flatMap.mp fromEarlier)
      · exact Or.inr sameRule

theorem Language.Fills.congr {language : Language} {content : List Char} (fills : language.Fills content spans)
    {others : List Span} (same : ∀ span, span ∈ others ↔ span ∈ spans) : language.Fills content others := by
  refine ⟨fun region member => (same region).mpr (fills.regions region member),
    fun span member => fills.tokens span ((same span).mp member), ?_⟩
  intro earlier rule later rules before candidate after found nonempty
  simp only [same]
  exact fills.maximal earlier rule later rules before candidate after found nonempty

/-- Base spans cover something of the content, follow one another without sharing a character, and have styles that
every sheet defines. In a language they hold all strings and comments, and as many tokens outside of them as find
a place. -/
theorem tokenize_fills (content : List Char) (filetype : String) :
    (∀ span ∈ tokenize content filetype,
      span.start < span.stop ∧ span.stop ≤ content.length ∧ ∀ sheet : Sheet, span.style ∈ sheet.styles.map (·.1)) ∧
    (tokenize content filetype).Pairwise (fun left right => left.start < right.start ∧ ¬left.Meets right) ∧
    ∀ language, Language.ofFiletype? filetype = some language →
      language.Fills content (tokenize content filetype) := by
  refine ⟨fun span member => tokenize_spec member, ?_, fun language known => ?_⟩
  · unfold tokenize
    split
    · exact .nil
    · rename_i language _
      exact (language.placedSpans_apart content).sorted
  · unfold tokenize
    rw [known]
    exact (language.placedSpans_fill content).congr fun span => List.mem_mergeSort

-- The name of a called function would begin at the same place, but the rule for keywords comes first.
example : tokenize "if(".toList "python" = [⟨0, 2, "keyword", none⟩] := by cbv

end Marginalia
