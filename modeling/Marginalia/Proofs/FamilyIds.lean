import Marginalia.Proofs.AuthorIds
import Marginalia.Proofs.BaseSpans
import Marginalia.Proofs.ComposedSpans
import Marginalia.Proofs.HitSpans
import Marginalia.Proofs.SwatchTable
import Marginalia.Session.Highlight

namespace Marginalia

/-- Matches that were found in a content. -/
def Selection.FoundIn (selection : Selection) (content : Content) : Prop :=
  selection.found = findMatches content selection.term

/-- A selection as searches leave it. -/
structure Selection.Standard (selection : Selection) : Prop where
  stands : selection.Stands
  found : ∃ content, selection.FoundIn content

/-- An annotator as viewers have it: with the keywords that the sheets know, with ids of authors, and with matches of a
search. -/
def Annotator.Standard : Annotator → Prop
  | .bracket _ => True
  | .color _ => True
  | .blame annotator => ∀ name ∈ annotator.authorIds.map (·.2), IsAuthorId name
  | .lint annotator => annotator.keywords = defaultKeywords
  | .search annotator => annotator.selection.Standard

def Session.Standard (session : Session) : Prop :=
  ∀ family, (session.annotator family).Standard

variable {session : Session} {source : Source} {annotator : Annotator} {family : Family} {name : String}

/-- No style id belongs to two families. -/
theorem Family.Owns.unique {other : Family} (owned : family.Owns name) (alsoOwned : other.Owns name) :
    family = other := by
  rcases Nat.le_total family.idStart.toList.length other.idStart.toList.length with shorter | shorter
  · have starts := List.prefix_of_prefix_length_le owned alsoOwned shorter
    cases family <;> cases other <;> first | rfl | exact absurd starts (by decide)
  · have starts := List.prefix_of_prefix_length_le alsoOwned owned shorter
    cases family <;> cases other <;> first | rfl | exact absurd starts (by decide)

theorem IsAuthorId.owned (isAuthorId : IsAuthorId name) : Family.blame.Owns name :=
  List.IsPrefix.trans (by decide) isAuthorId

theorem IsAuthorId.not_isColorId (isAuthorId : IsAuthorId name) : ¬IsColorId name := by
  intro isColorId
  have same : Family.blame = .color := isAuthorId.owned.unique isColorId
  cases same

/-- The languages have no style ids of families. -/
theorem Language.not_owns_of_mem_styles {language : Language} (known : language ∈ Language.all)
    (member : name ∈ language.styles) (family : Family) : ¬family.Owns name := by
  have unowned : ∀ language ∈ Language.all, ∀ name ∈ language.styles, ∀ family ∈ Family.all, ¬family.Owns name := by
    decide +kernel
  exact unowned language known name member family (by cases family <;> decide)

theorem not_owns_of_mem_tokenize {content : Content} {filetype : String} {span : Span}
    (member : span ∈ tokenize content filetype) (family : Family) : ¬family.Owns span.style := by
  obtain ⟨language, known, _, _, style⟩ := exists_allows_of_mem_tokenize member
  exact Language.not_owns_of_mem_styles known style family

/-- A standard annotator never fails, and its spans have styles of its family. -/
theorem Annotator.Standard.annotate (standard : annotator.Standard) (source : Source) :
    ∃ spans, annotator.annotate source = .ok spans ∧ ∀ span ∈ spans, annotator.family.Owns span.style := by
  cases annotator with
  | bracket annotator =>
    exact ⟨_, rfl, fun span member => (BracketAnnotator.mem_annotate member).2.owned⟩
  | color annotator =>
    refine ⟨_, rfl, fun span member => ?_⟩
    obtain ⟨_, color, _, style⟩ := ColorAnnotator.mem_annotate member
    rw [style]
    exact color.isColorId
  | blame annotator =>
    refine ⟨_, rfl, fun span member => ?_⟩
    obtain ⟨_, defined | given⟩ := BlameAnnotator.mem_annotate member
    · exact defined.owned
    · exact (standard _ given).owned
  | lint annotator =>
    obtain ⟨spans, annotated, sound⟩ := LintAnnotator.annotate_ok standard source
    exact ⟨spans, annotated, fun span member => (sound span member).2.owned⟩
  | search annotator =>
    obtain ⟨content, found⟩ := standard.found
    obtain ⟨spans, annotated, sound⟩ := SearchAnnotator.annotate_ok found source
    exact ⟨spans, annotated, fun span member => (sound span member).2.owned⟩

theorem Annotator.Standard.added (standard : annotator.Standard) (source : Source) :
    annotator.added source = .ok (annotator.spans source) ∧
      ∀ span ∈ annotator.spans source, annotator.family.Owns span.style := by
  obtain ⟨spans, annotated, owned⟩ := standard.annotate source
  refine ⟨Annotator.added_eq fun _ => by rw [annotated]; rfl, ?_⟩
  unfold Annotator.spans Annotator.added
  split
  · rw [annotated]
    exact owned
  · exact fun span none => absurd none List.not_mem_nil

theorem Annotator.Standard.status (standard : annotator.Standard) : ∃ text, annotator.status = .ok text := by
  cases annotator with
  | search annotator => exact standard.stands.summary
  | _ => exact ⟨_, rfl⟩

/-- A style is that of spans of its family only. -/
theorem filter_style_of_owns (owned : family.Owns name) (spans : List Span) :
    spans.filter (·.style = name) = (spans.filter (family.Owns ·.style)).filter (·.style = name) := by
  rw [List.filter_filter]
  refine List.filter_congr fun span _ => ?_
  by_cases same : span.style = name <;> simp [same, owned]

/-- What a family owns of the spans of several families is what that one has, if it is among them. -/
theorem filter_owns_flatMap {families : List Family} {spansOf : Family → List Span} (distinct : families.Nodup)
    (owned : ∀ family, ∀ span ∈ spansOf family, family.Owns span.style) (family : Family) :
    (families.flatMap spansOf).filter (family.Owns ·.style) = if family ∈ families then spansOf family else [] := by
  induction families with
  | nil => rfl
  | cons other rest ih =>
    obtain ⟨new, distinct⟩ := List.nodup_cons.mp distinct
    rw [List.flatMap_cons, List.filter_append, ih distinct]
    by_cases same : family = other
    · subst same
      have all : (spansOf family).filter (family.Owns ·.style) = spansOf family :=
        List.filter_eq_self.mpr fun span member => decide_eq_true (owned family span member)
      rw [all, if_neg new, if_pos (List.mem_cons_self ..), List.append_nil]
    · have none : (spansOf other).filter (family.Owns ·.style) = [] := by
        refine List.filter_eq_nil_iff.mpr fun span member owns => same ?_
        exact (of_decide_eq_true owns).unique (owned other span member)
      rw [none, List.nil_append]
      simp [same]

/-- What a family owns of a drawing is what its annotator has, wherever the base came from. -/
theorem Session.Standard.filter_owns (standard : session.Standard) {base : List Span}
    (unowned : ∀ span ∈ base, ∀ family : Family, ¬family.Owns span.style) (family : Family) :
    (base ++ session.annotators.flatMap (Annotator.spans session.source)).filter (family.Owns ·.style) =
      (session.annotator family).spans session.source := by
  have families : ∀ family, (session.annotator family).family = family := by
    intro family
    cases family <;> rfl
  have none : base.filter (family.Owns ·.style) = [] :=
    List.filter_eq_nil_iff.mpr fun span member owns => unowned span member family (of_decide_eq_true owns)
  have owned : ∀ family, ∀ span ∈ (session.annotator family).spans session.source, family.Owns span.style := by
    intro family span member
    have owns := ((standard family).added session.source).2 span member
    rwa [families] at owns
  have distinct : Family.drawOrder.Nodup := by decide
  have all := filter_owns_flatMap distinct owned family
  have known : family ∈ Family.drawOrder := by cases family <;> decide
  rw [if_pos known] at all
  rw [List.filter_append, none, List.nil_append, Session.annotators, List.flatMap_map]
  exact all

end Marginalia
