import Marginalia.Proofs.BaseSpans
import Marginalia.Proofs.EscapedChars

namespace Marginalia

/-- A kind of string or comment: the style it is shown in, and the stretches of a content that are of the kind. -/
structure RegionKind where
  style : String
  Extends : Content → Nat → Nat → Prop

/-- The first of some kinds that applies at `start` goes up to `stop`. -/
def FirstKind (content : Content) (start stop : Nat) (style : String) : List RegionKind → Prop
  | [] => False
  | kind :: kinds =>
    style = kind.style ∧ kind.Extends content start stop ∨
      (∀ other, ¬kind.Extends content start other) ∧ FirstKind content start stop style kinds

/-- What a reader finds that goes from left to right, takes the first kind that applies, and otherwise moves on by one
character. -/
inductive ReadsRegions (kinds : List RegionKind) (content : Content) : Nat → List Span → Prop
  | done : ReadsRegions kinds content content.length []
  | take {start stop style spans} : FirstKind content start stop style kinds → ReadsRegions kinds content stop spans →
      ReadsRegions kinds content start (⟨start, stop, style, none⟩ :: spans)
  | pass {start spans} : start < content.length → (∀ stop style, ¬FirstKind content start stop style kinds) →
      ReadsRegions kinds content (start + 1) spans → ReadsRegions kinds content start spans

/-- A rule of a language finds the stretches of a kind, and no empty ones. -/
structure RegionRule.Finds (rule : RegionRule) (kind : RegionKind) : Prop where
  style : rule.style = kind.style
  extends_iff : ∀ {content before start stop}, kind.Extends content start stop ↔
    ∃ length, rule.pattern.length? before (content.drop start) = some length ∧ stop = start + length
  nonempty : ∀ {before text length}, rule.pattern.length? before text = some length → 0 < length

/-- The spans of the regions among pieces. -/
def regionSpansOf (pieces : List (Piece String)) : List Span :=
  pieces.filterMap fun piece =>
    piece.region?.map fun region => { start := region.start, stop := region.stop, style := region.kind }

section reading

variable {rules : List RegionRule} {kinds : List RegionKind} {content text : Content} {start stop : Nat}
  {before : Option Char} {style : String} {spans : List Span}

theorem openRegion_cons (rule : RegionRule) (rules : List RegionRule) (before : Option Char) (text : List Char) :
    openRegion (rule :: rules) before text =
      ((rule.pattern.length? before text).map fun length => (rule.style, length)).or (openRegion rules before text) := by
  rw [openRegion, openRegion, List.findSome?_cons]
  cases rule.pattern.length? before text <;> rfl

theorem firstKind_iff (finds : List.Forall₂ RegionRule.Finds rules kinds) :
    FirstKind content start stop style kinds ↔
      ∃ length, openRegion rules before (content.drop start) = some (style, length) ∧ stop = start + length := by
  induction finds with
  | nil => simp [FirstKind, openRegion]
  | @cons rule kind rules kinds find _ ih =>
    rw [FirstKind, ih, openRegion_cons, ← find.style]
    simp only [@RegionRule.Finds.extends_iff _ _ find _ before]
    cases rule.pattern.length? before (content.drop start) with
    | none => simp
    | some length => simp [eq_comm]

theorem openRegion_pos (finds : List.Forall₂ RegionRule.Finds rules kinds) {length : Nat}
    (opens : openRegion rules before text = some (style, length)) : 0 < length := by
  obtain ⟨rule, member, _, counted⟩ := openRegion_eq_some opens
  clear opens
  induction finds with
  | nil => cases member
  | cons find _ ih =>
    rcases List.mem_cons.mp member with rfl | later
    · exact find.nonempty counted
    · exact ih later

theorem ReadsRegions.eq_regionSpansOf (finds : List.Forall₂ RegionRule.Finds rules kinds)
    (reads : ReadsRegions kinds content start spans) (before : Option Char) :
    spans = regionSpansOf (carve (openRegion rules) start before (content.drop start)) := by
  induction reads generalizing before with
  | done =>
    rw [List.drop_length, carve]
    rfl
  | @take start stop style spans first _ ih =>
    obtain ⟨length, opens, rfl⟩ := (firstKind_iff finds).mp first
    have positive := openRegion_pos finds opens
    have within := openRegion_bounded rules _ _ _ _ opens
    cases follows : content.drop start with
    | nil =>
      rw [follows, List.length_nil] at within
      omega
    | cons char rest =>
      obtain ⟨more, rfl⟩ := Nat.exists_eq_succ_of_ne_zero (Nat.ne_of_gt positive)
      rw [follows] at opens
      have behind : rest.drop more = content.drop (start + (more + 1)) := drop_of_drop_eq_cons follows more
      rw [carve_region opens, behind, ih]
      rfl
  | @pass start spans within none _ ih =>
    have closed : ∀ kind more, openRegion rules before (content.drop start) ≠ some (kind, more + 1) :=
      fun kind more opens => none _ _ ((firstKind_iff finds).mpr ⟨more + 1, opens, rfl⟩)
    rw [List.drop_eq_getElem_cons within] at closed ⊢
    rw [carve_plain closed, ih]
    rfl

theorem readsRegions_regionSpansOf (finds : List.Forall₂ RegionRule.Finds rules kinds) {offset : Nat}
    (within : offset ≤ content.length) (follows : content.drop offset = text) :
    ReadsRegions kinds content offset (regionSpansOf (carve (openRegion rules) offset before text)) := by
  fun_induction carve (openRegion rules) offset before text with
  | case1 offset =>
    obtain rfl : offset = content.length := Nat.le_antisymm within (List.drop_eq_nil_iff.mp follows)
    exact .done
  | case2 offset before char rest kind more opens ih =>
    have bound := openRegion_bounded rules _ _ _ _ opens
    have size := congrArg List.length follows
    rw [List.length_drop] at size
    rw [← follows] at opens
    exact .take ((firstKind_iff finds).mpr ⟨more + 1, opens, rfl⟩) (ih (by omega) (drop_of_drop_eq_cons follows more).symm)
  | case3 offset before char rest closed ih =>
    obtain ⟨_, later, below⟩ := of_drop_eq_cons follows
    refine .pass below (fun stop style first => ?_) (ih below later)
    obtain ⟨length, opens, rfl⟩ := (firstKind_iff finds).mp first
    have positive := openRegion_pos finds opens
    obtain ⟨more, rfl⟩ := Nat.exists_eq_succ_of_ne_zero (Nat.ne_of_gt positive)
    rw [follows] at opens
    exact closed _ _ opens

/-- The rules of a language give what the reader of their kinds finds, and nothing else is found by it. -/
theorem Language.readsRegions_iff {language : Language} (finds : List.Forall₂ RegionRule.Finds language.regions kinds) :
    ReadsRegions kinds content 0 spans ↔ spans = language.regionSpans content := by
  constructor
  · intro reads
    exact reads.eq_regionSpansOf finds none
  · rintro rfl
    exact readsRegions_regionSpansOf finds (Nat.zero_le _) rfl

end reading

section readers

variable {content : Content} {place length : Nat}

theorem dropMark?_eq_some_iff {mark : String} {rest : List Char} : dropMark? mark (content.drop place) = some rest ↔
    mark.toList <+: content.drop place ∧ content.drop (place + mark.length) = rest := by
  rw [dropMark?, Option.ite_none_right_eq_some, List.isPrefixOf_iff_prefix, List.drop_drop, Option.some.injEq]

theorem add_length_le_of_follows {mark : String} (follows : mark.toList <+: content.drop place) (nonempty : mark ≠ "") :
    place + mark.length ≤ content.length := by
  have bound := follows.length_le
  have positive : mark.length ≠ 0 := fun none => nonempty (String.length_eq_zero_iff.mp none)
  rw [String.length_toList, List.length_drop] at bound
  omega

theorem delimitedLength?_iff {opening closing : String} (opens : opening ≠ "") (closes : closing ≠ "") :
    delimitedLength? opening closing (content.drop place) = some length ↔
      opening.toList <+: content.drop place ∧
        StopsBehindFirst (fun later => closing.toList <+: content.drop later) (place + opening.length) closing.length
          content.length (place + length) := by
  have marked : closing.toList ≠ [] := fun none => closes (String.toList_eq_nil_iff.mp none)
  simp only [delimitedLength?, Option.map_eq_some_iff, dropMark?_eq_some_iff]
  constructor
  · rintro ⟨rest, ⟨follows, behind⟩, rfl⟩
    have stops := lengthThrough_stops marked behind (add_length_le_of_follows follows opens)
    rw [String.length_toList] at stops
    refine ⟨follows, ?_⟩
    rwa [show place + (lengthThrough closing.toList rest + opening.length) =
      place + opening.length + lengthThrough closing.toList rest by omega]
  · rintro ⟨follows, stops⟩
    have stops' := lengthThrough_stops marked rfl (add_length_le_of_follows follows opens)
    rw [String.length_toList] at stops'
    have same := stops.unique stops'
    exact ⟨_, ⟨follows, rfl⟩, by omega⟩

theorem restOfLineLength?_iff {mark : String} (opens : mark ≠ "") :
    restOfLineLength? mark (content.drop place) = some length ↔ mark.toList <+: content.drop place ∧
      StopsBehindFirst (fun later => content[later]? = some '\n') (place + mark.length) 0 content.length
        (place + length) := by
  simp only [restOfLineLength?, Option.map_eq_some_iff, dropMark?_eq_some_iff]
  constructor
  · rintro ⟨rest, ⟨follows, behind⟩, rfl⟩
    have stops := lineLength_stops behind (add_length_le_of_follows follows opens)
    refine ⟨follows, ?_⟩
    rwa [show place + (lineLength rest + mark.length) = place + mark.length + lineLength rest by omega]
  · rintro ⟨follows, stops⟩
    have same := stops.unique (lineLength_stops rfl (add_length_le_of_follows follows opens))
    exact ⟨_, ⟨follows, rfl⟩, by omega⟩

theorem quoteLength?_iff {quote : Char} {lines : Bool} :
    quoteLength? quote lines (content.drop place) = some length ↔
      content[place]? = some quote ∧ ∃ close, Closes content quote place close ∧ NewlinesFit lines content place close ∧
        place + length = close + 1 := by
  cases follows : content.drop place with
  | nil =>
    have past := List.getElem?_eq_none (List.drop_eq_nil_iff.mp follows)
    simp [quoteLength?, past]
  | cons char rest =>
    obtain ⟨here, later, _⟩ := of_drop_eq_cons follows
    rw [quoteLength?, Option.ite_none_right_eq_some, ← later, here, Option.some.injEq, Option.map_eq_some_iff]
    simp only [quotedLength?_eq_some_iff]
    refine and_congr_right fun _ => ⟨?_, ?_⟩
    · rintro ⟨inner, ⟨closes, fit⟩, rfl⟩
      exact ⟨place + inner, closes, fit, rfl⟩
    · rintro ⟨close, closes, fit, total⟩
      have behind := closes.behind
      obtain ⟨inner, rfl⟩ := Nat.exists_eq_add_of_lt behind
      exact ⟨inner + 1, ⟨closes, fit⟩, by omega⟩

end readers

/-- At most one character, which is one of the given letters, stands between two places. -/
def BehindLetter (letters : List Char) (content : Content) (start place : Nat) : Prop :=
  place = start ∨ place = start + 1 ∧ ∃ letter ∈ letters, content[start]? = some letter

/-- A reader that finds nothing in an empty text, and nothing empty, and never starts at one of some letters. -/
structure OpensBehind (letters : String) (reader : List Char → Option Nat) : Prop where
  nonempty : ∀ {text length}, reader text = some length → 0 < length
  nil : reader [] = none
  unlettered : ∀ letter ∈ letters.toList, ∀ rest, reader (letter :: rest) = none

section letters

variable {rule : RegionRule} {reader : List Char → Option Nat} {letters : String} {content : Content} {start length : Nat}

/-- A rule finds a kind if a reader of its pattern does. -/
theorem RegionRule.finds_of_goesAs {kind : RegionKind} (style : rule.style = kind.style)
    (goes : rule.pattern.GoesAs reader) (nonempty : ∀ {text length}, reader text = some length → 0 < length)
    (extends_iff : ∀ {content start stop}, kind.Extends content start stop ↔
      ∃ length, reader (content.drop start) = some length ∧ stop = start + length) : rule.Finds kind where
  style := style
  extends_iff := by
    intro content before start stop
    rw [extends_iff, goes.length?_eq]
  nonempty := by
    intro before text length found
    exact nonempty (goes.length?_eq before text ▸ found)

/-- With a letter in front, a reader finds what it finds behind the letter, and otherwise what it finds at once. -/
theorem OpensBehind.lettered_iff (opens : OpensBehind letters reader) :
    letteredLength? letters reader (content.drop start) = some length ↔
      ∃ place inner, BehindLetter letters.toList content start place ∧
        reader (content.drop place) = some inner ∧ start + length = place + inner := by
  cases follows : content.drop start with
  | nil =>
    have past := List.getElem?_eq_none (List.drop_eq_nil_iff.mp follows)
    refine iff_of_false (by simp [letteredLength?, opens.nil]) ?_
    rintro ⟨place, inner, rfl | ⟨_, letter, _, found⟩, reads, _⟩
    · rw [follows, opens.nil] at reads
      cases reads
    · cases past.symm.trans found
  | cons char rest =>
    obtain ⟨here, later, _⟩ := of_drop_eq_cons follows
    rw [letteredLength?, isOneOf]
    by_cases lettered : char ∈ letters.toList
    · have unopened := opens.unlettered char lettered rest
      rw [if_pos (by simpa using lettered), unopened, Option.or_none, Option.map_eq_some_iff]
      constructor
      · rintro ⟨inner, reads, rfl⟩
        exact ⟨start + 1, inner, Or.inr ⟨rfl, char, lettered, here⟩, by rw [later, reads], by omega⟩
      · rintro ⟨place, inner, rfl | ⟨rfl, _⟩, reads, total⟩
        · rw [follows, unopened] at reads
          cases reads
        · rw [later] at reads
          exact ⟨inner, reads, by omega⟩
    · rw [if_neg (by simpa using lettered)]
      constructor
      · intro reads
        exact ⟨start, length, Or.inl rfl, by rw [follows, reads], rfl⟩
      · rintro ⟨place, inner, rfl | ⟨_, letter, known, found⟩, reads, total⟩
        · rw [follows] at reads
          rw [reads, Nat.add_left_cancel total]
        · obtain rfl := Option.some.inj (here.symm.trans found)
          exact absurd known lettered

theorem OpensBehind.lettered_pos (opens : OpensBehind letters reader) {text : List Char}
    (found : letteredLength? letters reader text = some length) : 0 < length := by
  cases text with
  | nil => exact opens.nonempty found
  | cons char rest =>
    rw [letteredLength?] at found
    split at found
    · rcases Option.or_eq_some_iff.mp found with behind | ⟨_, atOnce⟩
      · obtain ⟨inner, _, rfl⟩ := Option.map_eq_some_iff.mp behind
        exact Nat.succ_pos inner
      · exact opens.nonempty atOnce
    · exact opens.nonempty found

/-- A rule with letters finds a kind if its stretches are what a reader finds behind one of the letters or none. -/
theorem RegionRule.finds_of_lettered {kind : RegionKind} {pattern : Pattern} (style : rule.style = kind.style)
    (lettered : rule.pattern = pattern.lettered letters) (goes : pattern.GoesAs reader) (opens : OpensBehind letters reader)
    (extends_iff : ∀ {content start stop}, kind.Extends content start stop ↔
      ∃ place inner, BehindLetter letters.toList content start place ∧
        reader (content.drop place) = some inner ∧ stop = place + inner) : rule.Finds kind := by
  refine RegionRule.finds_of_goesAs style (lettered ▸ goes.lettered letters) (fun found => opens.lettered_pos found) ?_
  intro content start stop
  simp only [extends_iff, opens.lettered_iff]
  constructor
  · rintro ⟨place, inner, behind, reads, rfl⟩
    have ordered : start ≤ place := by
      rcases behind with rfl | ⟨rfl, _⟩
      · exact Nat.le_refl _
      · exact Nat.le_succ _
    exact ⟨place + inner - start, ⟨place, inner, behind, reads, by omega⟩, by omega⟩
  · rintro ⟨length, ⟨place, inner, behind, reads, total⟩, rfl⟩
    exact ⟨place, inner, behind, reads, total⟩

end letters

end Marginalia
