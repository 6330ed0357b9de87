import Marginalia.Color.Literal
import Marginalia.Proofs.PatternExtents

namespace Marginalia

section repetition

variable {accepts : Char → Bool} {count more : Nat} {cursor : Cursor} {text : List Char}

theorem Pattern.reads_all_cons_iff {pattern : Pattern} {patterns : List Pattern} :
    (Pattern.all (pattern :: patterns)).Reads cursor text ↔
      ∃ front back, text = front ++ back ∧ pattern.Reads cursor front ∧
        (Pattern.all patterns).Reads (cursor.behind front) back := by
  cases patterns with
  | nil =>
    constructor
    · intro reads
      exact ⟨text, [], by simp, reads, rfl⟩
    · rintro ⟨front, back, rfl, reads, rfl⟩
      rwa [List.append_nil]
  | cons => exact Iff.rfl

theorem Pattern.reads_times_iff : (Pattern.times count accepts).Reads cursor text ↔
    text <+: cursor.rest ∧ text.length = count ∧ ∀ char ∈ text, accepts char = true := by
  induction count generalizing cursor text with
  | zero =>
    constructor
    · rintro rfl
      simp
    · rintro ⟨_, none, _⟩
      exact List.length_eq_zero_iff.mp none
  | succ count ih =>
    refine Pattern.reads_all_cons_iff.trans ?_
    constructor
    · rintro ⟨front, back, rfl, ⟨followsFront, char, rfl, accepted⟩, readsBack⟩
      obtain ⟨follows, length, members⟩ := ih.mp readsBack
      exact ⟨Cursor.follows_cons_iff.mpr ⟨followsFront, follows⟩, by simp [length],
        List.forall_mem_cons.mpr ⟨accepted, members⟩⟩
    · rintro ⟨follows, length, members⟩
      obtain ⟨char, back, rfl⟩ := List.exists_cons_of_length_eq_add_one length
      obtain ⟨accepted, later⟩ := List.forall_mem_cons.mp members
      obtain ⟨followsFront, followsBack⟩ := Cursor.follows_cons_iff.mp follows
      exact ⟨[char], back, rfl, ⟨followsFront, char, rfl, accepted⟩,
        ih.mpr ⟨followsBack, Nat.succ.inj length, later⟩⟩

theorem Pattern.reads_upTo_iff : (Pattern.upTo count accepts).Reads cursor text ↔
    text <+: cursor.rest ∧ text.length ≤ count ∧ ∀ char ∈ text, accepts char = true := by
  induction count generalizing cursor text with
  | zero =>
    constructor
    · rintro rfl
      simp
    · rintro ⟨_, none, _⟩
      exact List.length_eq_zero_iff.mp (Nat.le_zero.mp none)
  | succ count ih =>
    constructor
    · rintro (⟨front, back, rfl, ⟨followsFront, char, rfl, accepted⟩, readsBack⟩ | rfl)
      · obtain ⟨follows, length, members⟩ := ih.mp readsBack
        exact ⟨Cursor.follows_cons_iff.mpr ⟨followsFront, follows⟩, by simpa using length,
          List.forall_mem_cons.mpr ⟨accepted, members⟩⟩
      · simp
    · rintro ⟨follows, length, members⟩
      cases text with
      | nil => exact Or.inr rfl
      | cons char back =>
        obtain ⟨accepted, later⟩ := List.forall_mem_cons.mp members
        obtain ⟨followsFront, followsBack⟩ := Cursor.follows_cons_iff.mp follows
        exact Or.inl ⟨[char], back, rfl, ⟨followsFront, char, rfl, accepted⟩,
          ih.mpr ⟨followsBack, Nat.le_of_succ_le_succ length, later⟩⟩

theorem Pattern.reads_times_upTo_iff :
    (Pattern.both (.times count accepts) (.upTo more accepts)).Reads cursor text ↔
      text <+: cursor.rest ∧ (count ≤ text.length ∧ text.length ≤ count + more) ∧ ∀ char ∈ text, accepts char = true := by
  constructor
  · rintro ⟨front, back, rfl, readsFront, readsBack⟩
    obtain ⟨followsFront, length, members⟩ := Pattern.reads_times_iff.mp readsFront
    obtain ⟨followsBack, bound, later⟩ := Pattern.reads_upTo_iff.mp readsBack
    rw [List.length_append]
    exact ⟨Cursor.follows_append_iff.mpr ⟨followsFront, followsBack⟩, by omega,
      List.forall_mem_append.mpr ⟨members, later⟩⟩
  · rintro ⟨follows, ⟨atLeast, atMost⟩, members⟩
    rw [← List.take_append_drop count text] at follows members
    obtain ⟨followsFront, followsBack⟩ := Cursor.follows_append_iff.mp follows
    obtain ⟨first, later⟩ := List.forall_mem_append.mp members
    have length : (text.take count).length = count := by
      rw [List.length_take]
      omega
    have bound : (text.drop count).length ≤ more := by
      rw [List.length_drop]
      omega
    exact ⟨_, _, (List.take_append_drop count text).symm, Pattern.reads_times_iff.mpr ⟨followsFront, length, first⟩,
      Pattern.reads_upTo_iff.mpr ⟨followsBack, bound, later⟩⟩

end repetition

/-- The texts that count as color literals. -/
def IsColorLiteral (literal : List Char) : Prop :=
  ∃ digits, literal = '#' :: digits ∧ digits.length ∈ [3, 4, 6, 8] ∧ ∀ digit ∈ digits, isHexDigit digit = true

theorem colorShape_reads_iff {cursor : Cursor} {text : List Char} :
    colorShape.body.Reads cursor text ↔ text <+: cursor.rest ∧ IsColorLiteral text := by
  constructor
  · rintro ⟨sign, digits, rfl, ⟨followsSign, char, rfl, isSign⟩, readsDigits⟩
    obtain rfl : char = '#' := by simpa using isSign
    have spec : digits <+: (cursor.behind ['#']).rest ∧ digits.length ∈ [3, 4, 6, 8] ∧
        ∀ digit ∈ digits, isHexDigit digit = true := by
      rcases readsDigits with readsFew | readsSix | readsEight
      · obtain ⟨follows, bounds, members⟩ := Pattern.reads_times_upTo_iff.mp readsFew
        have either : digits.length = 3 ∨ digits.length = 4 := by omega
        exact ⟨follows, by rcases either with length | length <;> simp [length], members⟩
      · obtain ⟨follows, length, members⟩ := Pattern.reads_times_iff.mp readsSix
        exact ⟨follows, by simp [length], members⟩
      · obtain ⟨follows, length, members⟩ := Pattern.reads_times_iff.mp readsEight
        exact ⟨follows, by simp [length], members⟩
    exact ⟨Cursor.follows_cons_iff.mpr ⟨followsSign, spec.1⟩, digits, rfl, spec.2⟩
  · rintro ⟨follows, digits, rfl, length, members⟩
    obtain ⟨followsSign, followsDigits⟩ := Cursor.follows_cons_iff.mp follows
    refine ⟨['#'], digits, rfl, ⟨followsSign, '#', rfl, rfl⟩, ?_⟩
    simp only [List.mem_cons, List.not_mem_nil, or_false] at length
    rcases length with three | four | six | eight
    · exact Or.inl (Pattern.reads_times_upTo_iff.mpr ⟨followsDigits, by omega, members⟩)
    · exact Or.inl (Pattern.reads_times_upTo_iff.mpr ⟨followsDigits, by omega, members⟩)
    · exact Or.inr (Or.inl (Pattern.reads_times_iff.mpr ⟨followsDigits, six, members⟩))
    · exact Or.inr (Or.inr (Pattern.reads_times_iff.mpr ⟨followsDigits, eight, members⟩))

theorem findColors_spec {content : List Char} {color : ColorMatch} (member : color ∈ findColors content) :
    color.start < color.stop ∧ color.stop ≤ content.length ∧ IsColorLiteral color.literal := by
  obtain ⟨⟨start, stop⟩, extent, rfl⟩ := List.mem_map.mp member
  obtain ⟨cursor, text, stands, reads, rfl, rfl⟩ := Shape.mem_extents extent
  have slice := stands.slice reads.follows
  have literal := (colorShape_reads_iff.mp reads).2
  refine ⟨?_, (Shape.extents_within extent).2, ?_⟩
  · obtain ⟨digits, rfl, _⟩ := literal
    simp
  · simpa only [Nat.add_sub_cancel_left, slice] using literal

theorem bareDigits_of_isColorLiteral {digits : List Char} (length : digits.length ∈ [3, 4, 6, 8])
    (hexadecimal : ∀ digit ∈ digits, isHexDigit digit = true) : bareDigits ('#' :: digits) = digits := by
  cases digits with
  | nil => simp at length
  | cons digit digits =>
    have different : digit ≠ '#' := by
      rintro rfl
      exact absurd (hexadecimal '#' (List.mem_cons_self ..)) (by decide)
    simp [bareDigits, different]

theorem decodeColor_of_isColorLiteral {literal : List Char} (isLiteral : IsColorLiteral literal) :
    ∃ color, decodeColor literal = .ok color := by
  obtain ⟨digits, rfl, length, hexadecimal⟩ := isLiteral
  have readable : digits.length ∈ [3, 4, 6, 8] ∧ digits.all isHexDigit := ⟨length, by simpa using hexadecimal⟩
  rw [decodeColor, bareDigits_of_isColorLiteral length hexadecimal]
  exact ⟨_, if_pos readable⟩

/-- A literal can be decoded, so there is a swatch for it over every background. -/
theorem swatch_of_isColorLiteral {literal : List Char} (isLiteral : IsColorLiteral literal) (background : Rgb) :
    ∃ style, swatch literal background = .ok style := by
  obtain ⟨color, decoded⟩ := decodeColor_of_isColorLiteral isLiteral
  rw [swatch, decoded]
  exact ⟨_, rfl⟩

end Marginalia
