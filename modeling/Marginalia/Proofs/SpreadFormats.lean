import Marginalia.Paint
import Mathlib.Data.List.Basic

namespace Marginalia

/-- The characters of a text have formats of their own, each on all units of its character. -/
def spread (formatAt : Nat → Format) (place : Nat) : Content → PaintedLine
  | [] => []
  | char :: rest => List.replicate (units16 char) (formatAt place) ++ spread formatAt (place + 1) rest

/-- The formats of characters with one more format over those from a place up to another. -/
def overlaid (start stop : Nat) (format : Format) (formatAt : Nat → Format) (place : Nat) : Format :=
  if start ≤ place ∧ place < stop then (formatAt place).merge format else formatAt place

theorem unitLength_cons (char : Char) (text : Content) : unitLength (char :: text) = units16 char + unitLength text :=
  rfl

theorem unitLength_append (front back : Content) : unitLength (front ++ back) = unitLength front + unitLength back := by
  induction front with
  | nil => simp [unitLength]
  | cons char front ih => rw [List.cons_append, unitLength_cons, unitLength_cons, ih, Nat.add_assoc]

theorem unitLength_of_plain {text : Content} (plain : ∀ char ∈ text, units16 char = 1) :
    unitLength text = text.length := by
  induction text with
  | nil => rfl
  | cons char rest ih =>
    rw [List.forall_mem_cons] at plain
    rw [unitLength_cons, plain.1, ih plain.2, List.length_cons, Nat.add_comm]

theorem unitOffsetsFrom_getD (offset : Nat) {text : Content} {place : Nat} (within : place ≤ text.length) :
    (unitOffsetsFrom offset text).getD place 0 = offset + unitLength (text.take place) := by
  induction text generalizing offset place with
  | nil =>
    obtain rfl : place = 0 := Nat.le_zero.mp within
    rfl
  | cons char rest ih =>
    cases place with
    | zero => rfl
    | succ place =>
      rw [unitOffsetsFrom, List.getD_cons_succ, ih _ (Nat.le_of_succ_le_succ within), List.take_succ_cons,
        unitLength_cons, Nat.add_assoc]

theorem unitOffsets?_eq_none {text : Content} (plain : unitOffsets? text = none) :
    ∀ char ∈ text, units16 char = 1 := by
  intro char member
  unfold unitOffsets? at plain
  split at plain
  · rename_i basic
    have small := of_decide_eq_true (List.all_eq_true.mp basic char member)
    rw [units16, if_neg (Nat.not_lt.mpr small)]
  · cases plain

theorem unitOffsets?_eq_some {text : Content} {offsets : List Nat} (found : unitOffsets? text = some offsets) :
    offsets = unitOffsetsFrom 0 text := by
  unfold unitOffsets? at found
  split at found
  · cases found
  · exact (Option.some.inj found).symm

section spread

variable {formatAt : Nat → Format} {place : Nat}

theorem length_spread (text : Content) : (spread formatAt place text).length = unitLength text := by
  induction text generalizing place with
  | nil => rfl
  | cons char rest ih => rw [spread, List.length_append, List.length_replicate, ih, unitLength_cons]

theorem spread_append (front back : Content) :
    spread formatAt place (front ++ back) =
      spread formatAt place front ++ spread formatAt (place + front.length) back := by
  induction front generalizing place with
  | nil => rfl
  | cons char front ih =>
    rw [List.cons_append, spread, ih, spread, List.append_assoc, List.length_cons, Nat.add_right_comm, Nat.add_assoc]

theorem spread_congr {formatAt' : Nat → Format} {text : Content}
    (same : ∀ column, column < text.length → formatAt (place + column) = formatAt' (place + column)) :
    spread formatAt place text = spread formatAt' place text := by
  induction text generalizing place with
  | nil => rfl
  | cons char rest ih =>
    have head := same 0 (Nat.zero_lt_succ _)
    rw [Nat.add_zero] at head
    rw [spread, spread, head, ih]
    intro column within
    have next := same (column + 1) (Nat.succ_lt_succ within)
    rwa [Nat.add_right_comm, Nat.add_assoc]

theorem spread_const (format : Format) (text : Content) :
    spread (fun _ => format) place text = List.replicate (unitLength text) format := by
  induction text generalizing place with
  | nil => rfl
  | cons char rest ih => rw [spread, ih, unitLength_cons, List.replicate_append_replicate]

theorem spread_unit {text : Content} {column : Nat} {char : Char} (found : text[column]? = some char) {unit : Nat}
    (within : unit < units16 char) :
    (spread formatAt place text)[unitLength (text.take column) + unit]? = some (formatAt (place + column)) := by
  obtain ⟨below, rfl⟩ := List.getElem?_eq_some_iff.mp found
  have cut : text = text.take column ++ text[column] :: text.drop (column + 1) := by
    rw [List.getElem_cons_drop, List.take_append_drop]
  have before : (text.take column).length = column := List.length_take_of_le (Nat.le_of_lt below)
  calc (spread formatAt place text)[unitLength (text.take column) + unit]?
      = (spread formatAt place (text.take column ++ text[column] :: text.drop (column + 1)))[
          (spread formatAt place (text.take column)).length + unit]? := by rw [length_spread, ← cut]
    _ = (spread formatAt (place + column) (text[column] :: text.drop (column + 1)))[unit]? := by
        rw [spread_append, List.getElem?_append_right (Nat.le_add_right ..), Nat.add_sub_cancel_left, before]
    _ = some (formatAt (place + column)) := by
        rw [spread, List.getElem?_append_left (by simpa using within), List.getElem?_replicate_of_lt within]

end spread

theorem layOver_middle (front back : PaintedLine) (below format : Format) {count : Nat} (positive : 0 < count) :
    layOver front.length count format (front ++ (List.replicate count below ++ back)) =
      front ++ (List.replicate count (below.merge format) ++ back) := by
  have first : (front ++ (List.replicate count below ++ back)).getD front.length {} = below := by
    rw [List.getD_eq_getElem?_getD, List.getElem?_append_right (Nat.le_refl _), Nat.sub_self,
      List.getElem?_append_left (by simpa using positive), List.getElem?_replicate_of_lt positive]
    rfl
  rw [layOver, first]
  apply List.ext_getElem?
  intro unit
  rw [List.getElem?_mapIdx]
  rcases Nat.lt_or_ge unit front.length with inFront | behind
  · rw [List.getElem?_append_left inFront, List.getElem?_append_left inFront]
    simp [Nat.not_le.mpr inFront]
  · obtain ⟨past, rfl⟩ := Nat.exists_eq_add_of_le behind
    rw [List.getElem?_append_right behind, List.getElem?_append_right behind, Nat.add_sub_cancel_left]
    rcases Nat.lt_or_ge past count with inside | outside
    · rw [List.getElem?_append_left (by simpa using inside), List.getElem?_append_left (by simpa using inside),
        List.getElem?_replicate_of_lt inside, List.getElem?_replicate_of_lt inside]
      simp [inside]
    · rw [List.getElem?_append_right (by simpa using outside), List.getElem?_append_right (by simpa using outside)]
      simp [Nat.not_lt.mpr outside]

theorem paintChar_eq_layOver {text : Content} {column : Nat} {char : Char} (found : text[column]? = some char)
    (format : Format) (line : PaintedLine) :
    paintChar (unitOffsets? text) format line column =
      layOver (unitLength (text.take column)) (units16 char) format line := by
  obtain ⟨below, rfl⟩ := List.getElem?_eq_some_iff.mp found
  cases offsets : unitOffsets? text with
  | none =>
    have plain := unitOffsets?_eq_none offsets
    have single := plain _ (List.getElem_mem below)
    have start : unitLength (text.take column) = (text.take column).length :=
      unitLength_of_plain fun char member => plain char (List.mem_of_mem_take member)
    rw [paintChar, start, single, List.length_take_of_le (Nat.le_of_lt below)]
  | some offsets' =>
    obtain rfl := unitOffsets?_eq_some offsets
    have stop : unitLength (text.take (column + 1)) = unitLength (text.take column) + units16 text[column] := by
      rw [List.take_add_one, found, unitLength_append]
      rfl
    rw [paintChar, unitOffsetsFrom_getD 0 (Nat.le_of_lt below), unitOffsetsFrom_getD 0 (Nat.succ_le_of_lt below), stop,
      Nat.zero_add, Nat.zero_add, Nat.add_sub_cancel_left]

/-- Painting one character changes the format of that character and of no other. -/
theorem paintChar_spread {text : Content} {column : Nat} (within : column < text.length) (format : Format)
    (formatAt : Nat → Format) :
    paintChar (unitOffsets? text) format (spread formatAt 0 text) column =
      spread (overlaid column (column + 1) format formatAt) 0 text := by
  have found : text[column]? = some text[column] := List.getElem?_eq_getElem within
  have before : (text.take column).length = column := List.length_take_of_le (Nat.le_of_lt within)
  have parts (formats : Nat → Format) : spread formats 0 text = spread formats 0 (text.take column) ++
      (List.replicate (units16 text[column]) (formats column) ++
        spread formats (column + 1) (text.drop (column + 1))) := by
    conv_lhs => rw [← List.take_append_drop column text, ← List.getElem_cons_drop within, spread_append, before,
      Nat.zero_add, spread]
  have here : overlaid column (column + 1) format formatAt column = (formatAt column).merge format :=
    if_pos ⟨Nat.le_refl _, Nat.lt_succ_self _⟩
  have inFront : spread (overlaid column (column + 1) format formatAt) 0 (text.take column) =
      spread formatAt 0 (text.take column) := by
    refine spread_congr fun place earlier => if_neg ?_
    omega
  have behind : spread (overlaid column (column + 1) format formatAt) (column + 1) (text.drop (column + 1)) =
      spread formatAt (column + 1) (text.drop (column + 1)) := by
    refine spread_congr fun place _ => if_neg ?_
    omega
  calc paintChar (unitOffsets? text) format (spread formatAt 0 text) column
      = layOver (spread formatAt 0 (text.take column)).length (units16 text[column]) format
          (spread formatAt 0 (text.take column) ++ (List.replicate (units16 text[column]) (formatAt column) ++
            spread formatAt (column + 1) (text.drop (column + 1)))) := by
        rw [paintChar_eq_layOver found, length_spread, ← parts]
    _ = spread (overlaid column (column + 1) format formatAt) 0 text := by
        rw [layOver_middle _ _ _ _ (units16_pos _), parts, inFront, here, behind]

theorem overlaid_succ (start count : Nat) (format : Format) (formatAt : Nat → Format) :
    overlaid (start + 1) (start + 1 + count) format (overlaid start (start + 1) format formatAt) =
      overlaid start (start + (count + 1)) format formatAt := by
  funext place
  unfold overlaid
  split <;> split <;> split <;> first | rfl | omega

theorem paintChars_spread {text : Content} (format : Format) (start count : Nat) (formatAt : Nat → Format)
    (within : ∀ column, start ≤ column → column < start + count → column < text.length) :
    (List.range' start count).foldl (paintChar (unitOffsets? text) format) (spread formatAt 0 text) =
      spread (overlaid start (start + count) format formatAt) 0 text := by
  induction count generalizing start formatAt with
  | zero =>
    refine spread_congr fun place _ => (if_neg ?_).symm
    omega
  | succ count ih =>
    have first := within start (Nat.le_refl _) (by omega)
    rw [List.range'_succ, List.foldl_cons, paintChar_spread first,
      ih (start + 1) _ fun column lower upper => within column (by omega) (by omega), overlaid_succ]

/-- A stroke paints the characters of the line that it goes over. -/
theorem paintStroke_spread (text : Content) (formatAt : Nat → Format) (stroke : Stroke) :
    paintStroke text (spread formatAt 0 text) stroke =
      spread (overlaid stroke.start stroke.stop stroke.format formatAt) 0 text := by
  rw [paintStroke, paintChars_spread]
  · refine spread_congr fun place within => ?_
    have same : stroke.start ≤ 0 + place ∧
        0 + place < stroke.start + (min stroke.stop text.length - stroke.start) ↔
          stroke.start ≤ 0 + place ∧ 0 + place < stroke.stop := by
      omega
    simp only [overlaid, same]
  · intro column _ _
    omega

/-- The characters that a stroke goes over. -/
def Stroke.Covers (stroke : Stroke) (column : Nat) : Prop :=
  stroke.start ≤ column ∧ column < stroke.stop

instance Stroke.decidableCovers (stroke : Stroke) (column : Nat) : Decidable (stroke.Covers column) :=
  inferInstanceAs (Decidable (_ ∧ _))

theorem paintStrokes_spread (text : Content) (formatAt : Nat → Format) (strokes : List Stroke) :
    strokes.foldl (paintStroke text) (spread formatAt 0 text) =
      spread (fun column => ((strokes.filter (·.Covers column)).map (·.format)).foldl Format.merge (formatAt column))
        0 text := by
  induction strokes generalizing formatAt with
  | nil => rfl
  | cons stroke strokes ih =>
    rw [List.foldl_cons, paintStroke_spread, ih]
    refine spread_congr fun column _ => ?_
    by_cases covers : stroke.Covers (0 + column)
    · have merged : overlaid stroke.start stroke.stop stroke.format formatAt (0 + column) =
          (formatAt (0 + column)).merge stroke.format := if_pos covers
      rw [List.filter_cons_of_pos (by simpa using covers), merged]
      rfl
    · have kept : overlaid stroke.start stroke.stop stroke.format formatAt (0 + column) = formatAt (0 + column) :=
        if_neg covers
      rw [List.filter_cons_of_neg (by simpa using covers), kept]

/-- A painted line has on each character the formats of the strokes over it, one merged onto the other. -/
theorem paintLine_eq_spread (text : Content) (strokes : List Stroke) :
    paintLine text strokes =
      spread (fun column => ((strokes.filter (·.Covers column)).map (·.format)).foldl Format.merge {}) 0 text := by
  rw [paintLine, ← @spread_const 0, paintStrokes_spread]

end Marginalia
