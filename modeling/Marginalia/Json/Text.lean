namespace Marginalia

/-- What a text of the data format is made of. -/
inductive Glyph
  | char (value : Char)
  /-- Half of a pair of units, written as an escape, that stands without its other half. -/
  | half (unit : Nat)
deriving DecidableEq, Repr

def Glyph.char? : Glyph → Option Char
  | .char value => some value
  | .half _ => none

def Glyph.isHalf : Glyph → Bool
  | .char _ => false
  | .half _ => true

/-- A text of the data format. Escapes can name units that are no characters, so not all of them are strings. -/
structure JsonText where
  glyphs : List Glyph
deriving DecidableEq, Repr, Inhabited

def JsonText.ofString (text : String) : JsonText :=
  ⟨text.toList.map .char⟩

instance : Coe String JsonText := ⟨.ofString⟩

def JsonText.isEmpty (text : JsonText) : Bool :=
  text.glyphs.isEmpty

/-- The characters of a text without halves. -/
def JsonText.chars? (text : JsonText) : Option (List Char) :=
  text.glyphs.mapM Glyph.char?

def JsonText.string? (text : JsonText) : Option String :=
  text.chars?.map String.ofList

/-- The text as a string, with the replacement character in the place of halves: a half of a surrogate pair on its own is
no character, so texts that differ in such halves only become equal here. -/
def JsonText.lossy (text : JsonText) : String :=
  String.ofList (text.glyphs.map fun glyph => glyph.char?.getD (Char.ofNat 0xFFFD))

theorem JsonText.string?_ofString (text : String) : (JsonText.ofString text).string? = some text := by
  have whole (chars : List Char) : (chars.map Glyph.char).mapM Glyph.char? = some chars := by
    induction chars with
    | nil => rfl
    | cons char rest ih => simp [Glyph.char?, ih]
  simp [JsonText.string?, JsonText.chars?, JsonText.ofString, whole]

end Marginalia
