namespace Marginalia

/-- A character whose first bytes have been read: its bits so far, the range of the next byte, and how many
bytes follow that one. -/
structure Utf8Pending where
  bits : Nat
  low : Nat
  high : Nat
  later : Nat
deriving DecidableEq, Repr

/-- The state after the first byte of a character of several bytes. The range of the second byte keeps out
overlong forms, halves of pairs and numbers beyond the last character. -/
def Utf8Pending.ofLead? (byte : Nat) : Option Utf8Pending :=
  if 0xC2 ≤ byte ∧ byte ≤ 0xDF then some ⟨byte - 0xC0, 0x80, 0xBF, 0⟩
  else if byte = 0xE0 then some ⟨byte - 0xE0, 0xA0, 0xBF, 1⟩
  else if byte = 0xED then some ⟨byte - 0xE0, 0x80, 0x9F, 1⟩
  else if 0xE1 ≤ byte ∧ byte ≤ 0xEF then some ⟨byte - 0xE0, 0x80, 0xBF, 1⟩
  else if byte = 0xF0 then some ⟨byte - 0xF0, 0x90, 0xBF, 2⟩
  else if 0xF1 ≤ byte ∧ byte ≤ 0xF3 then some ⟨byte - 0xF0, 0x80, 0xBF, 2⟩
  else if byte = 0xF4 then some ⟨byte - 0xF0, 0x80, 0x8F, 2⟩
  else none

/-- A byte between characters: the characters that are complete with it, and the state after it. -/
def startUtf8 (byte : Nat) : List (Option Char) × Option Utf8Pending :=
  if byte < 0x80 then ([some (Char.ofNat byte)], none)
  else
    match Utf8Pending.ofLead? byte with
    | some pending => ([], some pending)
    | none => ([none], none)

/-- A byte in any state. A byte that cannot go on breaks the character off, and is read again by itself. -/
def stepUtf8 (state : Option Utf8Pending) (byte : Nat) : List (Option Char) × Option Utf8Pending :=
  match state with
  | none => startUtf8 byte
  | some pending =>
    if pending.low ≤ byte ∧ byte ≤ pending.high then
      let bits := pending.bits * 64 + (byte - 0x80)
      match pending.later with
      | 0 => ([some (Char.ofNat bits)], none)
      | later + 1 => ([], some ⟨bits, 0x80, 0xBF, later⟩)
    else
      let (chars, state) := startUtf8 byte
      (none :: chars, state)

/-- The characters of bytes in UTF-8; `none` stands for bytes that are no part of a character. -/
def decodeUtf8From (state : Option Utf8Pending) : List UInt8 → List (Option Char)
  | [] => if state.isSome then [none] else []
  | byte :: rest =>
    let (chars, state) := stepUtf8 state byte.toNat
    chars ++ decodeUtf8From state rest

def decodeUtf8 (bytes : List UInt8) : List (Option Char) :=
  decodeUtf8From none bytes

/-- Which of the two bytes of a unit comes first. -/
inductive ByteOrder
  | little
  | big
deriving DecidableEq, Repr

def ByteOrder.unit (order : ByteOrder) (first second : UInt8) : Nat :=
  match order with
  | .little => second.toNat * 256 + first.toNat
  | .big => first.toNat * 256 + second.toNat

def isHighHalf (unit : Nat) : Bool :=
  0xD800 ≤ unit && unit < 0xDC00

def isLowHalf (unit : Nat) : Bool :=
  0xDC00 ≤ unit && unit < 0xE000

/-- A unit that does not complete a pair: the characters that are complete with it, and the half that is open
after it. -/
def startUtf16 (unit : Nat) : List (Option Char) × Option Nat :=
  if isHighHalf unit then ([], some unit)
  else if isLowHalf unit then ([none], none)
  else ([some (Char.ofNat unit)], none)

/-- A unit after an open half, if there is one. -/
def stepUtf16 (half : Option Nat) (unit : Nat) : List (Option Char) × Option Nat :=
  match half with
  | none => startUtf16 unit
  | some high =>
    if isLowHalf unit then
      ([some (Char.ofNat (0x10000 + (high - 0xD800) * 0x400 + (unit - 0xDC00)))], none)
    else
      let (chars, half) := startUtf16 unit
      (none :: chars, half)

/-- The characters of bytes in UTF-16. An open half and a single byte at the end are one fault together. -/
def decodeUtf16From (order : ByteOrder) (half : Option Nat) : List UInt8 → List (Option Char)
  | [] => if half.isSome then [none] else []
  | [_] => [none]
  | first :: second :: rest =>
    let (chars, half) := stepUtf16 half (order.unit first second)
    chars ++ decodeUtf16From order half rest

/-- The marks at the start of a text that tell the order of its bytes. -/
def utf8Mark : List UInt8 := [0xEF, 0xBB, 0xBF]

def littleMark : List UInt8 := [0xFF, 0xFE]

def bigMark : List UInt8 := [0xFE, 0xFF]

/-- The characters of bytes in UTF-16 whose order a mark may tell; without one the low byte comes first. -/
def decodeUtf16 (bytes : List UInt8) : List (Option Char) :=
  if littleMark.isPrefixOf bytes then decodeUtf16From .little none (bytes.drop 2)
  else if bigMark.isPrefixOf bytes then decodeUtf16From .big none (bytes.drop 2)
  else decodeUtf16From .little none bytes

/-- The characters from 80 to 9F of the Windows table; five places are free. -/
def windowsTable : List (Option Nat) :=
  [some 0x20AC, none, some 0x201A, some 0x192, some 0x201E, some 0x2026, some 0x2020, some 0x2021,
    some 0x2C6, some 0x2030, some 0x160, some 0x2039, some 0x152, none, some 0x17D, none,
    none, some 0x2018, some 0x2019, some 0x201C, some 0x201D, some 0x2022, some 0x2013, some 0x2014,
    some 0x2DC, some 0x2122, some 0x161, some 0x203A, some 0x153, none, some 0x17E, some 0x178]

def windowsChar (byte : UInt8) : Option Char :=
  let code := byte.toNat
  if 0x80 ≤ code ∧ code < 0xA0 then ((windowsTable[code - 0x80]?).getD none).map Char.ofNat
  else some (Char.ofNat code)

def replacementChar : Char := Char.ofNat 0xFFFD

theorem decodeUtf8_ascii (bytes : List UInt8) (ascii : ∀ byte ∈ bytes, byte.toNat < 0x80) :
    decodeUtf8 bytes = bytes.map fun byte => some (Char.ofNat byte.toNat) := by
  unfold decodeUtf8
  induction bytes with
  | nil => rfl
  | cons byte rest ih =>
    have plain := ascii byte List.mem_cons_self
    simp [decodeUtf8From, stepUtf8, startUtf8, plain,
      ih fun other member => ascii other (List.mem_cons_of_mem _ member)]

end Marginalia
