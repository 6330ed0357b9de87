import Marginalia.Number.Binary64
import Marginalia.SourceFile.Files
import Marginalia.Text.Cut
import Marginalia.Text.Digit
import Marginalia.Text.Encoding
import Marginalia.Text.LineEnd

namespace Marginalia

/-- A guess at the encoding of some bytes, and how sure it is, from 0 to 1. -/
structure EncodingGuess where
  encoding : Option String
  confidence : Float

structure ReadOptions where
  defaultEncoding : String := "utf-8"
  fallbackEncoding : String := "latin-1"
  /-- How many bytes at the start tell text from other data. Counted from the end when negative. -/
  probeSize : Int := 8192
  sizeLimit : Int := 20 * 1024 * 1024
deriving DecidableEq, Repr

/-- The text of a file, with a newline for each line terminator, and what was found on the way to it. -/
structure SourceText where
  content : Content
  encoding : String
  lineEnding : LineEnding
  marked : Bool
  size : Nat
  filetype : String
deriving DecidableEq, Repr

def SourceText.lineCount (text : SourceText) : Nat :=
  Marginalia.lineCount text.content

inductive ReadBreak
  /-- Bytes could not be decoded. -/
  | undecoded (fault : DecodeFault)
  /-- The name of an encoding holds a zero character. -/
  | severedName (name : String)
  /-- Nobody can tell whether the file is there. -/
  | unreachable (fault : PathFault)
deriving DecidableEq, Repr

def ReadBreak.kind : ReadBreak → String
  | .undecoded fault => fault.kind
  | .severedName _ => "ValueError"
  | .unreachable fault => fault.kind

inductive ReadFault
  | notFound (path : Path)
  | notAFile (path : Path)
  | tooLarge (size : Nat)
  | binary
  | brokenOff (cause : ReadBreak)
deriving DecidableEq, Repr

/-- Hundredths of a unit of `unit` bytes, to the nearest, a half going to the even neighbour. -/
def hundredths (size unit : Nat) : String :=
  let count := roundedQuotient (size * 100) unit
  toString (count / 100) ++ "." ++ paddedNat 2 (count % 100)

/-- The wording of a fault; a reading that was broken off has none. -/
def ReadFault.message? : ReadFault → Option String
  | .notFound path => some ("File not found: " ++ path.text)
  | .notAFile path => some ("Not a file: " ++ path.text)
  | .tooLarge size => some ("File too large to view (" ++ hundredths size (1024 * 1024) ++ " MB)")
  | .binary => some "File appears to be binary"
  | .brokenOff _ => none

/-- The encoding that a mark at the start of a file tells. -/
def markedEncoding? (bytes : Bytes) : Option String :=
  if utf8Mark.isPrefixOf bytes then some "utf-8-sig"
  else if littleMark.isPrefixOf bytes || bigMark.isPrefixOf bytes then some "utf-16"
  else none

/-- What files of well-known kinds that hold no text start with. -/
def binarySignatures : List Bytes :=
  [[0x89, 0x50, 0x4E, 0x47], [0xFF, 0xD8, 0xFF], [0x47, 0x49, 0x46, 0x38], [0x50, 0x4B, 0x03, 0x04], [0x1F, 0x8B],
    [0x25, 0x50, 0x44, 0x46], [0x7F, 0x45, 0x4C, 0x46]]

/-- Control bytes other than those between tab and carriage return. -/
def isControlByte (byte : UInt8) : Bool :=
  byte.toNat < 9 || (13 < byte.toNat && byte.toNat < 32)

/-- Whether bytes hold no text: by a signature, a zero byte, or more than three control bytes in ten. -/
def isBinary (bytes : Bytes) : Bool :=
  binarySignatures.any (·.isPrefixOf bytes) || bytes.contains 0 ||
    3 * bytes.length < 10 * bytes.countP isControlByte

/-- The encoding of bytes without a mark. Only a sure guess counts, and plain ASCII counts as UTF-8. -/
def guessedEncoding (options : ReadOptions) (guess : EncodingGuess) (bytes : Bytes) : String :=
  if bytes.isEmpty then options.defaultEncoding
  else
    match guess.encoding with
    | none => options.defaultEncoding
    | some name =>
      if guess.confidence > 0.7 && !name.isEmpty then
        let name := lowerString name
        if name == "ascii" then "utf-8" else name
      else options.defaultEncoding

/-- A name that encodings can be looked up by. -/
def checkName (name : String) : Except ReadFault Unit :=
  if name.contains '\x00' then .error (.brokenOff (.severedName name)) else .ok ()

/-- The text of bytes in the named encoding. No bytes are the empty text in any encoding. -/
def Decoders.decode (decoders : Decoders) (name : String) (bytes : Bytes) : Except DecodeFault (List Char) :=
  if bytes.isEmpty then .ok [] else decoders.strict name bytes

/-- The text of bytes and the name of its encoding: the one given, or the fallback when that cannot be. -/
def decodeOrFallback (options : ReadOptions) (name : String) (bytes : Bytes) (decoders : Decoders) :
    Except ReadFault (List Char × String) := do
  checkName name
  match decoders.decode name bytes with
  | .ok text => return (text, name)
  | .error (.other kind) => throw (.brokenOff (.undecoded (.other kind)))
  | .error _ =>
    let fallback := options.fallbackEncoding
    checkName fallback
    match decoders.lenient fallback bytes with
    | .ok text => return (text, fallback)
    | .error fault => throw (.brokenOff (.undecoded fault))

/-- The mark that stays at the start of a decoded text. -/
def markChar : Char := Char.ofNat 0xFEFF

/-- The text that a file's bytes hold. An encoding or filetype that is given is not guessed. -/
def SourceText.ofBytes (options : ReadOptions) (guess : EncodingGuess) (encoding : Option String)
    (filetype : String) (bytes : Bytes) (decoders : Decoders) : Except ReadFault SourceText := do
  let marked := markedEncoding? bytes
  if marked.isNone && isBinary (takeSigned options.probeSize bytes) then throw .binary
  let given := encoding.filter (!·.isEmpty)
  let name := (given.or marked).getD (guessedEncoding options guess bytes)
  let (text, name) ← decodeOrFallback options name bytes decoders
  let text := if marked.isSome then text.dropWhile (· == markChar) else text
  return {
    content := normalizeLines text
    encoding := name
    lineEnding := .of text
    marked := marked.isSome
    size := bytes.length
    filetype := filetype }

def Files.readSource (files : Files) (options : ReadOptions) (guess : EncodingGuess) (path : Path)
    (encoding filetype : Option String) (decoders : Decoders := .standard) : Except ReadFault SourceText :=
  match files.find path with
  | .error .tooLong => .error (.brokenOff (.unreachable .tooLong))
  | .error _ => .error (.notFound path)
  | .ok .folder => .error (.notAFile path)
  | .ok (.file bytes) =>
    if options.sizeLimit < bytes.length then .error (.tooLarge bytes.length)
    else SourceText.ofBytes options guess encoding (filetype.getD path.filetype) bytes decoders

end Marginalia
