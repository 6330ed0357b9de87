import Marginalia.Text.Decode
import Marginalia.Text.LowerCase

namespace Marginalia

inductive Encoding
  | utf8
  /-- UTF-8 after a mark, which may be left out. -/
  | markedUtf8
  /-- UTF-16 after a mark that tells the order of bytes. -/
  | utf16
  | littleUtf16
  | latin1
  | ascii
  | windows1252
deriving DecidableEq, Repr

def Encoding.all : List Encoding :=
  [.utf8, .markedUtf8, .utf16, .littleUtf16, .latin1, .ascii, .windows1252]

def Encoding.name : Encoding → String
  | .utf8 => "utf_8"
  | .markedUtf8 => "utf_8_sig"
  | .utf16 => "utf_16"
  | .littleUtf16 => "utf_16_le"
  | .latin1 => "latin_1"
  | .ascii => "ascii"
  | .windows1252 => "cp1252"

def Encoding.aliases : Encoding → List String
  | .utf8 => ["u8", "utf", "utf8", "utf8_ucs2", "utf8_ucs4", "cp65001"]
  | .markedUtf8 => []
  | .utf16 => ["u16", "utf16"]
  | .littleUtf16 => ["unicodelittleunmarked", "utf_16le"]
  | .latin1 =>
    ["8859", "cp819", "csisolatin1", "ibm819", "iso8859", "iso8859_1", "iso_8859_1", "iso_8859_1_1987", "iso_ir_100",
      "l1", "latin", "latin1"]
  | .ascii =>
    ["646", "ansi_x3.4_1968", "ansi_x3_4_1968", "ansi_x3.4_1986", "cp367", "csascii", "ibm367", "iso646_us",
      "iso_646.irv_1991", "iso_ir_6", "us", "us_ascii"]
  | .windows1252 => ["1252", "windows_1252"]

/-- The words of a name in lower case with one underscore in between; `gap` when separators follow a word.
A point belongs to its word. -/
def joinNameWords (started gap : Bool) : List Char → List Char
  | [] => []
  | char :: rest =>
    if char.isAlphanum || char == '.' then
      let word := char.toLower :: joinNameWords true false rest
      if gap then '_' :: word else word
    else joinNameWords started started rest

/-- The encoding with a name. Case and the kind of separators do not matter, and between the words of
an alias a point separates as well. -/
def Encoding.ofName? (name : String) : Option Encoding :=
  let words := joinNameWords false false name.toList
  let spaced := words.map fun char => if char == '.' then '_' else char
  Encoding.all.find? fun encoding =>
    encoding.name.toList == words || encoding.aliases.any fun other => other.toList == words || other.toList == spaced

/-- The characters of some bytes; `none` stands for bytes that are no part of a character. -/
def Encoding.decode (encoding : Encoding) (bytes : List UInt8) : List (Option Char) :=
  match encoding with
  | .utf8 => decodeUtf8 bytes
  | .markedUtf8 => decodeUtf8 (if utf8Mark.isPrefixOf bytes then bytes.drop 3 else bytes)
  | .utf16 => decodeUtf16 bytes
  | .littleUtf16 => decodeUtf16From .little none bytes
  | .latin1 => bytes.map fun byte => some (Char.ofNat byte.toNat)
  | .ascii => bytes.map fun byte => if byte.toNat < 0x80 then some (Char.ofNat byte.toNat) else none
  | .windows1252 => bytes.map windowsChar

def Encoding.read? (encoding : Encoding) (bytes : List UInt8) : Option (List Char) :=
  (encoding.decode bytes).mapM id

/-- The text of some bytes, whatever they are. -/
def Encoding.readAll (encoding : Encoding) (bytes : List UInt8) : List Char :=
  (encoding.decode bytes).map (·.getD replacementChar)

/-- Why bytes are not turned into text. -/
inductive DecodeFault
  /-- No encoding of text has the name. -/
  | unknown
  /-- Some bytes are no part of a character. -/
  | garbled
  /-- Anything else, by the kind of error. -/
  | other (kind : String)
deriving DecidableEq, Repr

def DecodeFault.kind : DecodeFault → String
  | .unknown => "LookupError"
  | .garbled => "UnicodeDecodeError"
  | .other kind => kind

/-- What turns bytes into text by the name of an encoding. Where bytes are no part of a character, `strict` gives up
and `lenient` puts something in their place. Decoders whose texts hold halves of surrogate pairs, which are no
characters, are not described. -/
structure Decoders where
  strict : String → List UInt8 → Except DecodeFault (List Char)
  lenient : String → List UInt8 → Except DecodeFault (List Char)

/-- The decoders of the encodings that are spelled out here. Every other name is unknown to them. -/
def Decoders.standard : Decoders where
  strict name bytes :=
    match Encoding.ofName? name with
    | none => .error .unknown
    | some encoding =>
      match encoding.read? bytes with
      | none => .error .garbled
      | some text => .ok text
  lenient name bytes :=
    match Encoding.ofName? name with
    | none => .error .unknown
    | some encoding => .ok (encoding.readAll bytes)

def encodeUtf8 (text : String) : List UInt8 :=
  text.toUTF8.toList

end Marginalia
