import Marginalia.Json.Token
import Marginalia.Text.Encoding

namespace Marginalia

/-- A container whose closing bracket has not been read: its items so far, last first. -/
inductive JsonFrame
  | array (items : List Json)
  | object (members : List (JsonText × Json)) (key : JsonText)

/-- What may come next. -/
inductive JsonExpects
  | value
  | valueOrClose
  | keyOrClose (members : List (JsonText × Json))
  | key (members : List (JsonText × Json))
  | colon (members : List (JsonText × Json)) (key : JsonText)
  | commaOrClose
  | nothing (result : Json)

structure JsonState where
  frames : List JsonFrame
  expects : JsonExpects

/-- Puts a finished value into the innermost open container. -/
def JsonState.finish (value : Json) : List JsonFrame → JsonState
  | [] => ⟨[], .nothing value⟩
  | .array items :: outer => ⟨.array (value :: items) :: outer, .commaOrClose⟩
  | .object members key :: outer => ⟨.object (putKey key value members) key :: outer, .commaOrClose⟩

/-- Reads one token; a token that may not stand there ends the reading. -/
def JsonState.step? (state : JsonState) (token : JsonToken) : Option JsonState :=
  match state.expects, token with
  | .value, .scalar value => some (.finish value state.frames)
  | .value, .openArray => some ⟨.array [] :: state.frames, .valueOrClose⟩
  | .value, .openObject => some ⟨state.frames, .keyOrClose []⟩
  | .valueOrClose, .scalar value => some (.finish value state.frames)
  | .valueOrClose, .openArray => some ⟨.array [] :: state.frames, .valueOrClose⟩
  | .valueOrClose, .openObject => some ⟨state.frames, .keyOrClose []⟩
  | .valueOrClose, .closeArray =>
    match state.frames with
    | .array items :: outer => some (.finish (.array items.reverse) outer)
    | _ => none
  | .keyOrClose members, .scalar (.text key) => some ⟨state.frames, .colon members key⟩
  | .keyOrClose members, .closeObject => some (.finish (.object members) state.frames)
  | .key members, .scalar (.text key) => some ⟨state.frames, .colon members key⟩
  | .colon members key, .colon => some ⟨.object members key :: state.frames, .value⟩
  | .commaOrClose, .comma =>
    match state.frames with
    | .array items :: outer => some ⟨.array items :: outer, .value⟩
    | .object members _ :: outer => some ⟨outer, .key members⟩
    | [] => none
  | .commaOrClose, .closeArray =>
    match state.frames with
    | .array items :: outer => some (.finish (.array items.reverse) outer)
    | _ => none
  | .commaOrClose, .closeObject =>
    match state.frames with
    | .object members _ :: outer => some (.finish (.object members) outer)
    | _ => none
  | _, _ => none

inductive JsonFault
  | malformed
  /-- More containers are open at once than the reader takes. -/
  | tooDeep
deriving DecidableEq, Repr

def JsonToken.opens : JsonToken → Bool
  | .openArray => true
  | .openObject => true
  | _ => false

/-- Reads one token. As many containers may be open at once as `limit` says. -/
def JsonState.step (limit : Nat) (state : JsonState) (token : JsonToken) : Except JsonFault JsonState :=
  match state.step? token with
  | none => .error .malformed
  | some next => if token.opens && limit ≤ state.frames.length then .error .tooDeep else .ok next

/-- The value that a text denotes. Of two faults the first one counts. -/
def Json.parse (limit : Nat) (text : List Char) : Except JsonFault Json := do
  let state ← (jsonTokens text).foldlM (JsonState.step limit) ⟨[], .value⟩
  match state.expects with
  | .nothing result => return result
  | _ => throw .malformed

/-- How many containers may be open at once in a data file. -/
def openLimit : Nat := 990

def Json.ofBytes (bytes : List UInt8) : Except JsonFault Json :=
  match Encoding.utf8.read? bytes with
  | some chars => Json.parse openLimit chars
  | none => .error .malformed

end Marginalia
