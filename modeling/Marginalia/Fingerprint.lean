import Marginalia.Text.Digit

namespace Marginalia

/-- The odd multipliers of the fingerprint: of lanes, inputs, short words, merges and single bytes. -/
def lanePrime : UInt64 := 0x9E3779B185EBCA87

def inputPrime : UInt64 := 0xC2B2AE3D27D4EB4F

def wordPrime : UInt64 := 0x165667B19E3779F9

def mergePrime : UInt64 := 0x85EBCA77C2B2AE63

def bytePrime : UInt64 := 0x27D4EB2F165667C5

/-- The bits of a word moved to the left, those that leave it coming back on the right. -/
def rotateLeft (word : UInt64) (count : UInt64) : UInt64 :=
  (word <<< count) ||| (word >>> (64 - count))

/-- The word with the given bytes, least significant first. -/
def littleEndian (bytes : List UInt8) : UInt64 :=
  bytes.foldr (fun byte word => (word <<< 8) ||| byte.toUInt64) 0

def mixLane (lane input : UInt64) : UInt64 :=
  rotateLeft (lane + input * inputPrime) 31 * lanePrime

def mergeLane (sum lane : UInt64) : UInt64 :=
  (sum ^^^ mixLane 0 lane) * lanePrime + mergePrime

/-- Four sums that take in the bytes of a block side by side. -/
structure Lanes where
  first : UInt64
  second : UInt64
  third : UInt64
  fourth : UInt64

def Lanes.initial : Lanes :=
  ⟨lanePrime + inputPrime, inputPrime, 0, 0 - lanePrime⟩

/-- Takes in thirty-two bytes, eight for each lane. -/
def Lanes.absorb (lanes : Lanes) (block : List UInt8) : Lanes :=
  ⟨mixLane lanes.first (littleEndian (block.take 8)),
    mixLane lanes.second (littleEndian ((block.drop 8).take 8)),
    mixLane lanes.third (littleEndian ((block.drop 16).take 8)),
    mixLane lanes.fourth (littleEndian ((block.drop 24).take 8))⟩

def Lanes.sum (lanes : Lanes) : UInt64 :=
  let rotated := rotateLeft lanes.first 1 + rotateLeft lanes.second 7 + rotateLeft lanes.third 12 +
    rotateLeft lanes.fourth 18
  mergeLane (mergeLane (mergeLane (mergeLane rotated lanes.first) lanes.second) lanes.third) lanes.fourth

/-- Takes in all whole blocks, and gives the bytes that are left. -/
def Lanes.absorbAll (lanes : Lanes) (bytes : List UInt8) : Lanes × List UInt8 :=
  if bytes.length < 32 then (lanes, bytes) else (lanes.absorb (bytes.take 32)).absorbAll (bytes.drop 32)
termination_by bytes.length
decreasing_by simp only [List.length_drop]; omega

/-- Takes in the bytes behind the last block: words of eight, then one of four, then single bytes. -/
def mixRest (sum : UInt64) : List UInt8 → UInt64
  | [] => sum
  | byte :: rest =>
    if 8 ≤ rest.length + 1 then
      mixRest (rotateLeft (sum ^^^ mixLane 0 (littleEndian (byte :: rest.take 7))) 27 * lanePrime + mergePrime)
        (rest.drop 7)
    else if 4 ≤ rest.length + 1 then
      mixRest (rotateLeft (sum ^^^ (littleEndian (byte :: rest.take 3) * lanePrime)) 23 * inputPrime + wordPrime)
        (rest.drop 3)
    else mixRest (rotateLeft (sum ^^^ (byte.toUInt64 * bytePrime)) 11 * lanePrime) rest
termination_by bytes => bytes.length
decreasing_by
  all_goals simp only [List.length_cons, List.length_drop]; omega

/-- Spreads every bit of the sum over the whole word. -/
def avalanche (sum : UInt64) : UInt64 :=
  let sum := (sum ^^^ (sum >>> 33)) * inputPrime
  let sum := (sum ^^^ (sum >>> 29)) * wordPrime
  sum ^^^ (sum >>> 32)

/-- The sixty-four bit fingerprint of bytes. -/
def fingerprintWord (bytes : List UInt8) : UInt64 :=
  let length := bytes.length.toUInt64
  if bytes.length < 32 then avalanche (mixRest (bytePrime + length) bytes)
  else
    let (lanes, rest) := Lanes.initial.absorbAll bytes
    avalanche (mixRest (lanes.sum + length) rest)

/-- The version of a content: the fingerprint of its bytes in sixteen hexadecimal digits. -/
def fingerprint (content : List Char) : String :=
  let bytes := (String.ofList content).toUTF8.toList
  String.ofList (padZeros 16 (hexDigits (fingerprintWord bytes).toNat))

end Marginalia
