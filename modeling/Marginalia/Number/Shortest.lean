import Marginalia.Number.Binary64

namespace Marginalia

/-- A decimal number `digits * 10 ^ exponent`. -/
structure Decimal where
  digits : Nat
  exponent : Int
deriving DecidableEq, Repr

/-- The exponent of the leading decimal digit of a positive quotient. -/
def leadingPlace (numerator denominator : Nat) : Int :=
  if denominator ≤ numerator then ((toString (numerator / denominator)).length : Int) - 1
  else
    match (List.range 400).find? fun places => denominator ≤ numerator * tenTo places with
    | some places => -(places : Int)
    | none => -400

/-- The reals between `low / scale` and `high / scale`, which round to `centre / scale`. -/
structure RoundingInterval where
  low : Nat
  centre : Nat
  high : Nat
  scale : Nat
  closed : Bool

/-- What rounds to `mantissa * 2 ^ exponent`. Below a power of two the gap is half as wide. -/
def RoundingInterval.around (mantissa : Nat) (exponent : Int) : RoundingInterval :=
  let below := if mantissa == twoTo 52 && exponent != -1074 then 1 else 2
  let factor := twoTo (exponent - 2).toNat
  { low := (4 * mantissa - below) * factor
    centre := 4 * mantissa * factor
    high := (4 * mantissa + 2) * factor
    scale := twoTo (2 - exponent).toNat
    closed := mantissa % 2 == 0 }

def RoundingInterval.contains (interval : RoundingInterval) (count : Nat) (place : Int) : Bool :=
  let left := count * interval.scale * tenTo place.toNat
  let unit := tenTo (-place).toNat
  if interval.closed then interval.low * unit ≤ left && left ≤ interval.high * unit
  else interval.low * unit < left && left < interval.high * unit

/-- The decimal of the grid with unit `10 ^ place` that lies in the interval, the nearer one of two. -/
def RoundingInterval.onGrid? (interval : RoundingInterval) (place : Int) : Option Decimal :=
  let numerator := interval.centre * tenTo (-place).toNat
  let denominator := interval.scale * tenTo place.toNat
  let low := numerator / denominator
  let lowFits := interval.contains low place
  let highFits := interval.contains (low + 1) place
  let twice := 2 * (numerator % denominator)
  let lowNearer := twice < denominator || (twice == denominator && low % 2 == 0)
  if lowFits && (lowNearer || !highFits) then some ⟨low, place⟩
  else if highFits then some ⟨low + 1, place⟩
  else none

/-- The decimal with the fewest digits that reads back as `mantissa * 2 ^ exponent`, for a positive mantissa. -/
def shortestDecimal (mantissa : Nat) (exponent : Int) : Decimal :=
  let interval := RoundingInterval.around mantissa exponent
  let leading := leadingPlace interval.centre interval.scale
  ((List.range 17).findSome? fun (fewer : Nat) => interval.onGrid? (leading - (fewer : Int))).getD ⟨0, 0⟩

/-- The digits without trailing zeros, and the exponent of the first of them. -/
def Decimal.significant (decimal : Decimal) : List Char × Int :=
  let all := (toString decimal.digits).toList
  let kept := (all.reverse.dropWhile (· == '0')).reverse
  (kept, decimal.exponent + all.length - 1)

/-- The notation of a finite positive number: positional from `1e-4` to below `1e16` and always with a
point, otherwise with an exponent that has a sign and at least two digits. -/
def Decimal.notate (decimal : Decimal) : List Char :=
  let (digits, leading) := decimal.significant
  if leading < -4 ∨ 16 ≤ leading then
    let fraction := match digits with
      | first :: second :: rest => first :: '.' :: second :: rest
      | short => short
    let sign := if leading < 0 then '-' else '+'
    let power := (toString leading.natAbs).toList
    fraction ++ 'e' :: sign :: (List.replicate (2 - power.length) '0' ++ power)
  else if leading < 0 then
    '0' :: '.' :: (List.replicate (leading.natAbs - 1) '0' ++ digits)
  else
    let places := leading.toNat + 1
    let whole := digits.take places ++ List.replicate (places - digits.length) '0'
    match digits.drop places with
    | [] => whole ++ ['.', '0']
    | fraction => whole ++ '.' :: fraction

structure SpecialNumbers where
  infinite : String
  notANumber : String

/-- The shortest text that reads back as the same number. -/
def notateFloat (special : SpecialNumbers) (value : Float) : String :=
  let signed (negative : Bool) (text : String) := if negative then "-" ++ text else text
  match Binary64.ofFloat value with
  | .notANumber => special.notANumber
  | .infinite negative => signed negative special.infinite
  | .finite negative mantissa exponent =>
    if mantissa == 0 then signed negative "0.0"
    else signed negative (String.ofList (shortestDecimal mantissa exponent).notate)

/-- The number nearest to `digits * 10 ^ exponent`. Far beyond the range the exponent is cut, which
changes nothing in the result. -/
def nearestFloat (digits : Nat) (exponent : Int) : Float :=
  let width : Int := (toString digits).length
  if digits == 0 then 0.0
  else if 400 < exponent + width then Float.ofScientific 1 false 400
  else if exponent + width < -400 then 0.0
  else Float.ofScientific digits (exponent < 0) exponent.natAbs

end Marginalia
