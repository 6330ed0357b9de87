namespace Marginalia

def twoTo (exponent : Nat) : Nat :=
  Nat.pow 2 exponent

def tenTo (exponent : Nat) : Nat :=
  Nat.pow 10 exponent

/-- A finite number `mantissa * 2 ^ exponent`. -/
structure Dyadic where
  mantissa : Int
  exponent : Int
deriving DecidableEq, Repr

/-- What a 64-bit word of the binary interchange format stands for. -/
inductive Binary64
  | finite (negative : Bool) (mantissa : Nat) (exponent : Int)
  | infinite (negative : Bool)
  | notANumber
deriving DecidableEq, Repr

/-- The parts of a word: one sign bit, eleven exponent bits, fifty-two fraction bits. -/
def Binary64.ofBits (bits : UInt64) : Binary64 :=
  let word := bits.toNat
  let negative := word / twoTo 63 == 1
  let biased : Nat := word / twoTo 52 % twoTo 11
  let fraction := word % twoTo 52
  if biased == 2047 then
    if fraction == 0 then .infinite negative else .notANumber
  else if biased == 0 then .finite negative fraction (-1074)
  else .finite negative (twoTo 52 + fraction) ((biased : Int) - 1075)

def Binary64.ofFloat (value : Float) : Binary64 :=
  .ofBits value.toBits

def Dyadic.floor (value : Dyadic) : Int :=
  if 0 ≤ value.exponent then value.mantissa * twoTo value.exponent.toNat
  else value.mantissa.fdiv (twoTo (-value.exponent).toNat)

/-- The integer part, toward zero. -/
def Dyadic.truncate (value : Dyadic) : Int :=
  if 0 ≤ value.exponent then value.mantissa * twoTo value.exponent.toNat
  else value.mantissa.tdiv (twoTo (-value.exponent).toNat)

/-- The nearest integer, a half going to the even neighbour. -/
def Dyadic.roundEven (value : Dyadic) : Int :=
  let low := value.floor
  if 0 ≤ value.exponent then low
  else
    let unit : Int := twoTo (-value.exponent).toNat
    let twice := 2 * (value.mantissa - low * unit)
    if twice < unit then low
    else if unit < twice then low + 1
    else if low % 2 == 0 then low else low + 1

def Dyadic.atLeast (value : Dyadic) (bound : Int) : Bool :=
  if 0 ≤ value.exponent then bound ≤ value.mantissa * twoTo value.exponent.toNat
  else bound * twoTo (-value.exponent).toNat ≤ value.mantissa

/-- The exact value of a finite word. -/
def Binary64.dyadic? : Binary64 → Option Dyadic
  | .finite negative mantissa exponent => some ⟨if negative then -(mantissa : Int) else mantissa, exponent⟩
  | .infinite _ => none
  | .notANumber => none

/-- `numerator / denominator` rounded to the nearest integer, a half going to the even neighbour. -/
def roundedQuotient (numerator denominator : Nat) : Nat :=
  let low := numerator / denominator
  let twice := 2 * (numerator % denominator)
  if twice < denominator then low
  else if denominator < twice then low + 1
  else if low % 2 == 0 then low else low + 1

/-- The power of two below a positive quotient: `2 ^ p ≤ numerator / denominator < 2 ^ (p + 1)`. -/
def quotientLog (numerator denominator : Nat) : Int :=
  let guess : Int := (numerator.log2 : Int) - denominator.log2
  let fits :=
    if 0 ≤ guess then denominator * twoTo guess.toNat ≤ numerator
    else denominator ≤ numerator * twoTo (-guess).toNat
  if fits then guess else guess - 1

/-- The quotient of two natural numbers rounded to fifty-three significant bits, ties to even. -/
def roundedRatio (numerator denominator : Nat) : Dyadic :=
  if numerator == 0 then ⟨0, 0⟩
  else
    let exponent := quotientLog numerator denominator - 52
    if 0 ≤ exponent then
      ⟨roundedQuotient numerator (denominator * twoTo exponent.toNat), exponent⟩
    else
      ⟨roundedQuotient (numerator * twoTo (-exponent).toNat) denominator, exponent⟩

/-- `value / divisor` rounded to fifty-three significant bits, ties to even. -/
def Dyadic.divided (value : Dyadic) (divisor : Nat) : Dyadic :=
  let size :=
    if 0 ≤ value.exponent then roundedRatio (value.mantissa.natAbs * twoTo value.exponent.toNat) divisor
    else roundedRatio value.mantissa.natAbs (divisor * twoTo (-value.exponent).toNat)
  if value.mantissa < 0 then ⟨-size.mantissa, size.exponent⟩ else size

end Marginalia
