import Marginalia.Number.Binary64
import Marginalia.Text.Digit

namespace Marginalia

/-- An opaque color. Channels of colors that are shown lie between 0 and 255. -/
structure Rgb where
  red : Int
  green : Int
  blue : Int
deriving DecidableEq, Repr, Inhabited

/-- How much a color covers of what lies below it: nothing at 0, all at 1. -/
inductive Coverage
  | whole (count : Int)
  | part (share : Float)

def Coverage.share : Coverage → Float
  | .whole count => Float.ofInt count
  | .part share => share

structure Rgba where
  rgb : Rgb
  alpha : Coverage

def Rgba.isOpaque (color : Rgba) : Bool :=
  1.0 ≤ color.alpha.share

def Rgb.black : Rgb := ⟨0, 0, 0⟩

def Rgb.white : Rgb := ⟨255, 255, 255⟩

/-- A channel in at least two places of base sixteen, a sign counting as one. -/
def channelText (channel : Int) : List Char :=
  if channel < 0 then '-' :: padZeros 1 (hexDigits channel.natAbs)
  else padZeros 2 (hexDigits channel.natAbs)

/-- The `#rrggbb` text of a color. -/
def Rgb.hex (color : Rgb) : String :=
  String.ofList ('#' :: (channelText color.red ++ channelText color.green ++ channelText color.blue))

inductive ChannelFault
  /-- A number is larger than all that are finite. -/
  | infinite
  | notANumber
deriving DecidableEq, Repr

def ChannelFault.kind : ChannelFault → String
  | .infinite => "OverflowError"
  | .notANumber => "ValueError"

/-- The finite number nearest to an integer. -/
def finiteFloat (value : Int) : Except ChannelFault Float :=
  let nearest := Float.ofInt value
  if nearest.isInf then .error .infinite else .ok nearest

/-- The integer nearest to a number, a half going up. -/
def roundHalfUp (value : Float) : Except ChannelFault Int :=
  match Binary64.ofFloat (value + 0.5).floor with
  | .finite negative mantissa exponent =>
    .ok (Dyadic.floor ⟨if negative then -(mantissa : Int) else mantissa, exponent⟩)
  | .infinite _ => .error .infinite
  | .notANumber => .error .notANumber

/-- One channel of a color laid over another. Whole coverage is reckoned without loss. -/
def blendChannel (alpha : Coverage) (upper lower : Int) : Except ChannelFault Int :=
  match alpha with
  | .whole count => do roundHalfUp (← finiteFloat (upper * count + lower * (1 - count)))
  | .part share => do roundHalfUp ((← finiteFloat upper) * share + (← finiteFloat lower) * (1 - share))

def Rgba.blend (upper : Rgba) (lower : Rgb) : Except ChannelFault Rgb := do
  let red ← blendChannel upper.alpha upper.rgb.red lower.red
  let green ← blendChannel upper.alpha upper.rgb.green lower.green
  let blue ← blendChannel upper.alpha upper.rgb.blue lower.blue
  return ⟨red, green, blue⟩

/-- A color that is shown, laid over an opaque one. -/
def Rgba.over (upper : Rgba) (lower : Rgb) : Rgb :=
  (upper.blend lower).toOption.getD .black

/-- The perceived lightness of a color, from 0 to 1. -/
def Rgb.luminance (color : Rgb) : Except ChannelFault Float := do
  let red ← finiteFloat color.red
  let green ← finiteFloat color.green
  let blue ← finiteFloat color.blue
  return (0.299 * red + 0.587 * green + 0.114 * blue) / 255

/-- Black on light colors and white on all others. -/
def Rgb.contrast (color : Rgb) : Rgb :=
  match color.luminance with
  | .ok luminance => if luminance > 0.5 then .black else .white
  | .error _ => .white

end Marginalia
