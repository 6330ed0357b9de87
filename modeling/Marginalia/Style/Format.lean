import Marginalia.Style.Basic

namespace Marginalia

/-- The properties set on a character. A property that is not set leaves what lies below it alone. -/
structure Format where
  foreground : Option String := none
  background : Option String := none
  bold : Bool := false
  italic : Bool := false
  underline : Bool := false
deriving DecidableEq, Repr, Inhabited

/-- A color counts as set when its text is not empty. -/
def setColor (color : Option String) : Option String :=
  color.filter (· != "")

/-- The format that carries just what a style sets. -/
def Style.format (style : Style) : Format :=
  { foreground := setColor style.foreground
    background := setColor style.background
    bold := style.bold
    italic := style.italic
    underline := style.underline }

/-- `upper` over `lower`: what `upper` sets wins. -/
def Format.merge (lower upper : Format) : Format :=
  { foreground := upper.foreground.or lower.foreground
    background := upper.background.or lower.background
    bold := lower.bold || upper.bold
    italic := lower.italic || upper.italic
    underline := lower.underline || upper.underline }

def Format.isEmpty (format : Format) : Bool :=
  format == {}

theorem Format.merge_empty (format : Format) : format.merge {} = format := by
  simp [merge]

theorem Format.empty_merge (format : Format) : Format.merge {} format = format := by
  cases format
  simp [merge]

theorem Format.merge_assoc (low middle high : Format) :
    (low.merge middle).merge high = low.merge (middle.merge high) := by
  simp [merge, Option.or_assoc, Bool.or_assoc]

end Marginalia
