import Marginalia.Text.Quoted

namespace Marginalia

/-- How a style id is shown. Colors are `#rrggbb` texts. -/
structure Style where
  foreground : Option String := none
  background : Option String := none
  bold : Bool := false
  italic : Bool := false
  underline : Bool := false
deriving DecidableEq, Repr, Inhabited

def Style.ink (color : String) : Style :=
  { foreground := some color }

def Style.paper (color : String) : Style :=
  { background := some color }

def Style.pair (ink paper : String) : Style :=
  { foreground := some ink, background := some paper }

def Style.heavy (style : Style) : Style :=
  { style with bold := true }

def Style.slanted (style : Style) : Style :=
  { style with italic := true }

def Style.underlined (style : Style) : Style :=
  { style with underline := true }

def colorText : Option String → String
  | some color => quoted color
  | none => "None"

def flagText (flag : Bool) : String :=
  if flag then "True" else "False"

def Style.describe (style : Style) : String :=
  "StyleDefinition(foreground=" ++ colorText style.foreground ++ ", background=" ++ colorText style.background ++
    ", bold=" ++ flagText style.bold ++ ", italic=" ++ flagText style.italic ++
    ", underline=" ++ flagText style.underline ++ ")"

/-- A named collection of styles in order. -/
abbrev StyleList := List (String × Style)

end Marginalia
