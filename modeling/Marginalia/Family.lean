import Marginalia.Text.LowerCase

namespace Marginalia

/-- The families of annotations. Each owns the style ids that start with its name and a point. -/
inductive Family
  | bracket
  | color
  | blame
  | lint
  | search
deriving DecidableEq, Repr

def Family.all : List Family :=
  [.bracket, .color, .blame, .lint, .search]

def Family.name : Family → String
  | .bracket => "bracket"
  | .color => "color"
  | .blame => "blame"
  | .lint => "lint"
  | .search => "search"

def Family.capitalName : Family → String
  | .bracket => "BRACKET"
  | .color => "COLOR"
  | .blame => "BLAME"
  | .lint => "LINT"
  | .search => "SEARCH"

def Family.idStart (family : Family) : String :=
  family.name ++ "."

/-- The capital of a letter whose capital is an ASCII letter: also of the dotless i and the long s. -/
def asciiCapital (char : Char) : Char :=
  if char.toNat == 0x131 then 'I' else if char.toNat == 0x17F then 'S' else char.toUpper

/-- The family with a name, in lower or upper case of any letters. -/
def Family.ofName? (name : String) : Option Family :=
  let lowered := lowerString name
  match Family.all.find? fun family => family.name == lowered with
  | some family => some family
  | none =>
    let raised := String.ofList (name.toList.map asciiCapital)
    Family.all.find? fun family => family.capitalName == raised

/-- The order in which families are drawn, lowest first. -/
def Family.drawOrder : List Family :=
  [.blame, .bracket, .color, .lint, .search]

end Marginalia
