import Marginalia.Fault
import Marginalia.Json.Basic
import Marginalia.Style.Format

namespace Marginalia

/-- The known styles: permanent ones, and those of the current content version, which can be registered
until the registry is sealed. Formats that were built once are kept. -/
structure Registry where
  permanent : StyleList := []
  versioned : StyleList := []
  version : Option String := none
  isSealed : Bool := false
  formats : List (String × Format) := []
deriving DecidableEq, Repr

/-- Which of the two collections a style goes to. -/
inductive Scope
  | permanent
  | versioned
deriving DecidableEq, Repr

def Registry.get? (registry : Registry) (name : String) : Option Style :=
  match lookupKey? name registry.permanent with
  | some style => some style
  | none => lookupKey? name registry.versioned

def Registry.contains (registry : Registry) (name : String) : Bool :=
  (registry.get? name).isSome

/-- All style ids, permanent ones first. -/
def Registry.names (registry : Registry) : List String :=
  registry.permanent.map (·.1) ++ registry.versioned.map (·.1)

def Registry.size (registry : Registry) : Nat :=
  registry.permanent.length + registry.versioned.length

/-- The definition of a style id that has to be known. -/
def Registry.require (registry : Registry) (name : String) : Except Fault Style :=
  match registry.get? name with
  | some style => .ok style
  | none => .error (.unknownStyle name)

/-- Starts a content version. The styles of the version before are forgotten with their formats. -/
def Registry.beginVersion (registry : Registry) (version : String) : Registry × Bool :=
  if registry.version = some version then (registry, false)
  else
    let forgotten := registry.versioned.map (·.1)
    ({ registry with
        versioned := []
        version := some version
        isSealed := false
        formats := registry.formats.filter fun entry => !forgotten.contains entry.1 }, true)

/-- Closes the registration of versioned styles. -/
def Registry.seal (registry : Registry) : Registry :=
  { registry with isSealed := true }

/-- Registers a style. Doing so again with the same definition changes nothing. -/
def Registry.register (registry : Registry) (name : String) (style : Style) (scope : Scope) :
    Except Fault Registry :=
  match registry.get? name with
  | some known => if known = style then .ok registry else .error (.styleConflict name known style)
  | none =>
    match scope with
    | .permanent => .ok { registry with permanent := registry.permanent ++ [(name, style)] }
    | .versioned =>
      if registry.isSealed then .error (.sealedRegistry name registry.version)
      else .ok { registry with versioned := registry.versioned ++ [(name, style)] }

/-- Registers styles one after the other. Those in front of a fault stay registered. -/
def Registry.registerAll (registry : Registry) (scope : Scope) : StyleList → Registry × Except Fault Unit
  | [] => (registry, .ok ())
  | (name, style) :: rest =>
    match registry.register name style scope with
    | .ok registry => registry.registerAll scope rest
    | .error fault => (registry, .error fault)

def Registry.ofStyles (styles : StyleList) : Registry × Except Fault Unit :=
  Registry.registerAll {} .permanent styles

/-- A copy of the styles, without the formats. -/
def Registry.snapshot (registry : Registry) : Registry :=
  { registry with formats := [] }

/-- The format of a style id, built on first use. -/
def Registry.format (registry : Registry) (name : String) : Registry × Except Fault Format :=
  match lookupKey? name registry.formats with
  | some format => (registry, .ok format)
  | none =>
    match registry.require name with
    | .ok style => ({ registry with formats := registry.formats ++ [(name, style.format)] }, .ok style.format)
    | .error fault => (registry, .error fault)

end Marginalia
