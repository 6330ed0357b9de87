import Marginalia.Color.Literal
import Marginalia.Style.Registry

namespace Marginalia

/-- Registers a swatch for each color literal whose style id is not in `done` yet, and counts them. A literal
that cannot be read is passed over. -/
def Registry.registerColors (registry : Registry) (background : Rgb) (done : List String) :
    List ColorMatch → Registry × Except Fault Nat
  | [] => (registry, .ok done.length)
  | color :: rest =>
    if color.styleId ∈ done then registry.registerColors background done rest
    else
      match swatch color.literal background with
      | .error _ => registry.registerColors background done rest
      | .ok style =>
        match registry.register color.styleId style .versioned with
        | .ok registry => registry.registerColors background (done ++ [color.styleId]) rest
        | .error fault => (registry, .error fault)

/-- Registers one swatch for each distinct color literal of a content. -/
def Registry.registerSwatches (registry : Registry) (content : List Char) (background : Rgb) :
    Registry × Except Fault Nat :=
  registry.registerColors background [] (findColors content)

end Marginalia
