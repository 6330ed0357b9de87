import Marginalia.Json.Text

namespace Marginalia

/-- A value of the JSON data format. Integers have no bound and are kept apart from other numbers;
members keep the order in which their keys first appear. -/
inductive Json
  | null
  | bool (value : Bool)
  | integer (value : Int)
  | number (value : Float)
  | text (value : JsonText)
  | array (items : List Json)
  | object (members : List (JsonText × Json))
deriving Inhabited

/-- The value of the first entry with a key. -/
def lookupKey? {κ α : Type} [DecidableEq κ] (key : κ) (entries : List (κ × α)) : Option α :=
  (entries.find? fun entry => entry.1 == key).map (·.2)

/-- Sets the value of a key. A known key keeps its place, a new one goes to the end. -/
def putKey {κ α : Type} [DecidableEq κ] (key : κ) (value : α) : List (κ × α) → List (κ × α)
  | [] => [(key, value)]
  | (known, old) :: rest =>
    if known == key then (known, value) :: rest else (known, old) :: putKey key value rest

mutual

/-- How many containers stand inside each other. -/
def Json.depth : Json → Nat
  | .array items => Json.itemDepth items + 1
  | .object members => Json.memberDepth members + 1
  | _ => 0

def Json.itemDepth : List Json → Nat
  | [] => 0
  | item :: rest => max item.depth (Json.itemDepth rest)

def Json.memberDepth : List (JsonText × Json) → Nat
  | [] => 0
  | (_, value) :: rest => max value.depth (Json.memberDepth rest)

end

def Json.get? (key : JsonText) : Json → Option Json
  | .object members => lookupKey? key members
  | _ => none

theorem lookupKey?_putKey {κ α : Type} [DecidableEq κ] (key : κ) (value : α) (entries : List (κ × α)) :
    lookupKey? key (putKey key value entries) = some value := by
  induction entries with
  | nil => simp [putKey, lookupKey?]
  | cons entry rest ih =>
    obtain ⟨known, old⟩ := entry
    by_cases same : known = key
    · subst same
      simp [putKey, lookupKey?]
    · simpa [putKey, lookupKey?, same] using ih

end Marginalia
