import Marginalia.Json.Display
import Marginalia.Json.Printer
import Marginalia.Json.Reader
import Marginalia.Settings.Basic
import Marginalia.SourceFile.Files
import Marginalia.Text.Cut
import Marginalia.Text.Encoding

namespace Marginalia

inductive SettingsFault
  /-- A value has no items to go through, or an item that cannot be told from others. -/
  | notACollection
  /-- A value that is no count. -/
  | notACount
  /-- A style sheet that is no name. -/
  | notAName
  /-- A background that is no text. -/
  | notAColorText
  /-- A background that is no color, because it is not even made of characters. -/
  | notAColor (literal : JsonText)
  | unknownMode
  /-- Values stand inside each other beyond the limit. -/
  | tooDeep
  | path (fault : PathFault)
deriving DecidableEq, Repr

def SettingsFault.kind : SettingsFault → String
  | .notACollection => "TypeError"
  | .notACount => "TypeError"
  | .notAName => "TypeError"
  | .notAColorText => "AttributeError"
  | .notAColor _ => "ValueError"
  | .unknownMode => "KeyError"
  | .tooDeep => "RecursionError"
  | .path fault => fault.kind

def SettingsFault.message? : SettingsFault → Option String
  | .notAColor literal => some ("Not a hex color literal: " ++ literal.quoted)
  | _ => none

/-- The items of a value: of a list, the characters of a text, or the keys of an object. -/
def Json.items? : Json → Option (List Json)
  | .array items => some items
  | .text value => some (value.glyphs.map fun glyph => .text ⟨[glyph]⟩)
  | .object members => some (members.map fun member => .text member.1)
  | _ => none

/-- The string that a value is. -/
def Json.text? : Json → Option String
  | .text value => value.string?
  | _ => none

/-- The first items, as many as a value says. A negative count leaves out items at the end, and null keeps all. -/
def takeCount? (count : Json) (items : List Json) : Option (List Json) :=
  match count with
  | .integer count => some (takeSigned count items)
  | .bool count => some (takeSigned (if count then 1 else 0) items)
  | .null => some items
  | _ => none

/-- Puts a path in front of the recent files, from which it is left out, and keeps as many as allowed. -/
def Settings.addRecent (settings : Settings) (path : String) : Except SettingsFault Settings :=
  match (settings.value .recentFiles).items? with
  | none => .error .notACollection
  | some items =>
    let others := items.filter fun item => item.text? != some path
    match takeCount? (settings.value .recentFilesLimit) (.text path :: others) with
    | none => .error .notACount
    | some recent => .ok (settings.set .recentFiles (.array recent))

/-- How deep the values of stored settings may be, the settings themselves included. -/
def storedDepthLimit : Nat := 496

/-- The settings as they are stored, unless values stand too deep in each other. -/
def Settings.stored (settings : Settings) : Except SettingsFault Json :=
  let data := settings.toJson
  if storedDepthLimit < data.depth then .error .tooDeep else .ok data

/-- A settings file, the settings in use, and how many observers are told of every save. -/
structure SettingsStore where
  path : Path
  files : Files := {}
  current : Option Settings := none
  observers : Nat := 0
  /-- What the observers were told, the limit of recent files once for each of them. -/
  notified : List Json := []

/-- The settings that the file holds; standard ones when it cannot be read. -/
def SettingsStore.load (store : SettingsStore) : Except SettingsFault Settings :=
  match store.files.read store.path with
  | .error .tooLong => .error (.path .tooLong)
  | .error _ => .ok .standard
  | .ok bytes =>
    match Json.ofBytes bytes with
    | .ok data => .ok ((Settings.ofJson? data).getD .standard)
    | .error .malformed => .ok .standard
    | .error .tooDeep => .error .tooDeep

/-- The settings in use; they are loaded when there are none. -/
def SettingsStore.settings (store : SettingsStore) : SettingsStore × Except SettingsFault Settings :=
  match store.current with
  | some settings => (store, .ok settings)
  | none =>
    match store.load with
    | .ok settings => ({ store with current := some settings }, .ok settings)
    | .error fault => (store, .error fault)

/-- What a fault of the settings path means for a save: most of them only make it fail. -/
def PathFault.saveFailure : PathFault → Except SettingsFault Bool
  | .severed => .error (.path .severed)
  | _ => .ok false

/-- Writes settings to the file, uses them and tells the observers, unless the file cannot be written. -/
def SettingsStore.saveAs (store : SettingsStore) (settings : Settings) :
    SettingsStore × Except SettingsFault Bool :=
  match store.files.makeFolders store.path.parent with
  | .error fault => (store, fault.saveFailure)
  | .ok files =>
    match settings.stored with
    | .error fault => ({ store with files := files }, .error fault)
    | .ok data =>
      match files.write store.path (encodeUtf8 data.indented) with
      | .error fault => ({ store with files := files }, fault.saveFailure)
      | .ok files =>
        let told := List.replicate store.observers (settings.value .recentFilesLimit)
        ({ store with files := files, current := some settings, notified := store.notified ++ told }, .ok true)

/-- Writes the settings in use, if there are any. -/
def SettingsStore.save (store : SettingsStore) : SettingsStore × Except SettingsFault Bool :=
  match store.current with
  | none => (store, .ok false)
  | some settings => store.saveAs settings

/-- Uses settings and writes them; whether they could be written does not matter. -/
def SettingsStore.adopt (store : SettingsStore) (settings : Settings) :
    SettingsStore × Except SettingsFault Settings :=
  let (store, saved) := { store with current := some settings }.saveAs settings
  (store, saved.map fun _ => settings)

def SettingsStore.reset (store : SettingsStore) : SettingsStore × Except SettingsFault Settings :=
  store.adopt .standard

/-- Puts a path in front of the recent files and writes the settings. -/
def SettingsStore.addRecent (store : SettingsStore) (path : String) :
    SettingsStore × Except SettingsFault Settings :=
  match store.settings with
  | (store, .error fault) => (store, .error fault)
  | (store, .ok settings) =>
    match settings.addRecent path with
    | .error fault => (store, .error fault)
    | .ok settings => store.adopt settings

/-- Settings with some of them changed, in order. A blame mode that is no known name ends the changes. -/
def Settings.change (settings : Settings) : List (Setting × Json) → Settings × Except SettingsFault Unit
  | [] => (settings, .ok ())
  | (setting, value) :: rest =>
    if setting = .blameMode ∧ (value.text?.bind BlameMode.ofName?).isNone then (settings, .error .unknownMode)
    else (settings.set setting value).change rest

def SettingsStore.assign (store : SettingsStore) (changes : List (Setting × Json)) :
    SettingsStore × Except SettingsFault Settings :=
  match store.settings with
  | (store, .error fault) => (store, .error fault)
  | (store, .ok settings) =>
    let (settings, changed) := settings.change changes
    ({ store with current := some settings }, changed.map fun _ => settings)

/-- The store as a new run finds it. -/
def SettingsStore.reopen (store : SettingsStore) : SettingsStore :=
  { store with current := none, observers := 0 }

end Marginalia
