import Marginalia.SourceFile.Path

namespace Marginalia

abbrev Bytes := List UInt8

/-- A place in a tree of files. Places outside the current folder are reached by a number of steps upward,
or from the top. -/
structure Place where
  fromTop : Bool
  up : Nat
  steps : List String
deriving DecidableEq, Repr, Inhabited

/-- One step from a place. There is nothing above the top. -/
def Place.step (place : Place) (name : String) : Place :=
  if name = ".." then
    if place.steps.isEmpty then { place with up := if place.fromTop then 0 else place.up + 1 }
    else { place with steps := place.steps.dropLast }
  else { place with steps := place.steps ++ [name] }

inductive Entry
  | folder
  | file (bytes : Bytes)
deriving DecidableEq, Repr

/-- A tree of files. The current folder and those above it are always there. -/
structure Files where
  entries : List (Place × Entry) := []
deriving DecidableEq, Repr

def Files.at? (files : Files) (place : Place) : Option Entry :=
  if place.steps.isEmpty then some .folder
  else (files.entries.find? fun entry => entry.1 == place).map (·.2)

def Files.put (files : Files) (place : Place) (entry : Entry) : Files :=
  { entries := (place, entry) :: files.entries.filter fun other => other.1 != place }

inductive PathFault
  | missing
  /-- A step before the last one is no folder. -/
  | blocked
  | isFolder
  /-- A folder is wanted where a file stands. -/
  | isFile
  /-- The path, or a step of it, has more bytes than the system takes. -/
  | tooLong
  /-- The path holds a zero character, at which it would end. -/
  | severed
deriving DecidableEq, Repr

def PathFault.kind : PathFault → String
  | .missing => "FileNotFoundError"
  | .blocked => "NotADirectoryError"
  | .isFolder => "IsADirectoryError"
  | .isFile => "FileExistsError"
  | .tooLong => "OSError"
  | .severed => "ValueError"

def PathRoot.place (root : PathRoot) : Place :=
  ⟨root != .here, 0, []⟩

/-- The most bytes in the text of a path. -/
def pathLimit : Nat := 4095

/-- The most bytes in one step of a path. -/
def stepLimit : Nat := 255

/-- Refuses a path that the system does not even look for. -/
def Path.check (path : Path) : Except PathFault Unit :=
  if path.steps.any (·.contains '\x00') then .error .severed
  else if pathLimit < path.text.utf8ByteSize then .error .tooLong
  else .ok ()

/-- The place at the end of some steps. All places on the way have to be folders. -/
def Files.walk (files : Files) (place : Place) : List String → Except PathFault Place
  | [] => .ok place
  | name :: rest =>
    match files.at? place with
    | none => .error .missing
    | some (.file _) => .error .blocked
    | some .folder => if stepLimit < name.utf8ByteSize then .error .tooLong else files.walk (place.step name) rest

def Files.place (files : Files) (path : Path) : Except PathFault Place := do
  path.check
  files.walk path.root.place path.steps

def Files.find (files : Files) (path : Path) : Except PathFault Entry := do
  match files.at? (← files.place path) with
  | some entry => .ok entry
  | none => .error .missing

def Files.read (files : Files) (path : Path) : Except PathFault Bytes := do
  match ← files.find path with
  | .folder => .error .isFolder
  | .file bytes => .ok bytes

/-- Replaces the bytes of a file; its folder has to be there. -/
def Files.write (files : Files) (path : Path) (bytes : Bytes) : Except PathFault Files := do
  let place ← files.place path
  match files.at? place with
  | some .folder => .error .isFolder
  | _ => .ok (files.put place (.file bytes))

/-- Makes the folders on the way from a place that are not there yet; `made` when there were some. A file in the
way stands where a folder is to be made when it is the last step, or when folders in front of it were made. -/
def Files.makeFoldersFrom (files : Files) (made : Bool) (place : Place) : List String → Except PathFault Files
  | [] => .ok files
  | name :: rest =>
    let next := place.step name
    if stepLimit < name.utf8ByteSize then .error .tooLong
    else
      match files.at? next with
      | some .folder => files.makeFoldersFrom made next rest
      | some (.file _) => .error (if made || rest.isEmpty then .isFile else .blocked)
      | none => (files.put next .folder).makeFoldersFrom true next rest

/-- Makes the folder of a path and all folders above it. -/
def Files.makeFolders (files : Files) (path : Path) : Except PathFault Files := do
  path.check
  files.makeFoldersFrom false path.root.place path.steps

/-- Makes the parent folders of a path and then the file. -/
def Files.install (files : Files) (path : Path) (bytes : Bytes) : Except PathFault Files := do
  (← files.makeFolders path.parent).write path bytes

theorem Files.at?_put (files : Files) (place : Place) (entry : Entry) (below : place.steps ≠ []) :
    (files.put place entry).at? place = some entry := by
  simp [Files.at?, Files.put, below]

end Marginalia
