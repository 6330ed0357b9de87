import Marginalia.CommandLine.Run
import Std.Time.DateTime.Timestamp

namespace Marginalia

/-- Takes a file of the disk into a tree of files. What cannot be read is left out. -/
def takeFile (files : Files) (path : Path) : IO Files := do
  try
    let bytes ← IO.FS.readBinFile path.text
    return (files.install path bytes.toList).toOption.getD files
  catch _ => return files

/-- Writes a file that a run has changed back to the disk. -/
def leaveFile (before after : Files) (path : Path) : IO Unit := do
  let some bytes := (after.read path).toOption | return
  if (before.read path).toOption == some bytes then return
  try
    IO.FS.createDirAll path.parent.text
    IO.FS.writeBinFile path.text ⟨bytes.toArray⟩
  catch problem => IO.eprintln (path.text ++ ": " ++ toString problem)

def userSettings : IO Path := do
  let home := (← IO.getEnv "HOME").getD "."
  let folder := (← IO.getEnv "XDG_CONFIG_HOME").getD (home ++ "/.config")
  return Path.ofText (folder ++ "/" ++ programName ++ "/settings.json")

def currentMoment : IO Moment := do
  let now ← Std.Time.Timestamp.now
  return ⟨now.toSecondsSinceUnixEpoch.val * microsPerSecond⟩

/-- Runs the program on the files that the command line names. -/
def runOnDisk (texts : List String) : IO UInt32 := do
  let standard ← userSettings
  let arguments := (CommandArguments.ofList texts).toOption.getD {}
  let settings := arguments.settingsPath?.getD standard
  let log := arguments.logPath?.toList
  let sources := (namedPath? arguments.path).toList ++ arguments.recordsPath?.toList
  let files ← (settings :: log ++ sources).foldlM takeFile {}
  let around : Surroundings := ⟨files, ← currentMoment, ⟨none, 0⟩, standard⟩
  match around.run texts with
  | .error fault =>
    IO.eprintln (fault.kind ++ ": " ++ fault.message?.getD "the run was broken off")
    return 1
  | .ok result =>
    (settings :: log).forM (leaveFile files result.files)
    IO.print result.output
    return UInt32.ofNat result.exit

end Marginalia

def main (texts : List String) : IO UInt32 :=
  Marginalia.runOnDisk texts
