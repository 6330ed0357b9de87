import Marginalia.Attribution.Load
import Marginalia.CommandLine.Arguments
import Marginalia.Session.Report
import Marginalia.Settings.Session
import Marginalia.SourceFile.Read

namespace Marginalia

/-- What a run finds around it. -/
structure Surroundings where
  files : Files
  now : Moment
  guess : EncodingGuess
  /-- The settings file that is used when none is named. -/
  settingsPath : Path

inductive RunFault
  /-- The level of the log is left open. -/
  | noLevel
  | logFile (fault : PathFault)
  | setup (fault : SetupFault)
  | source (cause : ReadBreak)
  | records (cause : LoadBreak)
  | viewer (fault : Fault)
deriving DecidableEq, Repr

def RunFault.kind : RunFault → String
  | .noLevel => "AttributeError"
  | .logFile fault => fault.kind
  | .setup fault => fault.kind
  | .source cause => cause.kind
  | .records cause => cause.kind
  | .viewer fault => fault.kind

def RunFault.message? : RunFault → Option String
  | .setup fault => fault.message?
  | .viewer fault => fault.message?
  | _ => none

/-- The exit code of a run, what it printed, and the files after it. -/
structure RunResult where
  exit : Nat
  output : String
  files : Files

def programName : String := "srcview"

def versionText : String := programName ++ " 0.3.0\n"

def usageText : String :=
  "usage: " ++ programName ++ " [options] [path]\n\n" ++
    String.join (CommandOption.all.map fun option =>
      "  --" ++ option.longName ++ (if option.takesValue then " VALUE" else "") ++ "\n")

/-- The path of a text, unless that is empty. -/
def namedPath? (text : Option String) : Option Path :=
  (text.filter (!·.isEmpty)).map Path.ofText

/-- Makes the log file and the folders above it. What it holds already stays. -/
def Files.openLog (files : Files) (path : Path) : Except PathFault Files := do
  let files ← files.makeFolders path.parent
  match files.find path with
  | .ok .folder => throw .isFolder
  | .ok (.file _) => return files
  | .error _ => files.write path []

def CommandArguments.settingsPath? (arguments : CommandArguments) : Option Path :=
  namedPath? (givenValue? arguments.configFile)

def CommandArguments.logPath? (arguments : CommandArguments) : Option Path :=
  namedPath? (givenValue? arguments.logFile)

def CommandArguments.recordsPath? (arguments : CommandArguments) : Option Path :=
  namedPath? (givenValue? arguments.blameFile)

/-- The settings of a run, and the files after they are loaded or reset. -/
def Surroundings.settings (around : Surroundings) (arguments : CommandArguments) (files : Files) :
    Except SettingsFault (Settings × Files) :=
  let store : SettingsStore := { path := arguments.settingsPath?.getD around.settingsPath, files := files }
  let (store, settings) := if arguments.resetSettings then store.reset else store.settings
  settings.map (·, store.files)

/-- A viewer with the records of a file, when one is named and can be loaded. -/
def Session.withRecords (session : Session) (files : Files) (zone : Zone) (path : Option Path) :
    Except RunFault Session :=
  match path.map (files.loadRecords · zone) with
  | none => .ok session
  | some (.error (.brokenOff cause)) => .error (.records cause)
  | some (.error _) => .ok session
  | some (.ok records) =>
    match session.setAttribution records with
    | (session, .ok _) => .ok session
    | (_, .error fault) => .error (.viewer fault)

/-- A viewer that searches for a term, unless it is empty. A found term needs to know how far to scroll. -/
def Session.withSearch (session : Session) (settings : Settings) (term : Option String) :
    Except RunFault Session :=
  match term.filter (!·.isEmpty) with
  | none => .ok session
  | some term =>
    match session.setSearchTerm term with
    | (_, .error fault) => .error (.viewer fault)
    | (session, .ok _) =>
      if 0 < session.search.selection.count ∧ settings.scrollContext?.isNone then
        .error (.setup (.settings .notACount))
      else .ok session

def Session.reportOn (session : Session) (files : Files) (zone : Zone) (settings : Settings)
    (arguments : CommandArguments) (text : SourceText) : Except RunFault String :=
  match session.setContent text.content (some text.filetype) with
  | (_, .error fault) => .error (.viewer fault)
  | (session, .ok _) => do
    let session ← session.withRecords files zone arguments.recordsPath?
    let session ← session.withSearch settings (givenValue? arguments.search)
    session.statistics.mapError .viewer

/-- Prints the statistics of a file. There is no window, so nothing else can be shown. -/
def Surroundings.present (around : Surroundings) (arguments : CommandArguments) (decoders : Decoders := .standard)
    (zone : Zone := .universal) : Except RunFault RunResult := do
  if arguments.logLevel = .dashes then throw .noLevel
  let files ← match arguments.logPath? with
    | some path => (around.files.openLog path).mapError .logFile
    | none => .ok around.files
  let (settings, files) ← (around.settings arguments files).mapError (.setup ∘ .settings)
  let settings := settings.override arguments
  let session ← (settings.openSession around.now).mapError .setup
  if !arguments.stats then return ⟨1, "", files⟩
  let path := Path.ofText (arguments.path.getD "")
  match files.readSource {} around.guess path none (givenValue? arguments.filetype) decoders with
  | .error (.brokenOff cause) => throw (.source cause)
  | .error _ => return ⟨1, "", files⟩
  | .ok text =>
    let output ← session.reportOn files zone settings arguments text
    return ⟨0, output, files⟩

def CommandExit.result (files : Files) : CommandExit → RunResult
  | .help => ⟨0, usageText, files⟩
  | .version => ⟨0, versionText, files⟩
  | .misuse => ⟨2, "", files⟩

def Surroundings.run (around : Surroundings) (texts : List String) (decoders : Decoders := .standard)
    (zone : Zone := .universal) : Except RunFault RunResult :=
  match CommandArguments.ofList texts with
  | .ok arguments => around.present arguments decoders zone
  | .error exit => .ok (exit.result around.files)

end Marginalia
