import Marginalia.Settings.Basic

namespace Marginalia

inductive CommandOption
  | help
  | filetype
  | blame
  | blameFile
  | blameMode
  | sheet
  | search
  | line
  | disable
  | config
  | resetSettings
  | stats
  | verbose
  | logLevel
  | logFile
  | version
deriving DecidableEq, Repr

def CommandOption.all : List CommandOption :=
  [.help, .filetype, .blame, .blameFile, .blameMode, .sheet, .search, .line, .disable, .config, .resetSettings,
    .stats, .verbose, .logLevel, .logFile, .version]

def CommandOption.longName : CommandOption → String
  | .help => "help"
  | .filetype => "filetype"
  | .blame => "blame"
  | .blameFile => "blame-file"
  | .blameMode => "blame-mode"
  | .sheet => "sheet"
  | .search => "search"
  | .line => "line"
  | .disable => "disable"
  | .config => "config"
  | .resetSettings => "reset-settings"
  | .stats => "stats"
  | .verbose => "verbose"
  | .logLevel => "log-level"
  | .logFile => "log-file"
  | .version => "version"

def CommandOption.letter? : CommandOption → Option Char
  | .help => some 'h'
  | .config => some 'c'
  | .verbose => some 'v'
  | _ => none

def CommandOption.takesValue : CommandOption → Bool
  | .help => false
  | .blame => false
  | .resetSettings => false
  | .stats => false
  | .verbose => false
  | .version => false
  | _ => true

def CommandOption.ofLetter? (letter : Char) : Option CommandOption :=
  CommandOption.all.find? fun option => option.letter? = some letter

def CommandOption.ofLongName? (name : List Char) : Option CommandOption :=
  CommandOption.all.find? fun option => option.longName.toList = name

/-- The options whose long names start with some characters. -/
def CommandOption.startingWith (start : List Char) : List CommandOption :=
  CommandOption.all.filter fun option => start.isPrefixOf option.longName.toList

inductive LogLevel
  | debug
  | info
  | warning
  | error
  | critical
deriving DecidableEq, Repr

def LogLevel.name : LogLevel → String
  | .debug => "DEBUG"
  | .info => "INFO"
  | .warning => "WARNING"
  | .error => "ERROR"
  | .critical => "CRITICAL"

def LogLevel.ofName? (name : String) : Option LogLevel :=
  [.debug, .info, .warning, .error, .critical].find? fun level => LogLevel.name level == name

/-- The overlays that an option can switch off. -/
inductive Overlay
  | brackets
  | colors
  | blame
  | lint
deriving DecidableEq, Repr

def Overlay.name : Overlay → String
  | .brackets => "brackets"
  | .colors => "colors"
  | .blame => "blame"
  | .lint => "lint"

def Overlay.ofName? (name : String) : Option Overlay :=
  [.brackets, .colors, .blame, .lint].find? fun overlay => Overlay.name overlay == name

/-- The setting that says whether an overlay starts switched on. -/
def Overlay.setting : Overlay → Setting
  | .brackets => .bracketsEnabled
  | .colors => .colorsEnabled
  | .blame => .blameEnabled
  | .lint => .lintEnabled

def BlameMode.word : BlameMode → String
  | .age => "age"
  | .author => "author"
  | .both => "both"
  | .off => "off"

def BlameMode.ofWord? (word : String) : Option BlameMode :=
  BlameMode.all.find? fun mode => mode.word == word

inductive Given (α : Type)
  /-- Two dashes right behind the option take the place of a value and give none. -/
  | dashes
  | value (content : α)
deriving DecidableEq, Repr

def Given.value? {α : Type} : Given α → Option α
  | .dashes => none
  | .value content => some content

/-- The value that an option has, if it is there and has one. -/
def givenValue? {α : Type} (given : Option (Given α)) : Option α :=
  given.bind Given.value?

structure CommandArguments where
  path : Option String := none
  filetype : Option (Given String) := none
  blame : Bool := false
  blameFile : Option (Given String) := none
  blameMode : Option (Given BlameMode) := none
  sheet : Option (Given Sheet) := none
  search : Option (Given String) := none
  line : Option (Given Int) := none
  disabled : List (Given Overlay) := []
  configFile : Option (Given String) := none
  resetSettings : Bool := false
  stats : Bool := false
  verbose : Bool := false
  chosenLevel : Given LogLevel := .value .warning
  logFile : Option (Given String) := none
deriving DecidableEq, Repr

/-- The level of the log: everything when it is to be verbose. -/
def CommandArguments.logLevel (arguments : CommandArguments) : Given LogLevel :=
  if arguments.verbose then .value .debug else arguments.chosenLevel

/-- Settings with what the command line says put over them. -/
def Settings.override (settings : Settings) (arguments : CommandArguments) : Settings :=
  let disabled := arguments.disabled.filterMap Given.value?
  let settings := disabled.foldl (fun settings overlay => settings.set overlay.setting (.bool false)) settings
  let settings := match givenValue? arguments.blameMode with
    | some mode => settings.set .blameMode (.text mode.name)
    | none => settings
  match givenValue? arguments.sheet with
  | some sheet => (settings.set .styleSheet (.text sheet.name)).set .background (.text sheet.background)
  | none => settings

end Marginalia
