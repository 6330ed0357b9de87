import Marginalia.Json.Basic
import Marginalia.Overlay.Annotator
import Marginalia.Style.Sheet

namespace Marginalia

/-- Where a setting is stored: in the group of annotators, in the group of the window, or beside both. -/
inductive SettingGroup
  | annotators
  | ui
  | top
deriving DecidableEq, Repr

/-- What the viewer keeps between two runs. -/
inductive Setting
  | bracketsEnabled
  | colorsEnabled
  | blameEnabled
  | lintEnabled
  | bracketTypes
  | lintKeywords
  | blameMode
  | strictAttribution
  | blameFiletypes
  | lintFiletypes
  | styleSheet
  | background
  | fontFamily
  | fontSize
  | windowWidth
  | windowHeight
  | scrollContextLines
  | recentFiles
  | recentFilesLimit
deriving DecidableEq, Repr

/-- All settings in the order in which they are stored. -/
def Setting.all : List Setting :=
  [.bracketsEnabled, .colorsEnabled, .blameEnabled, .lintEnabled, .bracketTypes, .lintKeywords, .blameMode,
    .strictAttribution, .blameFiletypes, .lintFiletypes, .styleSheet, .background, .fontFamily, .fontSize,
    .windowWidth, .windowHeight, .scrollContextLines, .recentFiles, .recentFilesLimit]

/-- The name under which a setting is stored. -/
def Setting.key : Setting → String
  | .bracketsEnabled => "brackets_enabled"
  | .colorsEnabled => "colors_enabled"
  | .blameEnabled => "blame_enabled"
  | .lintEnabled => "lint_enabled"
  | .bracketTypes => "bracket_types"
  | .lintKeywords => "lint_keywords"
  | .blameMode => "blame_mode"
  | .strictAttribution => "strict_attribution"
  | .blameFiletypes => "blame_filetypes"
  | .lintFiletypes => "lint_filetypes"
  | .styleSheet => "style_sheet"
  | .background => "background"
  | .fontFamily => "font_family"
  | .fontSize => "font_size"
  | .windowWidth => "window_width"
  | .windowHeight => "window_height"
  | .scrollContextLines => "scroll_context_lines"
  | .recentFiles => "recent_files"
  | .recentFilesLimit => "recent_files_limit"

def Setting.group : Setting → SettingGroup
  | .styleSheet => .ui
  | .background => .ui
  | .fontFamily => .ui
  | .fontSize => .ui
  | .windowWidth => .ui
  | .windowHeight => .ui
  | .scrollContextLines => .ui
  | .recentFiles => .top
  | .recentFilesLimit => .top
  | _ => .annotators

def SettingGroup.settings (group : SettingGroup) : List Setting :=
  Setting.all.filter fun setting => setting.group = group

def Setting.ofKey? (group : SettingGroup) (key : String) : Option Setting :=
  group.settings.find? fun setting => setting.key == key

def Json.texts (items : List String) : Json :=
  .array (items.map fun item => Json.text (.ofString item))

/-- The value of a setting that no file sets. -/
def Setting.standard : Setting → Json
  | .bracketsEnabled => .bool true
  | .colorsEnabled => .bool true
  | .blameEnabled => .bool true
  | .lintEnabled => .bool true
  | .bracketTypes => .texts (Bracket.all.map Bracket.name)
  | .lintKeywords => .texts (defaultKeywords.map Keyword.word)
  | .blameMode => .text BlameMode.age.name
  | .strictAttribution => .bool false
  | .blameFiletypes => .texts Marginalia.blameFiletypes
  | .lintFiletypes => .texts Marginalia.lintFiletypes
  | .styleSheet => .text Sheet.githubDark.name
  | .background => .text Sheet.githubDark.background
  | .fontFamily => .text "Monospace"
  | .fontSize => .integer 11
  | .windowWidth => .integer 1000
  | .windowHeight => .integer 750
  | .scrollContextLines => .integer 3
  | .recentFiles => .array []
  | .recentFilesLimit => .integer 10

/-- A value for every setting. A file may give a setting any value at all, and it is kept as it is. -/
structure Settings where
  value : Setting → Json
deriving Inhabited

def Settings.standard : Settings :=
  ⟨Setting.standard⟩

def Settings.set (settings : Settings) (setting : Setting) (value : Json) : Settings :=
  ⟨fun other => if other = setting then value else settings.value other⟩

def Settings.members (settings : Settings) (group : SettingGroup) : List (JsonText × Json) :=
  group.settings.map fun setting => (setting.key, settings.value setting)

def Settings.toJson (settings : Settings) : Json :=
  .object
    (("annotators", .object (settings.members .annotators)) :: ("ui", .object (settings.members .ui)) ::
      settings.members .top)

/-- The blame mode that a stored value names: a text that names none means the first one. -/
def adoptMode : Json → Json
  | .text name => .text ((name.string?.bind BlameMode.ofName?).getD .age).name
  | stored => stored

/-- How a setting is read back: the group and the key it is looked for under, what counts when the key is missing,
and what a stored value means. -/
structure SettingReading where
  group : SettingGroup
  key : String
  fallback : Json
  adopt : Json → Json := id

/-- Where each setting is read from. This table stands beside the one that settings are stored by. -/
def Setting.reading : Setting → SettingReading
  | .bracketsEnabled => { group := .annotators, key := "brackets_enabled", fallback := bracketsEnabled.standard }
  | .colorsEnabled => { group := .annotators, key := "colors_enabled", fallback := colorsEnabled.standard }
  | .blameEnabled => { group := .annotators, key := "blame_enabled", fallback := blameEnabled.standard }
  | .lintEnabled => { group := .annotators, key := "lint_enabled", fallback := lintEnabled.standard }
  | .bracketTypes => { group := .annotators, key := "bracket_types", fallback := bracketTypes.standard }
  | .lintKeywords => { group := .annotators, key := "lint_keywords", fallback := lintKeywords.standard }
  | .blameMode => { group := .annotators, key := "blame_mode", fallback := .text "AGE", adopt := adoptMode }
  | .strictAttribution =>
    { group := .annotators, key := "strict_attribution", fallback := strictAttribution.standard }
  | .blameFiletypes => { group := .annotators, key := "blame_filetypes", fallback := blameFiletypes.standard }
  | .lintFiletypes => { group := .annotators, key := "lint_filetypes", fallback := lintFiletypes.standard }
  | .styleSheet => { group := .ui, key := "style_sheet", fallback := styleSheet.standard }
  | .background => { group := .ui, key := "background", fallback := background.standard }
  | .fontFamily => { group := .ui, key := "font_family", fallback := fontFamily.standard }
  | .fontSize => { group := .ui, key := "font_size", fallback := fontSize.standard }
  | .windowWidth => { group := .ui, key := "window_width", fallback := windowWidth.standard }
  | .windowHeight => { group := .ui, key := "window_height", fallback := windowHeight.standard }
  | .scrollContextLines => { group := .ui, key := "scroll_context_lines", fallback := scrollContextLines.standard }
  | .recentFiles => { group := .top, key := "recent_files", fallback := .array [] }
  | .recentFilesLimit => { group := .top, key := "recent_files_limit", fallback := .integer 10 }

/-- The value of a setting among the members of its group. What is missing is read as its fallback. -/
def Setting.among (setting : Setting) (members : List (JsonText × Json)) : Json :=
  setting.reading.adopt ((lookupKey? (setting.reading.key : JsonText) members).getD setting.reading.fallback)

/-- The members of a group that may be left out, but has to have keys. -/
def groupMembers? (key : JsonText) (members : List (JsonText × Json)) : Option (List (JsonText × Json)) :=
  match lookupKey? key members with
  | none => some []
  | some (.object group) => some group
  | some _ => none

/-- The settings that a stored value denotes; what it leaves out has its standard value. -/
def Settings.ofJson? : Json → Option Settings
  | .object top => do
    let annotators ← groupMembers? "annotators" top
    let ui ← groupMembers? "ui" top
    some ⟨fun setting =>
      match setting.reading.group with
      | .annotators => setting.among annotators
      | .ui => setting.among ui
      | .top => setting.among top⟩
  | _ => none

theorem Setting.mem_all (setting : Setting) : setting ∈ Setting.all := by
  cases setting <;> decide

/-- A setting is read from where it is stored. -/
theorem Setting.reading_key (setting : Setting) : setting.reading.key = setting.key := by
  cases setting <;> rfl

theorem Setting.reading_group (setting : Setting) : setting.reading.group = setting.group := by
  cases setting <;> rfl

/-- A setting that is not stored is read as its standard value. -/
theorem Setting.adopt_fallback (setting : Setting) :
    setting.reading.adopt setting.reading.fallback = setting.standard := by
  cases setting with
  | blameMode =>
    have named : BlameMode.ofName? "AGE" = some .age := by decide
    show Json.text (((JsonText.ofString "AGE").string?.bind BlameMode.ofName?).getD .age).name = _
    rw [JsonText.string?_ofString, Option.bind_some, named]
    rfl
  | _ => rfl

theorem Settings.value_set (settings : Settings) (setting other : Setting) (value : Json) :
    (settings.set setting value).value other = if other = setting then value else settings.value other :=
  rfl

end Marginalia
