import Marginalia.Session.Basic
import Marginalia.Settings.Store

namespace Marginalia

inductive SetupFault
  | settings (fault : SettingsFault)
  | viewer (fault : Fault)
deriving DecidableEq, Repr

def SetupFault.kind : SetupFault → String
  | .settings fault => fault.kind
  | .viewer fault => fault.kind

def SetupFault.message? : SetupFault → Option String
  | .settings fault => fault.message?
  | .viewer fault => fault.message?

/-- Whether a value counts as yes. Null, zero and everything empty do not. -/
def Json.isTruthy : Json → Bool
  | .null => false
  | .bool value => value
  | .integer value => value != 0
  | .number value => value != 0
  | .text value => !value.isEmpty
  | .array items => !items.isEmpty
  | .object members => !members.isEmpty

/-- Whether a value can be told from others by its content alone. -/
def Json.isPlain : Json → Bool
  | .array _ => false
  | .object _ => false
  | _ => true

def Settings.textsOf (settings : Settings) (setting : Setting) : Except SetupFault (List String) :=
  match (settings.value setting).items? with
  | none => .error (.settings .notACollection)
  | some items =>
    if items.all Json.isPlain then .ok (items.filterMap Json.text?) else .error (.settings .notACollection)

def Settings.enabled (settings : Settings) (setting : Setting) : Bool :=
  (settings.value setting).isTruthy

/-- The style sheet; one that is not known is the dark one. -/
def Settings.sheet (settings : Settings) : Except SetupFault Sheet :=
  match settings.value .styleSheet with
  | .text name => .ok ((name.string?.map Sheet.named).getD .githubDark)
  | value => if value.isPlain then .ok .githubDark else .error (.settings .notAName)

/-- The text of the background color, which has to be a color. -/
def Settings.background (settings : Settings) : Except SetupFault String :=
  match settings.value .background with
  | .text text =>
    match text.string? with
    | none => .error (.settings (.notAColor text))
    | some literal =>
      match decodeRgb literal.toList with
      | .ok _ => .ok literal
      | .error fault => .error (.viewer fault)
  | _ => .error (.settings .notAColorText)

def Settings.annotators (settings : Settings) : Except SetupFault AnnotatorChoice := do
  let blameFiletypes ← settings.textsOf .blameFiletypes
  let bracketTypes ← settings.textsOf .bracketTypes
  let lintWords ← settings.textsOf .lintKeywords
  let lintFiletypes ← settings.textsOf .lintFiletypes
  return {
    brackets := settings.enabled .bracketsEnabled
    colors := settings.enabled .colorsEnabled
    blame := settings.enabled .blameEnabled
    lint := settings.enabled .lintEnabled
    bracketTypes := bracketTypes.filterMap Bracket.ofName?
    lintWords := lintWords
    blameMode := ((settings.value .blameMode).text?.bind BlameMode.ofName?).getD .off
    strict := settings.enabled .strictAttribution
    blameFiletypes := blameFiletypes
    lintFiletypes := lintFiletypes }

/-- The number of lines to show above a match, if the setting is a number. -/
def Settings.scrollContext? (settings : Settings) : Option Int :=
  match settings.value .scrollContextLines with
  | .integer count => some count
  | .bool count => some (if count then 1 else 0)
  | .number count => some ((Binary64.ofFloat count).dyadic?.map Dyadic.truncate |>.getD 0)
  | _ => none

/-- What a viewer with these settings starts from. -/
def Settings.sessionConfig (settings : Settings) (clock : Moment) : Except SetupFault SessionConfig := do
  let sheet ← settings.sheet
  let background ← settings.background
  let choice ← settings.annotators
  return {
    styles := sheet.styles
    background := background
    tints := sheet.authorTints
    choice := choice
    clock := clock
    scrollContext := settings.scrollContext?.getD 0 }

def Settings.openSession (settings : Settings) (clock : Moment) : Except SetupFault Session := do
  let config ← settings.sessionConfig clock
  (Session.ofConfig config).mapError .viewer

end Marginalia
