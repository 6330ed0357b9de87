import Marginalia.CommandLine.Option
import Marginalia.Text.Field
import Marginalia.Text.Numeral

namespace Marginalia

/-- What one word of the command line is. -/
inductive CommandWord
  /-- A plain argument. -/
  | argument (text : String)
  /-- The two dashes after which all words are arguments. -/
  | separator
  /-- An option in its long form, and what follows an equals sign. -/
  | long (option : CommandOption) (value : Option String)
  /-- An option in its short form, and all that follows its letter. -/
  | short (option : CommandOption) (rest : List Char)
  /-- What looks like an option and is none. -/
  | unknown
deriving DecidableEq, Repr

/-- How reading the command line ends when it asks for nothing that can be done. -/
inductive CommandExit
  | help
  | version
  | misuse
deriving DecidableEq, Repr

/-- A text as it is before the first equals sign, and what follows the sign. -/
def splitEquals (text : List Char) : List Char × Option (List Char) :=
  match text.dropWhile (· ≠ '=') with
  | [] => (text, none)
  | _ :: value => (text.takeWhile (· ≠ '='), some value)

/-- Whether the characters after a dash make a negative number. -/
def isNegativeBody (text : List Char) : Bool :=
  let body := if text.getLast? = some '\n' then text.dropLast else text
  match fields '.' body with
  | [whole] => !whole.isEmpty && whole.all isDigit
  | [whole, fraction] => whole.all isDigit && !fraction.isEmpty && fraction.all isDigit
  | _ => false

/-- What a word that is no option can be: a number, a text with blanks in it, or a mistake. -/
def leftoverWord (text : String) (body : List Char) : CommandWord :=
  if isNegativeBody body || text.contains ' ' then .argument text else .unknown

/-- A word with two dashes. Long names may be cut short as long as only one option starts so. -/
def longWord (text : String) (body : List Char) : Except CommandExit CommandWord :=
  let (name, value) := splitEquals body
  let value := value.map String.ofList
  match CommandOption.ofLongName? name with
  | some option => .ok (.long option value)
  | none =>
    match CommandOption.startingWith name with
    | [] => .ok (leftoverWord text ('-' :: body))
    | [option] => .ok (.long option value)
    | _ => .error .misuse

/-- What a word in front of the separator is. -/
def commandWord (text : String) : Except CommandExit CommandWord :=
  match text.toList with
  | '-' :: '-' :: body => longWord text body
  | '-' :: letter :: rest =>
    match CommandOption.ofLetter? letter with
    | some option => .ok (.short option rest)
    | none => .ok (leftoverWord text (letter :: rest))
  | _ => .ok (.argument text)

def commandWords : List String → Except CommandExit (List CommandWord)
  | [] => .ok []
  | text :: rest =>
    if text = "--" then .ok (.separator :: rest.map .argument)
    else do
      let word ← commandWord text
      let later ← commandWords rest
      return word :: later

/-- The options of one word, from one of them on, and the value of the last one: an option that takes a value
takes all that follows its letter, and behind any other one the next letter has to follow. -/
def optionsFrom (option : CommandOption) : List Char → Except CommandExit (List CommandOption × Option String)
  | [] => .ok ([option], none)
  | letter :: rest =>
    if option.takesValue then .ok ([option], some (String.ofList (letter :: rest)))
    else
      match CommandOption.ofLetter? letter with
      | none => .error .misuse
      | some next => do
        let (options, value) ← optionsFrom next rest
        return (option :: options, value)

/-- The options of a word with a single dash. An equals sign behind the first letter is left out. -/
def shortOptions (option : CommandOption) (rest : List Char) :
    Except CommandExit (List CommandOption × Option String) :=
  match rest with
  | ['='] => if option.takesValue then .ok ([option], some "") else .error .misuse
  | '=' :: rest => optionsFrom option rest
  | rest => optionsFrom option rest

structure CommandState where
  arguments : CommandArguments := {}
  /-- Some word has no place. -/
  stray : Bool := false
  /-- The last word was the path. -/
  afterPath : Bool := false
  /-- An option whose value is the next word, and the options in front of it in its own word. -/
  awaiting : Option (List CommandOption × CommandOption) := none
deriving DecidableEq, Repr

/-- What a word gives for an option. All words but the two dashes have to stand for a value. -/
def Given.ofWord {α : Type} (read : String → Option α) (word : String) : Except CommandExit (Given α) :=
  if word = "--" then .ok .dashes
  else
    match read word with
    | some found => .ok (.value found)
    | none => .error .misuse

/-- An option without a value. Only one of the two ways to name a history may be used. -/
def CommandArguments.switch (arguments : CommandArguments) (option : CommandOption) :
    Except CommandExit CommandArguments :=
  match option with
  | .help => .error .help
  | .version => .error .version
  | .blame => if arguments.blameFile.isSome then .error .misuse else .ok { arguments with blame := true }
  | .resetSettings => .ok { arguments with resetSettings := true }
  | .stats => .ok { arguments with stats := true }
  | .verbose => .ok { arguments with verbose := true }
  | _ => .error .misuse

def CommandArguments.assign (arguments : CommandArguments) (option : CommandOption) (value : String) :
    Except CommandExit CommandArguments := do
  match option with
  | .filetype => return { arguments with filetype := ← Given.ofWord some value }
  | .blameFile =>
    if arguments.blame then throw .misuse
    return { arguments with blameFile := ← Given.ofWord some value }
  | .blameMode => return { arguments with blameMode := ← Given.ofWord BlameMode.ofWord? value }
  | .sheet => return { arguments with sheet := ← Given.ofWord Sheet.ofName? value }
  | .search => return { arguments with search := ← Given.ofWord some value }
  | .line => return { arguments with line := ← Given.ofWord (readInteger? ·.toList) value }
  | .disable =>
    return { arguments with disabled := arguments.disabled ++ [← Given.ofWord Overlay.ofName? value] }
  | .config => return { arguments with configFile := ← Given.ofWord some value }
  | .logLevel => return { arguments with chosenLevel := ← Given.ofWord LogLevel.ofName? value }
  | .logFile => return { arguments with logFile := ← Given.ofWord some value }
  | _ => throw .misuse

/-- Does what the options of one word ask for; only the last one can have a value. -/
def CommandState.take (state : CommandState) (earlier : List CommandOption) (option : CommandOption)
    (value : Option String) : Except CommandExit CommandState := do
  let arguments ← earlier.foldlM CommandArguments.switch state.arguments
  let arguments ← match value with
    | some value => arguments.assign option value
    | none => arguments.switch option
  return { state with arguments := arguments, afterPath := false, awaiting := none }

/-- The options of one word. Nothing is done before the value is known. -/
def CommandState.options (state : CommandState) (earlier : List CommandOption) (option : CommandOption)
    (value : Option String) : Except CommandExit CommandState :=
  match option.takesValue, value with
  | true, none => .ok { state with afterPath := false, awaiting := some (earlier, option) }
  | false, some _ => .error .misuse
  | _, value => state.take earlier option value

/-- A word that is not the value of an option. The first plain argument is the path, and a separator has its
place in front of it, right behind it, or in its stead. -/
def CommandState.word (state : CommandState) : CommandWord → Except CommandExit CommandState
  | .argument text =>
    if state.arguments.path.isSome then .ok { state with stray := true }
    else .ok { state with arguments := { state.arguments with path := some text }, afterPath := true }
  | .separator =>
    .ok { state with stray := state.stray || (state.arguments.path.isSome && !state.afterPath), afterPath := false }
  | .long option value => state.options [] option value
  | .short option rest => do
    let (options, value) ← shortOptions option rest
    state.options options.dropLast (options.getLast?.getD option) value
  | .unknown => .ok { state with stray := true, afterPath := false }

def CommandState.read (state : CommandState) (word : CommandWord) : Except CommandExit CommandState :=
  match state.awaiting, word with
  | none, word => state.word word
  | some (earlier, option), .argument value => state.take earlier option (some value)
  | some _, _ => .error .misuse

/-- What a command line asks for. Statistics need a file. -/
def CommandArguments.ofList (texts : List String) : Except CommandExit CommandArguments := do
  let words ← commandWords texts
  let state ← words.foldlM CommandState.read {}
  let arguments := state.arguments
  let named := arguments.path.any fun path => !path.isEmpty
  if state.awaiting.isSome || state.stray || (arguments.stats && !named) then throw .misuse
  return arguments

end Marginalia
