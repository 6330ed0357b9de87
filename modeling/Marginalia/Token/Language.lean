import Marginalia.Text.Blank
import Marginalia.Text.LowerCase
import Marginalia.Token.Region

namespace Marginalia

/-- A shape of source text and the style of its body. -/
structure TokenRule where
  shape : Shape
  style : String

/-- What base highlighting knows of a language. Regions come before tokens, and earlier rules before later ones. -/
structure Language where
  name : String
  filetypes : List String
  regions : List RegionRule
  tokens : List TokenRule

def isUnderscoreOr (accepts : Char → Bool) (char : Char) : Bool :=
  char == '_' || accepts char

/-- Characters of names that may hold dashes. -/
def isDashedWord (char : Char) : Bool :=
  isWord char || char == '-'

def wordRule (words : List String) (style : String) : TokenRule :=
  { shape := { lead := .edge, body := .words words, tail := .edge }, style := style }

def namedRule (words : List String) (style : String) : TokenRule :=
  { shape :=
      { lead := .all [.edge, .words words, .plus isBlank]
        body := .plus isWord }
    style := style }

/-- A name in front of an opening parenthesis. -/
def callRule : TokenRule :=
  { shape :=
      { lead := .edge
        body := .plus isWord
        tail := .all [.many isBlank, .char '('] }
    style := "function" }

/-- A hexadecimal number and what may end it. -/
def hexNumberRule (ending : Pattern) : TokenRule :=
  { shape :=
      { lead := .edge
        body := .all [.char '0', .one (isOneOf "xX"), .plus (isUnderscoreOr isHexDigit), ending]
        tail := .edge }
    style := "number" }

/-- A decimal number with optional fraction and exponent, and what may end it. -/
def numberRule (ending : Pattern) : TokenRule :=
  { shape :=
      { lead := .edge
        body := .all
          [.plus isDigit, .optional (.char '.'), .many isDigit,
            .optional (.all [.one (isOneOf "eE"), .optional (.one (isOneOf "+-")), .plus isDigit]), ending]
        tail := .edge }
    style := "number" }

def python : Language where
  name := "Python"
  filetypes := ["python"]
  regions :=
    [{ pattern := .lettered "fFrRbBuU" (.delimited "\"\"\"" "\"\"\""), style := "string" },
      { pattern := .lettered "fFrRbBuU" (.delimited "'''" "'''"), style := "string" },
      { pattern := .restOfLine "#", style := "comment" },
      { pattern := .lettered "fFrRbBuU" (.quoted '"' false), style := "string" },
      { pattern := .lettered "fFrRbBuU" (.quoted '\'' false), style := "string" }]
  tokens :=
    [{ shape :=
        { lead := .all [.lineStart, .many (isOneOf " \t")]
          body := .all [.char '@', .plus fun char => isWord char || char == '.'] }
       style := "decorator" },
      hexNumberRule .empty,
      numberRule (.optional (.one (isOneOf "jJ"))),
      namedRule ["def"] "function",
      namedRule ["class"] "type",
      wordRule
        ["and", "as", "assert", "async", "await", "break", "class", "continue", "def", "del", "elif", "else",
          "except", "finally", "for", "from", "global", "if", "import", "in", "is", "lambda", "nonlocal", "not",
          "or", "pass", "raise", "return", "try", "while", "with", "yield"] "keyword",
      wordRule ["True", "False", "None", "Ellipsis", "NotImplemented"] "constant",
      wordRule
        ["abs", "all", "any", "bool", "bytes", "dict", "enumerate", "filter", "float", "frozenset", "getattr",
          "hasattr", "int", "isinstance", "iter", "len", "list", "map", "max", "min", "next", "object", "open",
          "print", "range", "repr", "set", "setattr", "sorted", "str", "sum", "super", "tuple", "type", "zip"]
        "function",
      callRule,
      wordRule ["self", "cls"] "variable"]

def javaScript : Language where
  name := "JavaScript"
  filetypes := ["javascript", "typescript", "jsx", "tsx"]
  regions :=
    [{ pattern := .delimited "/*" "*/", style := "comment" },
      { pattern := .restOfLine "//", style := "comment" },
      { pattern := .quoted '`' true, style := "string" },
      { pattern := .quoted '"' false, style := "string" },
      { pattern := .quoted '\'' false, style := "string" }]
  tokens :=
    [hexNumberRule (.optional (.char 'n')),
      numberRule (.optional (.char 'n')),
      { shape := { body := .both (.char '@') (.plus isWord) }, style := "decorator" },
      namedRule ["function"] "function",
      namedRule ["class", "interface", "type", "enum"] "type",
      wordRule
        ["async", "await", "break", "case", "catch", "class", "const", "continue", "debugger", "default",
          "delete", "do", "else", "export", "extends", "finally", "for", "function", "if", "import", "in",
          "instanceof", "let", "new", "of", "return", "static", "super", "switch", "this", "throw", "try",
          "typeof", "var", "void", "while", "yield", "enum", "implements", "interface", "private", "protected",
          "public", "abstract", "as", "declare", "from", "type", "readonly", "keyof"] "keyword",
      wordRule ["true", "false", "null", "undefined", "NaN", "Infinity"] "constant",
      wordRule
        ["any", "boolean", "never", "number", "object", "string", "symbol", "unknown", "bigint", "Array", "Date",
          "Error", "Map", "Promise", "Record", "Set"] "type",
      callRule,
      { shape := { body := .words ["=>", "===", "!==", "&&", "||", "??"] }, style := "operator" },
      { shape := { lead := .char '.', body := .plus isWord }, style := "property" }]

def css : Language where
  name := "CSS"
  filetypes := ["css", "scss"]
  regions :=
    [{ pattern := .delimited "/*" "*/", style := "comment" },
      { pattern := .both (.notBehind (· == ':')) (.restOfLine "//"), style := "comment" },
      { pattern := .quotedPlainly '"', style := "string" },
      { pattern := .quotedPlainly '\'', style := "string" }]
  tokens :=
    [{ shape := { body := .both (.char '@') (.plus isDashedWord) }, style := "keyword" },
      { shape :=
          { body := .either (.all [.char '-', .char '-', .plus isDashedWord]) (.both (.char '$') (.plus isDashedWord)) }
        style := "variable" },
      { shape :=
          { body := .plus isDashedWord
            tail := .all [.many isBlank, .char ':', .notBefore (· == ':')] }
        style := "property" },
      { shape :=
          { body := .all [.char '#', .times 3 isHexDigit, .upTo 5 isHexDigit]
            tail := .edge }
        style := "constant" },
      { shape := { body := .both (.one (isOneOf ".#")) (.plus isDashedWord) }, style := "type" },
      { shape :=
          { lead := .edge
            body := .all [.plus isDigit, .optional (.char '.'), .many isDigit,
              .optional (.words ["px", "em", "rem", "%", "vh", "vw", "s", "ms", "deg"])] }
        style := "number" },
      { shape :=
          { lead := .edge
            body := .words ["rgb", "rgba", "hsl", "hsla", "calc", "var", "url"]
            tail := .both (.many isBlank) (.char '(') }
        style := "function" },
      { shape := { body := .literal "!important" }, style := "keyword" }]

def Language.all : List Language :=
  [python, javaScript, css]

/-- The language of a filetype, letter case aside. -/
def Language.ofFiletype? (filetype : String) : Option Language :=
  let lowered := lowerString filetype
  Language.all.find? fun language => language.filetypes.contains lowered

def Language.allFiletypes : List String :=
  Language.all.flatMap (·.filetypes)

end Marginalia
