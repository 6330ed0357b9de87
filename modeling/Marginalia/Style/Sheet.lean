import Marginalia.Style.Basic

namespace Marginalia

/-- A ready-made choice of colors for the viewer. -/
inductive Sheet
  | githubDark
  | defaultLight
deriving DecidableEq, Repr

def Sheet.all : List Sheet :=
  [.githubDark, .defaultLight]

def Sheet.name : Sheet → String
  | .githubDark => "GitHub Dark"
  | .defaultLight => "Default Light"

def Sheet.ofName? (name : String) : Option Sheet :=
  Sheet.all.find? fun sheet => sheet.name == name

def Sheet.background : Sheet → String
  | .githubDark => "#0D1117"
  | .defaultLight => "#FFFFFF"

/-- Tints for the lines of authors, in the order in which they are handed out. -/
def Sheet.authorTints : Sheet → List String
  | .githubDark => ["#1a1a4d", "#1a4d1a", "#4d1a4d", "#4d3d1a", "#1a3d4d", "#4d1a2b"]
  | .defaultLight => ["#DDE3FF", "#DDF5DD", "#F5DDF5", "#F5EDD5", "#D5EDF5", "#F5D5E0"]

def darkStyles : StyleList :=
  [("keyword", (Style.ink "#FF7B72").heavy),
    ("string", .ink "#A5D6FF"),
    ("comment", (Style.ink "#8B949E").slanted),
    ("number", .ink "#79C0FF"),
    ("constant", .ink "#79C0FF"),
    ("function", .ink "#D2A8FF"),
    ("type", .ink "#FFA657"),
    ("decorator", .ink "#FFA657"),
    ("operator", .ink "#FF7B72"),
    ("variable", .ink "#E6EDF3"),
    ("property", .ink "#79C0FF"),
    ("punctuation", .ink "#F0F6FC"),
    ("default", .ink "#E6EDF3"),
    ("bracket.depth0", (Style.ink "#FFD700").heavy),
    ("bracket.depth1", (Style.ink "#FF00FF").heavy),
    ("bracket.depth2", (Style.ink "#00FFFF").heavy),
    ("bracket.depth3", (Style.ink "#00FF00").heavy),
    ("bracket.depth4", (Style.ink "#FFA500").heavy),
    ("bracket.depth5", (Style.ink "#6495ED").heavy),
    ("blame.ancient", .paper "#3d1a1a"),
    ("blame.old", .paper "#3d2b1a"),
    ("blame.medium", .paper "#3d3d1a"),
    ("blame.recent", .paper "#1a3d2b"),
    ("blame.fresh", .paper "#1a2b3d"),
    ("blame.new", .paper "#1a3d1a"),
    ("blame.author.unknown", .paper "#2a2a2a"),
    ("lint.todo", (Style.pair "#000000" "#FFD700").heavy),
    ("lint.fixme", (Style.pair "#FFFFFF" "#DC2626").heavy),
    ("lint.hack", (Style.pair "#000000" "#FFA500").heavy),
    ("lint.note", (Style.pair "#FFFFFF" "#2563EB").heavy),
    ("lint.xxx", (Style.pair "#FFFFFF" "#9333EA").heavy),
    ("lint.deprecated", (Style.pair "#9CA3AF" "#374151").slanted.underlined),
    ("search.match", .pair "#000000" "#E3B341"),
    ("search.current", (Style.pair "#000000" "#FF8C00").heavy)]

def lightStyles : StyleList :=
  [("keyword", (Style.ink "#0000C8").heavy),
    ("string", .ink "#A31515"),
    ("comment", (Style.ink "#008000").slanted),
    ("number", .ink "#008000"),
    ("constant", .ink "#0000C8"),
    ("function", .ink "#800000"),
    ("type", .ink "#008080"),
    ("decorator", .ink "#804000"),
    ("operator", .ink "#000000"),
    ("variable", .ink "#000000"),
    ("property", .ink "#001080"),
    ("punctuation", .ink "#000000"),
    ("default", .ink "#000000"),
    ("bracket.depth0", (Style.ink "#B8860B").heavy),
    ("bracket.depth1", (Style.ink "#C000C0").heavy),
    ("bracket.depth2", (Style.ink "#008B8B").heavy),
    ("bracket.depth3", (Style.ink "#228B22").heavy),
    ("bracket.depth4", (Style.ink "#D2691E").heavy),
    ("bracket.depth5", (Style.ink "#1E50C8").heavy),
    ("blame.ancient", .paper "#F0E0E0"),
    ("blame.old", .paper "#F0E8E0"),
    ("blame.medium", .paper "#F0F0E0"),
    ("blame.recent", .paper "#E0F0E8"),
    ("blame.fresh", .paper "#E0E8F0"),
    ("blame.new", .paper "#DCF5DC"),
    ("blame.author.unknown", .paper "#EEEEEE"),
    ("lint.todo", (Style.pair "#000000" "#FFE066").heavy),
    ("lint.fixme", (Style.pair "#FFFFFF" "#C62828").heavy),
    ("lint.hack", (Style.pair "#000000" "#FFB74D").heavy),
    ("lint.note", (Style.pair "#FFFFFF" "#1565C0").heavy),
    ("lint.xxx", (Style.pair "#FFFFFF" "#7B1FA2").heavy),
    ("lint.deprecated", (Style.pair "#757575" "#EEEEEE").slanted.underlined),
    ("search.match", .pair "#000000" "#FFFF00"),
    ("search.current", (Style.pair "#000000" "#FF9632").heavy)]

def Sheet.styles : Sheet → StyleList
  | .githubDark => darkStyles
  | .defaultLight => lightStyles

/-- The sheet with a name; the dark one when there is none. -/
def Sheet.named (name : String) : Sheet :=
  (Sheet.ofName? name).getD .githubDark

end Marginalia
