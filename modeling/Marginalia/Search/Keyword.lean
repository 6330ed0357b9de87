import Marginalia.Search.LineIndex
import Marginalia.Text.CaseFold
import Marginalia.Text.Word

namespace Marginalia

/-- A word to flag and the style of its occurrences. -/
structure Keyword where
  word : String
  style : String
  description : String := ""
deriving DecidableEq, Repr

structure KeywordMatch where
  start : Nat
  stop : Nat
  word : String
  style : String
  line : Nat
deriving DecidableEq, Repr

def defaultKeywords : List Keyword :=
  [⟨"TODO", "lint.todo", "Task to be done"⟩, ⟨"FIXME", "lint.fixme", "Bug or issue to fix"⟩,
    ⟨"HACK", "lint.hack", "Workaround or hack"⟩, ⟨"NOTE", "lint.note", "Important note"⟩,
    ⟨"XXX", "lint.xxx", "Needs attention"⟩, ⟨"DEPRECATED", "lint.deprecated", "Deprecated code"⟩]

/-- The last of `count` characters behind `before`. -/
def lastBefore (before : Option Char) (count : Nat) (text : List Char) : Option Char :=
  match (text.take count).getLast? with
  | some char => some char
  | none => before

/-- Whether a word stands at the start of a text, letter case aside, between two word edges. -/
def wordStands (word : List Char) (before : Option Char) (text : List Char) : Bool :=
  wordEdge before text.head? && startsWithFold word text &&
    wordEdge (lastBefore before word.length text) (text.drop word.length).head?

theorem length_le_of_wordStands {word text : List Char} {before : Option Char}
    (stands : wordStands word before text = true) : word.length ≤ text.length := by
  rw [wordStands, Bool.and_eq_true, Bool.and_eq_true] at stands
  exact startsWithFold_length_le stands.1.2

/-- The offsets at which a word stands in a text. The search goes on behind each occurrence. -/
def wordOffsets (word : List Char) (offset : Nat) (before : Option Char) (text : List Char) : List Nat :=
  if wordStands word before text then
    match text with
    | [] => [offset]
    | char :: rest =>
      offset :: wordOffsets word (offset + (word.length - 1) + 1)
        (lastBefore (some char) (word.length - 1) rest) (rest.drop (word.length - 1))
  else
    match text with
    | [] => []
    | char :: rest => wordOffsets word (offset + 1) (some char) rest
termination_by text.length
decreasing_by
  all_goals simp only [List.length_cons, List.length_drop]; omega

def Keyword.matches (keyword : Keyword) (content : Content) : List KeywordMatch :=
  let index := LineIndex.ofContent content
  (wordOffsets keyword.word.toList 0 none content).map fun start =>
    { start := start
      stop := start + keyword.word.length
      word := keyword.word
      style := keyword.style
      line := index.lineOf start }

/-- The occurrences of all keywords in the order of their starts, at equal starts in the order of keywords. -/
def findKeywords (content : Content) (keywords : List Keyword) : List KeywordMatch :=
  (keywords.flatMap fun keyword => keyword.matches content).mergeSort fun left right => left.start ≤ right.start

/-- A list without later copies of its entries. -/
def distinct {α : Type} [DecidableEq α] (items : List α) : List α :=
  items.foldl (fun kept item => if item ∈ kept then kept else kept ++ [item]) []

/-- How often each keyword occurs, in the order of the keywords. -/
def countKeywords (content : Content) (keywords : List Keyword) : List (String × Nat) :=
  let found := findKeywords content keywords
  (distinct (keywords.map (·.word))).map fun word => (word, found.countP (·.word == word))

end Marginalia
