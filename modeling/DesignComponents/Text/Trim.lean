import DesignComponents.Text.CharClass
import DesignComponents.Text.Search

/-! Cutting characters off the ends of a text, cutting it into words, and moving its lines in and out. -/

set_option autoImplicit false

namespace DesignComponents.Text

def trimLeftBy (p : Char → Bool) (text : List Char) : List Char := text.dropWhile p

def trimRightBy (p : Char → Bool) (text : List Char) : List Char :=
  (text.reverse.dropWhile p).reverse

def trimBy (p : Char → Bool) (text : List Char) : List Char := trimRightBy p (trimLeftBy p text)

def trim (text : List Char) : List Char := trimBy isBlank text

def trimLeft (text : List Char) : List Char := trimLeftBy isBlank text

def trimRight (text : List Char) : List Char := trimRightBy isBlank text

/-- The maximal runs of characters that fail `sep`; `word` is the reversed run being read. -/
def wordsAux (sep : Char → Bool) (word : List Char) : List Char → List (List Char) →
    List (List Char)
  | [], done => (if word.isEmpty then done else word.reverse :: done).reverse
  | c :: rest, done =>
    if sep c then wordsAux sep [] rest (if word.isEmpty then done else word.reverse :: done)
    else wordsAux sep (c :: word) rest done

/-- The words between white space, none of them empty. -/
def words (text : List Char) : List (List Char) := wordsAux isBlank [] text []

/-! ### Lines moved in and out -/

def mapLines (f : List Char → List Char) (text : List Char) : List Char :=
  join ['\n'] ((lines text).map f)

def indentLine (width : Nat) (line : List Char) : List Char :=
  if line.isEmpty then [] else List.replicate width ' ' ++ line

/-- Moves each line in, but for empty ones. -/
def indent (width : Nat) (text : List Char) : List Char := mapLines (indentLine width) text

/-- Moves a line out; one with less in front of it loses all its leading white space. -/
def dedentLine (width : Nat) (line : List Char) : List Char :=
  (dropPrefix? (List.replicate width ' ') line).getD (trimLeft line)

def dedent (width : Nat) (text : List Char) : List Char := mapLines (dedentLine width) text

end DesignComponents.Text
