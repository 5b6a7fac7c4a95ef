import DesignComponents.Text.Cut
import DesignComponents.Text.Trim
import Std.Data.HashSet

/-! What generated source text shows without being parsed: imports, exports, branches, comments,
and repeated lines. -/

set_option autoImplicit false

namespace DesignComponents.Code

open Text

def isQuote (c : Char) : Bool := c == '"' || c == '\''

/-- What may stand between `import` and the quoted name: blanks, or names and the word `from` with
blanks on both sides. -/
def isImportClause (clause : List Char) : Bool :=
  match clause with
  | [] => false
  | first :: rest =>
    isBlank first &&
      (rest.all isBlank ||
        (!clause.contains ';' && (rest.getLast?.any isBlank) &&
          match dropPrefix? "morf".toList (trimRight rest).reverse with
          | some (c :: _) => isBlank c
          | _ => false))

def importName : Reader String := do
  Reader.text "import"
  let clause ← Reader.many (!isQuote ·)
  if !isImportClause clause then failure
  let _ ← Reader.one isQuote
  let name ← Reader.many1 (!isQuote ·)
  let _ ← Reader.one isQuote
  pure (String.ofList name)

def imports (code : List Char) : List String := findAll importName code

def declarationWords : List String :=
  ["class", "function", "const", "let", "var", "interface", "type"]

def declared : Reader String := do
  let _ ← Reader.oneOf declarationWords
  let _ ← Reader.blanks1
  String.ofList <$> Reader.many1 isWord

def exportDeclared : Reader String := do
  Reader.text "export"
  let _ ← Reader.blanks1
  (do Reader.text "default"; let _ ← Reader.blanks1; declared) <|> declared

def exportDefault : Reader String := do
  Reader.text "export"
  let _ ← Reader.blanks1
  Reader.text "default"
  let _ ← Reader.blanks1
  let name ← Reader.many1 isWord
  let _ ← Reader.blanks
  Reader.char ';'
  pure (String.ofList name)

/-- The names that declarations export, and then those of default exports that are not yet among
them. -/
def exports (code : List Char) : List String :=
  (findAll exportDefault code).foldl
    (fun names name => if names.contains name then names else names ++ [name])
    (findAll exportDeclared code)

/-! ### Branches -/

@[inline] def wordThen (word : String) (c : Char) : Reader Unit := do
  Reader.text word
  let _ ← Reader.blanks
  Reader.char c

def branches : List (Reader Unit) := [
  wordThen "if" '(', wordThen "else" '\x7b', wordThen "for" '(', wordThen "while" '(',
  wordThen "switch" '(', (do Reader.text "case"; let _ ← Reader.blanks1), wordThen "catch" '(',
  Reader.text "&&", Reader.text "||"]

/-- One more than there are branches. -/
def complexity (code : List Char) : Nat := 1 + (branches.map (countAll · code)).foldr (· + ·) 0

/-! ### Comments and lines -/

def blockComment : Reader Unit := do
  Reader.text "/*"
  let _ ← Reader.through "*/"

def markupComment : Reader Unit := do
  Reader.text "<!--"
  let _ ← Reader.through "-->"

/-- Two slashes, but not those of an address. -/
def lineComment : Reader Unit := fun place =>
  if place.before == some ':' then none else Reader.text "//" place

def isCommented (code : List Char) : Bool :=
  found (blockComment <|> markupComment <|> lineComment) code

/-- How often lines repeat, over all lines that are not blank; blanks at the ends do not count. -/
def repeatedLines (code : List Char) : Nat :=
  let filled := (((lines code).map trim).filter (!·.isEmpty)).map String.ofList
  filled.length - (Std.HashSet.ofList filled).size

def countLines (code : List Char) : Nat := (lines code).length

end DesignComponents.Code
