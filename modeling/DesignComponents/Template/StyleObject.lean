import DesignComponents.Style.Property
import DesignComponents.Text.Cut

/-! Style objects inside a template, and the style sheet declarations they stand for. -/

set_option autoImplicit false

namespace DesignComponents.Template

open Text

def quotedKey : Reader (List Char) := do
  Reader.char '\''
  let inner ← Reader.many (· != '\'')
  Reader.char '\''
  pure ('\'' :: inner ++ ['\''])

def key : Reader (List Char) := Reader.many1 (fun c => isWord c || c == '$') <|> quotedKey

/-- What a quoted value holds up to its closing quote, and what follows the quote. A backslash
keeps the character after it from closing the value, but does not reach over a line break. -/
def untilQuote : List Char → Option (List Char × List Char)
  | [] => none
  | '\'' :: rest => some ([], rest)
  | '\\' :: c :: rest =>
    if c == '\n' then none
    else (untilQuote rest).map fun (value, after) => ('\\' :: c :: value, after)
  | '\\' :: [] => none
  | c :: rest => (untilQuote rest).map fun (value, after) => (c :: value, after)

def quotedValue : Reader (List Char) := fun place =>
  match place.rest with
  | '\'' :: rest =>
    (untilQuote rest).map fun (value, after) =>
      ('\'' :: value ++ ['\''], place.past ['\''] after)
  | _ => none

/-- A value is quoted or runs to the next comma. One of white space alone is empty. -/
def objectValue : Reader (List Char) := do
  let lead ← Reader.blanks
  quotedValue <|> do
    let value ← Reader.many (· != ',')
    if value.isEmpty && lead.isEmpty then failure else pure value

def pair : Reader (List Char × List Char) := do
  let name ← key
  let _ ← Reader.blanks
  Reader.char ':'
  let value ← objectValue
  pure (name, value)

/-- The text between the quotes, where a backslash before a quote falls away. -/
def unquoted (value : List Char) : List Char :=
  if startsWith ['\''] value && endsWith ['\''] value then
    replaceAll ['\\', '\''] ['\''] (value.drop 1).dropLast
  else value

def declaration (name value : List Char) : List Char :=
  let property := Style.propertyChars (trimBy (· == '\'') name)
  let value := .str (String.ofList (unquoted (trim value)))
  property ++ ": ".toList ++ Style.valueChars (String.ofList property) value

/-- The declarations that the pairs of a style object stand for. -/
def styleText (object : List Char) : List Char :=
  join "; ".toList ((findAll pair object).map fun (name, value) => declaration name value)

/-- A style object on one line: white space at its ends may hold line breaks. -/
def styleObject : Reader (List Char) := do
  Reader.text "style=\x7b\x7b"
  let _ ← Reader.blanks
  let object ← trimRight <$> Reader.through "\x7d\x7d"
  if object.contains '\n' then failure else pure object

end DesignComponents.Template
