import DesignComponents.Attribute.Rename

/-! Renaming the attributes inside markup text. Only what stands in a tag before a quoted value is
a name; the rest of the text is left alone. -/

set_option autoImplicit false

namespace DesignComponents.Attribute

open Text

def isTagInner (c : Char) : Bool := !(c == '<' || c == '>')

/-- A tag, from its `<` to its `>`, with neither in between. -/
def tag : Reader (List Char) := do
  Reader.char '<'
  let first ← Reader.one isAsciiLetter
  let inner ← Reader.many isTagInner
  Reader.char '>'
  pure ('<' :: first :: inner ++ ['>'])

def isNameChar (c : Char) : Bool :=
  !(isBlank c || c == '=' || c == '/' || c == '>' || c == '"' || c == '\'')

def quotedBy (quote : Char) : Reader (List Char) := do
  Reader.char quote
  let value ← Reader.many (· != quote)
  Reader.char quote
  pure (quote :: value ++ [quote])

def quotedValue : Reader (List Char) := quotedBy '"' <|> quotedBy '\''

/-- An attribute as it is written: the blank before it, its name, and the rest of it. -/
structure Written where
  lead : Char
  name : List Char
  rest : List Char

def written : Reader Written := do
  let lead ← Reader.one isBlank
  let name ← Reader.many1 isNameChar
  let before ← Reader.blanks
  Reader.char '='
  let after ← Reader.blanks
  let value ← quotedValue
  pure ⟨lead, name, before ++ '=' :: after ++ value⟩

section

variable {m : Type → Type} [Monad m]

def renameTagVia (rename : String → m String) (tag : List Char) : m (List Char) :=
  (cut written tag).fillM fun w => do
    let renamed ← rename (String.ofList w.name)
    return w.lead :: renamed.toList ++ w.rest

def renameMarkupVia (rename : String → m String) (text : List Char) : m (List Char) :=
  (cut tag text).fillM (renameTagVia rename)

end

def renameMarkup (text : List Char) : List Char :=
  Id.run (renameMarkupVia (fun name => pure (rename name)) text)

end DesignComponents.Attribute
