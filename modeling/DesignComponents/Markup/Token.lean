import DesignComponents.OrderedMap
import DesignComponents.Text.Cut
import DesignComponents.Text.Entity

/-! The tags of a markup text, and the attributes written in a start tag. -/

set_option autoImplicit false

namespace DesignComponents.Markup

open Text

inductive Token where
  | start (tag : String) (attributes : List Char) (selfClosing : Bool)
  | stop (tag : String)
  /-- A declaration or an instruction. -/
  | aside
  deriving Repr, DecidableEq

def isTagChar (c : Char) : Bool := isWord c || c == ':' || c == '.' || c == '-'

def tagName : Reader (List Char) := do
  let first ← Reader.one isAsciiLetter
  let rest ← Reader.many isTagChar
  pure (first :: rest)

def isQuote (c : Char) : Bool := c == '"' || c == '\''

/-- What quote is open after a character. -/
def quoteAfter (quote : Option Char) (c : Char) : Option Char :=
  match quote with
  | some q => if c == q then none else some q
  | none => if isQuote c then some c else none

/-- Reads to the end of a tag: a `>` that stands in no quoted value. A slash right before it is
not part of what is read but is told. There is no end where a `<` comes first or a quote stays
open. -/
def tagRest (quote : Option Char) (done : List Char) :
    List Char → Option ((List Char × Bool) × List Char)
  | [] => none
  | c :: rest =>
    if quote.isSome then tagRest (quoteAfter quote c) (c :: done) rest
    else if c == '>' then some ((done.reverse, false), rest)
    else if c == '/' && rest.head? == some '>' then some ((done.reverse, true), rest.tail)
    else if c == '<' then none
    else tagRest (quoteAfter none c) (c :: done) rest

def tagInner : Reader (List Char × Bool) := fun place =>
  (tagRest none [] place.rest).map fun (inner, rest) => (inner, ⟨some '>', rest⟩)

def tagToken : Reader Token := do
  Reader.char '<'
  let slash ← Reader.optional (Reader.char '/')
  let name ← tagName
  let (attributes, selfClosing) ← tagInner
  let tag := String.ofList name
  pure (if slash.isSome then .stop tag else .start tag attributes selfClosing)

def declaration : Reader Token := do
  Reader.text "<!"
  let _ ← Reader.many fun c => c != '>'
  Reader.char '>'
  pure .aside

def instruction : Reader Token := do
  Reader.text "<?"
  let _ ← Reader.through "?>"
  pure .aside

def token : Reader Token := tagToken <|> declaration <|> instruction

def tokens (text : List Char) : Cut Token := cut token text

def Token.isStart : Token → Bool
  | .start .. => true
  | _ => false

def elementCount (text : List Char) : Nat := (tokens text).values.countP Token.isStart

/-! ### Attributes -/

def isNameChar (c : Char) : Bool :=
  !(isBlank c || c == '=' || c == '/' || c == '>' || c == '"' || c == '\'')

def valueIn (quote : Char) : Reader (List Char) := do
  Reader.char quote
  let value ← Reader.many (· != quote)
  Reader.char quote
  pure value

def bareValue : Reader (List Char) := Reader.many1 fun c => !(isBlank c || c == '>')

def givenValue : Reader (List Char) := do
  let _ ← Reader.blanks
  Reader.char '='
  let _ ← Reader.blanks
  valueIn '"' <|> valueIn '\'' <|> bareValue

/-- A name and its value as it is written; a name without one has the empty value. -/
def attributePair : Reader (String × List Char) := do
  let name ← Reader.many1 isNameChar
  let value ← givenValue <|> pure []
  pure (String.ofList name, value)

/-- The attributes as they are written. Of those with one name the first counts. -/
def writtenAttributes (text : List Char) : OrderedMap (List Char) :=
  (findAll attributePair text).foldl
    (fun acc a => if acc.contains a.1 then acc else acc.insert a.1 a.2) .empty

def attributesOf (text : List Char) : OrderedMap String :=
  (writtenAttributes text).mapValues fun value => String.ofList (Entity.decode value)

/-- Whether each value of a tag can be read. -/
def checkAttributes (text : List Char) : Except Fault Unit :=
  (writtenAttributes text).values.forM Entity.check

def Token.check : Token → Except Fault Unit
  | .start _ attributes _ => checkAttributes attributes
  | .stop _ | .aside => .ok ()

end DesignComponents.Markup
