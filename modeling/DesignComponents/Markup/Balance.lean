import DesignComponents.Text.Cut
import DesignComponents.Text.Trim

/-! Counting tags, and closing the elements of a drawing that hold nothing. -/

set_option autoImplicit false

namespace DesignComponents.Markup

open Text

def notClosing (c : Char) : Bool := c != '>'

/-- Any tag but an end tag, a declaration or an instruction. -/
def startTag : Reader Unit := do
  Reader.char '<'
  let _ ← Reader.one fun c => !(c == '/' || c == '!' || c == '?')
  let _ ← Reader.many notClosing
  Reader.char '>'

def endTag : Reader Unit := do
  Reader.text "</"
  let _ ← Reader.many notClosing
  Reader.char '>'

def selfClosingTag : Reader Unit := do
  Reader.char '<'
  let inner ← Reader.many notClosing
  Reader.char '>'
  if inner.getLast? == some '/' then pure () else failure

/-- How many tags of each kind a text holds; a self-closing tag does not count as open. -/
structure TagCount where
  opening : Int
  closing : Nat
  selfClosing : Nat

def countTags (text : List Char) : TagCount :=
  let selfClosing := countAll selfClosingTag text
  ⟨(countAll startTag text : Int) - selfClosing, countAll endTag text, selfClosing⟩

def balanced (text : List Char) : Bool :=
  let n := countTags text
  n.opening == n.closing

/-! ### Elements that hold nothing -/

def voidLike : List String := ["path", "circle", "rect", "line", "ellipse"]

def voidTail : Reader (List Char) := do
  let lead ← Reader.one isBlank
  let inner ← Reader.many notClosing
  Reader.char '>'
  let attributes := lead :: inner
  if attributes.getLast? == some '/' then failure else pure (trimRight attributes)

/-- The start tag of such an element, as one that closes itself. -/
def voidStart : Reader (List Char) := do
  Reader.char '<'
  let name ← Reader.oneOf voidLike
  let attributes ← voidTail <|> (do Reader.char '>'; pure [])
  pure ('<' :: name.toList ++ attributes ++ "/>".toList)

def voidEnd : Reader (List Char) := do
  Reader.text "</"
  let _ ← Reader.oneOf voidLike
  let _ ← Reader.blanks
  Reader.char '>'
  pure []

/-- Makes every such element close itself and drops its end tags. -/
def repairVoid (text : List Char) : List Char := substitute voidEnd (substitute voidStart text)

end DesignComponents.Markup
