import DesignComponents.Number.Reading
import DesignComponents.Text.Cut

/-! Shorter markup: of attributes repeated in a row the first stays, long decimals are rounded to
two places, and attributes without a value go. -/

set_option autoImplicit false

namespace DesignComponents.Markup

open Text

def notQuote (c : Char) : Bool := c != '"'

/-- The equals sign and the quoted value after an attribute's name. -/
def doubleQuoted : Reader (List Char) := do
  Reader.text "=\""
  let value ← Reader.many notQuote
  Reader.char '"'
  pure value

def repeatOf (name : List Char) : Reader Unit := do
  let _ ← Reader.blanks1
  Reader.text (String.ofList name)
  let _ ← doubleQuoted

/-- An attribute with repetitions of its name after it, reduced to itself. A name counts from any
of its letters on. -/
def duplicates : Reader (List Char) := do
  let name ← Reader.many1 isWord
  let value ← doubleQuoted
  Reader.skipMany1 (repeatOf name)
  pure (name ++ "=\"".toList ++ value ++ ['"'])

/-- A decimal rounded to two places, without trailing zeros. -/
def roundedText (decimal : List Char) : List Char :=
  match Number.readReal? decimal with
  | none => decimal
  | some x =>
    let zeros := trimRightBy (· == '0') (Decimal.fixedText 2 (x.roundTo 2))
    match trimRightBy (· == '.') zeros with
    | [] => ['0']
    | cs => cs

def longDecimal : Reader (List Char) := do
  Reader.text "=\""
  let whole ← Reader.many1 isDecimal
  Reader.char '.'
  let places ← Reader.atLeast 3 isDecimal
  Reader.char '"'
  pure ("=\"".toList ++ roundedText (whole ++ '.' :: places) ++ ['"'])

def emptyAttribute : Reader (List Char) := do
  let _ ← Reader.blanks1
  let _ ← Reader.many1 fun c => isWord c || c == ':' || c == '-'
  Reader.text "=\"\""
  pure []

def optimize (text : List Char) : List Char :=
  substitute emptyAttribute (substitute longDecimal (substitute duplicates text))

end DesignComponents.Markup
