import DesignComponents.Attribute.Style
import DesignComponents.Text.LetterCase

/-! Style properties and values as style sheets write them. -/

set_option autoImplicit false

namespace DesignComponents.Style

open Text

/-- Each ASCII capital becomes a hyphen and the small letter. -/
def hyphenateCapitals (name : List Char) : List Char :=
  name.flatMap fun c => if isAsciiUpper c then '-' :: lowerChar c else [c]

/-- Whether the name starts with the vendor mark `ms` and a capital. -/
def hasVendorMark : List Char → Bool
  | 'm' :: 's' :: c :: _ => isUpper c
  | _ => false

def propertyChars (name : List Char) : List Char :=
  match name with
  | '-' :: '-' :: _ => name
  | _ => (if hasVendorMark name then ['-'] else []) ++ hyphenateCapitals name

/-- The style sheet name of a camel case property; a custom property stays as it is. -/
def property (name : String) : String := String.ofList (propertyChars name.toList)

def lengthProperties : List String :=
  ["font-size", "stroke-width", "width", "height", "border-radius", "gap", "letter-spacing"]

/-- A bare number other than zero becomes a length in pixels, where a length is wanted. -/
def valueChars (property : String) (v : Json) : List Char :=
  let text := trim v.spelled
  if lengthProperties.contains property && Attribute.isNumeral text && text != ['0'] then
    text ++ "px".toList
  else text

def value (property : String) (v : Json) : String := String.ofList (valueChars property v)

/-! ### Colours -/

def component : Reader (List Char) := Reader.many1 isDecimal

def intensity (digits : List Char) : Except Fault Int := do
  checkDigits digits.length
  return digits.foldl (fun n c => n * 10 + ((decimalValue? c).getD 0 : Nat)) 0

def separator : Reader Unit := do
  Reader.char ','
  let _ ← Reader.blanks

def rgb : Reader (List Char × List Char × List Char) := do
  Reader.text "rgb"
  let _ ← Reader.optional (Reader.char 'a')
  Reader.char '('
  let r ← component
  separator
  let g ← component
  separator
  let b ← component
  pure (r, g, b)

def hexAux : Nat → Nat → List Char → List Char
  | 0, _, done => done
  | fuel + 1, n, done =>
    if n = 0 then done else hexAux fuel (n / 16) (Quoted.hexDigit (n % 16) :: done)

/-- At least two hexadecimal digits, with a sign in front where there is one. -/
def hexByte (n : Int) : List Char :=
  let ds := hexAux (Nat.log2 n.natAbs + 1) n.natAbs []
  if n < 0 then '-' :: List.replicate (1 - ds.length) '0' ++ ds
  else List.replicate (2 - ds.length) '0' ++ ds

def hexOfRgb (r g b : Int) : List Char := '#' :: hexByte r ++ hexByte g ++ hexByte b

/-- A colour given by its components, in hexadecimal; any other text stays. -/
def hexOf (color : List Char) : Except Fault (List Char) :=
  match rgb (Place.start color) with
  | some ((r, g, b), _) => return hexOfRgb (← intensity r) (← intensity g) (← intensity b)
  | none => .ok color

end DesignComponents.Style
