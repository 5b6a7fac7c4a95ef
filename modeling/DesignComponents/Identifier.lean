import DesignComponents.OrderedMap
import DesignComponents.Text.LetterCase
import DesignComponents.Text.Trim

/-! Names: camel case, component names, slugs, and style classes that no two nodes share. -/

set_option autoImplicit false

namespace DesignComponents.Identifier

open Text

def asciiUpper (c : Char) : Char := if isAsciiLower c then Char.ofNat (c.toNat - 32) else c

/-- Drops each hyphen or underscore that stands before a small letter, and makes that a capital. -/
def joinWords : List Char → List Char
  | a :: b :: rest =>
    if (a == '-' || a == '_') && isAsciiLower b then asciiUpper b :: joinWords rest
    else a :: joinWords (b :: rest)
  | cs => cs

def camelChars (name : List Char) : List Char :=
  match name with
  | '-' :: '-' :: _ => name
  | _ => joinWords name

/-- Camel case of a hyphenated name; a custom property, which starts with two hyphens, stays. -/
def camelCase (name : String) : String := String.ofList (camelChars name.toList)

def capitalize : List Char → List Char
  | [] => []
  | c :: rest => asciiUpper c :: rest

/-- The words of ASCII letters and digits, each with its first letter made a capital. -/
def pascalChars (text : List Char) : List Char :=
  (wordsAux (fun c => !isAsciiAlphanumeric c) [] text []).flatMap capitalize

def pascalCase (text : String) : String := String.ofList (pascalChars text.toList)

def componentChars (text : List Char) : List Char :=
  match pascalChars text with
  | [] => "GeneratedComponent".toList
  | c :: rest => if isAsciiDigit c then "Component".toList ++ c :: rest else c :: rest

/-- A name that can stand as an identifier: never empty, never with a digit in front. -/
def componentName (text : String) : String := String.ofList (componentChars text.toList)

/-! ### Slugs -/

/-- Whether a hyphen belongs before a capital that follows this character. -/
def endsWord (before : Option Char) : Bool := before.any fun p => isLower p || isDigit p

/-- Small letters, with a hyphen for all that is neither letter nor numeral and before a capital
that starts a word. -/
def hyphenate (before : Option Char) : List Char → List Char
  | [] => []
  | c :: rest =>
    (if isUpper c && endsWord before then ['-'] else []) ++
      (if isAlphanumeric c then lowerChar c else ['-']) ++ hyphenate (some c) rest

/-- Makes each run of hyphens one hyphen. -/
def collapse : List Char → List Char
  | a :: b :: rest =>
    if a == '-' && b == '-' then collapse (b :: rest) else a :: collapse (b :: rest)
  | cs => cs

def slugOfHyphenated (hyphenated : List Char) : List Char :=
  match collapse (trimBy (· == '-') hyphenated) with
  | [] => "unnamed".toList
  | cs => cs

def slugChars (name : List Char) : List Char := slugOfHyphenated (hyphenate none name)

/-- The name in small letters and numerals with single hyphens between words; never empty. -/
def slug (name : String) : String := String.ofList (slugChars name.toList)

/-! ### Style classes -/

/-- Hands out one class per node: stem, slug of the layer name, and a number counted up. -/
structure ClassPool where
  stem : String
  counter : Nat := 0
  used : OrderedMap String := .empty

namespace ClassPool

def className (stem base : String) (number : Nat) : String := s!"{stem}-{base}-{number}"

/-- The class of a node: the one it has, or a new one on `base`. -/
def classOn (n : ClassPool) (nodeId base : String) : String × ClassPool :=
  match n.used.get? nodeId with
  | some name => (name, n)
  | none =>
    let name := className n.stem base (n.counter + 1)
    (name, { n with counter := n.counter + 1, used := n.used.insert nodeId name })

/-- A node without a layer name is called `node`. -/
def baseOf (layerName : Option String) : String :=
  match layerName with
  | some name => if name.isEmpty then "node" else slug name
  | none => "node"

def draw (n : ClassPool) (nodeId : String) (layerName : Option String) :
    String × ClassPool :=
  n.classOn nodeId (baseOf layerName)

end ClassPool

end DesignComponents.Identifier
