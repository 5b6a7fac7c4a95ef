import DesignComponents.Text.CharClass

/-! Upper and lower case of text. One character may become several, and a sigma that ends a word
has a lower case of its own. -/

set_option autoImplicit false

namespace DesignComponents.Text

def shiftOf? (shifts : List CaseTable.Shift) (n : Nat) : Option Nat :=
  (shifts.find? fun s => s.first ≤ n && n ≤ s.last && (n - s.first) % s.stride == 0).map fun s =>
    ((n : Int) + s.offset).toNat

def mapByTable (shifts : List CaseTable.Shift) (long : List (Nat × List Nat)) (c : Char) :
    List Char :=
  match long.lookup c.toNat with
  | some ns => ns.map Char.ofNat
  | none => [((shiftOf? shifts c.toNat).map Char.ofNat).getD c]

def upperChar (c : Char) : List Char :=
  if isAscii c then [if isAsciiLower c then Char.ofNat (c.toNat - 32) else c]
  else mapByTable CaseTable.toUpper CaseTable.toUpperLong c

/-- Lower case of a character that stands alone. -/
def lowerChar (c : Char) : List Char :=
  if isAscii c then [if isAsciiUpper c then Char.ofNat (c.toNat + 32) else c]
  else mapByTable CaseTable.toLower CaseTable.toLowerLong c

def upper (text : List Char) : List Char := text.flatMap upperChar

def isCaseIgnorable (c : Char) : Bool := inRanges CaseTable.caseIgnorable c.toNat

def isCased (c : Char) : Bool :=
  isUpper c || isLower c || inRanges CaseTable.title c.toNat

/-- Whether the nearest character that is not ignorable for case has a case. -/
def meetsCased (text : List Char) : Bool :=
  match text.dropWhile isCaseIgnorable with
  | [] => false
  | c :: _ => isCased c

/-- Lower case of the text that follows the reversed text `before`. -/
def lowerAfter (before : List Char) : List Char → List (List Char) → List (List Char)
  | [], done => done
  | c :: rest, done =>
    let low :=
      if c == 'Σ' && meetsCased before && !meetsCased rest then ['ς'] else lowerChar c
    lowerAfter (c :: before) rest (low :: done)

def lower (text : List Char) : List Char :=
  if text.all isAscii then text.flatMap lowerChar
  else (lowerAfter [] text []).reverse.flatten

/-- Whether a character is a small ASCII letter, its case disregarded. Beyond ASCII the i with and
without its dot, the long s and the Kelvin sign count as the letters they look like. -/
def sameLetter (small c : Char) : Bool :=
  lowerChar c == [small] || (small == 'i' && (c == 'İ' || c == 'ı')) || (small == 's' && c == 'ſ')

end DesignComponents.Text
