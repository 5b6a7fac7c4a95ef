import DesignComponents.Text.CaseTable
import DesignComponents.Text.LetterTable

/-! Classes of characters. Below U+0080 each class is a plain condition on the character; the
tables are read only beyond it. -/

set_option autoImplicit false

namespace DesignComponents.Text

def inRanges (ranges : List (Nat × Nat)) (n : Nat) : Bool :=
  ranges.any fun (lo, hi) => lo ≤ n && n ≤ hi

def inStrides (runs : List (Nat × Nat × Nat)) (n : Nat) : Bool :=
  runs.any fun (lo, hi, stride) => lo ≤ n && n ≤ hi && (n - lo) % stride == 0

def isAscii (c : Char) : Bool := c.toNat < 0x80

def isAsciiLower (c : Char) : Bool := 'a' ≤ c && c ≤ 'z'

def isAsciiUpper (c : Char) : Bool := 'A' ≤ c && c ≤ 'Z'

def isAsciiLetter (c : Char) : Bool := isAsciiLower c || isAsciiUpper c

def isAsciiDigit (c : Char) : Bool := '0' ≤ c && c ≤ '9'

def isAsciiAlphanumeric (c : Char) : Bool := isAsciiLetter c || isAsciiDigit c

/-- White space: the ASCII blanks and information separators, and the spaces beyond ASCII. -/
def isBlank (c : Char) : Bool :=
  let n := c.toNat
  (9 ≤ n && n ≤ 13) || (0x1c ≤ n && n ≤ 0x20) || n == 0x85 || n == 0xa0 || n == 0x1680 ||
    (0x2000 ≤ n && n ≤ 0x200a) || n == 0x2028 || n == 0x2029 || n == 0x202f || n == 0x205f ||
    n == 0x3000

def isAlphanumeric (c : Char) : Bool :=
  if isAscii c then isAsciiAlphanumeric c else inRanges LetterTable.alphanumeric c.toNat

/-- A letter, a numeral or the underscore. -/
def isWord (c : Char) : Bool := c == '_' || isAlphanumeric c

/-- The value of a decimal digit of any script. -/
def decimalValue? (c : Char) : Option Nat :=
  if isAscii c then
    if isAsciiDigit c then some (c.toNat - '0'.toNat) else none
  else
    (LetterTable.decimalZero.find? fun z => z ≤ c.toNat && c.toNat < z + 10).map
      (c.toNat - ·)

def isDecimal (c : Char) : Bool := (decimalValue? c).isSome

/-- A decimal digit, or a numeral such as a superscript that has a digit value. -/
def isDigit (c : Char) : Bool :=
  if isAscii c then isAsciiDigit c else inRanges LetterTable.digit c.toNat

def isUpper (c : Char) : Bool :=
  if isAscii c then isAsciiUpper c else inStrides CaseTable.upper c.toNat

def isLower (c : Char) : Bool :=
  if isAscii c then isAsciiLower c else inStrides CaseTable.lower c.toNat

def isPrintable (c : Char) : Bool := !inRanges LetterTable.unprintable c.toNat

end DesignComponents.Text
