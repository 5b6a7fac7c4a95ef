import DesignComponents.Fault
import DesignComponents.Text.Cut
import DesignComponents.Text.EntityTable
import Std.Data.HashMap

/-! Character references in markup text: writing the reserved characters, and reading every
reference that HTML knows. -/

set_option autoImplicit false

namespace DesignComponents.Text.Entity

/-- Writes the three characters that markup reserves in text. -/
def escapeTextChar : Char → List Char
  | '&' => "&amp;".toList
  | '<' => "&lt;".toList
  | '>' => "&gt;".toList
  | c => [c]

/-- Writes what markup reserves in a quoted value: the quotes too. -/
def escapeValueChar : Char → List Char
  | '"' => "&quot;".toList
  | '\'' => "&#x27;".toList
  | c => escapeTextChar c

def escapeText (text : List Char) : List Char := text.flatMap escapeTextChar

def escapeValue (text : List Char) : List Char := text.flatMap escapeValueChar

/-! ### Reading -/

/-- The references that the writer uses are found without the table. -/
def predefined : List (String × String) :=
  [("amp;", "&"), ("lt;", "<"), ("gt;", ">"), ("quot;", "\"")]

def tableByName : Std.HashMap String String := Std.HashMap.ofList EntityTable.all

def named? (name : String) : Option String :=
  (predefined.lookup name).or tableByName[name]?

/-- The code points from 128 to 159 are read in the encoding that old pages mean by them. -/
def windowsCodePoint : List (Nat × Nat) := [
  (0x80, 0x20ac), (0x81, 0x81), (0x82, 0x201a), (0x83, 0x192), (0x84, 0x201e), (0x85, 0x2026),
  (0x86, 0x2020), (0x87, 0x2021), (0x88, 0x2c6), (0x89, 0x2030), (0x8a, 0x160), (0x8b, 0x2039),
  (0x8c, 0x152), (0x8d, 0x8d), (0x8e, 0x17d), (0x8f, 0x8f), (0x90, 0x90), (0x91, 0x2018),
  (0x92, 0x2019), (0x93, 0x201c), (0x94, 0x201d), (0x95, 0x2022), (0x96, 0x2013),
  (0x97, 0x2014), (0x98, 0x2dc), (0x99, 0x2122), (0x9a, 0x161), (0x9b, 0x203a), (0x9c, 0x153),
  (0x9d, 0x9d), (0x9e, 0x17e), (0x9f, 0x178)]

/-- Code points that a reference may not stand for: controls and noncharacters. -/
def isForbidden (n : Nat) : Bool :=
  (1 ≤ n && n ≤ 8) || n == 0xb || (0xe ≤ n && n ≤ 0x1f) || (0x7f ≤ n && n ≤ 0x9f) ||
    (0xfdd0 ≤ n && n ≤ 0xfdef) || n % 0x10000 == 0xfffe || n % 0x10000 == 0xffff

/-- What a numeric reference stands for. -/
def numbered (n : Nat) : List Char :=
  if n = 0 then ['\ufffd'] else
  match windowsCodePoint.lookup n with
  | some m => [Char.ofNat m]
  | none =>
    if (0xd800 ≤ n && n ≤ 0xdfff) || n > 0x10ffff then ['\ufffd']
    else if isForbidden n then [] else [Char.ofNat n]

def hexDigitValue? (c : Char) : Option Nat :=
  if isAsciiDigit c then some (c.toNat - '0'.toNat)
  else if 'a' ≤ c && c ≤ 'f' then some (c.toNat - 'a'.toNat + 10)
  else if 'A' ≤ c && c ≤ 'F' then some (c.toNat - 'A'.toNat + 10)
  else none

def isHexDigit (c : Char) : Bool := (hexDigitValue? c).isSome

def ofDigits (base : Nat) (digits : List Char) : Nat :=
  digits.foldl (fun n c => n * base + (hexDigitValue? c).getD 0) 0

/-- The longest part of `run`, of two characters or more, that is a name; without one the run
stays as it is. `size` is the length to try next. -/
def longestNamed (run : List Char) : Nat → List Char
  | 0 => '&' :: run
  | size + 1 =>
    if size + 1 < 2 then '&' :: run else
    match named? (String.ofList (run.take (size + 1))) with
    | some value => value.toList ++ run.drop (size + 1)
    | none => longestNamed run size

def semicolon : Reader (List Char) := (do Reader.char ';'; pure [';']) <|> pure []

def isNameChar (c : Char) : Bool :=
  !(c == '\t' || c == '\n' || c == '\x0c' || c == ' ' || c == '<' || c == '&' ||
    c == '#' || c == ';')

/-- Up to `limit` characters of a class. -/
def atMost (limit : Nat) (p : Char → Bool) : Reader (List Char) := fun place =>
  let taken := (place.rest.take limit).takeWhile p
  some (taken, place.past taken (place.rest.drop taken.length))

/-- A reference by number, in decimal or hexadecimal digits, or by what may be a name. -/
inductive Reference where
  | decimal (digits : List Char)
  | hex (digits : List Char)
  | named (run : List Char)
  deriving Repr, DecidableEq

def Reference.value : Reference → List Char
  | .decimal digits => numbered (ofDigits 10 digits)
  | .hex digits => numbered (ofDigits 16 digits)
  | .named run => longestNamed run run.length

def decimalReference : Reader Reference := do
  Reader.text "&#"
  let digits ← Reader.many1 isAsciiDigit
  let _ ← semicolon
  pure (.decimal digits)

def hexReference : Reader Reference := do
  Reader.text "&#"
  let _ ← Reader.one fun c => c == 'x' || c == 'X'
  let digits ← Reader.many1 isHexDigit
  let _ ← semicolon
  pure (.hex digits)

def namedReference : Reader Reference := do
  Reader.char '&'
  let name ← atMost 32 isNameChar
  if name.isEmpty then failure
  pure (.named (name ++ (← semicolon)))

def reference : Reader Reference := decimalReference <|> hexReference <|> namedReference

/-- Reads each reference once. -/
def decode (text : List Char) : List Char := substitute (Reference.value <$> reference) text

/-- Decimal digits may not be too many; hexadecimal ones may. -/
def Reference.check : Reference → Except Fault Unit
  | .decimal digits => checkDigits digits.length
  | .hex _ | .named _ => .ok ()

/-- Whether each reference of a text can be read. -/
def check (text : List Char) : Except Fault Unit := (findAll reference text).forM Reference.check

end DesignComponents.Text.Entity
