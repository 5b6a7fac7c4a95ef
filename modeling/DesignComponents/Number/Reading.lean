import DesignComponents.Fault
import DesignComponents.Number.Basic
import DesignComponents.Text.Trim

/-! Numbers written in text. The digits may be those of any script, single underscores may stand
between digits, and blanks may stand around the whole. -/

set_option autoImplicit false

namespace DesignComponents.Number

open Text

/-- Blanks that may surround a number: not the information separators. -/
def isMargin (c : Char) : Bool := isBlank c && !(0x1c ≤ c.toNat && c.toNat ≤ 0x1f)

def asciiDigits (text : List Char) : List Char :=
  text.map fun c => ((decimalValue? c).map fun v => Char.ofNat ('0'.toNat + v)).getD c

def sign : List Char → Bool × List Char
  | '-' :: rest => (true, rest)
  | '+' :: rest => (false, rest)
  | text => (false, text)

/-- The digits that stand first, with single underscores between them, and what follows. -/
def digitRun : List Char → List Char → List Char × List Char
  | done, '_' :: c :: rest =>
    if isAsciiDigit c && !done.isEmpty then digitRun (c :: done) rest
    else (done.reverse, '_' :: c :: rest)
  | done, c :: rest =>
    if isAsciiDigit c then digitRun (c :: done) rest else (done.reverse, c :: rest)
  | done, [] => (done.reverse, [])

def ofDigits (ds : List Char) : Nat := ds.foldl (fun n c => n * 10 + (c.toNat - '0'.toNat)) 0

/-- Tells of a text that is no whole number, by its first two hundred characters. -/
def notInteger (text : List Char) : Fault :=
  .notInteger (String.ofList ((Quoted.encode text).take 200))

/-- A whole number. Too many digits are told of before what follows them, a stray underscore
apart. -/
def readInt (text : List Char) : Except Fault Int := do
  let (neg, body) := sign (asciiDigits (trimBy isMargin text))
  let (ds, rest) := digitRun [] body
  if rest.head? == some '_' then throw (notInteger text)
  checkDigits ds.length
  if ds.isEmpty || !rest.isEmpty then throw (notInteger text)
  return Binary64.signed neg (ofDigits ds)

/-- An exponent, or nothing where there is none. -/
def readExponent? : List Char → Option Int
  | [] => some 0
  | c :: rest =>
    if c == 'e' || c == 'E' then
      let (neg, body) := sign rest
      match digitRun [] body with
      | ([], _) | (_, _ :: _) => none
      | (ds, []) => some (Binary64.signed neg (ofDigits ds))
    else none

def readDecimal? (neg : Bool) (body : List Char) : Option Binary64 :=
  let (whole, rest) := digitRun [] body
  let (frac, rest) := match rest with
    | '.' :: after => digitRun [] after
    | _ => ([], rest)
  if whole.isEmpty && frac.isEmpty then none else
  (readExponent? rest).map fun e =>
    .ofDecimal neg (ofDigits (whole ++ frac)) (e - frac.length)

def asciiLower (text : List Char) : List Char :=
  text.map fun c => if isAsciiUpper c then Char.ofNat (c.toNat + 32) else c

def readReal? (text : List Char) : Option Binary64 :=
  let (neg, body) := sign (asciiDigits (trimBy isMargin text))
  let word := String.ofList (asciiLower body)
  if word = "inf" || word = "infinity" then some (.infinite neg)
  else if word = "nan" then some .nan
  else readDecimal? neg body

end DesignComponents.Number
