import DesignComponents.Json.Basic
import DesignComponents.Number.Reading
import DesignComponents.Text.Entity

/-! Reading JSON text. An error names what was expected and where. -/

set_option autoImplicit false

namespace DesignComponents.Json

open Text

/-- What is wrong at a place of a JSON text. -/
inductive Unexpected where
  | byteOrderMark
  | noValue
  | noName
  | noColon
  | noComma
  | extraData
  | controlCharacter
  | unterminated
  | badEscape
  | badUnicodeEscape
  deriving DecidableEq, Repr

def Unexpected.message : Unexpected → String
  | .byteOrderMark => "Unexpected UTF-8 BOM (decode using utf-8-sig)"
  | .noValue => "Expecting value"
  | .noName => "Expecting property name enclosed in double quotes"
  | .noColon => "Expecting ':' delimiter"
  | .noComma => "Expecting ',' delimiter"
  | .extraData => "Extra data"
  | .controlCharacter => "Invalid control character at"
  | .unterminated => "Unterminated string starting at"
  | .badEscape => "Invalid \\escape"
  | .badUnicodeEscape => "Invalid \\uXXXX escape"

/-- Why a text is not read. -/
inductive ParseError where
  | unexpected (cause : Unexpected) (position : Nat)
  /-- A number is written well, and cannot be had. -/
  | fault (f : Fault)
  deriving DecidableEq, Repr

/-- The message with the line and column of the place, both counted from one. -/
def Unexpected.messageAt (u : Unexpected) (position : Nat) (text : String) : String :=
  let before := text.toList.take position
  let line := before.count '\n' + 1
  let column := (before.reverse.takeWhile (· != '\n')).length + 1
  s!"{u.message}: line {line} column {column} (char {position})"

def ParseError.message (e : ParseError) (text : String) : String :=
  match e with
  | .unexpected cause position => cause.messageAt position text
  | .fault f => f.message

/-- A place in the text: how many characters are behind it, and those ahead. -/
structure Cursor where
  position : Nat
  rest : List Char

namespace Cursor

def fail {α : Type} (c : Cursor) (cause : Unexpected) : Except ParseError α :=
  .error (.unexpected cause c.position)

def skip (c : Cursor) (n : Nat) : Cursor := ⟨c.position + n, c.rest.drop n⟩

def isSpace (c : Char) : Bool := c == ' ' || c == '\t' || c == '\n' || c == '\r'

def skipSpace (c : Cursor) : Cursor :=
  let (spaces, rest) := c.rest.span isSpace
  ⟨c.position + spaces.length, rest⟩

end Cursor

def simpleEscape? : Char → Option Char
  | '"' => some '"'
  | '\\' => some '\\'
  | '/' => some '/'
  | 'b' => some '\x08'
  | 'f' => some '\x0c'
  | 'n' => some '\n'
  | 'r' => some '\r'
  | 't' => some '\t'
  | _ => none

/-- The unit that four hexadecimal digits write. -/
def unit? (digits : List Char) : Option Nat :=
  if digits.length == 4 && digits.all Entity.isHexDigit then some (Entity.ofDigits 16 digits)
  else none

/-- The character that an escape writes, and what is left behind its digits. -/
structure Escape where
  char : Char
  /-- How many characters the digits take, and a second escape with its own. -/
  size : Nat
  rest : List Char

/-- The character of a unit. One of a pair that stands alone is none and becomes the replacement
character. -/
def ofUnit (n : Nat) : Char := if 0xd800 ≤ n && n < 0xe000 then '\ufffd' else Char.ofNat n

/-- The second escape of a pair: a backslash, the letter and four digits. More has to follow. -/
def secondUnit? (rest : List Char) : Option (Option Nat) :=
  if 6 < (rest.take 7).length && rest.take 2 == "\\u".toList
    then some (unit? ((rest.drop 2).take 4))
  else none

/-- Reads the digits of an escape `\u`, and the second escape of a pair. -/
def unicodeEscape (slash : Nat) (text : List Char) : Except ParseError Escape :=
  if (text.take 5).length < 5 then .error (.unexpected .badUnicodeEscape (slash + 1)) else
  match unit? (text.take 4) with
  | none => .error (.unexpected .badUnicodeEscape (slash + 1))
  | some high =>
    let rest := text.drop 4
    let alone : Escape := ⟨ofUnit high, 4, rest⟩
    if 0xd800 ≤ high && high < 0xdc00 then
      match secondUnit? rest with
      | none => .ok alone
      | some none => .error (.unexpected .badUnicodeEscape (slash + 7))
      | some (some low) =>
        .ok (if 0xdc00 ≤ low && low < 0xe000 then
          ⟨Char.ofNat (0x10000 + (high - 0xd800) * 0x400 + (low - 0xdc00)), 10, rest.drop 6⟩
        else alone)
    else .ok alone

/-- Reads a string after its opening quote, which stands at `opening`. Each step takes a
character, so as many steps as there are characters are enough. -/
def stringAfter (opening : Nat) :
    List Char → Cursor → List Char → Except ParseError (String × Cursor)
  | [], _, _ => .error (.unexpected .unterminated opening)
  | _ :: fuel, c, done =>
    match c.rest with
    | [] => .error (.unexpected .unterminated opening)
    | '"' :: rest => .ok (String.ofList done.reverse, ⟨c.position + 1, rest⟩)
    | '\\' :: rest =>
      match rest with
      | [] => .error (.unexpected .unterminated opening)
      | 'u' :: digits => do
        let e ← unicodeEscape c.position digits
        stringAfter opening fuel ⟨c.position + 2 + e.size, e.rest⟩ (e.char :: done)
      | e :: after =>
        match simpleEscape? e with
        | some ch => stringAfter opening fuel ⟨c.position + 2, after⟩ (ch :: done)
        | none => c.fail .badEscape
    | ch :: rest =>
      if ch.toNat < 0x20 then c.fail .controlCharacter
      else stringAfter opening fuel ⟨c.position + 1, rest⟩ (ch :: done)

def string (c : Cursor) : Except ParseError (String × Cursor) :=
  stringAfter (c.position - 1) c.rest c []

/-- The fraction: a point with at least one digit after it. -/
def fraction (text : List Char) : List Char × List Char :=
  match text with
  | '.' :: after =>
    match after.span isAsciiDigit with
    | ([], _) => ([], text)
    | (ds, rest) => (ds, rest)
  | _ => ([], text)

/-- The exponent: a mark, perhaps a sign, and at least one digit. -/
def exponent? (text : List Char) : Option (Int × List Char × Nat) :=
  match text with
  | c :: after =>
    if c == 'e' || c == 'E' then
      let (neg, body) := Number.sign after
      let signSize := if after.head? == body.head? then 0 else 1
      match body.span isAsciiDigit with
      | ([], _) => none
      | (ds, rest) =>
        some (Binary64.signed neg (Number.ofDigits ds), rest,
          1 + signSize + ds.length)
    else none
  | [] => none

/-- A number without a fraction or exponent is a whole number. -/
def number (c : Cursor) : Except ParseError (Number × Cursor) :=
  let (neg, body) := match c.rest with
    | '-' :: rest => (true, rest)
    | rest => (false, rest)
  let start := if neg then 1 else 0
  let (whole, rest) := match body with
    | '0' :: rest => (['0'], rest)
    | _ => body.span isAsciiDigit
  if whole.isEmpty then c.fail .noValue else
  let (frac, rest) := fraction rest
  let fracSize := if frac.isEmpty then 0 else frac.length + 1
  let size := start + whole.length + fracSize
  match exponent? rest with
  | some (e, rest, expSize) =>
    .ok (.real (.ofDecimal neg (Number.ofDigits (whole ++ frac)) (e - frac.length)),
      ⟨c.position + size + expSize, rest⟩)
  | none =>
    if frac.isEmpty then do
      (checkDigits whole.length).mapError .fault
      return (.int (Binary64.signed neg (Number.ofDigits whole)), ⟨c.position + size, rest⟩)
    else
      .ok (.real (.ofDecimal neg (Number.ofDigits (whole ++ frac)) (-(frac.length : Int))),
        ⟨c.position + size, rest⟩)

def literals : List (String × Json) := [
  ("null", .null), ("true", .bool true), ("false", .bool false), ("NaN", .real .nan),
  ("Infinity", .real (.infinite false)), ("-Infinity", .real (.infinite true))]

def literal? (c : Cursor) : Option (Json × Cursor) :=
  literals.findSome? fun (word, v) =>
    (dropPrefix? word.toList c.rest).map fun rest => (v, ⟨c.position + word.length, rest⟩)

/-- Of members with one name the last gives the value and the first the place. -/
def dedupe (members : List (String × Json)) : List (String × Json) :=
  members.foldl (fun ms m => putMember ms m.1 m.2) []

mutual

/-- Every value takes a character, so the length of the text is enough fuel. -/
def value : Nat → Cursor → Except ParseError (Json × Cursor)
  | 0, c => c.fail .noValue
  | fuel + 1, c =>
    match c.rest with
    | '"' :: rest => do
      let (s, next) ← string ⟨c.position + 1, rest⟩
      pure (.str s, next)
    | '\x7b' :: rest =>
      let inner := Cursor.skipSpace ⟨c.position + 1, rest⟩
      match inner.rest with
      | '\x7d' :: after => .ok (.obj [], ⟨inner.position + 1, after⟩)
      | _ => members fuel inner []
    | '[' :: rest =>
      let inner := Cursor.skipSpace ⟨c.position + 1, rest⟩
      match inner.rest with
      | ']' :: after => .ok (.arr [], ⟨inner.position + 1, after⟩)
      | _ => items fuel inner []
    | _ =>
      match literal? c with
      | some found => .ok found
      | none => do
        let (n, next) ← number c
        pure (.num n, next)

def items : Nat → Cursor → List Json → Except ParseError (Json × Cursor)
  | 0, c, _ => c.fail .noValue
  | fuel + 1, c, done => do
    let (v, next) ← value fuel c
    let next := next.skipSpace
    match next.rest with
    | ']' :: after => pure (.arr (v :: done).reverse, ⟨next.position + 1, after⟩)
    | ',' :: after => items fuel (Cursor.skipSpace ⟨next.position + 1, after⟩) (v :: done)
    | _ => next.fail .noComma

def members : Nat → Cursor → List (String × Json) → Except ParseError (Json × Cursor)
  | 0, c, _ => c.fail .noName
  | fuel + 1, c, done =>
    match c.rest with
    | '"' :: rest => do
      let (key, next) ← string ⟨c.position + 1, rest⟩
      let next := next.skipSpace
      match next.rest with
      | ':' :: after =>
        let (v, next) ← value fuel (Cursor.skipSpace ⟨next.position + 1, after⟩)
        let next := next.skipSpace
        match next.rest with
        | '\x7d' :: after =>
          pure (.obj (dedupe ((key, v) :: done).reverse), ⟨next.position + 1, after⟩)
        | ',' :: after =>
          members fuel (Cursor.skipSpace ⟨next.position + 1, after⟩) ((key, v) :: done)
        | _ => next.fail .noComma
      | _ => next.fail .noColon
    | _ => c.fail .noName

end

def parseChars (text : List Char) : Except ParseError Json :=
  if text.head? == some '\ufeff' then .error (.unexpected .byteOrderMark 0) else do
  let (v, next) ← value (text.length + 1) (Cursor.skipSpace ⟨0, text⟩)
  let next := next.skipSpace
  if next.rest.isEmpty then pure v else next.fail .extraData

def parse (text : String) : Except ParseError Json := parseChars text.toList

end DesignComponents.Json
