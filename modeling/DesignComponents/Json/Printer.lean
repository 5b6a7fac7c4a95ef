import DesignComponents.Json.Basic
import DesignComponents.Text.Quoted

/-! Writing JSON text, on one line or indented. -/

set_option autoImplicit false

namespace DesignComponents.Json

/-- How JSON is written: indented or on one line, whether all beyond ASCII is escaped, and
whether arrays stay on one line where objects do not. -/
structure Style where
  indented : Bool
  ascii : Bool
  lineArrays : Bool := false

def Style.line : Style := { indented := false, ascii := false }

def Style.asciiLine : Style := { indented := false, ascii := true }

def Style.indent : Style := { indented := true, ascii := false }

def Style.asciiIndent : Style := { indented := true, ascii := true }

/-- How configuration files are written. -/
def Style.settings : Style := { indented := true, ascii := true, lineArrays := true }

/-- How the items of an array are written. -/
def Style.inArray (style : Style) : Style :=
  { style with indented := style.indented && !style.lineArrays }

def unitEscape (n : Nat) : List Char := "\\u".toList ++ Text.Quoted.hexDigits 4 n

/-- A code point beyond the basic plane is escaped as two units. -/
def codePointEscape (n : Nat) : List Char :=
  if n < 0x10000 then unitEscape n
  else unitEscape (0xd800 + (n - 0x10000) / 0x400) ++ unitEscape (0xdc00 + (n - 0x10000) % 0x400)

def escapeChar (ascii : Bool) (c : Char) : List Char :=
  if c == '"' then "\\\"".toList
  else if c == '\\' then "\\\\".toList
  else if c == '\n' then "\\n".toList
  else if c == '\r' then "\\r".toList
  else if c == '\t' then "\\t".toList
  else if c == '\x0c' then "\\f".toList
  else if c == '\x08' then "\\b".toList
  else if c.toNat < 0x20 || (ascii && 0x7f ≤ c.toNat) then codePointEscape c.toNat
  else [c]

def quote (ascii : Bool) (s : String) : List Char :=
  '"' :: s.toList.flatMap (escapeChar ascii) ++ ['"']

def numberText : Number → List Char
  | .int n => Decimal.ofInt n
  | .real .nan => "NaN".toList
  | .real (.infinite neg) => (if neg then "-Infinity" else "Infinity").toList
  | .real x => Decimal.shortestText x

/-- The break before an item at a depth. -/
def Style.newline (style : Style) (depth : Nat) : List Char :=
  if style.indented then '\n' :: List.replicate (2 * depth) ' ' else []

/-- The break between two items at a depth. -/
def Style.between (style : Style) (depth : Nat) : List Char :=
  if style.indented then ',' :: style.newline depth else ", ".toList

mutual

def write (style : Style) (depth : Nat) : Json → List Char
  | .null => "null".toList
  | .bool b => (if b then "true" else "false").toList
  | .num n => numberText n
  | .str s => quote style.ascii s
  | .arr [] => "[]".toList
  | .arr items =>
    '[' :: style.inArray.newline (depth + 1) ++ writeItems style.inArray (depth + 1) items ++
      style.inArray.newline depth ++ [']']
  | .obj [] => ['\x7b', '\x7d']
  | .obj members =>
    '\x7b' :: style.newline (depth + 1) ++ writeMembers style (depth + 1) members ++
      style.newline depth ++ ['\x7d']

def writeItems (style : Style) (depth : Nat) : List Json → List Char
  | [] => []
  | [v] => write style depth v
  | v :: rest => write style depth v ++ style.between depth ++ writeItems style depth rest

def writeMembers (style : Style) (depth : Nat) : List (String × Json) → List Char
  | [] => []
  | [(key, v)] => quote style.ascii key ++ ": ".toList ++ write style depth v
  | (key, v) :: rest =>
    quote style.ascii key ++ ": ".toList ++ write style depth v ++ style.between depth ++
      writeMembers style depth rest

end

def print (style : Style) (v : Json) : String := String.ofList (write style 0 v)

/-- The size in bytes of the text on one line. -/
def byteSize (v : Json) : Nat := (v.print .line).utf8ByteSize

end DesignComponents.Json
