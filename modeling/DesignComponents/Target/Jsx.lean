import DesignComponents.Json.Spelling
import DesignComponents.Target.Node
import DesignComponents.Text.Search

/-! A target tree written as JSX text, one tag or text to a line. -/

set_option autoImplicit false

namespace DesignComponents.Target

open Text

/-- What the root element gets beside its own attributes and children. -/
structure RootOptions where
  passProps : Bool := false
  renderChildren : Json := .bool false

/-- The line that stands for the component's children, if there is one. -/
def RootOptions.slot (o : RootOptions) : Option (List Char) :=
  match o.renderChildren with
  | .str s => if s.isEmpty then none else some s.toList
  | .bool true => some "\x7bchildren\x7d".toList
  | _ => none

def escapeTextChar : Char → List Char
  | '&' => "&amp;".toList
  | '<' => "&lt;".toList
  | '>' => "&gt;".toList
  | '\x7b' => "&#123;".toList
  | '\x7d' => "&#125;".toList
  | c => [c]

def escapeText (text : List Char) : List Char := text.flatMap escapeTextChar

def escapeValueChar : Char → List Char
  | '&' => "&amp;".toList
  | '"' => "&quot;".toList
  | c => [c]

def escapeValue (text : List Char) : List Char := text.flatMap escapeValueChar

def escapeLiteralChar (c : Char) : List Char :=
  if c == '\\' || c == '\'' then ['\\', c] else [c]

/-- The value as a literal of the script language. -/
def literal : Json → List Char
  | .bool b => (if b then "true" else "false").toList
  | .num (.int n) => Decimal.ofInt n
  | .num (.real x) => Decimal.measureText x
  | v => '\'' :: v.spelled.flatMap escapeLiteralChar ++ ['\'']

def writeStyle (members : List (String × Json)) : List Char :=
  let body := join ", ".toList (members.map fun (k, v) => k.toList ++ ": ".toList ++ literal v)
  "style=\x7b\x7b ".toList ++ body ++ " \x7d\x7d".toList

def writeAttribute (entry : String × Json) : List Char :=
  let (name, v) := entry
  let quoted := name.toList ++ "=\"".toList ++ escapeValue v.spelled ++ ['"']
  match v with
  | .obj members => if name == "style" then writeStyle members else quoted
  | .bool _ | .num _ => name.toList ++ "=\x7b".toList ++ literal v ++ ['\x7d']
  | _ => quoted

/-- Two blanks to a level; levels below zero have none. -/
def pad (level : Int) : List Char := List.replicate (2 * level).toNat ' '

def textOf (data : Data) : List Char :=
  match data.text with
  | .str s => s.toList
  | _ => []

def attributeList (data : Data) (root : Option RootOptions) : List (List Char) :=
  data.attributes.entries.map writeAttribute ++
    if root.any (·.passProps) then ["\x7b...props\x7d".toList] else []

def slotLines (level : Int) (root : Option RootOptions) : List (List Char) :=
  match root.bind RootOptions.slot with
  | some slot => [pad (level + 1) ++ slot]
  | none => []

def writeFragment (level : Int) (root : Option RootOptions) (children : List (List Char)) :
    List Char :=
  let inner := join ['\n'] (children ++ slotLines level root)
  if inner.isEmpty then pad level ++ "<></>".toList
  else pad level ++ "<>\n".toList ++ inner ++ '\n' :: pad level ++ "</>".toList

def writeElement (level : Int) (root : Option RootOptions) (data : Data)
    (children : List (List Char)) : List Char :=
  let start := '<' :: data.tag.toList ++ (attributeList data root).flatMap (' ' :: ·)
  let own := textOf data
  let ownLines := if own.isEmpty then [] else [pad (level + 1) ++ escapeText own]
  match ownLines ++ children ++ slotLines level root with
  | [] => pad level ++ start ++ " />".toList
  | lines =>
    pad level ++ start ++ ">\n".toList ++ join ['\n'] lines ++ '\n' :: pad level ++
      "</".toList ++ data.tag.toList ++ ['>']

namespace Node

mutual

/-- Only the root of a tree has root options. -/
def write (level : Int) (root : Option RootOptions) : Node → List Char
  | .node d cs =>
    match d.kind with
    | .text => pad level ++ escapeText (textOf d)
    | .fragment => writeFragment level root (writeAll (level + 1) cs)
    | .element => writeElement level root d (writeAll (level + 1) cs)

def writeAll (level : Int) : List Node → List (List Char)
  | [] => []
  | n :: rest => write level none n :: writeAll level rest

end

/-- A text that counts as present and is no text cannot be written. -/
def textFault? (data : Data) : Option Fault :=
  match data.text with
  | .str _ => none
  | v => if v.isTruthy then some (.noMember v.kindName "replace") else none

mutual

/-- The first text on the way that cannot be written. Nothing inside a text is written. -/
def jsxFault? : Node → Option Fault
  | .node d cs =>
    match d.kind with
    | .text => textFault? d
    | .fragment => jsxFaultIn? cs
    | .element => (jsxFaultIn? cs).or (textFault? d)

def jsxFaultIn? : List Node → Option Fault
  | [] => none
  | n :: rest => (jsxFault? n).or (jsxFaultIn? rest)

end

def toJsx (n : Node) (root : RootOptions) (indent : Int) : Except Fault (List Char) :=
  match n.jsxFault? with
  | some f => .error f
  | none => .ok (n.write indent (some root))

end Node

end DesignComponents.Target
