import DesignComponents.Fault
import DesignComponents.Number.Basic

/-! JSON values. An object keeps its members in the order in which they were first written. -/

set_option autoImplicit false

namespace DesignComponents

inductive Json where
  | null
  | bool (b : Bool)
  | num (n : Number)
  | str (s : String)
  | arr (items : List Json)
  | obj (members : List (String × Json))
  deriving Repr, Inhabited

namespace Json

def int (n : Int) : Json := .num (.int n)

def real (x : Binary64) : Json := .num (.real x)

/-- Null, false, zero and whatever is empty count as absent; all else counts as present. -/
def isTruthy : Json → Bool
  | .null => false
  | .bool b => b
  | .num n => !n.isZero
  | .str s => !s.isEmpty
  | .arr items => !items.isEmpty
  | .obj members => !members.isEmpty

def isNull : Json → Bool
  | .null => true
  | _ => false

def isObject : Json → Bool
  | .obj _ => true
  | _ => false

/-- The value if it counts as present, and otherwise the other one. -/
def orElse (v other : Json) : Json := if v.isTruthy then v else other

def ofStrings (ss : List String) : Json := .arr (ss.map .str)

/-- The name of a value's kind in messages. -/
def kindName : Json → String
  | .null => "NoneType"
  | .bool _ => "bool"
  | .num (.int _) => "int"
  | .num (.real _) => "float"
  | .str _ => "str"
  | .arr _ => "list"
  | .obj _ => "dict"

/-- The member of an object; nothing has no members but an object. -/
def member? (v : Json) (key : String) : Except Fault (Option Json) :=
  match v with
  | .obj members => .ok (members.lookup key)
  | v => .error (.noMember v.kindName "get")

/-- The member of an object, or a default where the object lacks it. -/
def memberD (v : Json) (key : String) (default : Json) : Except Fault Json :=
  return (← v.member? key).getD default

def member (v : Json) (key : String) : Except Fault Json := v.memberD key .null

/-- The values that a walk over the value meets: the items of an array, the keys of an object,
the characters of a text. -/
def elements : Json → Except Fault (List Json)
  | .arr items => .ok items
  | .obj members => .ok (members.map fun m => .str m.1)
  | .str s => .ok (s.toList.map fun c => .str (String.singleton c))
  | v => .error (.notIterable v.kindName)

/-- Truth values count as the numbers one and zero. -/
def number? : Json → Option Number
  | .num n => some n
  | .bool b => some (.int (if b then 1 else 0))
  | _ => none

def isStr (v : Json) (s : String) : Bool :=
  match v with
  | .str t => t == s
  | _ => false

mutual

/-- Equality of values: numbers are equal by value whatever their kind, and objects whatever the
order of their members. -/
def same : Json → Json → Bool
  | .null, .null => true
  | .str s, .str t => s == t
  | .arr xs, .arr ys => sameItems xs ys
  | .obj ms, .obj ns => ms.length == ns.length && sameMembers ms ns
  | .bool a, .bool b => a == b
  | .bool a, .num n | .num n, .bool a => n.eq (.int (if a then 1 else 0))
  | .num m, .num n => m.eq n
  | _, _ => false

def sameItems : List Json → List Json → Bool
  | [], [] => true
  | x :: xs, y :: ys => same x y && sameItems xs ys
  | _, _ => false

def sameMembers : List (String × Json) → List (String × Json) → Bool
  | [], _ => true
  | (key, v) :: ms, ns =>
    (match ns.lookup key with
      | some w => same v w
      | none => false) && sameMembers ms ns

end

/-- Puts a member in place of one with the same name, or at the end. -/
def putMember (members : List (String × Json)) (key : String) (v : Json) : List (String × Json) :=
  if members.any (·.1 == key) then members.map fun m => if m.1 == key then (key, v) else m
  else members ++ [(key, v)]

end Json

end DesignComponents
