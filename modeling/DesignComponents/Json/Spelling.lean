import DesignComponents.Json.Basic
import DesignComponents.Text.Quoted

/-! The text that stands for a value where a text is wanted. -/

set_option autoImplicit false

namespace DesignComponents.Json

mutual

/-- The text of a value inside another: a text is quoted. -/
def nested : Json → List Char
  | .null => "None".toList
  | .bool b => (if b then "True" else "False").toList
  | .num n => n.dataText
  | .str s => Text.Quoted.encode s.toList
  | .arr items => '[' :: nestedItems items ++ [']']
  | .obj members => '\x7b' :: nestedMembers members ++ ['\x7d']

def nestedItems : List Json → List Char
  | [] => []
  | [v] => nested v
  | v :: rest => nested v ++ ", ".toList ++ nestedItems rest

def nestedMembers : List (String × Json) → List Char
  | [] => []
  | [(key, v)] => Text.Quoted.encode key.toList ++ ": ".toList ++ nested v
  | (key, v) :: rest =>
    Text.Quoted.encode key.toList ++ ": ".toList ++ nested v ++ ", ".toList ++ nestedMembers rest

end

/-- The text of a value: a text stands for itself. -/
def spelled : Json → List Char
  | .str s => s.toList
  | v => nested v

def spelledText (v : Json) : String := String.ofList v.spelled

end DesignComponents.Json
