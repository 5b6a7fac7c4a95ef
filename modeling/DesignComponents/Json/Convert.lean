import DesignComponents.Json.Spelling
import DesignComponents.Number.Basic
import DesignComponents.Number.Reading

/-! Reading a value as a number, and writing it as a measure, whatever kind of value it is. -/

set_option autoImplicit false

namespace DesignComponents.Json

/-- The value as a double: a number, a truth value, or a text that is a number. -/
def toReal (v : Json) : Except Fault Binary64 :=
  match v with
  | .num n => n.toReal
  | .bool b => .ok (.ofInt (if b then 1 else 0))
  | .str s =>
    match Number.readReal? s.toList with
    | some x => .ok x
    | none => .error (.notReal (String.ofList v.nested))
  | v => .error (.notNumeric "float() argument must be a string or a real number, not" v.kindName)

/-- The value as a whole number; a double loses its fraction. -/
def toInt (v : Json) : Except Fault Int :=
  match v with
  | .num (.int n) => .ok n
  | .num (.real x) => Number.wholeBy Binary64.truncate? x
  | .bool b => .ok (if b then 1 else 0)
  | .str s => Number.readInt s.toList
  | v => .error (.notNumeric
      "int() argument must be a string, a bytes-like object or a real number, not" v.kindName)

/-- Six significant digits of a number or truth value. -/
def measure (v : Json) : Except Fault String :=
  match v with
  | .num n => return String.ofList (Decimal.measureText (← n.toReal))
  | .bool b => .ok (if b then "1" else "0")
  | .str _ => .error (.textMeasure "str")
  | v => .error (.noMeasure v.kindName)

/-- Whether a value is less than one. -/
def isBelowOne (v : Json) : Except Fault Bool :=
  match v.number? with
  | some n => .ok (n.lt 1)
  | none => .error (.notOrdered "<" v.kindName "int")

/-- A number to two places; a whole number stays whole. -/
def roundTwo (v : Json) : Except Fault Json :=
  match v with
  | .num (.real x) => .ok (.real (x.roundTo 2))
  | .num (.int n) => .ok (.int n)
  | .bool b => .ok (.int (if b then 1 else 0))
  | v => .error (.notRoundable v.kindName)

/-- A double and a value added. -/
def addReal (x : Binary64) (v : Json) : Except Fault Binary64 :=
  match v with
  | .num n => return x.add (← n.toReal)
  | .bool b => .ok (x.add (.ofInt (if b then 1 else 0)))
  | v => .error (.notCombined "+" "float" v.kindName)

end DesignComponents.Json
