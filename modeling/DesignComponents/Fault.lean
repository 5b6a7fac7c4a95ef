import DesignComponents.Text.Quoted

/-! What goes wrong when a value does not have the shape that a step reads it with. -/

set_option autoImplicit false

namespace DesignComponents

/-- A kind of value is named as in `Json.kindName`. -/
inductive Fault where
  /-- A member is asked of a value of a kind that has none of that name. -/
  | noMember (kind member : String)
  | notIterable (kind : String)
  /-- Two values are compared whose kinds have no order. -/
  | notOrdered (sign left right : String)
  /-- Two values are combined whose kinds cannot be. -/
  | notCombined (sign left right : String)
  /-- A value that is neither number nor text is read as a number. -/
  | notNumeric (reader kind : String)
  /-- A text that is no number is read as one. -/
  | notReal (text : String)
  | notInteger (text : String)
  /-- A double without a whole part is read as a whole number. -/
  | noWholePart (value : String)
  /-- A whole number beyond the range of doubles. -/
  | tooLarge
  /-- A quotient of whole numbers beyond the range of doubles. -/
  | quotientTooLarge
  /-- A text of more digits than a whole number is read from. -/
  | tooManyDigits (count : Nat)
  /-- A value that is no whole number is used as a place in a text. -/
  | notIndex
  /-- A value that is no number is written as a measure. -/
  | textMeasure (kind : String)
  | noMeasure (kind : String)
  /-- A value that is not rounded, being no number. -/
  | notRoundable (kind : String)
  /-- A value that is no text where text is searched. -/
  | notText (kind : String)
  | notHashable (kind : String)
  | notMapping (kind : String)
  | missingKey (key : String)
  | missingNumber (n : Nat)
  /-- A setting is given under a name that no setting has. -/
  | unknownSetting (name : String)
  | chunkSize
  | unknownTask (name : String)
  | notMarkup
  | foreignNode (kind : String)
  /-- A value that is no text is used as a path. -/
  | notPath (kind : String)
  | outsideOutput (path : String)
  deriving DecidableEq, Repr

/-- How many digits a whole number is read from at most. -/
def mostDigits : Nat := 4300

def Fault.message : Fault → String
  | .noMember kind member => s!"'{kind}' object has no attribute '{member}'"
  | .notIterable kind => s!"'{kind}' object is not iterable"
  | .notOrdered sign left right =>
    s!"'{sign}' not supported between instances of '{left}' and '{right}'"
  | .notCombined sign left right =>
    s!"unsupported operand type(s) for {sign}: '{left}' and '{right}'"
  | .notNumeric reader kind => s!"{reader} '{kind}'"
  | .notReal text => s!"could not convert string to float: {text}"
  | .notInteger text => s!"invalid literal for int() with base 10: {text}"
  | .noWholePart value => s!"cannot convert float {value} to integer"
  | .tooLarge => "int too large to convert to float"
  | .quotientTooLarge => "integer division result too large for a float"
  | .tooManyDigits count =>
    s!"Exceeds the limit ({mostDigits} digits) for integer string conversion: value has {count} " ++
      "digits; use sys.set_int_max_str_digits() to increase the limit"
  | .notIndex => "slice indices must be integers or None or have an __index__ method"
  | .textMeasure kind => s!"Unknown format code 'g' for object of type '{kind}'"
  | .noMeasure kind => s!"unsupported format string passed to {kind}.__format__"
  | .notRoundable kind => s!"type {kind} doesn't define __round__ method"
  | .notText kind => s!"expected string or bytes-like object, got '{kind}'"
  | .notHashable kind => s!"unhashable type: '{kind}'"
  | .notMapping kind => s!"'{kind}' object is not a mapping"
  | .missingKey key => String.ofList (Text.Quoted.encode key.toList)
  | .missingNumber n => toString n
  | .unknownSetting name => s!"unexpected keyword argument '{name}'"
  | .chunkSize => "max_size must be positive"
  | .unknownTask name => s!"unknown task type: {name}"
  | .notMarkup => "validate() only accepts markup; dict documents go through ingest()"
  | .foreignNode kind => s!"Unknown source node type: {kind}"
  | .notPath kind => s!"expected str, bytes or os.PathLike object, not {kind}"
  | .outsideOutput path => s!"Refusing to write outside output directory: {path}"

/-- The digits of a whole number may not be too many. -/
def checkDigits (count : Nat) : Except Fault Unit :=
  if mostDigits < count then .error (.tooManyDigits count) else .ok ()

/-- Whether a fault lies in the size of a number. -/
def Fault.isOverflow : Fault → Bool
  | .tooLarge | .quotientTooLarge => true
  | _ => false

end DesignComponents
