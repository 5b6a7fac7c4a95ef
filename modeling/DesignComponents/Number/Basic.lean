import DesignComponents.Fault
import DesignComponents.Number.Decimal

/-! Numbers as data carries them: a whole number of any size, or a double. A whole number stays
one until it meets a double; then it has to have a double, and those beyond their range have none. -/

set_option autoImplicit false

namespace DesignComponents

inductive Number where
  | int (n : Int)
  | real (x : Binary64)
  deriving DecidableEq, Repr, Inhabited

namespace Number

instance (n : Nat) : OfNat Number n where
  ofNat := .int n

/-- The nearest double; beyond their range there are the infinite ones. -/
def nearest : Number → Binary64
  | .int n => .ofInt n
  | .real x => x

/-- The value itself, not rounded: comparing does not round. -/
def exact : Number → Binary64
  | .int n => .finite (n < 0) n.natAbs 0
  | .real x => x

/-- How far the first lies above the second. -/
def gap : Number → Number → Number
  | .int a, .int b => .int (a - b)
  | a, b => .real (a.nearest.sub b.nearest)

def abs : Number → Number
  | .int a => .int a.natAbs
  | .real x => .real x.abs

def lt (a b : Number) : Bool := a.exact.lt b.exact

def le (a b : Number) : Bool := a.exact.le b.exact

def eq (a b : Number) : Bool := a.exact.eq b.exact

def isZero : Number → Bool
  | .int n => n == 0
  | .real x => x.isZero

/-- The first of the two unless the second is greater. -/
def max (a b : Number) : Number := if a.lt b then b else a

/-- The first of the two unless the second is less. -/
def min (a b : Number) : Number := if b.lt a then b else a

/-- A whole number shows no point, a double does. -/
def dataText : Number → List Char
  | .int n => Decimal.ofInt n
  | .real x => Decimal.shortestText x

/-! ### Calculating -/

/-- The number as a double. -/
def toReal : Number → Except Fault Binary64
  | .int n =>
    match Binary64.ofInt n with
    | .infinite _ => .error .tooLarge
    | x => .ok x
  | .real x => .ok x

/-- An operation, exact where both numbers are whole. -/
def combine (whole : Int → Int → Int) (real : Binary64 → Binary64 → Binary64) :
    Number → Number → Except Fault Number
  | .int a, .int b => .ok (.int (whole a b))
  | a, b => return .real (real (← a.toReal) (← b.toReal))

def add : Number → Number → Except Fault Number := combine (· + ·) Binary64.add

def sub : Number → Number → Except Fault Number := combine (· - ·) Binary64.sub

def mul : Number → Number → Except Fault Number := combine (· * ·) Binary64.mul

/-- The quotient as a double; that of whole numbers is rounded once. -/
def div : Number → Number → Except Fault Binary64
  | .int a, .int b =>
    match Binary64.ofRatio a b with
    | .infinite _ => .error .quotientTooLarge
    | x => .ok x
  | a, b => return (← a.toReal).div (← b.toReal)

/-- The whole number that stands for a double, which only a finite one has. -/
def wholeBy (whole? : Binary64 → Option Int) (x : Binary64) : Except Fault Int :=
  match whole? x with
  | some n => .ok n
  | none => .error (.noWholePart (if x = .nan then "NaN" else "infinity"))

end Number

end DesignComponents
