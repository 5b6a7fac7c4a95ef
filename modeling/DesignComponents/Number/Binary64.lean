/-! Double precision numbers by their exact value. Every operation computes the exact result as a
fraction and rounds it once, to nearest with ties to even. -/

set_option autoImplicit false

namespace DesignComponents

/-- The nearest whole number to `num / den`; a tie goes to the even neighbour. -/
def roundDiv (num den : Nat) : Nat :=
  let q := num / den
  let twice := 2 * (num % den)
  if twice < den then q
  else if twice > den then q + 1
  else if q % 2 = 0 then q else q + 1

/-- `finite neg mant exp` is `mant · 2 ^ exp`, negated if `neg`; rounding gives a mantissa below
`2 ^ 53` and an exponent from `-1074` to `971`, the least exponent that holds the value. -/
inductive Binary64 where
  | finite (neg : Bool) (mant : Nat) (exp : Int)
  | infinite (neg : Bool)
  | nan
  deriving DecidableEq, Repr, Inhabited

namespace Binary64

def minExp : Int := -1074

def maxExp : Int := 971

def zero (neg : Bool) : Binary64 := .finite neg 0 minExp

/-- `num · 2 ^ (-exp)` over `den`, as a fraction of whole numbers. -/
def scaled (num den : Nat) (exp : Int) : Nat × Nat :=
  if 0 ≤ exp then (num, den * Nat.pow 2 exp.toNat) else (num * Nat.pow 2 (-exp).toNat, den)

/-- The exponent that gives the quotient a mantissa of 53 bits, or the least one there is. -/
def exponentOf (num den : Nat) : Int :=
  let guess : Int := (Nat.log2 num : Int) - (Nat.log2 den : Int)
  let (n, d) := scaled num den guess
  max minExp ((if d ≤ n then guess else guess - 1) - 52)

/-- The double nearest to the quotient. -/
def ofQuotient (neg : Bool) (num den : Nat) : Binary64 :=
  if num = 0 then zero neg else
  let exp := exponentOf num den
  let (n, d) := scaled num den exp
  let mant := roundDiv n d
  let (mant, exp) := if mant = Nat.pow 2 53 then (Nat.pow 2 52, exp + 1) else (mant, exp)
  if maxExp < exp then .infinite neg else .finite neg mant exp

/-- The double nearest to `mant · 2 ^ exp`. -/
def ofScaled (neg : Bool) (mant : Nat) (exp : Int) : Binary64 :=
  if 0 ≤ exp then ofQuotient neg (mant * Nat.pow 2 exp.toNat) 1
  else ofQuotient neg mant (Nat.pow 2 (-exp).toNat)

def ofInt (n : Int) : Binary64 := ofQuotient (n < 0) n.natAbs 1

/-- The quotient of two whole numbers, rounded once. -/
def ofRatio (num den : Int) : Binary64 :=
  ofQuotient ((num < 0) != (den < 0)) num.natAbs den.natAbs

/-- `digits · 10 ^ exp`. Beyond the range of a double the answer is known without the power. -/
def ofDecimal (neg : Bool) (digits : Nat) (exp : Int) : Binary64 :=
  if digits = 0 then zero neg else
  let magnitude : Int := (Nat.log2 digits : Int) / 4 + exp
  let bound : Int := (Nat.log2 digits : Int) / 3 + 1 + exp
  if 400 < magnitude then .infinite neg
  else if bound < -400 then zero neg
  else if 0 ≤ exp then ofQuotient neg (digits * Nat.pow 10 exp.toNat) 1
  else ofQuotient neg digits (Nat.pow 10 (-exp).toNat)

def isNegative : Binary64 → Bool
  | .finite neg _ _ => neg
  | .infinite neg => neg
  | .nan => false

def isZero : Binary64 → Bool
  | .finite _ 0 _ => true
  | _ => false

def neg : Binary64 → Binary64
  | .finite s m e => .finite (!s) m e
  | .infinite s => .infinite (!s)
  | .nan => .nan

def abs : Binary64 → Binary64
  | .finite _ m e => .finite false m e
  | .infinite _ => .infinite false
  | .nan => .nan

def signed (neg : Bool) (n : Nat) : Int := if neg then -(n : Int) else n

/-- Two finite numbers over the smaller of their exponents. -/
def aligned (m₁ : Nat) (e₁ : Int) (m₂ : Nat) (e₂ : Int) : Nat × Nat × Int :=
  let e := min e₁ e₂
  (m₁ * Nat.pow 2 (e₁ - e).toNat, m₂ * Nat.pow 2 (e₂ - e).toNat, e)

def add : Binary64 → Binary64 → Binary64
  | .nan, _ | _, .nan => .nan
  | .infinite s, .infinite t => if s = t then .infinite s else .nan
  | .infinite s, _ => .infinite s
  | _, .infinite t => .infinite t
  | .finite s m e, .finite t n f =>
    let (a, b, exp) := aligned m e n f
    let sum := signed s a + signed t b
    if sum = 0 then zero (s && t) else ofScaled (sum < 0) sum.natAbs exp

def sub (a b : Binary64) : Binary64 := add a b.neg

def mul : Binary64 → Binary64 → Binary64
  | .nan, _ | _, .nan => .nan
  | .infinite s, .infinite t => .infinite (s != t)
  | .infinite s, .finite t n _ => if n = 0 then .nan else .infinite (s != t)
  | .finite s m _, .infinite t => if m = 0 then .nan else .infinite (s != t)
  | .finite s m e, .finite t n f => ofScaled (s != t) (m * n) (e + f)

def div : Binary64 → Binary64 → Binary64
  | .nan, _ | _, .nan => .nan
  | .infinite _, .infinite _ => .nan
  | .infinite s, .finite t _ _ => .infinite (s != t)
  | .finite s _ _, .infinite t => zero (s != t)
  | .finite s m e, .finite t n f =>
    if n = 0 then (if m = 0 then .nan else .infinite (s != t)) else
    let exp := e - f
    if 0 ≤ exp then ofQuotient (s != t) (m * Nat.pow 2 exp.toNat) n
    else ofQuotient (s != t) m (n * Nat.pow 2 (-exp).toNat)

/-- How two numbers compare; not a number compares with nothing, and the zeros are equal. -/
def compare? : Binary64 → Binary64 → Option Ordering
  | .nan, _ | _, .nan => none
  | .infinite s, .infinite t => some (if s = t then .eq else if s then .lt else .gt)
  | .infinite s, .finite .. => some (if s then .lt else .gt)
  | .finite .., .infinite t => some (if t then .gt else .lt)
  | .finite s m e, .finite t n f =>
    let (a, b, _) := aligned m e n f
    some (compare (signed s a) (signed t b))

def lt (a b : Binary64) : Bool := a.compare? b == some .lt

def le (a b : Binary64) : Bool :=
  match a.compare? b with
  | some .lt | some .eq => true
  | _ => false

def eq (a b : Binary64) : Bool := a.compare? b == some .eq

/-- A finite number as numerator and denominator of its magnitude. -/
def magnitude (mant : Nat) (exp : Int) : Nat × Nat :=
  if 0 ≤ exp then (mant * Nat.pow 2 exp.toNat, 1) else (mant, Nat.pow 2 (-exp).toNat)

/-- The whole part, toward zero. -/
def truncate? : Binary64 → Option Int
  | .finite s m e =>
    let (n, d) := magnitude m e
    some (signed s (n / d))
  | _ => none

/-- The least whole number that is not below. -/
def ceil? : Binary64 → Option Int
  | .finite s m e =>
    let (n, d) := magnitude m e
    some (-((signed (!s) n) / (d : Int)))
  | _ => none

/-- The nearest whole number, ties to even. -/
def round? : Binary64 → Option Int
  | .finite s m e =>
    let (n, d) := magnitude m e
    some (signed s (roundDiv n d))
  | _ => none

/-- The double nearest to the value rounded to so many decimal places. -/
def roundTo (places : Nat) : Binary64 → Binary64
  | .finite s m e =>
    let (n, d) := magnitude m e
    ofQuotient s (roundDiv (n * Nat.pow 10 places) d) (Nat.pow 10 places)
  | x => x

end Binary64

end DesignComponents
