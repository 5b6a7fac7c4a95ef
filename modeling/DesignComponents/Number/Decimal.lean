import DesignComponents.Number.Binary64

/-! Decimal text of a double: with the fewest digits that read back, with a number of significant
digits, or with a number of decimal places. -/

set_option autoImplicit false

namespace DesignComponents.Decimal

/-- The digits of a number, the most significant first; none for zero. -/
def digitsAux : Nat → Nat → List Char → List Char
  | 0, _, done => done
  | fuel + 1, n, done =>
    if n = 0 then done
    else digitsAux fuel (n / 10) (Char.ofNat ('0'.toNat + n % 10) :: done)

def digits (n : Nat) : List Char := if n = 0 then ['0'] else digitsAux (Nat.log2 n + 1) n []

def ofInt (n : Int) : List Char := if n < 0 then '-' :: digits n.natAbs else digits n.natAbs

/-- `num / den` over `10 ^ exp`, as a fraction. -/
def overPower (num den : Nat) (exp : Int) : Nat × Nat :=
  if 0 ≤ exp then (num, den * Nat.pow 10 exp.toNat) else (num * Nat.pow 10 (-exp).toNat, den)

/-- The exponent of the first significant digit: the greatest `e` with `10 ^ e ≤ num / den`,
searched downward from `e`. -/
def leadingFrom (num den : Nat) : Nat → Int → Int
  | 0, e => e
  | fuel + 1, e =>
    let (n, d) := overPower num den e
    if d ≤ n then e else leadingFrom num den fuel (e - 1)

/-- The exponent of the first significant digit of `num / den`. The search starts at a bound that
the binary logarithms give, at most four above it. -/
def leading (num den : Nat) : Int :=
  let log2 : Int := (Nat.log2 num : Int) - (Nat.log2 den : Int) + 1
  leadingFrom num den 6 ((log2 * 30103 + 99999) / 100000 + 1)

/-- A decimal number `digits · 10 ^ exp`. -/
structure Scaled where
  digits : Nat
  exp : Int

/-- The value on the grid of `count` significant digits, ties to even. -/
def nearestOn (count : Nat) (num den : Nat) : Scaled :=
  let lead := leading num den
  let exp := lead - count + 1
  let (n, d) := overPower num den exp
  let m := roundDiv n d
  if m = Nat.pow 10 count then ⟨Nat.pow 10 (count - 1), exp + 1⟩ else ⟨m, exp⟩

def Scaled.toBinary64 (s : Scaled) : Binary64 := Binary64.ofDecimal false s.digits s.exp

/-- The grid neighbour of the value, of those that read back as `x`, that is nearest to it. -/
def readBackOn (x : Binary64) (num den count : Nat) : Option Scaled :=
  let exp := leading num den - count + 1
  let (n, d) := overPower num den exp
  let near := roundDiv n d
  let far := if near = n / d then near + 1 else near - 1
  [near, far].findSome? fun m =>
    let s : Scaled := ⟨m, exp⟩
    if s.toBinary64 = x then some s else none

/-- The fewest digits that read back; seventeen always do. -/
def shortestFrom (x : Binary64) (num den : Nat) : Nat → Nat → Scaled
  | 0, count => nearestOn count num den
  | fuel + 1, count =>
    match readBackOn x num den count with
    | some s => s
    | none => shortestFrom x num den fuel (count + 1)

def shortest (mant : Nat) (exp : Int) : Scaled :=
  let (num, den) := Binary64.magnitude mant exp
  shortestFrom (.finite false mant exp) num den 16 1

/-! ### Layout -/

def trimZeros (cs : List Char) : List Char := (cs.reverse.dropWhile (· == '0')).reverse

/-- How a number is laid out: positional while the exponent of the first digit is in the range,
with an exponent mark elsewhere. -/
structure Layout where
  least : Int
  above : Int
  /-- Whether a positional whole number keeps `.0`. -/
  point : Bool

/-- The text of a double inside data: whole numbers show that they are doubles. -/
def Layout.data : Layout := ⟨-4, 16, true⟩

/-- The text of a measure: six digits, and no point on whole numbers. -/
def Layout.measure : Layout := ⟨-4, 6, false⟩

def exponentText (e : Int) : List Char :=
  let ds := digits e.natAbs
  ['e', if e < 0 then '-' else '+'] ++ (if ds.length < 2 then '0' :: ds else ds)

/-- Lays out `0.d₁d₂…`; `ds` has no trailing zero and `lead` is the exponent of `d₁`. -/
def layOut (layout : Layout) (ds : List Char) (lead : Int) : List Char :=
  if layout.least ≤ lead && lead < layout.above then
    if lead < 0 then
      "0.".toList ++ List.replicate (-lead - 1).toNat '0' ++ ds
    else
      let whole := lead.toNat + 1
      let int := ds.take whole ++ List.replicate (whole - ds.length) '0'
      let frac := ds.drop whole
      if frac.isEmpty then int ++ (if layout.point then ".0".toList else [])
      else int ++ '.' :: frac
  else
    match ds with
    | [] => []
    | [d] => d :: exponentText lead
    | d :: rest => d :: '.' :: rest ++ exponentText lead

def layOutScaled (layout : Layout) (s : Scaled) : List Char :=
  let all := digits s.digits
  layOut layout (trimZeros all) (s.exp + all.length - 1)

def signed (neg : Bool) (text : List Char) : List Char := if neg then '-' :: text else text

/-- The fewest digits that read back as the number. -/
def shortestText : Binary64 → List Char
  | .nan => "nan".toList
  | .infinite neg => signed neg "inf".toList
  | .finite neg 0 _ => signed neg "0.0".toList
  | .finite neg m e => signed neg (layOutScaled .data (shortest m e))

/-- Six significant digits, without trailing zeros. -/
def measureText : Binary64 → List Char
  | .nan => "nan".toList
  | .infinite neg => signed neg "inf".toList
  | .finite neg 0 _ => signed neg ['0']
  | .finite neg m e =>
    let (num, den) := Binary64.magnitude m e
    signed neg (layOutScaled .measure (nearestOn 6 num den))

/-- A whole number of units of the last place, with the point put in. -/
def placePoint (places n : Nat) : List Char :=
  if places = 0 then digits n else
  let ds := digits n
  let ds := List.replicate (places + 1 - ds.length) '0' ++ ds
  ds.take (ds.length - places) ++ '.' :: ds.drop (ds.length - places)

/-- A number of decimal places, the exact value rounded with ties to even. -/
def fixedText (places : Nat) : Binary64 → List Char
  | .nan => "nan".toList
  | .infinite neg => signed neg "inf".toList
  | .finite neg m e =>
    let (num, den) := Binary64.magnitude m e
    signed neg (placePoint places (roundDiv (num * Nat.pow 10 places) den))

end DesignComponents.Decimal
