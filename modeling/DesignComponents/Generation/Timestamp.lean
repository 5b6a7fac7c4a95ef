import DesignComponents.Number.Reading

/-! Points in time, as they are written. -/

set_option autoImplicit false

namespace DesignComponents

structure Timestamp where
  year : Nat
  month : Nat
  day : Nat
  hour : Nat := 0
  minute : Nat := 0
  second : Nat := 0
  microsecond : Nat := 0
  /-- How many seconds local time is ahead of universal time, where that is known. -/
  offset : Option Int := none
  deriving DecidableEq, Repr, Inhabited

namespace Timestamp

/-- A number with zeros in front of it, to a width. -/
def padded (width n : Nat) : String :=
  let digits := Decimal.digits n
  String.ofList (List.replicate (width - digits.length) '0' ++ digits)

def dateText (t : Timestamp) : String :=
  s!"{padded 4 t.year}-{padded 2 t.month}-{padded 2 t.day}"

def timeText (t : Timestamp) : String :=
  s!"{padded 2 t.hour}:{padded 2 t.minute}:{padded 2 t.second}" ++
    if t.microsecond = 0 then "" else s!".{padded 6 t.microsecond}"

/-- Seconds are written only where there are any. -/
def offsetText (seconds : Int) : String :=
  let n := seconds.natAbs
  (if seconds < 0 then "-" else "+") ++ s!"{padded 2 (n / 3600)}:{padded 2 (n / 60 % 60)}" ++
    if n % 60 = 0 then "" else s!":{padded 2 (n % 60)}"

def zoneText (t : Timestamp) : String := (t.offset.map offsetText).getD ""

def text (t : Timestamp) (between : String) : String :=
  t.dateText ++ between ++ t.timeText ++ t.zoneText

def iso (t : Timestamp) : String := t.text "T"

/-- A time without an offset is universal time. -/
def inZone (t : Timestamp) : Timestamp := { t with offset := some (t.offset.getD 0) }

/-- The point in time that lies so many seconds after the first of January 1970, in universal time.
Days are counted from the first of March of the year zero, so that a leap day ends its year. -/
def ofSeconds (seconds microsecond : Nat) : Timestamp :=
  let days := seconds / 86400 + 719468
  let era := days / 146097
  let dayOfEra := days % 146097
  let yearOfEra := (dayOfEra - dayOfEra / 1460 + dayOfEra / 36524 - dayOfEra / 146096) / 365
  let dayOfYear := dayOfEra - (365 * yearOfEra + yearOfEra / 4 - yearOfEra / 100)
  let march := (5 * dayOfYear + 2) / 153
  let month := if march < 10 then march + 3 else march - 9
  { year := yearOfEra + era * 400 + (if month ≤ 2 then 1 else 0), month
    day := dayOfYear - (153 * march + 2) / 5 + 1
    hour := seconds / 3600 % 24, minute := seconds / 60 % 60, second := seconds % 60, microsecond }

/-! ### Reading -/

/-- The number that digits write. -/
def numberOf (digits : List Char) : Nat := (((Number.readInt digits).toOption).getD 0).toNat

/-- The seconds by which an offset of hours, minutes and seconds leads; `Z` leads by none. -/
def offsetOf (cs : List Char) : Option Int :=
  let digits := cs.filter Text.isAsciiDigit
  let part (skipped : Nat) : Nat := numberOf ((digits.drop skipped).take 2)
  let seconds : Int := 3600 * part 0 + 60 * part 2 + part 4
  match cs with
  | ['Z'] => some 0
  | '+' :: _ => some seconds
  | '-' :: _ => some (-seconds)
  | _ => none

def isZoneMark (c : Char) : Bool := c == '+' || c == '-' || c == 'Z'

/-- The part of a second after the point, in millionths. -/
def microsecondOf (cs : List Char) : Nat := numberOf ((cs ++ List.replicate 6 '0').take 6)

/-- The point in time that a text of the form `iso` writes. -/
def ofIso (cs : List Char) : Timestamp :=
  let (time, zone) := (cs.drop 11).span (!isZoneMark ·)
  let part (skipped length : Nat) (text : List Char) : Nat :=
    numberOf ((text.drop skipped).take length)
  { year := part 0 4 cs, month := part 5 2 cs, day := part 8 2 cs
    hour := part 0 2 time, minute := part 3 2 time, second := part 6 2 time
    microsecond := microsecondOf (time.drop 9), offset := offsetOf zone }

end Timestamp

end DesignComponents
