import ToolPlan.Number.Binary64

/-!
Decimal numerals: a signed run of digits with a power of ten, read from text and rounded to the
nearest binary number.
-/

namespace ToolPlan

/-- The number `± digits * 10 ^ exponent`. -/
structure Decimal where
  negative : Bool
  digits : Nat
  exponent : Int
  deriving DecidableEq, Repr

namespace Decimal

def digitsValue (digits : List Char) : Nat :=
  Nat.ofDigitChars 10 digits 0

def digitCount (n : Nat) : Nat :=
  (Nat.toDigits 10 n).length

/-- A sign, if one is written, and what follows it. -/
def splitSign : List Char → Bool × List Char
  | '-' :: rest => (true, rest)
  | '+' :: rest => (false, rest)
  | rest => (false, rest)

/-- A whole number: an optional sign and at least one digit, and nothing else. -/
def int? (text : List Char) : Option Int :=
  let (negative, digits) := splitSign text
  if digits.isEmpty || !digits.all Char.isDigit then none
  else
    let magnitude : Int := digitsValue digits
    some (if negative then -magnitude else magnitude)

/-- What may follow the digits of a numeral: nothing, or `e` and a whole number. -/
def exponent? : List Char → Option Int
  | [] => some 0
  | c :: rest => if c = 'e' || c = 'E' then int? rest else none

/-- The digits after a point, if one is written, and what follows them. -/
def splitFraction : List Char → List Char × List Char
  | '.' :: rest => rest.span Char.isDigit
  | rest => ([], rest)

/-- A numeral: an optional sign, digits with at most one point among or beside them, and an
optional exponent. -/
def ofChars? (text : List Char) : Option Decimal := do
  let (negative, unsigned) := splitSign text
  let (whole, afterWhole) := unsigned.span Char.isDigit
  let (fraction, afterFraction) := splitFraction afterWhole
  if whole.isEmpty && fraction.isEmpty then none
  else
    let power ← exponent? afterFraction
    some ⟨negative, digitsValue (whole ++ fraction), power - fraction.length⟩

/-- Above this position of the first digit every value is beyond the finite numbers. -/
def highestPlace : Int := 310

/-- Below this position of the first digit every value rounds to zero. -/
def lowestPlace : Int := -330

/-- The nearest binary number, or nothing when that is not finite. Values far outside the range
are told by the place of their first digit, so a huge exponent is never multiplied out. -/
def toBinary64? (d : Decimal) : Option Binary64 :=
  let place := digitCount d.digits + d.exponent
  if d.digits = 0 || place < lowestPlace then some ⟨d.negative, 0, 0⟩
  else if highestPlace < place then none
  else
    let units := d.digits * Nat.pow 2 Binary64.unitExponent
    Binary64.ofUnits? d.negative (units * Nat.pow 10 d.exponent.toNat)
      (Nat.pow 10 (-d.exponent).toNat)

end Decimal

end ToolPlan
