import ToolPlan.Number
import ToolPlan.Number.Stepwise
import ToolPlan.Text

/-!
Numbers as JSON text writes them. A number without point and exponent that fits 64 bits stays whole.
Minus zero and every other number become binary: the leading digits that fit 64 bits are kept, the
rest only counts for the power of ten, and both are put together step by step. The result has to be
finite.
-/

namespace ToolPlan.Json

open Text (Reader)

/-- The parts of a number: its sign, the digits before the point, those after it if there is one, and
the exponent if there is one. -/
structure Numeral where
  negative : Bool
  whole : List Char
  fraction : Option (List Char)
  exponent : Option Int
  deriving DecidableEq, Repr

/-! ### Reading -/

def digits : Reader (List Char) := fun text =>
  match text.span Char.isDigit with
  | ([], _) => none
  | found => some found

/-- The whole part of a number: a zero, or digits that do not begin with zero. -/
def wholePart : Reader (List Char)
  | '0' :: rest => some (['0'], rest)
  | text => digits text

/-- A point with digits after it, or nothing. -/
def fractionPart : Reader (Option (List Char))
  | '.' :: rest => (digits rest).map fun (found, after) => (some found, after)
  | text => some (none, text)

/-- The letter `e` with an optionally signed exponent after it, or nothing. -/
def exponentPart : Reader (Option Int)
  | [] => some (none, [])
  | c :: rest =>
    if c = 'e' || c = 'E' then
      let (negative, unsigned) := Decimal.splitSign rest
      (digits unsigned).map fun (found, after) =>
        let magnitude : Int := Decimal.digitsValue found
        (some (if negative then -magnitude else magnitude), after)
    else some (none, c :: rest)

def numeral : Reader Numeral := fun text => do
  let (negative, unsigned) := match text with
    | '-' :: rest => (true, rest)
    | _ => (false, text)
  let (whole, afterWhole) ← wholePart unsigned
  let (fraction, afterFraction) ← fractionPart afterWhole
  let (exponent, rest) ← exponentPart afterFraction
  return (⟨negative, whole, fraction, exponent⟩, rest)

/-! ### Values -/

/-- The most that kept digits may amount to. -/
def maxKept : Nat := 0xffffffffffffffff

/-- Adds digits to those that are kept, up to the first that would make them exceed `maxKept`. Gives
what the kept digits amount to, and the digits that are left. -/
def keepDigits : Nat → List Char → Nat × List Char
  | kept, [] => (kept, [])
  | kept, c :: rest =>
    let longer := Nat.ofDigitChars 10 [c] kept
    if longer ≤ maxKept then keepDigits longer rest else (kept, c :: rest)

/-- Kept digits never exceed their limit. -/
theorem keepDigits_le (digits : List Char) {kept : Nat} (small : kept ≤ maxKept) :
    (keepDigits kept digits).1 ≤ maxKept := by
  fun_induction keepDigits kept digits with
  | case1 => exact small
  | case2 _ _ _ _ fits ih => exact ih fits
  | case3 => exact small

namespace Numeral

/-- The number with its leading digits alone. A digit before the point that is left out counts one
power of ten up, a digit after it that is kept one down. -/
def leading (n : Numeral) : Decimal :=
  let places := n.fraction.getD []
  let (whole, wholeLeft) := keepDigits 0 n.whole
  let (kept, placesLeft) := keepDigits whole places
  let power : Int := wholeLeft.length + placesLeft.length - places.length
  ⟨n.negative, kept, power + n.exponent.getD 0⟩

/-- The whole number, when it is written as one and fits 64 bits. Minus zero is none. -/
def int? (n : Numeral) : Option Int :=
  let magnitude := Decimal.digitsValue n.whole
  if n.fraction.isSome || n.exponent.isSome then none
  else if n.negative then
    if 0 < magnitude && magnitude ≤ 0x8000000000000000 then some (-magnitude) else none
  else if magnitude ≤ 0xffffffffffffffff then some magnitude else none

/-- The number that is written: whole if it can be, otherwise binary. -/
def toNumber? (n : Numeral) : Option Number :=
  match n.int? with
  | some value => some (.int value)
  | none => n.leading.stepwise?.map .float

end Numeral

def number : Reader Number := fun text => do
  let (found, rest) ← numeral text
  let value ← found.toNumber?
  return (value, rest)

end ToolPlan.Json
