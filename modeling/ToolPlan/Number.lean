import ToolPlan.Number.Binary64
import ToolPlan.Number.Decimal
import ToolPlan.Number.Shortest

/-!
The numbers of a plan: whole numbers of 64 bits and finite binary numbers of 64 bits. The two kinds
stay apart in text, and compare by value.
-/

namespace ToolPlan

/-- A whole number or a binary one. Whole numbers lie in `-2 ^ 63 ≤ n < 2 ^ 64`. -/
inductive Number where
  | int (value : Int)
  | float (value : Binary64)
  deriving DecidableEq, Repr

namespace Number

/-- The range of signed words. -/
def isWord (value : Int) : Bool :=
  -0x8000000000000000 ≤ value && value ≤ 0x7fffffffffffffff

def toWord? : Number → Option Int
  | int value => if isWord value then some value else none
  | float _ => none

def toBinary64 : Number → Binary64
  | int value => Binary64.ofInt value
  | float value => value

/-- The order of two numbers: exact between signed words, otherwise that of the nearest binary
numbers. -/
def order (x y : Number) : Ordering :=
  match x.toWord?, y.toWord? with
  | some a, some b => Ord.compare a b
  | _, _ => x.toBinary64.order y.toBinary64

/-- Numeric text. A whole number that fits a signed word stays whole; every other numeral becomes
the nearest binary number, if that is finite. -/
def ofChars? (text : List Char) : Option Number :=
  match (Decimal.int? text).filter isWord with
  | some value => some (int value)
  | none => ((Decimal.ofChars? text).bind Decimal.toBinary64?).map float

@[inherit_doc ofChars?]
def ofText? (text : String) : Option Number :=
  ofChars? text.toList

/-! ### Text of a number -/

/-- How a binary number is written: positionally while the power of ten of its first digit is in
`lowest ≤ power < highest`, with at least one digit on either side of the point. -/
structure Layout where
  lowest : Int
  highest : Int

/-- Numbers are written positionally from `0.00001` up to sixteen digits before the point. -/
def layout : Layout := ⟨-5, 16⟩

def zeros (count : Nat) : List Char :=
  List.replicate count '0'

/-- Digits with a point: `power` is the power of ten of the last digit. -/
def positional (digits : List Char) (power : Int) : List Char :=
  if 0 ≤ power then digits ++ zeros power.toNat ++ ".0".toList
  else
    let places := (-power).toNat
    let padded := zeros (places + 1 - digits.length) ++ digits
    let whole := padded.length - places
    padded.take whole ++ '.' :: padded.drop whole

/-- One digit before the point, and the power of ten with its sign. -/
def scientific (digits : List Char) (lead : Int) : List Char :=
  let fraction := match digits.drop 1 with
    | [] => []
    | more => '.' :: more
  let sign := if lead < 0 then "e-" else "e+"
  digits.take 1 ++ fraction ++ sign.toList ++ Nat.toDigits 10 lead.natAbs

/-- A binary number by its fewest digits. -/
def renderBinary64 (x : Binary64) : String :=
  let (count, power) := x.shortest
  let digits := Nat.toDigits 10 count
  let lead := power + digits.length - 1
  let body :=
    if layout.lowest ≤ lead && lead < layout.highest then positional digits power
    else scientific digits lead
  String.ofList (if x.negative then '-' :: body else body)

def renderInt (value : Int) : String :=
  let digits := Nat.toDigits 10 value.natAbs
  String.ofList (if value < 0 then '-' :: digits else digits)

/-- The text of a number; a binary one always shows a point or an exponent. -/
def render : Number → String
  | int value => renderInt value
  | float value => renderBinary64 value

end Number

end ToolPlan
