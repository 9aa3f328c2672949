/-!
Finite binary floating-point numbers of 64 bits, kept as a significand and a scale. Every such
number is a whole multiple of `2 ^ -1074`, so its value is the integer `scaled` in that unit, and
rounding and comparing are exact computations on integers.
-/

namespace ToolPlan

/-- The number `± significand * 2 ^ scale`, counted in units of `2 ^ -1074`. Zero has a sign. -/
structure Binary64 where
  negative : Bool
  significand : Nat
  scale : Nat
  deriving DecidableEq, Repr

namespace Binary64

/-- The exponent of the unit: a value is its multiple of `2 ^ -unitExponent`. -/
def unitExponent : Nat := 1074

/-- The largest scale of a finite number. -/
def maxScale : Nat := 2045

/-- The form every number of the format has exactly once: at most 53 bits, and all 53 of them
unless the scale is the least one. -/
def Canonical (x : Binary64) : Prop :=
  x.significand < Nat.pow 2 53 ∧ (Nat.pow 2 52 ≤ x.significand ∨ x.scale = 0) ∧ x.scale ≤ maxScale

/-- The value without its sign, in units. -/
def magnitude (x : Binary64) : Nat :=
  x.significand * Nat.pow 2 x.scale

/-- The value in units, as a signed integer. -/
def scaled (x : Binary64) : Int :=
  if x.negative then -(x.magnitude : Int) else x.magnitude

/-- The whole number nearest to a quotient; a tie goes to the even one. -/
def nearestEven (num den : Nat) : Nat :=
  let quotient := num / den
  let twice := 2 * (num % den)
  if twice < den then quotient
  else if den < twice then quotient + 1
  else quotient + quotient % 2

/-- The significand and the scale nearest to a quotient of units. The scale leaves 53 bits; a
significand that rounds up to the 54th bit moves into the next scale. -/
def roundUnits (num den : Nat) : Nat × Nat :=
  let scale := (num / den).log2 - 52
  let significand := nearestEven num (den * Nat.pow 2 scale)
  if significand = Nat.pow 2 53 then (Nat.pow 2 52, scale + 1) else (significand, scale)

/-- The number nearest to a quotient of units, or nothing when that is beyond the finite ones. -/
def ofUnits? (negative : Bool) (num den : Nat) : Option Binary64 :=
  let (significand, scale) := roundUnits num den
  if scale ≤ maxScale then some ⟨negative, significand, scale⟩ else none

/-- The number of a sign, and a significand with its scale. -/
def ofParts (negative : Bool) (parts : Nat × Nat) : Binary64 :=
  ⟨negative, parts.1, parts.2⟩

def ofInt (value : Int) : Binary64 :=
  ofParts (value < 0) (roundUnits (value.natAbs * Nat.pow 2 unitExponent) 1)

/-- The number nearest to a product, or nothing when that is beyond the finite ones. -/
def mul? (x y : Binary64) : Option Binary64 :=
  ofUnits? (x.negative != y.negative) (x.magnitude * y.magnitude) (Nat.pow 2 unitExponent)

/-- The number nearest to a quotient, or nothing when that is beyond the finite ones. The divisor is
not zero. -/
def div? (x y : Binary64) : Option Binary64 :=
  ofUnits? (x.negative != y.negative) (x.magnitude * Nat.pow 2 unitExponent) y.magnitude

/-- The order of two values; the zeros of either sign are one value. -/
def order (x y : Binary64) : Ordering :=
  Ord.compare x.scaled y.scaled

end Binary64

end ToolPlan
