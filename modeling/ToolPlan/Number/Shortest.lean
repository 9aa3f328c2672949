import ToolPlan.Number.Binary64
import ToolPlan.Number.Decimal

/-!
The fewest decimal digits that identify a binary number: of all decimals that round to it, one
with the least number of digits, and of those the nearest.
-/

namespace ToolPlan.Binary64

/-- The reals that round to a positive number, in quarters of the number's last place:
`4 * significand - below` up to `4 * significand + 2`, the ends included when the significand is
even. The lower neighbour is half as far away where the scale changes. -/
def quartersBelow (x : Binary64) : Nat :=
  if x.significand = Nat.pow 2 52 ∧ 0 < x.scale then 1 else 2

/-- Whether `count * 10 ^ power` rounds to the number. -/
def readsBack (x : Binary64) (count : Nat) (power : Int) : Bool :=
  let decimal := 4 * count * Nat.pow 10 power.toNat * Nat.pow 2 unitExponent
  let place := Nat.pow 2 x.scale * Nat.pow 10 (-power).toNat
  let low := (4 * x.significand - x.quartersBelow) * place
  let high := (4 * x.significand + 2) * place
  if x.significand % 2 = 0 then low ≤ decimal && decimal ≤ high
  else low < decimal && decimal < high

/-- The power of ten of the first digit of a positive quotient. -/
def leadingPower (num den : Nat) : Int :=
  if den ≤ num then (Decimal.digitCount (num / den) : Int) - 1
  else -(Decimal.digitCount ((den + num - 1) / num - 1) : Int)

/-- The nearest point that reads back among the two neighbours of the number on the grid of
multiples of `10 ^ power`; a tie goes to the even one. -/
def nearestOnGrid (x : Binary64) (power : Int) : Option Nat :=
  let num := x.magnitude * Nat.pow 10 (-power).toNat
  let den := Nat.pow 2 unitExponent * Nat.pow 10 power.toNat
  let lower := num / den
  let upper := lower + 1
  let nearest := nearestEven num den
  let farther := if nearest = lower then upper else lower
  if readsBack x nearest power then some nearest
  else if readsBack x farther power then some farther
  else none

def trimZeros : Nat → Nat → Int → Nat × Int
  | 0, digits, power => (digits, power)
  | fuel + 1, digits, power =>
    if digits ≠ 0 ∧ digits % 10 = 0 then trimZeros fuel (digits / 10) (power + 1)
    else (digits, power)

/-- Seventeen digits always identify a number. -/
def maxDigits : Nat := 17

/-- The digits of a number and the power of ten of the last one; the sign is left out. -/
def shortest (x : Binary64) : Nat × Int :=
  if x.significand = 0 then (0, 0)
  else
    let lead := leadingPower x.magnitude (Nat.pow 2 unitExponent)
    let grids := (List.range maxDigits).map fun (more : Nat) => lead - more
    match grids.findSome? fun power => (nearestOnGrid x power).map fun digits => (digits, power) with
    | some (digits, power) => trimZeros maxDigits digits power
    | none => (x.magnitude, -(unitExponent : Int))

end ToolPlan.Binary64
