import ToolPlan.Number.Decimal

/-!
Decimal numerals turned into binary numbers step by step: the digits are rounded to a binary number,
which is then multiplied or divided by the binary number nearest to a power of ten. Each step rounds
by itself, so the result may lie a little beside the nearest number, which `Decimal.toBinary64?`
gives. While the digits have at most 53 bits and the power is at most 22, both parts are exact and
the two agree.
-/

namespace ToolPlan

namespace Binary64

def tenPow (power : Nat) : Binary64 :=
  ofInt (Nat.pow 10 power)

/-- The largest power of ten that is taken in one step: the next one is not finite. -/
def maxTenPow : Nat := 308

/-- A number times a power of ten, or nothing when that is beyond the finite ones. A power below
`-maxTenPow` is taken in several steps, and one above it is refused unless the number is zero. -/
def scaleByTen? (x : Binary64) (power : Int) : Option Binary64 :=
  if power.natAbs ≤ maxTenPow then
    if 0 ≤ power then x.mul? (tenPow power.natAbs) else x.div? (tenPow power.natAbs)
  else if x.significand = 0 then some x
  else if 0 ≤ power then none
  else do
    let smaller ← x.div? (tenPow maxTenPow)
    scaleByTen? smaller (power + maxTenPow)
termination_by power.natAbs
decreasing_by simp only [maxTenPow] at *; omega

end Binary64

/-- The binary number that the digits and the power of ten give step by step. -/
def Decimal.stepwise? (d : Decimal) : Option Binary64 :=
  let digits := Binary64.ofInt d.digits
  { digits with negative := d.negative }.scaleByTen? d.exponent

end ToolPlan
