import Mathlib.Algebra.Order.Group.Abs
import Mathlib.Algebra.Order.Group.Unbundled.Int
import Mathlib.Tactic.LinearCombination
import Mathlib.Tactic.Positivity
import Mathlib.Tactic.Ring
import ToolPlan.Proofs.Number.Comparison

/-!
Rounding gives the nearest number. Of all finite binary numbers the one that a numeral is rounded to
lies closest to its value, and where two lie equally close it is the one with an even significand
(`Binary64.Nearest`); there is only one such number of a sign (`Binary64.Nearest.unique`). A numeral
has none exactly from `2 ^ 1024 - 2 ^ 970` on: there the value lies halfway between the greatest
finite number and the next power of two, or beyond (`Decimal.toBinary64?_eq_none_iff`).

The argument is about units. A quotient lies within half a step of the multiple it is rounded to, so
no other multiple of the step is closer; and a number that is no multiple of the step is less than
every number that needs the step.
-/

namespace ToolPlan

namespace Binary64

/-! ### Multiples of a step -/

/-- A quotient lies within half a step of the whole number it is rounded to, and if it lies that far
away, the whole number is even. -/
theorem nearestEven_half (num : Nat) {den : Nat} (positive : 0 < den) :
    2 * |(num : Int) - nearestEven num den * den| ≤ den ∧
      (2 * |(num : Int) - nearestEven num den * den| = den → nearestEven num den % 2 = 0) := by
  have remainder : ((num % den : Nat) : Int) < den := Nat.cast_lt.mpr (Nat.mod_lt num positive)
  have exact : (num : Int) = (num / den : Nat) * den + (num % den : Nat) := by
    rw [mul_comm, ← Nat.cast_mul, ← Nat.cast_add, Nat.div_add_mod]
  have down (count : Nat) (same : count = num / den) :
      |(num : Int) - count * den| = (num % den : Nat) := by
    rw [same, exact, add_sub_cancel_left, Nat.abs_cast]
  have up (count : Nat) (same : count = num / den + 1) :
      |(num : Int) - count * den| = den - (num % den : Nat) := by
    rw [same, exact, Nat.cast_succ, abs_sub_comm, abs_of_nonneg] <;> linarith
  unfold nearestEven
  simp only
  split
  · rw [down _ rfl]
    omega
  · split
    · rw [up _ rfl]
      omega
    · -- Halfway: the even one of the two neighbours.
      rcases Nat.mod_two_eq_zero_or_one (num / den) with even | odd
      · rw [down _ (by omega)]
        omega
      · rw [up _ (by omega)]
        omega

/-- An even whole number is reached from half a step below it on. -/
theorem le_nearestEven_iff (num : Nat) {den count : Nat} (positive : 0 < den)
    (even : count % 2 = 0) :
    count ≤ nearestEven num den ↔ 2 * (count : Int) * den ≤ 2 * num + den := by
  obtain ⟨half, tie⟩ := nearestEven_half num positive
  have below := neg_abs_le ((num : Int) - nearestEven num den * den)
  have above := le_abs_self ((num : Int) - nearestEven num den * den)
  have step : (0 : Int) < den := Nat.cast_pos.mpr positive
  constructor
  · intro reached
    have multiples : (count : Int) * den ≤ nearestEven num den * den :=
      Int.mul_le_mul_of_nonneg_right (Nat.cast_le.mpr reached) step.le
    linarith
  · intro within
    by_contra short
    have multiples : ((nearestEven num den : Int) + 1) * den ≤ count * den :=
      Int.mul_le_mul_of_nonneg_right (by omega) step.le
    have halfway : 2 * |(num : Int) - nearestEven num den * den| = den :=
      le_antisymm half (by linarith)
    -- So the number is one less than the even one and halfway, but it is even.
    have next : ((nearestEven num den : Int) + 1) * den = count * den := by linarith
    have := Int.eq_of_mul_eq_mul_right step.ne' next
    have := tie halfway
    omega

/-- Two multiples of a step are at least a step apart. -/
theorem step_le_abs_add_abs (value : ℚ) {step : ℚ} (positive : 0 < step) {first second : Nat}
    (differ : first ≠ second) :
    step ≤ |value - first * step| + |value - second * step| := by
  have apart : (1 : ℚ) ≤ |(second : ℚ) - first| := by
    have whole : (1 : Int) ≤ |(second : Int) - first| := Int.one_le_abs (by omega)
    exact_mod_cast whole
  calc step ≤ |(second : ℚ) - first| * step := le_mul_of_one_le_left positive.le apart
    _ = |(value - first * step) - (value - second * step)| := by
        rw [← abs_of_pos positive, ← abs_mul, abs_of_pos positive]
        congr 1
        ring
    _ ≤ |value - first * step| + |value - second * step| := abs_sub _ _

/-- What lies within half a step of one multiple lies no closer to another one, and equally close only
if it lies halfway. -/
theorem closest_multiple {value step : ℚ} (positive : 0 < step) {first second : Nat}
    (differ : first ≠ second) (half : 2 * |value - first * step| ≤ step) :
    |value - first * step| ≤ |value - second * step| ∧
      (|value - first * step| = |value - second * step| → 2 * |value - first * step| = step) := by
  have apart := step_le_abs_add_abs value positive differ
  exact ⟨by linarith, fun equidistant => by linarith⟩

/-! ### Magnitudes -/

/-- A binary number is a multiple of a step, or less than every number that needs the step. -/
theorem Canonical.multiple_or_less {y : Binary64} (canonical : y.Canonical) (scale : Nat) :
    (∃ count, y.magnitude = count * 2 ^ scale) ∨
      0 < scale ∧ y.magnitude < 2 ^ 52 * 2 ^ scale := by
  rcases Nat.lt_or_ge y.scale scale with less | reached
  · refine .inr ⟨Nat.zero_lt_of_lt less, ?_⟩
    calc y.magnitude < 2 ^ 53 * 2 ^ y.scale :=
          Nat.mul_lt_mul_of_pos_right canonical.1 (Nat.two_pow_pos _)
      _ = 2 ^ 52 * 2 ^ (y.scale + 1) := by rw [← Nat.pow_add, ← Nat.pow_add]; congr 1; omega
      _ ≤ 2 ^ 52 * 2 ^ scale := Nat.mul_le_mul_left _ (Nat.pow_le_pow_right (by decide) less)
  · refine .inl ⟨y.significand * 2 ^ (y.scale - scale), ?_⟩
    rw [Nat.mul_assoc, ← Nat.pow_add, Nat.sub_add_cancel reached]
    rfl

/-- A quotient of units needs the step that it is rounded with. -/
theorem full_of_scale {num den : Nat} (above : 0 < (num / den).log2 - 52) :
    2 ^ 52 * 2 ^ ((num / den).log2 - 52) * den ≤ num := by
  have nonzero : num / den ≠ 0 := by
    intro zero
    simp [zero] at above
  calc 2 ^ 52 * 2 ^ ((num / den).log2 - 52) * den = 2 ^ (num / den).log2 * den := by
        rw [← Nat.pow_add]; congr 2; omega
    _ ≤ num / den * den := Nat.mul_le_mul_right _ (Nat.log2_self_le nonzero)
    _ ≤ num := Nat.div_mul_le_self num den

/-- The magnitude of a rounded quotient of units. -/
def roundedQuotient (num den : Nat) : Nat :=
  (roundUnits num den).1 * 2 ^ (roundUnits num den).2

/-- A carried significand is even, as the one before the carry is. -/
theorem roundUnits_even {num den : Nat}
    (even : nearestEven num (den * 2 ^ ((num / den).log2 - 52)) % 2 = 0) :
    (roundUnits num den).1 % 2 = 0 := by
  simp only [roundUnits, Nat.pow_eq]
  split
  · exact (by decide : 2 ^ 52 % 2 = 0)
  · exact even

/-- A quotient of units lies within half a step of the multiple it is rounded to, and if it lies that
far away, the multiple is even. -/
theorem nearestEven_half_units (num scale : Nat) {den : Nat} (positive : 0 < den) :
    2 * |(num : ℚ) / den - nearestEven num (den * 2 ^ scale) * 2 ^ scale| ≤ 2 ^ scale ∧
      (2 * |(num : ℚ) / den - nearestEven num (den * 2 ^ scale) * 2 ^ scale| = 2 ^ scale →
        nearestEven num (den * 2 ^ scale) % 2 = 0) := by
  have divisor : (0 : ℚ) < den := Nat.cast_pos.mpr positive
  obtain ⟨half, tie⟩ := nearestEven_half num (Nat.mul_pos positive (Nat.two_pow_pos scale))
  generalize nearestEven num (den * 2 ^ scale) = count at half tie ⊢
  -- Times the divisor, the distance is one of whole numbers.
  have distance : |(num : ℚ) / den - count * 2 ^ scale| * den =
      |((num : Int) - count * (den * 2 ^ scale : Nat) : Int)| := by
    push_cast
    rw [← abs_of_pos divisor, ← abs_mul, abs_of_pos divisor]
    congr 1
    field_simp
  constructor
  · apply le_of_mul_le_mul_right _ divisor
    have whole : (2 * |((num : Int) - count * (den * 2 ^ scale : Nat) : Int)| : ℚ) ≤
        den * 2 ^ scale := by
      exact_mod_cast half
    linarith
  · intro halfway
    apply tie
    have whole : (2 * |((num : Int) - count * (den * 2 ^ scale : Nat) : Int)| : ℚ) =
        den * 2 ^ scale := by
      linear_combination (den : ℚ) * halfway - 2 * distance
    exact_mod_cast whole

/-- No binary number has a magnitude closer to a quotient of units than the one it is rounded to, and
where another is equally close, the significand is even. -/
theorem roundedQuotient_nearest (num : Nat) {den : Nat} (positive : 0 < den) {y : Binary64}
    (canonical : y.Canonical) :
    |(num : ℚ) / den - roundedQuotient num den| ≤ |(num : ℚ) / den - y.magnitude| ∧
      (|(num : ℚ) / den - roundedQuotient num den| = |(num : ℚ) / den - y.magnitude| →
        y.magnitude ≠ roundedQuotient num den → (roundUnits num den).1 % 2 = 0) := by
  have divisor : (0 : ℚ) < den := Nat.cast_pos.mpr positive
  have magnitude : roundedQuotient num den = _ := roundUnits_magnitude num den
  have parity := @roundUnits_even num den
  have full := @full_of_scale num den
  generalize (num / den).log2 - 52 = scale at magnitude parity full
  have step : (0 : ℚ) < 2 ^ scale := by positivity
  obtain ⟨half, tie⟩ := nearestEven_half_units num scale positive
  generalize nearestEven num (den * 2 ^ scale) = count at magnitude parity half tie
  have multiple : (roundedQuotient num den : ℚ) = count * 2 ^ scale := by
    rw [magnitude, Nat.cast_mul, Nat.cast_pow, Nat.cast_ofNat]
  rw [multiple]
  rcases canonical.multiple_or_less scale with ⟨other, onGrid⟩ | ⟨above, less⟩
  · have otherMultiple : (y.magnitude : ℚ) = other * 2 ^ scale := by
      rw [onGrid, Nat.cast_mul, Nat.cast_pow, Nat.cast_ofNat]
    rw [otherMultiple]
    by_cases equal : count = other
    · rw [equal]
      refine ⟨le_refl _, fun _ differ => absurd ?_ differ⟩
      rw [onGrid, magnitude, equal]
    · obtain ⟨closest, halfway⟩ := closest_multiple step equal half
      exact ⟨closest, fun equidistant _ => parity (tie (halfway equidistant))⟩
  · -- The least full significand lies between such a number and the quotient.
    have reached : (2 ^ 52 : Nat) * 2 ^ scale ≤ (num : ℚ) / den := by
      rw [le_div_iff₀ divisor]
      exact_mod_cast full above
    have beyond : (y.magnitude : ℚ) < (2 ^ 52 : Nat) * 2 ^ scale := by
      exact_mod_cast less
    have closer : |(num : ℚ) / den - (2 ^ 52 : Nat) * 2 ^ scale| <
        |(num : ℚ) / den - y.magnitude| := by
      rw [abs_of_nonneg (sub_nonneg.mpr reached),
        abs_of_nonneg (sub_nonneg.mpr (beyond.le.trans reached))]
      exact sub_lt_sub_left beyond _
    have best : |(num : ℚ) / den - count * 2 ^ scale| ≤
        |(num : ℚ) / den - (2 ^ 52 : Nat) * 2 ^ scale| := by
      by_cases equal : count = 2 ^ 52
      · rw [equal]
      · exact (closest_multiple step equal half).1
    have strict := best.trans_lt closer
    exact ⟨strict.le, fun equidistant => absurd equidistant strict.ne⟩

/-! ### Where the finite numbers end -/

/-- From this number of units on, a quotient is rounded beyond the finite numbers. -/
def overflowUnits : Nat := (2 ^ 54 - 1) * 2 ^ 2044

/-- The scale is chosen so that a quotient has at most 53 digits before rounding. -/
theorem lt_of_scale (num : Nat) {den : Nat} (positive : 0 < den) :
    num < 2 ^ 53 * 2 ^ ((num / den).log2 - 52) * den := by
  rw [← Nat.div_lt_iff_lt_mul positive, ← Nat.pow_add]
  calc num / den < 2 ^ ((num / den).log2 + 1) := Nat.lt_log2_self
    _ ≤ 2 ^ (53 + ((num / den).log2 - 52)) := Nat.pow_le_pow_right (by decide) (by omega)

/-- The scale of a rounded quotient, after the carry. -/
theorem roundUnits_scale (num den : Nat) : (roundUnits num den).2 =
    if nearestEven num (den * 2 ^ ((num / den).log2 - 52)) = 2 ^ 53
    then (num / den).log2 - 52 + 1 else (num / den).log2 - 52 := by
  simp only [roundUnits, Nat.pow_eq]
  split <;> rfl

/-- A quotient is rounded, and refused if its scale is beyond the greatest one. -/
theorem ofUnits?_eq (negative : Bool) (num den : Nat) : ofUnits? negative num den =
    if (roundUnits num den).2 ≤ maxScale
    then some ⟨negative, (roundUnits num den).1, (roundUnits num den).2⟩ else none := by
  unfold ofUnits?
  generalize roundUnits num den = parts
  rfl

/-- The finite numbers end halfway between the greatest of them and the next power of two: that is
where the significand of the greatest scale is carried. -/
theorem ofUnits?_eq_none_iff (negative : Bool) (num : Nat) {den : Nat} (positive : 0 < den) :
    ofUnits? negative num den = none ↔ overflowUnits * den ≤ num := by
  have below := lt_of_scale num positive
  have full := @full_of_scale num den
  have bound := (nearestEven_bounds num den).1
  have refused : ofUnits? negative num den = none ↔ maxScale < (roundUnits num den).2 := by
    rw [ofUnits?_eq, ite_eq_right_iff, ← Nat.not_le]
    exact forall_congr' fun _ => iff_of_false nofun id
  rw [refused, roundUnits_scale]
  generalize (num / den).log2 - 52 = scale at below full bound ⊢
  rcases Nat.lt_trichotomy scale maxScale with less | last | greater
  · -- Even a carry stays within the finite numbers.
    have stays : ¬ overflowUnits * den ≤ num := by
      rw [Nat.not_le]
      calc num < 2 ^ 53 * 2 ^ scale * den := below
        _ ≤ 2 ^ 53 * 2 ^ 2044 * den := by
            gcongr
            · decide
            · exact Nat.le_of_lt_succ less
        _ ≤ overflowUnits * den := by
            rw [overflowUnits]
            gcongr
            decide
    refine iff_of_false ?_ stays
    split <;> omega
  · -- Only a carry leaves them.
    have carry : nearestEven num (den * 2 ^ scale) = 2 ^ 53 ↔
        2 ^ 53 ≤ nearestEven num (den * 2 ^ scale) := by omega
    have leaves :
        maxScale < (if nearestEven num (den * 2 ^ scale) = 2 ^ 53 then scale + 1 else scale) ↔
          nearestEven num (den * 2 ^ scale) = 2 ^ 53 := by
      split <;> omega
    have twice (power : Nat) (next : scale = power + 1) : 2 ^ scale = 2 * 2 ^ power := by
      rw [next, Nat.pow_succ']
    have even : 2 ^ 53 % 2 = 0 := by decide
    rw [leaves, carry,
      le_nearestEven_iff num (Nat.mul_pos positive (Nat.two_pow_pos scale)) even, twice 2044 last,
      overflowUnits, ← Nat.cast_le (α := Int)]
    generalize 2 ^ 2044 = step
    push_cast
    constructor <;> intro <;> linarith
  · have leaves : overflowUnits * den ≤ num :=
      calc overflowUnits * den ≤ 2 ^ 54 * 2 ^ 2044 * den := by
            rw [overflowUnits]
            gcongr
            decide
        _ = 2 ^ 52 * 2 ^ (maxScale + 1) * den := by
            rw [← Nat.pow_add, ← Nat.pow_add, show 54 + 2044 = 52 + (maxScale + 1) from rfl]
        _ ≤ 2 ^ 52 * 2 ^ scale * den := by
            gcongr
            · decide
            · exact greater
        _ ≤ num := full (Nat.zero_lt_of_lt greater)
    refine iff_of_true ?_ leaves
    split <;> omega

/-- Less than half a unit is rounded to zero. -/
theorem ofUnits?_of_small (negative : Bool) {num den : Nat} (small : 2 * num < den) :
    ofUnits? negative num den = some ⟨negative, 0, 0⟩ := by
  have quotient : num / den = 0 := Nat.div_eq_of_lt (by omega)
  have zero : nearestEven num den = 0 := by
    simp only [nearestEven, quotient, Nat.mod_eq_of_lt (by omega : num < den), if_pos small]
  have parts : roundUnits num den = (0, 0) := by
    rw [roundUnits, quotient]
    simp [zero]
  rw [ofUnits?_eq, parts, if_pos (Nat.zero_le _)]

/-! ### The nearest number -/

/-- A size with its sign. -/
def signed (negative : Bool) (size : ℚ) : ℚ :=
  if negative then -size else size

theorem signed_sub (negative : Bool) (a b : ℚ) :
    |signed negative a - signed negative b| = |a - b| := by
  cases negative with
  | false => rfl
  | true => rw [signed, signed, if_pos rfl, if_pos rfl, neg_sub_neg, abs_sub_comm]

theorem signed_not (negative : Bool) (a : ℚ) : signed (!negative) a = signed negative (-a) := by
  cases negative with
  | false => rfl
  | true => exact (neg_neg a).symm

theorem abs_signed (negative : Bool) {size : ℚ} (nonneg : 0 ≤ size) :
    |signed negative size| = size := by
  cases negative with
  | false => exact abs_of_nonneg nonneg
  | true => exact (abs_neg size).trans (abs_of_nonneg nonneg)

theorem signed_div (negative : Bool) (a b : ℚ) :
    signed negative (a / b) = signed negative a / b := by
  cases negative with
  | false => rfl
  | true => exact (neg_div b a).symm

theorem cast_scaled (x : Binary64) : (x.scaled : ℚ) = signed x.negative x.magnitude := by
  unfold scaled signed
  split
  · rw [Int.cast_neg, Int.cast_natCast]
  · rw [Int.cast_natCast]

/-- The nearest number to a value: no finite number is closer, and where another one is equally close,
this one has the even significand. -/
structure Nearest (value : ℚ) (x : Binary64) : Prop where
  canonical : x.Canonical
  closest : ∀ y : Binary64, y.Canonical →
    |value - (Number.float x).value| ≤ |value - (Number.float y).value|
  even : ∀ y : Binary64, y.Canonical →
    |value - (Number.float x).value| = |value - (Number.float y).value| →
    (Number.float y).value ≠ (Number.float x).value → x.significand % 2 = 0

/-! ### There is only one -/

/-- A number of the format has one form. -/
theorem Canonical.eq_of_magnitude {x y : Binary64} (first : x.Canonical) (second : y.Canonical)
    (sign : x.negative = y.negative) (same : x.magnitude = y.magnitude) : x = y := by
  have parts := roundUnits_exact first Nat.one_pos
  rw [same, roundUnits_exact second Nat.one_pos] at parts
  obtain ⟨significand, scale⟩ := Prod.mk.inj parts
  obtain ⟨negative, _, _⟩ := x
  obtain ⟨_, _, _⟩ := y
  simp only at sign significand scale
  rw [sign, significand, scale]

/-- On one side of zero, a value determines the magnitude. -/
theorem magnitude_eq_of_value {x y : Binary64} (sign : x.negative = y.negative)
    (same : (Number.float x).value = (Number.float y).value) : x.magnitude = y.magnitude := by
  have units : x.scaled = y.scaled := (Number.value_eq_iff (.float x) (.float y)).mp same
  unfold scaled at units
  rw [sign] at units
  split at units <;> omega

/-- Two numbers with even significands are no neighbours. -/
theorem Canonical.exists_between {x y : Binary64} (first : x.Canonical) (second : y.Canonical)
    (evenFirst : x.significand % 2 = 0) (evenSecond : y.significand % 2 = 0)
    (sign : x.negative = y.negative) (less : x.magnitude < y.magnitude) :
    ∃ z : Binary64, z.Canonical ∧ z.negative = y.negative ∧ x.magnitude < z.magnitude ∧
      z.magnitude < y.magnitude := by
  have step : 0 < 2 ^ x.scale := Nat.two_pow_pos x.scale
  let z : Binary64 := ⟨x.negative, x.significand + 1, x.scale⟩
  have canonical : z.Canonical := by
    obtain ⟨below, full, range⟩ := first
    refine ⟨?_, full.imp_left Nat.le_succ_of_le, range⟩
    have top : Nat.pow 2 53 % 2 = 0 := by decide
    show x.significand + 1 < Nat.pow 2 53
    omega
  have next : z.magnitude = x.magnitude + 2 ^ x.scale := Nat.succ_mul ..
  have reached : z.magnitude ≤ y.magnitude := by
    rcases second.multiple_or_less x.scale with ⟨count, multiple⟩ | ⟨above, beyond⟩
    · rw [multiple] at less ⊢
      exact Nat.mul_le_mul_right _ (Nat.lt_of_mul_lt_mul_right less)
    · -- Such a number is less than every one that needs the step of the first.
      have full := first.2.1.resolve_right (Nat.ne_of_gt above)
      exact absurd (Nat.mul_le_mul_right (2 ^ x.scale) full) (Nat.not_le.mpr (less.trans beyond))
  refine ⟨z, canonical, sign, by omega, Nat.lt_of_le_of_ne reached fun same => ?_⟩
  have odd : (x.significand + 1) % 2 = 0 := by
    rw [← canonical.eq_of_magnitude second sign same] at evenSecond
    exact evenSecond
  omega

/-- What lies between two values that are equally close is closer. -/
theorem closer_of_between {value a b c : ℚ} (equidistant : |value - a| = |value - b|) (low : a < c)
    (high : c < b) : |value - c| < |value - a| := by
  rcases abs_eq_abs.mp equidistant with same | mirrored
  · linarith
  · rw [abs_of_pos (by linarith : 0 < value - a), abs_lt]
    constructor <;> linarith

/-- A number between two that are equally close is closer than both. For negative numbers the order
is turned around. -/
theorem closer_of_magnitude {value : ℚ} {x y z : Binary64} (signX : x.negative = y.negative)
    (signZ : z.negative = y.negative)
    (equidistant : |value - (Number.float x).value| = |value - (Number.float y).value|)
    (low : x.magnitude < z.magnitude) (high : z.magnitude < y.magnitude) :
    |value - (Number.float z).value| < |value - (Number.float x).value| := by
  have step : (0 : ℚ) < unit := Nat.cast_pos.mpr unit_pos
  have lower := div_lt_div_of_pos_right (Nat.cast_lt.mpr low : (x.magnitude : ℚ) < _) step
  have upper := div_lt_div_of_pos_right (Nat.cast_lt.mpr high : (z.magnitude : ℚ) < _) step
  simp only [Number.value, cast_scaled, signX, signZ] at equidistant ⊢
  generalize y.negative = negative at equidistant ⊢
  cases negative with
  | false => exact closer_of_between equidistant lower upper
  | true =>
    simp only [signed, if_true, neg_div] at equidistant ⊢
    rw [equidistant]
    exact closer_of_between equidistant.symm (neg_lt_neg upper) (neg_lt_neg lower)

/-- If two numbers were nearest and one of them less, both would be even, and the number between
them closer. -/
theorem Nearest.not_lt {value : ℚ} {x y : Binary64} (first : x.Nearest value)
    (second : y.Nearest value) (sign : x.negative = y.negative) : ¬ x.magnitude < y.magnitude := by
  intro less
  have equidistant := le_antisymm (first.closest y second.canonical) (second.closest x first.canonical)
  have differ : (Number.float y).value ≠ (Number.float x).value := fun same =>
    less.ne' (magnitude_eq_of_value sign.symm same)
  have evenFirst := first.even y second.canonical equidistant differ
  have evenSecond := second.even x first.canonical equidistant.symm differ.symm
  obtain ⟨z, canonical, signZ, low, high⟩ :=
    first.canonical.exists_between second.canonical evenFirst evenSecond sign less
  exact absurd (first.closest z canonical)
    (not_le.mpr (closer_of_magnitude sign signZ equidistant low high))

/-- A value has only one nearest number of a sign. -/
theorem Nearest.unique {value : ℚ} {x y : Binary64} (first : x.Nearest value)
    (second : y.Nearest value) (sign : x.negative = y.negative) : x = y :=
  first.canonical.eq_of_magnitude second.canonical sign
    (Nat.le_antisymm (Nat.not_lt.mp (second.not_lt first sign.symm))
      (Nat.not_lt.mp (first.not_lt second sign)))

/-! ### Rounding gives it -/

/-- Signed numbers lie as their magnitudes do: one with the other sign is farther away than zero. -/
theorem roundedQuotient_nearest_signed (negative : Bool) (num : Nat) {den : Nat}
    (positive : 0 < den) {y : Binary64} (canonical : y.Canonical) :
    |signed negative (num / den) - signed negative (roundedQuotient num den)| ≤
        |signed negative (num / den) - y.scaled| ∧
      (|signed negative (num / den) - signed negative (roundedQuotient num den)| =
          |signed negative (num / den) - y.scaled| →
        (y.scaled : ℚ) ≠ signed negative (roundedQuotient num den) →
        (roundUnits num den).1 % 2 = 0) := by
  have quotient : (0 : ℚ) ≤ num / den := by positivity
  rw [signed_sub]
  by_cases side : (y.scaled : ℚ) = signed negative y.magnitude
  · rw [side, signed_sub]
    obtain ⟨closest, even⟩ := roundedQuotient_nearest num positive canonical
    refine ⟨closest, fun equidistant differ => even equidistant fun same => differ ?_⟩
    rw [same]
  · have other : (y.scaled : ℚ) = signed negative (-y.magnitude) := by
      rw [cast_scaled, ← signed_not]
      congr 1
      refine Bool.eq_not.mpr fun same => side ?_
      rw [cast_scaled, same]
    have nonzero : (0 : ℚ) < y.magnitude := by
      rw [Nat.cast_pos]
      refine Nat.pos_of_ne_zero fun zero => side ?_
      rw [other, zero, Nat.cast_zero, neg_zero]
    have zero : Canonical ⟨false, 0, 0⟩ := ⟨by decide, .inr rfl, by decide⟩
    have toZero := (roundedQuotient_nearest num positive zero).1
    have strict : |(num : ℚ) / den - roundedQuotient num den| <
        |signed negative (num / den) - y.scaled| := by
      rw [other, signed_sub, sub_neg_eq_add, abs_of_nonneg (add_nonneg quotient nonzero.le)]
      simp only [magnitude, Nat.zero_mul, Nat.cast_zero, sub_zero, abs_of_nonneg quotient] at toZero
      linarith
    exact ⟨strict.le, fun equidistant => absurd equidistant strict.ne⟩

/-- What is not refused is nearest, and has the sign of the numeral. -/
theorem ofUnits?_nearest {negative : Bool} {num den : Nat} (positive : 0 < den) {x : Binary64}
    (rounded : ofUnits? negative num den = some x) :
    x.negative = negative ∧ Nearest (signed negative (num / den) / unit) x := by
  have canonical := ofUnits?_canonical rounded
  rw [ofUnits?_eq] at rounded
  obtain ⟨-, same⟩ := Option.ite_none_right_eq_some.mp rounded
  obtain rfl := Option.some.inj same
  have step : (0 : ℚ) < unit := Nat.cast_pos.mpr unit_pos
  have distance (y : Binary64) : |signed negative (num / den) / unit - (Number.float y).value| =
      |signed negative (num / den) - y.scaled| / unit := by
    rw [Number.value, ← sub_div, abs_div, abs_of_pos step]
  have nearest {y : Binary64} (finite : y.Canonical) :=
    roundedQuotient_nearest_signed negative num positive finite
  have scaled :
      ((⟨negative, (roundUnits num den).1, (roundUnits num den).2⟩ : Binary64).scaled : ℚ) =
        signed negative (roundedQuotient num den) := cast_scaled _
  refine ⟨rfl, canonical, fun y finite => ?_, fun y finite equidistant differ => ?_⟩
  · rw [distance, distance, scaled]
    exact (div_le_div_iff_of_pos_right step).mpr (nearest finite).1
  · rw [distance, distance, scaled, div_left_inj' step.ne'] at equidistant
    refine (nearest finite).2 equidistant fun same => differ ?_
    rw [Number.value, Number.value, same, scaled]

end Binary64

namespace Decimal

/-! ### Numerals -/

def value (d : Decimal) : ℚ :=
  Binary64.signed d.negative (d.digits * (10 : ℚ) ^ d.exponent)

/-- Where the finite numbers end: a value of this size is rounded beyond them. -/
def overflow : ℚ := 2 ^ 1024 - 2 ^ 970

/-- Overflow is a bound on values. In units it is the one that rounding checks. -/
theorem overflow_mul_unit : overflow * Binary64.unit = Binary64.overflowUnits := by
  have high : (2 : ℚ) ^ 1024 = 2 ^ 54 * 2 ^ 970 := by rw [← pow_add]
  have low : (2 : ℚ) ^ 2044 = 2 ^ 970 * 2 ^ 1074 := by rw [← pow_add]
  have full : ((2 ^ 54 - 1 : Nat) : ℚ) = 2 ^ 54 - 1 := by norm_num
  rw [overflow, Binary64.unit, Binary64.overflowUnits, Nat.cast_mul, Nat.cast_pow, Nat.cast_pow,
    Nat.cast_ofNat, Binary64.unitExponent, high, low, full, ← sub_one_mul, mul_assoc]

/-- The size of a numeral in units, as a quotient. -/
def num (d : Decimal) : Nat :=
  d.digits * 2 ^ Binary64.unitExponent * 10 ^ d.exponent.toNat

@[inherit_doc num]
def den (d : Decimal) : Nat :=
  10 ^ (-d.exponent).toNat

theorem den_pos (d : Decimal) : 0 < d.den :=
  Nat.pow_pos (by decide)

/-- A power of ten as a fraction whose sides are whole. -/
theorem ten_zpow (exponent : Int) :
    (10 : ℚ) ^ exponent = 10 ^ exponent.toNat / 10 ^ (-exponent).toNat := by
  obtain ⟨power, rfl | rfl⟩ := Int.eq_nat_or_neg exponent
  · rw [zpow_natCast, Int.toNat_natCast, Int.toNat_neg_natCast, pow_zero, div_one]
  · rw [zpow_neg, zpow_natCast, neg_neg, Int.toNat_natCast, Int.toNat_neg_natCast, pow_zero,
      one_div]

/-- The size of a numeral is a quotient of whole numbers, counted in units. -/
theorem size_eq (d : Decimal) :
    d.digits * (10 : ℚ) ^ d.exponent = (d.num : ℚ) / d.den / Binary64.unit := by
  have step : (Binary64.unit : ℚ) ≠ 0 := Nat.cast_ne_zero.mpr Binary64.unit_pos.ne'
  rw [ten_zpow, num, den, ← Binary64.unit]
  push_cast
  field_simp

theorem value_eq (d : Decimal) :
    d.value = Binary64.signed d.negative (d.num / d.den) / Binary64.unit := by
  rw [value, size_eq, Binary64.signed_div]

/-! ### The place of the first digit -/

theorem pow_digitCount_le {n : Nat} (nonzero : n ≠ 0) : 10 ^ (digitCount n - 1) ≤ n := by
  by_contra less
  have positive : 0 < digitCount n - 1 := by
    by_contra single
    rw [Nat.eq_zero_of_not_pos single, Nat.pow_zero] at less
    omega
  have := digitCount_le positive (Nat.not_le.mp less)
  omega

/-- What has its first digit below the lowest place is less than half a unit. -/
theorem two_mul_num_lt {d : Decimal} (tiny : digitCount d.digits + d.exponent < lowestPlace) :
    2 * d.num < d.den := by
  rw [lowestPlace] at tiny
  have whole : d.exponent.toNat = 0 := by omega
  have places : digitCount d.digits + (1 + Binary64.unitPlaces) ≤ (-d.exponent).toNat := by
    rw [Binary64.unitPlaces]
    omega
  calc 2 * d.num = d.digits * (2 * 2 ^ Binary64.unitExponent) := by
        rw [num, whole, Nat.pow_zero, Nat.mul_one, Nat.mul_left_comm]
    _ < 10 ^ digitCount d.digits * (2 * 2 ^ Binary64.unitExponent) :=
        Nat.mul_lt_mul_of_pos_right (lt_pow_digitCount _)
          (Nat.mul_pos (by decide) (Nat.two_pow_pos _))
    _ ≤ 10 ^ digitCount d.digits * (10 ^ 1 * 10 ^ Binary64.unitPlaces) :=
        Nat.mul_le_mul_left _ (Nat.mul_le_mul (by decide) Binary64.two_pow_unitExponent_le)
    _ = 10 ^ (digitCount d.digits + (1 + Binary64.unitPlaces)) := by
        rw [← Nat.pow_add, ← Nat.pow_add]
    _ ≤ d.den := Nat.pow_le_pow_right (by decide) places

/-- What has its first digit above the highest place lies beyond the finite numbers. -/
theorem overflowUnits_mul_den_le {d : Decimal} (nonzero : d.digits ≠ 0)
    (huge : highestPlace < digitCount d.digits + d.exponent) :
    Binary64.overflowUnits * d.den ≤ d.num := by
  rw [highestPlace] at huge
  have places : 310 + (-d.exponent).toNat ≤ digitCount d.digits - 1 + d.exponent.toNat := by omega
  calc Binary64.overflowUnits * d.den
      ≤ 2 ^ Binary64.unitExponent * 10 ^ 310 * d.den :=
        Nat.mul_le_mul_right _ (by decide +kernel)
    _ = 2 ^ Binary64.unitExponent * 10 ^ (310 + (-d.exponent).toNat) := by
        rw [den, Nat.mul_assoc, ← Nat.pow_add]
    _ ≤ 2 ^ Binary64.unitExponent * 10 ^ (digitCount d.digits - 1 + d.exponent.toNat) :=
        Nat.mul_le_mul_left _ (Nat.pow_le_pow_right (by decide) places)
    _ = 10 ^ (digitCount d.digits - 1) * 2 ^ Binary64.unitExponent * 10 ^ d.exponent.toNat := by
        rw [Nat.pow_add, Nat.mul_left_comm, Nat.mul_assoc]
    _ ≤ d.num :=
        Nat.mul_le_mul_right _ (Nat.mul_le_mul_right _ (pow_digitCount_le nonzero))

/-- The place of its first digit only saves a numeral from being multiplied out. -/
theorem toBinary64?_eq (d : Decimal) :
    d.toBinary64? = Binary64.ofUnits? d.negative d.num d.den := by
  simp only [toBinary64?, Nat.pow_eq]
  split
  · next small =>
    have half : 2 * d.num < d.den := by
      rcases (Bool.or_eq_true ..).mp small with zero | tiny
      · rw [num, of_decide_eq_true zero, Nat.zero_mul, Nat.zero_mul]
        exact d.den_pos
      · exact two_mul_num_lt (of_decide_eq_true tiny)
    exact (Binary64.ofUnits?_of_small d.negative half).symm
  · next large =>
    split
    · next huge =>
      have nonzero : d.digits ≠ 0 := fun zero => large (by rw [zero]; rfl)
      exact ((Binary64.ofUnits?_eq_none_iff d.negative d.num d.den_pos).mpr
        (overflowUnits_mul_den_le nonzero huge)).symm
    · rw [num, den]

/-! ### The nearest number to a numeral -/

/-- A numeral is rounded beyond the finite numbers exactly from halfway between the greatest of them
and the next power of two on. -/
theorem toBinary64?_eq_none_iff (d : Decimal) : d.toBinary64? = none ↔ overflow ≤ |d.value| := by
  have divisor : (0 : ℚ) < d.den := Nat.cast_pos.mpr d.den_pos
  have step : (0 : ℚ) < Binary64.unit := Nat.cast_pos.mpr Binary64.unit_pos
  have size : |d.value| = (d.num : ℚ) / d.den / Binary64.unit := by
    rw [value, size_eq, Binary64.abs_signed _ (div_nonneg (div_nonneg (Nat.cast_nonneg _)
      (Nat.cast_nonneg _)) (Nat.cast_nonneg _))]
  rw [toBinary64?_eq, Binary64.ofUnits?_eq_none_iff _ _ d.den_pos, size, le_div_iff₀ step,
    overflow_mul_unit, le_div_iff₀ divisor, ← Nat.cast_mul, Nat.cast_le]

/-- Where a numeral is rounded to a number at all, that is the nearest one. -/
theorem toBinary64?_nearest {d : Decimal} {x : Binary64} (rounded : d.toBinary64? = some x) :
    x.negative = d.negative ∧ Binary64.Nearest d.value x := by
  rw [toBinary64?_eq] at rounded
  rw [value_eq]
  exact Binary64.ofUnits?_nearest d.den_pos rounded

end Decimal

end ToolPlan
