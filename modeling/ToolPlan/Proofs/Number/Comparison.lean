import Mathlib.Algebra.Order.Field.Rat
import Mathlib.Data.Nat.Log
import Mathlib.Tactic.FieldSimp
import Mathlib.Tactic.Linarith
import ToolPlan.Proofs.Number.Rounding
import ToolPlan.Value

/-!
Comparing numbers of different kinds. Two signed words compare as they are; any other two numbers
compare by the binary numbers nearest to them. Rounding keeps the order (`rounded_mono`) and does
nothing to a number that is binary already (`rounded_magnitude`), so a comparison never turns an order
around. It misses one, however, wherever two different numbers have one nearest binary number: the
numbers compare by their values exactly where this does not happen (`Value.numbers_by_value_iff`).
-/

namespace ToolPlan

namespace Binary64

/-! ### Rounding keeps the order -/

/-- The quotient grows with the numerator, and a tie goes to the same even number for both. -/
theorem nearestEven_mono {a b : Nat} (le : a ≤ b) (den : Nat) :
    nearestEven a den ≤ nearestEven b den := by
  have quotients : a / den ≤ b / den := Nat.div_le_div_right le
  rcases Nat.lt_or_eq_of_le quotients with less | same
  · exact (nearestEven_le a den).trans (Nat.le_trans less (le_nearestEven b den))
  · -- With one quotient the remainders are in order, and so are the ways they round.
    have first := Nat.div_add_mod a den
    have second := Nat.div_add_mod b den
    have remainders : a % den ≤ b % den := by
      rw [same] at first
      omega
    simp only [nearestEven, same]
    split <;> split <;> (try split) <;> (try split) <;> omega

/-- The whole number of units nearest to a number of units among those that are binary numbers. -/
def rounded (units : Nat) : Nat :=
  nearestEven units (2 ^ (units.log2 - 52)) * 2 ^ (units.log2 - 52)

/-- A significand that is carried into the next scale keeps its value. -/
theorem roundUnits_magnitude (num den : Nat) :
    let scale := (num / den).log2 - 52
    (roundUnits num den).1 * 2 ^ (roundUnits num den).2 =
      nearestEven num (den * 2 ^ scale) * 2 ^ scale := by
  intro scale
  simp only [roundUnits, Nat.pow_eq]
  split
  · next carry =>
    calc 2 ^ 52 * 2 ^ (scale + 1) = 2 ^ 53 * 2 ^ scale := by
          rw [← Nat.pow_add, ← Nat.pow_add]; congr 1; omega
      _ = nearestEven num (den * 2 ^ scale) * 2 ^ scale := by rw [carry]
  · rfl

theorem roundUnits_value (units : Nat) :
    (roundUnits units 1).1 * 2 ^ (roundUnits units 1).2 = rounded units := by
  have value := roundUnits_magnitude units 1
  simp only [Nat.div_one, Nat.one_mul] at value
  exact value

/-- Rounding keeps order: numbers of one scale are rounded by one step, and the greatest significand
of a scale comes before the least of the next. -/
theorem rounded_mono {a b : Nat} (le : a ≤ b) : rounded a ≤ rounded b := by
  obtain ⟨upper, -⟩ := nearestEven_bounds a 1
  obtain ⟨-, lower⟩ := nearestEven_bounds b 1
  simp only [Nat.div_one, Nat.one_mul] at upper lower
  have logs : a.log2 ≤ b.log2 := by
    rw [Nat.log2_eq_log_two, Nat.log2_eq_log_two]
    exact Nat.log_mono_right le
  unfold rounded
  rcases Nat.lt_or_eq_of_le (Nat.sub_le_sub_right logs 52) with less | same
  · -- The highest significand of one scale is the least of the next.
    have full := lower.resolve_right (by omega)
    calc nearestEven a (2 ^ (a.log2 - 52)) * 2 ^ (a.log2 - 52)
        ≤ 2 ^ 53 * 2 ^ (a.log2 - 52) := Nat.mul_le_mul_right _ upper
      _ = 2 ^ 52 * 2 ^ (a.log2 - 52 + 1) := by rw [← Nat.pow_add, ← Nat.pow_add]; congr 1; omega
      _ ≤ 2 ^ 52 * 2 ^ (b.log2 - 52) := Nat.mul_le_mul_left _ (Nat.pow_le_pow_right (by decide) less)
      _ ≤ nearestEven b (2 ^ (b.log2 - 52)) * 2 ^ (b.log2 - 52) := Nat.mul_le_mul_right _ full
  · rw [same]
    exact Nat.mul_le_mul_right _ (nearestEven_mono le _)

/-- A binary number is rounded to itself. -/
theorem rounded_magnitude {x : Binary64} (canonical : x.Canonical) :
    rounded x.magnitude = x.magnitude := by
  have exact := roundUnits_exact canonical Nat.one_pos
  rw [Nat.mul_one] at exact
  rw [← roundUnits_value, exact]
  rfl

def roundedSigned (units : Int) : Int :=
  if units < 0 then -(rounded units.natAbs : Int) else rounded units.natAbs

/-- Signed rounding keeps order, because rounding of magnitudes does and zero stays zero. -/
theorem roundedSigned_mono {a b : Int} (le : a ≤ b) : roundedSigned a ≤ roundedSigned b := by
  unfold roundedSigned
  split
  · split
    · have := rounded_mono (by omega : b.natAbs ≤ a.natAbs)
      omega
    · omega
  · have := rounded_mono (by omega : a.natAbs ≤ b.natAbs)
    rw [if_neg (by omega)]
    omega

def unit : Nat := 2 ^ unitExponent

theorem unit_pos : 0 < unit := by
  rw [unit]
  exact Nat.two_pow_pos unitExponent

theorem magnitude_ofParts (negative : Bool) (parts : Nat × Nat) :
    (ofParts negative parts).magnitude = parts.1 * 2 ^ parts.2 := rfl

theorem scaled_ofParts (negative : Bool) (units : Nat) :
    (ofParts negative (roundUnits units 1)).scaled =
      if negative then -(rounded units : Int) else rounded units := by
  rw [scaled, magnitude_ofParts, roundUnits_value, ofParts]

/-- A whole number is rounded as that many times one. -/
theorem scaled_ofInt (value : Int) : (ofInt value).scaled = roundedSigned (value * unit) := by
  have positive : (0 : Int) < unit := Int.natCast_pos.mpr unit_pos
  have sign : value * unit < 0 ↔ value < 0 := by
    constructor
    · exact fun less => neg_of_mul_neg_left less positive.le
    · exact fun less => Int.mul_neg_of_neg_of_pos less positive
  rw [ofInt, scaled_ofParts, Nat.pow_eq, ← unit, roundedSigned, Int.natAbs_mul, Int.natAbs_natCast]
  simp only [decide_eq_true_eq, sign]

/-- A number that is binary already is not rounded. -/
theorem roundedSigned_scaled {x : Binary64} (canonical : x.Canonical) :
    roundedSigned x.scaled = x.scaled := by
  have same := rounded_magnitude canonical
  have size : x.scaled.natAbs = x.magnitude := by
    unfold scaled
    split <;> omega
  unfold roundedSigned
  rw [size, same]
  unfold scaled
  split <;> split <;> omega

end Binary64

namespace Number

/-! ### Numbers by their values -/

/-- The numbers that data can hold: whole numbers from the least signed word up to the greatest
unsigned one, and finite binary numbers. -/
def Representable : Number → Prop
  | int value => -0x8000000000000000 ≤ value ∧ value ≤ 0xffffffffffffffff
  | float x => x.Canonical

def value : Number → ℚ
  | int value => value
  | float x => x.scaled / Binary64.unit

/-- The value of a number in units. -/
def units : Number → Int
  | int value => value * Binary64.unit
  | float x => x.scaled

/-- Every value is a whole number of units, which is how values are compared without fractions. -/
theorem value_eq (x : Number) : x.value = x.units / Binary64.unit := by
  have positive : (Binary64.unit : ℚ) ≠ 0 := Nat.cast_ne_zero.mpr Binary64.unit_pos.ne'
  cases x with
  | int n => rw [value, units, Int.cast_mul, Int.cast_natCast, mul_div_cancel_right₀ _ positive]
  | float x => rfl

theorem value_lt_iff (x y : Number) : x.value < y.value ↔ x.units < y.units := by
  have positive : (0 : ℚ) < Binary64.unit := Nat.cast_pos.mpr Binary64.unit_pos
  rw [value_eq, value_eq, div_lt_div_iff_of_pos_right positive, Int.cast_lt]

theorem value_eq_iff (x y : Number) : x.value = y.value ↔ x.units = y.units := by
  have order := value_lt_iff x y
  have converse := value_lt_iff y x
  constructor
  · intro same
    have : ¬ x.units < y.units := fun less => absurd same (order.mpr less).ne
    have : ¬ y.units < x.units := fun less => absurd same (converse.mpr less).ne'
    omega
  · intro same
    rw [value_eq, value_eq, same]

theorem compare_value (x y : Number) : compare x.value y.value = compare x.units y.units := by
  rcases lt_trichotomy x.units y.units with less | same | greater
  · rw [compare_lt_iff_lt.mpr less, compare_lt_iff_lt.mpr ((value_lt_iff x y).mpr less)]
  · rw [compare_eq_iff_eq.mpr same, compare_eq_iff_eq.mpr ((value_eq_iff x y).mpr same)]
  · rw [compare_gt_iff_gt.mpr greater, compare_gt_iff_gt.mpr ((value_lt_iff y x).mpr greater)]

theorem scaled_toBinary64 {x : Number} (representable : x.Representable) :
    x.toBinary64.scaled = Binary64.roundedSigned x.units := by
  cases x with
  | int value => exact Binary64.scaled_ofInt value
  | float x => exact (Binary64.roundedSigned_scaled representable).symm

/-! ### Where rounding hides a difference -/

/-- Numbers compare in the order of their rounded values exactly where rounding makes no two of them
one. -/
theorem compare_roundedSigned_iff (a b : Int) :
    compare (Binary64.roundedSigned a) (Binary64.roundedSigned b) = compare a b ↔
      a = b ∨ Binary64.roundedSigned a ≠ Binary64.roundedSigned b := by
  constructor
  · intro same
    by_cases equal : Binary64.roundedSigned a = Binary64.roundedSigned b
    · rw [compare_eq_iff_eq.mpr equal] at same
      exact .inl (compare_eq_iff_eq.mp same.symm)
    · exact .inr equal
  · rintro (rfl | differ)
    · rw [compare_eq_iff_eq.mpr rfl, compare_eq_iff_eq.mpr rfl]
    · rcases lt_trichotomy a b with less | rfl | greater
      · have rounded := lt_of_le_of_ne (Binary64.roundedSigned_mono less.le) differ
        rw [compare_lt_iff_lt.mpr less, compare_lt_iff_lt.mpr rounded]
      · exact absurd rfl differ
      · have rounded := lt_of_le_of_ne (Binary64.roundedSigned_mono greater.le) differ.symm
        rw [compare_gt_iff_gt.mpr greater, compare_gt_iff_gt.mpr rounded]

/-- Only whole numbers are words. -/
theorem toWord?_eq_some {x : Number} {word : Int} (found : x.toWord? = some word) :
    x = .int word := by
  cases x with
  | int value =>
    obtain ⟨-, same⟩ := Option.ite_none_right_eq_some.mp found
    rw [Option.some.inj same]
  | float x => cases found

/-- Two signed words. -/
def BothWords (x y : Number) : Prop :=
  x.toWord?.isSome = true ∧ y.toWord?.isSome = true

/-- Between words the comparison is exact. -/
theorem order_eq_of_words {x y : Number} (words : BothWords x y) :
    x.order y = compare x.value y.value := by
  obtain ⟨a, foundX⟩ := Option.isSome_iff_exists.mp words.1
  obtain ⟨b, foundY⟩ := Option.isSome_iff_exists.mp words.2
  have exact : x.order y = compare a b := by simp only [order, foundX, foundY]
  rw [exact, toWord?_eq_some foundX, toWord?_eq_some foundY, value, value]
  rcases lt_trichotomy a b with less | rfl | greater
  · rw [compare_lt_iff_lt.mpr less, compare_lt_iff_lt.mpr (Int.cast_lt.mpr less)]
  · rw [compare_eq_iff_eq.mpr rfl, compare_eq_iff_eq.mpr rfl]
  · rw [compare_gt_iff_gt.mpr greater, compare_gt_iff_gt.mpr (Int.cast_lt.mpr greater)]

/-- Otherwise both numbers are rounded first. -/
theorem order_eq_of_not_words {x y : Number} (others : ¬ BothWords x y) :
    x.order y = compare x.toBinary64.scaled y.toBinary64.scaled := by
  unfold order
  split
  · next foundX foundY => exact absurd ⟨by rw [foundX]; rfl, by rw [foundY]; rfl⟩ others
  · rfl

/-- The order of two numbers is that of their values exactly if both are signed words, or they are
the same, or the binary numbers nearest to them differ. -/
theorem order_eq_compare_iff {x y : Number} (first : x.Representable) (second : y.Representable) :
    x.order y = compare x.value y.value ↔
      BothWords x y ∨ x.value = y.value ∨ x.toBinary64.scaled ≠ y.toBinary64.scaled := by
  by_cases words : BothWords x y
  · simp only [order_eq_of_words words, words, true_or]
  · rw [order_eq_of_not_words words, scaled_toBinary64 first, scaled_toBinary64 second,
      compare_value, value_eq_iff, compare_roundedSigned_iff]
    simp only [words, false_or]

/-- Numbers that are told apart are told apart by their values. -/
theorem order_eq_compare_of_ne {x y : Number} (first : x.Representable) (second : y.Representable)
    (apart : x.order y ≠ .eq) : x.order y = compare x.value y.value := by
  refine (order_eq_compare_iff first second).mpr ?_
  by_cases words : BothWords x y
  · exact .inl words
  · refine .inr (.inr fun same => apart ?_)
    rw [order_eq_of_not_words words, compare_eq_iff_eq]
    exact same

end Number

namespace Value

/-- Equality and order of two numbers are those of their values exactly if both are signed words, or
they are the same, or the binary numbers nearest to them differ. Where they are not, different numbers
are taken for equal, and never a greater one for the less. -/
theorem numbers_by_value_iff {x y : Number} (first : x.Representable) (second : y.Representable) :
    ((((number x).equal (number y) = true ↔ x.value = y.value) ∧
        (number x).order? (number y) = some (compare x.value y.value)) ↔
      Number.BothWords x y ∨ x.value = y.value ∨ x.toBinary64.scaled ≠ y.toBinary64.scaled) ∧
    ((number x).order? (number y) = some .lt → x.value < y.value) ∧
    ((number x).order? (number y) = some .gt → y.value < x.value) := by
  simp only [order?, Option.some.injEq]
  refine ⟨?_, ?_, ?_⟩
  · rw [← Number.order_eq_compare_iff first second, and_iff_right_iff_imp]
    intro exact
    rw [equal, beq_iff_eq, exact, compare_eq_iff_eq]
  · intro less
    have exact := Number.order_eq_compare_of_ne first second (by rw [less]; decide)
    exact compare_lt_iff_lt.mp (exact.symm.trans less)
  · intro greater
    have exact := Number.order_eq_compare_of_ne first second (by rw [greater]; decide)
    exact compare_gt_iff_gt.mp (exact.symm.trans greater)

/-- A whole number that is no signed word, and the binary number just below it. -/
theorem numbers_by_value_iff_neighbours :
    (Number.int 0x8000000000000000).Representable ∧
      (Number.float ⟨false, 9007199254740991, 1084⟩).Representable ∧
      (number (.int 0x8000000000000000)).order? (number (.float ⟨false, 9007199254740991, 1084⟩)) =
        some (compare (Number.int 0x8000000000000000).value
          (Number.float ⟨false, 9007199254740991, 1084⟩).value) := by
  have first : (Number.int 0x8000000000000000).Representable := ⟨by decide, by decide⟩
  have second : (Number.float ⟨false, 9007199254740991, 1084⟩).Representable :=
    ⟨by decide, .inl (by decide), by decide⟩
  have differ : (Number.int 0x8000000000000000).toBinary64.scaled ≠
      (Number.float ⟨false, 9007199254740991, 1084⟩).toBinary64.scaled := by decide +kernel
  exact ⟨first, second, ((numbers_by_value_iff first second).1.mpr (.inr (.inr differ))).2⟩

/-- The two greatest unsigned words are taken for one number, and a binary number equals two different
words that do not equal each other. -/
theorem numbers_not_by_value :
    ((Number.int 18446744073709551615).value ≠ (Number.int 18446744073709551614).value ∧
      (number (.int 18446744073709551615)).equal (number (.int 18446744073709551614)) = true ∧
      (number (.int 18446744073709551615)).order? (number (.int 18446744073709551614)) =
        some .eq) ∧
    (number (.int 9007199254740993)).equal (number (.float ⟨false, 4503599627370496, 1075⟩)) = true ∧
    (number (.float ⟨false, 4503599627370496, 1075⟩)).equal (number (.int 9007199254740992)) = true ∧
    (number (.int 9007199254740993)).equal (number (.int 9007199254740992)) = false := by
  simp only [equal, order?, Number.value, ne_eq, Int.cast_inj]
  decide +kernel

end Value

end ToolPlan
