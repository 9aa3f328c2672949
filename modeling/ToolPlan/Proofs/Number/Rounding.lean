import Mathlib.Algebra.Group.Nat.Defs
import ToolPlan.Number

/-!
Rounding to binary numbers. Whatever is rounded comes out in canonical form (`ofUnits?_canonical`),
so every number that is read from text is (`wellFormed_of_ofText?`); and a numeral whose value is
that of a canonical number is rounded to just that number (`toBinary64?_of_exact`).
-/

namespace ToolPlan

namespace Binary64

/-! ### The nearest whole number -/

/-- Rounding to the nearest never goes below the quotient without its remainder. -/
theorem le_nearestEven (num den : Nat) : num / den ≤ nearestEven num den := by
  simp only [nearestEven]
  split
  · exact Nat.le_refl _
  · split <;> omega

/-- Nor does it go above the next whole number. -/
theorem nearestEven_le (num den : Nat) : nearestEven num den ≤ num / den + 1 := by
  simp only [nearestEven]
  split
  · omega
  · split <;> omega

/-- A quotient without remainder is not rounded. -/
theorem nearestEven_mul (count : Nat) {den : Nat} (positive : 0 < den) :
    nearestEven (count * den) den = count := by
  simp [nearestEven, Nat.mul_div_cancel _ positive, positive]

/-! ### Canonical numbers -/

/-- The scale that rounding picks for a canonical number is its own. -/
theorem Canonical.log2_magnitude {x : Binary64} (canonical : x.Canonical) :
    x.magnitude.log2 - 52 = x.scale := by
  obtain ⟨below, full | least, -⟩ := canonical
  · have nonzero : x.magnitude ≠ 0 := by
      have positive : 0 < x.magnitude :=
        Nat.mul_pos (Nat.lt_of_lt_of_le (by decide) full) (Nat.two_pow_pos x.scale)
      omega
    have log : x.magnitude.log2 = 52 + x.scale := by
      rw [Nat.log2_eq_iff nonzero]
      constructor
      · rw [Nat.pow_add]
        exact Nat.mul_le_mul_right _ full
      · rw [show 52 + x.scale + 1 = 53 + x.scale by omega, Nat.pow_add]
        exact Nat.mul_lt_mul_of_pos_right below (Nat.two_pow_pos x.scale)
    omega
  · have small : x.magnitude < 2 ^ 53 := by
      simpa [magnitude, least] using below
    by_cases zero : x.magnitude = 0
    · rw [zero, least]
      rfl
    · have log : x.magnitude.log2 < 53 := (Nat.log2_lt zero).mpr small
      omega

/-- A quotient that is a canonical number is rounded to its parts. -/
theorem roundUnits_exact {x : Binary64} (canonical : x.Canonical) {den : Nat}
    (positive : 0 < den) : roundUnits (x.magnitude * den) den = (x.significand, x.scale) := by
  have parts : x.magnitude * den = x.significand * (den * Nat.pow 2 x.scale) := by
    rw [magnitude, Nat.mul_assoc, Nat.mul_comm den]
  have exact : nearestEven (x.magnitude * den) (den * Nat.pow 2 x.scale) = x.significand := by
    rw [parts]
    exact nearestEven_mul _ (Nat.mul_pos positive (Nat.two_pow_pos x.scale))
  simp only [roundUnits, Nat.mul_div_cancel _ positive, canonical.log2_magnitude, exact]
  rw [if_neg (Nat.ne_of_lt canonical.1)]

/-- A binary number is read back from any quotient that is equal to it. -/
theorem ofUnits?_exact {x : Binary64} (canonical : x.Canonical) {den : Nat}
    (positive : 0 < den) : ofUnits? x.negative (x.magnitude * den) den = some x := by
  simp only [ofUnits?, roundUnits_exact canonical positive]
  rw [if_pos canonical.2.2]

/-- The significand before the carry: at most `2 ^ 53`, and at least `2 ^ 52` above the least
scale. -/
theorem nearestEven_bounds (num den : Nat) :
    let scale := (num / den).log2 - 52
    nearestEven num (den * 2 ^ scale) ≤ 2 ^ 53 ∧
      (2 ^ 52 ≤ nearestEven num (den * 2 ^ scale) ∨ scale = 0) := by
  intro scale
  have quotient : num / (den * 2 ^ scale) = num / den / 2 ^ scale := by
    rw [Nat.div_div_eq_div_mul]
  have upper : num / den / 2 ^ scale < 2 ^ 53 := by
    rw [Nat.div_lt_iff_lt_mul (Nat.two_pow_pos scale), ← Nat.pow_add]
    calc num / den < 2 ^ ((num / den).log2 + 1) := Nat.lt_log2_self
      _ ≤ 2 ^ (53 + scale) := Nat.pow_le_pow_right (by decide) (by omega)
  constructor
  · have step := nearestEven_le num (den * 2 ^ scale)
    rw [quotient] at step
    omega
  · by_cases least : scale = 0
    · exact .inr least
    · refine .inl (Nat.le_trans ?_ (le_nearestEven num (den * 2 ^ scale)))
      rw [quotient, Nat.le_div_iff_mul_le (Nat.two_pow_pos scale), ← Nat.pow_add]
      have log : 52 + scale ≤ (num / den).log2 := by omega
      have nonzero : num / den ≠ 0 := by
        intro zero
        simp [zero] at log
      exact (Nat.le_log2 nonzero).mp log

/-- Whatever is rounded is canonical. -/
theorem ofUnits?_canonical {negative : Bool} {num den : Nat} {x : Binary64}
    (rounded : ofUnits? negative num den = some x) : x.Canonical := by
  obtain ⟨upper, lower⟩ := nearestEven_bounds num den
  simp only [ofUnits?, roundUnits, Nat.pow_eq] at rounded
  split at rounded
  · -- The carry left the lowest significand of the next scale.
    obtain ⟨fits, same⟩ := Option.ite_none_right_eq_some.mp rounded
    obtain rfl := Option.some.inj same
    exact ⟨Nat.pow_lt_pow_right (by decide) (by decide), .inl (Nat.le_refl _), fits⟩
  · next noCarry =>
    obtain ⟨fits, same⟩ := Option.ite_none_right_eq_some.mp rounded
    obtain rfl := Option.some.inj same
    exact ⟨Nat.lt_of_le_of_ne upper noCarry, lower, fits⟩

/-! ### Places of the first digit -/

/-- No finite number has more digits before the point. -/
def wholePlaces : Nat := 309

/-- The unit has a digit other than zero among its first places. -/
def unitPlaces : Nat := 324

theorem two_pow_unitExponent_le : 2 ^ unitExponent ≤ 10 ^ unitPlaces := by
  decide +kernel

/-- No finite number needs more digits than there are places for. -/
theorem Canonical.magnitude_lt {x : Binary64} (canonical : x.Canonical) :
    x.magnitude < 10 ^ wholePlaces * 2 ^ unitExponent :=
  calc x.magnitude < 2 ^ 53 * 2 ^ x.scale :=
        Nat.mul_lt_mul_of_pos_right canonical.1 (Nat.two_pow_pos x.scale)
    _ ≤ 2 ^ 53 * 2 ^ maxScale :=
        Nat.mul_le_mul_left _ (Nat.pow_le_pow_right (by decide) canonical.2.2)
    _ ≤ 10 ^ wholePlaces * 2 ^ unitExponent := by decide +kernel

end Binary64

namespace Decimal

theorem toBinary64?_canonical {d : Decimal} {x : Binary64}
    (rounded : d.toBinary64? = some x) : x.Canonical := by
  simp only [toBinary64?] at rounded
  split at rounded
  · obtain rfl := Option.some.inj rounded
    exact ⟨Nat.two_pow_pos 53, .inr rfl, Nat.zero_le _⟩
  · split at rounded
    · simp at rounded
    · exact Binary64.ofUnits?_canonical rounded

/-- A number is less than the power of ten with as many zeros as it has digits. -/
theorem lt_pow_digitCount (n : Nat) : n < 10 ^ digitCount n :=
  (Nat.length_toDigits_le_iff (by decide) Nat.length_toDigits_pos).mp (Nat.le_refl _)

theorem digitCount_le {n count : Nat} (positive : 0 < count) (below : n < 10 ^ count) :
    digitCount n ≤ count :=
  (Nat.length_toDigits_le_iff (by decide) positive).mpr below

/-- A numeral with the value of a canonical number is rounded to that number. -/
theorem toBinary64?_of_exact {x : Binary64} (canonical : x.Canonical) {digits places : Nat}
    (exact : digits * 2 ^ Binary64.unitExponent = x.magnitude * 10 ^ places) :
    toBinary64? ⟨x.negative, digits, -(places : Int)⟩ = some x := by
  by_cases zero : digits = 0
  · have nothing : x.significand = 0 := by
      rw [zero, Nat.zero_mul] at exact
      have vanishes : x.magnitude = 0 :=
        (Nat.mul_eq_zero.mp exact.symm).resolve_right (Nat.ne_of_gt (Nat.pow_pos (by decide)))
      exact (Nat.mul_eq_zero.mp vanishes).resolve_right (Nat.ne_of_gt (Nat.two_pow_pos x.scale))
    have least : x.scale = 0 := by
      refine canonical.2.1.resolve_left ?_
      rw [nothing]
      exact Nat.not_le_of_lt (Nat.two_pow_pos 52)
    obtain ⟨negative, significand, scale⟩ := x
    obtain rfl : significand = 0 := nothing
    obtain rfl : scale = 0 := least
    simp [toBinary64?, zero]
  · -- The first digit lies within the places that are multiplied out.
    have above : places < digitCount digits + Binary64.unitPlaces := by
      have units : 0 < x.magnitude * 10 ^ places := by
        rw [← exact]
        exact Nat.mul_pos (Nat.pos_of_ne_zero zero) (Nat.two_pow_pos _)
      apply (Nat.pow_lt_pow_iff_right (by decide : 1 < 10)).mp
      calc 10 ^ places ≤ x.magnitude * 10 ^ places :=
            Nat.le_mul_of_pos_left _ (Nat.pos_of_mul_pos_right units)
        _ = digits * 2 ^ Binary64.unitExponent := exact.symm
        _ < 10 ^ digitCount digits * 2 ^ Binary64.unitExponent :=
            Nat.mul_lt_mul_of_pos_right (lt_pow_digitCount digits) (Nat.two_pow_pos _)
        _ ≤ 10 ^ digitCount digits * 10 ^ Binary64.unitPlaces :=
            Nat.mul_le_mul_left _ Binary64.two_pow_unitExponent_le
        _ = 10 ^ (digitCount digits + Binary64.unitPlaces) := (Nat.pow_add ..).symm
    have below : digitCount digits ≤ Binary64.wholePlaces + places := by
      apply digitCount_le (Nat.add_pos_left (by decide) places)
      apply Nat.lt_of_mul_lt_mul_right (a := 2 ^ Binary64.unitExponent)
      calc digits * 2 ^ Binary64.unitExponent = x.magnitude * 10 ^ places := exact
        _ < 10 ^ Binary64.wholePlaces * 2 ^ Binary64.unitExponent * 10 ^ places :=
            Nat.mul_lt_mul_of_pos_right canonical.magnitude_lt (Nat.pow_pos (by decide))
        _ = 10 ^ (Binary64.wholePlaces + places) * 2 ^ Binary64.unitExponent := by
            rw [Nat.pow_add, Nat.mul_right_comm]
    have notTiny : ¬ (digitCount digits + -(places : Int) < lowestPlace) := by
      simp only [lowestPlace, Binary64.unitPlaces] at above ⊢
      omega
    have notHuge : ¬ (highestPlace < digitCount digits + -(places : Int)) := by
      simp only [highestPlace, Binary64.wholePlaces] at below ⊢
      omega
    have positive : 0 < 10 ^ places := Nat.pow_pos (by decide)
    have rounded := Binary64.ofUnits?_exact canonical positive
    rw [← exact] at rounded
    simp only [toBinary64?, Nat.pow_eq]
    rw [if_neg (by simp [zero, notTiny]), if_neg notHuge, Int.neg_neg, Int.toNat_natCast,
      Int.toNat_neg_natCast, Nat.pow_zero, Nat.mul_one, rounded]

end Decimal

/-- A number in the form that every number of a plan text has. -/
def Number.WellFormed : Number → Prop
  | int value => isWord value = true
  | float value => value.Canonical

/-- What is read from text is well formed. -/
theorem Number.wellFormed_of_ofText? {text : String} {value : Number}
    (read : ofText? text = some value) : value.WellFormed := by
  simp only [ofText?, ofChars?] at read
  split at read
  · next whole found =>
    obtain rfl := Option.some.inj read
    exact (Option.filter_eq_some_iff.mp found).2
  · obtain ⟨x, rounded, rfl⟩ := Option.map_eq_some_iff.mp read
    obtain ⟨d, -, rounded⟩ := Option.bind_eq_some_iff.mp rounded
    exact Decimal.toBinary64?_canonical rounded

end ToolPlan
