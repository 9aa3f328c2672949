import ToolPlan.Proofs.Number.Comparison

/-!
The order of numbers as an order. Some numbers compare as they are and others by the binary numbers
nearest to them, so that it is an order at all needs a proof: exchanging two numbers turns the answer
around (`order_swap`), and a chain of numbers in order has its ends in order, in whatever way
its members are compared (`order_trans`). Where rounding changes none of the numbers, their order
is that of their values (`order_of_exact`); whole numbers of up to 53 bits are among these
(`exact_int`).
-/

namespace ToolPlan

namespace Binary64

/-! ### What rounding does not change -/

/-- Units that are a multiple of their step are rounded to themselves. -/
theorem rounded_of_dvd {units : Nat} (whole : 2 ^ (units.log2 - 52) ∣ units) :
    rounded units = units := by
  unfold rounded
  generalize 2 ^ (units.log2 - 52) = step at whole ⊢
  obtain ⟨count, rfl⟩ := whole
  rcases Nat.eq_zero_or_pos step with rfl | positive
  · rw [Nat.mul_zero, Nat.zero_mul]
  · rw [Nat.mul_comm step, nearestEven_mul count positive]

/-- A whole number of up to 53 bits, or the first one of 54, is a binary number. -/
theorem rounded_whole {count : Nat} (small : count ≤ 2 ^ 53) :
    rounded (count * unit) = count * unit := by
  apply rounded_of_dvd
  rcases Nat.eq_zero_or_pos count with rfl | positive
  · rw [Nat.zero_mul]
    exact Nat.dvd_zero _
  · have nonzero : count * unit ≠ 0 := (Nat.mul_pos positive unit_pos).ne'
    rcases Nat.lt_or_eq_of_le small with less | rfl
    · have log : (count * unit).log2 < 53 + unitExponent := by
        rw [Nat.log2_lt nonzero, Nat.pow_add, ← unit]
        exact Nat.mul_lt_mul_of_pos_right less unit_pos
      exact Nat.dvd_mul_left_of_dvd (Nat.pow_dvd_pow 2 (by omega)) count
    · have power : 2 ^ 53 * unit = 2 ^ (53 + unitExponent) := by rw [Nat.pow_add, unit]
      rw [power, Nat.log2_two_pow]
      exact Nat.pow_dvd_pow 2 (by omega)

/-- Whole numbers up to two to the 53rd are binary numbers. -/
theorem roundedSigned_whole {count : Int} (small : count.natAbs ≤ 2 ^ 53) :
    roundedSigned (count * unit) = count * unit := by
  have size : (count * unit).natAbs = count.natAbs * unit := by
    rw [Int.natAbs_mul, Int.natAbs_natCast]
  have same : (rounded (count * unit).natAbs : Int) = (count * unit).natAbs := by
    rw [size, rounded_whole small]
  unfold roundedSigned
  split <;> omega

end Binary64

namespace Number

/-- The binary number nearest to a number is the number itself. -/
def Exact (x : Number) : Prop :=
  x.toBinary64.scaled = x.units

theorem exact_int {n : Int} (small : n.natAbs ≤ 2 ^ 53) : (int n).Exact :=
  (Binary64.scaled_ofInt n).trans (Binary64.roundedSigned_whole small)

theorem exact_float (x : Binary64) : (float x).Exact := rfl

/-! ### The order -/

/-- Between exact numbers the comparison is that of values, be they words or not. -/
theorem order_of_exact {x y : Number} (first : x.Exact) (second : y.Exact) :
    x.order y = compare x.units y.units := by
  by_cases words : BothWords x y
  · rw [order_eq_of_words words, compare_value]
  · rw [order_eq_of_not_words words, first, second]

theorem bothWords_comm {x y : Number} : BothWords x y ↔ BothWords y x :=
  and_comm

theorem order_swap (x y : Number) : y.order x = (x.order y).swap := by
  by_cases words : BothWords x y
  · rw [order_eq_of_words words, order_eq_of_words (bothWords_comm.mp words)]
    exact Std.OrientedOrd.eq_swap
  · rw [order_eq_of_not_words words, order_eq_of_not_words (words ∘ bothWords_comm.mpr)]
    exact Std.OrientedOrd.eq_swap

@[simp] theorem order_self (x : Number) : x.order x = .eq := by
  by_cases words : BothWords x x
  · rw [order_eq_of_words words, compare_eq_iff_eq]
  · rw [order_eq_of_not_words words, compare_eq_iff_eq]

/-- Signed words are rounded in their order. -/
theorem scaled_le_of_words {x y : Number} (words : BothWords x y) (le : x.value ≤ y.value) :
    x.toBinary64.scaled ≤ y.toBinary64.scaled := by
  obtain ⟨a, foundX⟩ := Option.isSome_iff_exists.mp words.1
  obtain ⟨b, foundY⟩ := Option.isSome_iff_exists.mp words.2
  obtain rfl := toWord?_eq_some foundX
  obtain rfl := toWord?_eq_some foundY
  have units : (int a).units ≤ (int b).units := by
    rw [← not_lt, ← value_lt_iff]
    exact not_lt.mpr le
  simp only [toBinary64, Binary64.scaled_ofInt]
  exact Binary64.roundedSigned_mono units

/-- A number that comes before another is not rounded to a greater one, and it is rounded to a lesser
one unless the two are compared as they are. -/
theorem scaled_of_order_lt {x y : Number} (less : x.order y = .lt) :
    x.toBinary64.scaled ≤ y.toBinary64.scaled ∧
      (¬ BothWords x y → x.toBinary64.scaled < y.toBinary64.scaled) := by
  by_cases words : BothWords x y
  · rw [order_eq_of_words words, compare_lt_iff_lt] at less
    exact ⟨scaled_le_of_words words less.le, fun others => absurd words others⟩
  · rw [order_eq_of_not_words words, compare_lt_iff_lt] at less
    exact ⟨less.le, fun _ => less⟩

/-- Order is transitive. In the one delicate case a binary number stands between two words, and then
rounding tells the words apart. -/
theorem order_trans {x y z : Number} (first : x.order y = .lt) (second : y.order z = .lt) :
    x.order z = .lt := by
  obtain ⟨le, lt⟩ := scaled_of_order_lt first
  obtain ⟨le', lt'⟩ := scaled_of_order_lt second
  by_cases ends : BothWords x z
  · rw [order_eq_of_words ends, compare_lt_iff_lt]
    by_cases middle : y.toWord?.isSome = true
    · rw [order_eq_of_words ⟨ends.1, middle⟩, compare_lt_iff_lt] at first
      rw [order_eq_of_words ⟨middle, ends.2⟩, compare_lt_iff_lt] at second
      exact first.trans second
    · -- The member between them is compared by rounding, which tells the ends apart.
      apply lt_of_not_ge
      intro converse
      have strict := (lt fun words => middle words.2).trans_le le'
      exact absurd (scaled_le_of_words (bothWords_comm.mp ends) converse) strict.not_ge
  · rw [order_eq_of_not_words ends, compare_lt_iff_lt]
    by_cases words : BothWords x y
    · exact le.trans_lt (lt' fun later => ends ⟨words.1, later.2⟩)
    · exact (lt words).trans_le le'

end Number

end ToolPlan
