import Mathlib.Data.List.TakeDrop
import ToolPlan.Proofs.Number.Rounding

/-!
Numbers as a plan text writes them. A whole number is written by its digits, a binary number in full:
it is a whole multiple of a power of two, so finitely many places after the point give its exact
value. Every well-formed number is read back from its literal (`ofText?_literal`).
-/

namespace ToolPlan

/-! ### Digits -/

namespace Decimal

theorem digitsValue_toDigits (n : Nat) : digitsValue (Nat.toDigits 10 n) = n :=
  Nat.ofDigitChars_ten_toDigits

theorem digitsValue_zeros_append (count : Nat) (digits : List Char) :
    digitsValue (Number.zeros count ++ digits) = digitsValue digits := by
  rw [digitsValue, digitsValue, Nat.ofDigitChars_append, Number.zeros,
    Nat.ofDigitChars_replicate_zero, Nat.mul_zero]

theorem all_isDigit_toDigits (n : Nat) : (Nat.toDigits 10 n).all Char.isDigit := by
  rw [List.all_eq_true]
  intro c among
  exact Nat.isDigit_of_mem_toDigits (by decide) (by decide) among

end Decimal

/-- A body with its sign: a minus sign or nothing. -/
def Numeral.signed (negative : Bool) (body : List Char) : List Char :=
  if negative then '-' :: body else body

/-- The numerals without exponents: a sign, digits, and perhaps a point with digits after it. -/
inductive Numeral : List Char → Prop where
  | whole (negative : Bool) {digits : List Char} : digits ≠ [] → digits.all Char.isDigit →
      Numeral (Numeral.signed negative digits)
  | pointed (negative : Bool) {whole fraction : List Char} : whole ≠ [] →
      whole.all Char.isDigit → fraction.all Char.isDigit →
      Numeral (Numeral.signed negative (whole ++ '.' :: fraction))

namespace Decimal

/-- A sign is told apart from the digit after it. -/
theorem splitSign_signed (negative : Bool) {c : Char} (rest : List Char) (digit : c.isDigit) :
    splitSign (Numeral.signed negative (c :: rest)) = (negative, c :: rest) := by
  cases negative with
  | true => rfl
  | false =>
    simp only [Numeral.signed]
    rw [if_neg (by decide), splitSign]
    · rintro after same
      obtain ⟨rfl, -⟩ := List.cons.inj same
      exact absurd digit (by decide)
    · rintro after same
      obtain ⟨rfl, -⟩ := List.cons.inj same
      exact absurd digit (by decide)

/-- A sign and digits are a whole number, and a minus sign negates it. -/
theorem int?_signed (negative : Bool) {digits : List Char} (nonempty : digits ≠ [])
    (all : digits.all Char.isDigit) : int? (Numeral.signed negative digits) =
      some (if negative then -(digitsValue digits : Int) else digitsValue digits) := by
  obtain ⟨c, rest, rfl⟩ := List.exists_cons_of_ne_nil nonempty
  have first : c.isDigit := List.all_eq_true.mp all c (List.mem_cons_self ..)
  simp only [int?, splitSign_signed negative rest first, all]
  rfl

/-- With a point, even one with nothing behind it, a text is no whole number. -/
theorem int?_pointed (negative : Bool) {whole : List Char} (nonempty : whole ≠ [])
    (all : whole.all Char.isDigit) (fraction : List Char) :
    int? (Numeral.signed negative (whole ++ '.' :: fraction)) = none := by
  obtain ⟨c, rest, rfl⟩ := List.exists_cons_of_ne_nil nonempty
  have first : c.isDigit := List.all_eq_true.mp all c (List.mem_cons_self ..)
  have point : ((c :: rest) ++ '.' :: fraction).all Char.isDigit = false := by
    rw [List.all_append, List.all_cons]
    simp
  rw [List.cons_append] at point ⊢
  simp only [int?, splitSign_signed negative _ first, point]
  rfl

/-- Digits are read up to the first character that is none. -/
theorem span_isDigit {digits : List Char} (all : digits.all Char.isDigit) {rest : List Char}
    (stops : ∀ c ∈ rest.head?, c.isDigit = false) :
    (digits ++ rest).span Char.isDigit = (digits, rest) := by
  rw [List.span_eq_takeWhile_dropWhile, List.takeWhile_append_of_pos (List.all_eq_true.mp all),
    List.dropWhile_append_of_pos (List.all_eq_true.mp all)]
  cases rest with
  | nil => simp
  | cons c after =>
    have stop := stops c rfl
    simp [stop]

/-- A numeral with a point is read as its digits without the point, a power of ten down for each
digit behind it. -/
theorem ofChars?_pointed (negative : Bool) {whole fraction : List Char} (nonempty : whole ≠ [])
    (all : whole.all Char.isDigit) (decimals : fraction.all Char.isDigit) :
    ofChars? (Numeral.signed negative (whole ++ '.' :: fraction)) =
      some ⟨negative, digitsValue (whole ++ fraction), -(fraction.length : Int)⟩ := by
  obtain ⟨c, rest, rfl⟩ := List.exists_cons_of_ne_nil nonempty
  have first : c.isDigit := List.all_eq_true.mp all c (List.mem_cons_self ..)
  have atPoint : ((c :: rest) ++ '.' :: fraction).span Char.isDigit = (c :: rest, '.' :: fraction) :=
    span_isDigit all (by simp)
  have atEnd : (fraction ++ []).span Char.isDigit = (fraction, []) :=
    span_isDigit decimals (by simp)
  rw [List.append_nil] at atEnd
  rw [List.cons_append] at atPoint
  simp only [ofChars?, List.cons_append, splitSign_signed negative _ first, atPoint, splitFraction,
    atEnd, exponent?]
  simp

end Decimal

namespace Number

/-- Digits with a point keep their value, counted in units of their last place. -/
theorem positional_neg {digits : List Char} (nonempty : digits ≠ []) (all : digits.all Char.isDigit)
    (places : Nat) : ∃ whole fraction, positional digits (-(places : Int)) = whole ++ '.' :: fraction ∧
      whole ≠ [] ∧ whole.all Char.isDigit ∧ fraction.all Char.isDigit ∧
      Decimal.digitsValue (whole ++ fraction) * 10 ^ places =
        Decimal.digitsValue digits * 10 ^ fraction.length := by
  cases places with
  | zero =>
    refine ⟨digits, ['0'], by simp [positional, zeros], nonempty, all, by decide, ?_⟩
    simp [Decimal.digitsValue, Nat.ofDigitChars_append, Nat.ofDigitChars_cons, Nat.mul_comm]
  | succ places =>
    let padded := zeros (places + 2 - digits.length) ++ digits
    have long : places + 2 ≤ padded.length := by
      simp only [padded, zeros, List.length_append, List.length_replicate]
      omega
    have digitsAll : padded.all Char.isDigit := by
      simp only [padded, List.all_append, all, zeros, Bool.and_true]
      simp
    have written : positional digits (-((places + 1 : Nat) : Int)) =
        padded.take (padded.length - (places + 1)) ++ '.' ::
          padded.drop (padded.length - (places + 1)) := by
      rw [positional, if_neg (by omega), Int.neg_neg, Int.toNat_natCast]
    refine ⟨_, _, written, ?_, ?_, ?_, ?_⟩
    · intro empty
      have count := congrArg List.length empty
      rw [List.length_take, List.length_nil] at count
      omega
    · rw [List.all_eq_true] at digitsAll ⊢
      exact fun c among => digitsAll c (List.mem_of_mem_take among)
    · rw [List.all_eq_true] at digitsAll ⊢
      exact fun c among => digitsAll c (List.mem_of_mem_drop among)
    · rw [List.take_append_drop, List.length_drop, Decimal.digitsValue_zeros_append,
        show padded.length - (padded.length - (places + 1)) = places + 1 by omega]

end Number

namespace Binary64

/-- How many places after the point write a number out in full. -/
def places (x : Binary64) : Nat :=
  unitExponent - x.scale

/-- A number without its sign, counted in units of the last of its places. -/
def count (x : Binary64) : Nat :=
  x.significand * 2 ^ (x.scale - unitExponent) * 5 ^ x.places

/-- All units are counted: a binary number has finitely many places after the point. -/
theorem count_eq (x : Binary64) :
    x.count * 2 ^ unitExponent = x.magnitude * 10 ^ x.places := by
  have twos : 2 ^ (x.scale - unitExponent) * 2 ^ unitExponent = 2 ^ x.scale * 2 ^ x.places := by
    have sum : x.scale - unitExponent + unitExponent = x.scale + x.places := by
      rw [places]
      omega
    rw [← Nat.pow_add, ← Nat.pow_add, sum]
  calc x.count * 2 ^ unitExponent
      = x.significand * (2 ^ (x.scale - unitExponent) * 2 ^ unitExponent) * 5 ^ x.places := by
        rw [count, Nat.mul_right_comm, Nat.mul_assoc x.significand]
    _ = x.significand * (2 ^ x.scale * 2 ^ x.places) * 5 ^ x.places := by rw [twos]
    _ = x.magnitude * (2 * 5) ^ x.places := by
        rw [magnitude, Nat.mul_pow, Nat.pow_eq]
        simp only [Nat.mul_assoc]

def expansion (x : Binary64) : List Char :=
  Numeral.signed x.negative (Number.positional (Nat.toDigits 10 x.count) (-(x.places : Int)))

/-- An expansion has a point, and the value of its number. -/
theorem expansion_eq (x : Binary64) : ∃ whole fraction,
    x.expansion = Numeral.signed x.negative (whole ++ '.' :: fraction) ∧
      whole ≠ [] ∧ whole.all Char.isDigit ∧ fraction.all Char.isDigit ∧
      Decimal.digitsValue (whole ++ fraction) * 2 ^ unitExponent =
        x.magnitude * 10 ^ fraction.length := by
  obtain ⟨whole, fraction, written, nonempty, all, decimals, value⟩ :=
    Number.positional_neg Nat.toDigits_ne_nil (Decimal.all_isDigit_toDigits x.count) x.places
  refine ⟨whole, fraction, by rw [expansion, written], nonempty, all, decimals, ?_⟩
  rw [Decimal.digitsValue_toDigits] at value
  have positive : 0 < 10 ^ x.places := Nat.pow_pos (by decide)
  apply Nat.eq_of_mul_eq_mul_right positive
  calc Decimal.digitsValue (whole ++ fraction) * 2 ^ unitExponent * 10 ^ x.places
      = x.count * 10 ^ fraction.length * 2 ^ unitExponent := by rw [Nat.mul_right_comm, value]
    _ = x.magnitude * 10 ^ x.places * 10 ^ fraction.length := by
        rw [Nat.mul_right_comm, count_eq]
    _ = x.magnitude * 10 ^ fraction.length * 10 ^ x.places := Nat.mul_right_comm ..

end Binary64

namespace Number

/-- A number as a plan text writes it. -/
def literal : Number → String
  | int value => renderInt value
  | float value => String.ofList value.expansion

theorem toList_renderInt (value : Int) :
    (renderInt value).toList = Numeral.signed (value < 0) (Nat.toDigits 10 value.natAbs) := by
  simp [renderInt, Numeral.signed]

/-- A whole number is read back from its digits. -/
theorem int?_renderInt (value : Int) : Decimal.int? (renderInt value).toList = some value := by
  rw [toList_renderInt, Decimal.int?_signed _ Nat.toDigits_ne_nil (Decimal.all_isDigit_toDigits _),
    Decimal.digitsValue_toDigits]
  congr 1
  simp only [decide_eq_true_eq]
  split <;> omega

theorem numeral_renderInt (value : Int) : Numeral (renderInt value).toList := by
  rw [toList_renderInt]
  exact .whole _ Nat.toDigits_ne_nil (Decimal.all_isDigit_toDigits _)

/-- What is written for any number is a numeral: binary numbers are written without an exponent. -/
theorem numeral_literal (value : Number) : Numeral value.literal.toList := by
  cases value with
  | int value => exact numeral_renderInt value
  | float x =>
    obtain ⟨whole, fraction, written, nonempty, all, decimals, -⟩ := x.expansion_eq
    rw [literal, String.toList_ofList, written]
    exact .pointed _ nonempty all decimals

/-- A number is read back from its literal. -/
theorem ofText?_literal {value : Number} (wellFormed : value.WellFormed) :
    ofText? value.literal = some value := by
  cases value with
  | int value =>
    have word : isWord value = true := wellFormed
    simp only [ofText?, ofChars?, literal, int?_renderInt, Option.filter_some, word, if_true]
  | float x =>
    have canonical : x.Canonical := wellFormed
    obtain ⟨whole, fraction, written, nonempty, all, decimals, value⟩ := x.expansion_eq
    simp only [ofText?, ofChars?, literal, String.toList_ofList, written,
      Decimal.int?_pointed _ nonempty all, Decimal.ofChars?_pointed _ nonempty all decimals,
      Option.filter_none, Option.bind_some, Decimal.toBinary64?_of_exact canonical value,
      Option.map_some]

end Number

end ToolPlan
