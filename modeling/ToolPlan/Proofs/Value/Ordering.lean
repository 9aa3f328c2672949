import Mathlib.Data.String.Basic
import Mathlib.Order.Compare
import ToolPlan.Proofs.Number.Order
import ToolPlan.Value

/-!
The comparison operators as a whole. Equality and order are decided apart from each other, each with
its own rules for types and for null. Where two values are ordered, the ordering operators go by
their order, and where they are not, these hold of two nulls at most (`holds_of_isOrdering`). The order
agrees with equality (`Ordered.equal_eq`), turns around when the operands are exchanged
(`Ordered.swap`) and passes from one pair of operands to the next (`Ordered.trans`), so the six
operators agree with each other (`Comparison.operators_cohere`).
-/

namespace ToolPlan

namespace Value

/-! ### The order of values -/

theorem orderText_eq_compare (a b : String) : orderText a b = compare a b := by
  unfold orderText
  split
  · next less => exact (compare_lt_iff_lt.mpr less).symm
  · next notLess =>
    split
    · next same => exact (compare_eq_iff_eq.mpr same).symm
    · next differ =>
      have greater : b < a := lt_of_le_of_ne (not_lt.mp notLess) (Ne.symm differ)
      exact (compare_gt_iff_gt.mpr greater).symm

theorem orderBool_eq_compare (a b : Bool) : orderBool a b = compare a b := by
  cases a <;> cases b <;> rfl

/-- The values are ordered, in this way: as numbers, as texts or as truth values. -/
inductive Ordered (o : Ordering) : Value → Value → Prop where
  | numbers {x y : Number} : x.order y = o → Ordered o (number x) (number y)
  | texts {x y : String} : compare x y = o → Ordered o (string x) (string y)
  | flags {x y : Bool} : compare x y = o → Ordered o (bool x) (bool y)

/-- There is an order where both values are of one ordered type, and nowhere else. -/
theorem order?_eq_some_iff {a b : Value} {o : Ordering} :
    a.order? b = some o ↔ Ordered o a b := by
  constructor
  · intro found
    cases a <;> cases b <;> cases found
    · exact .flags (orderBool_eq_compare _ _).symm
    · exact .numbers rfl
    · exact .texts (orderText_eq_compare _ _).symm
  · rintro (rfl | rfl | rfl)
    · rfl
    · exact congrArg some (orderText_eq_compare _ _)
    · exact congrArg some (orderBool_eq_compare _ _)

/-- The types whose values are ordered. -/
def orderedTypes : List String := ["boolean", "number", "string"]

/-- So the types alone decide whether there is one. -/
theorem isSome_order?_iff {a b : Value} :
    (a.order? b).isSome = true ↔ a.typeName = b.typeName ∧ a.typeName ∈ orderedTypes := by
  cases a <;> cases b <;> simp [order?, typeName, orderedTypes]

namespace Ordered

variable {a b c : Value} {o : Ordering}

theorem swap (ordered : Ordered o a b) : Ordered o.swap b a := by
  cases ordered with
  | @numbers x y order => exact .numbers (order ▸ Number.order_swap x y)
  | texts order => exact .texts (order ▸ Std.OrientedOrd.eq_swap)
  | flags order => exact .flags (order ▸ Std.OrientedOrd.eq_swap)

/-- Less than is transitive, on numbers because the order of rounded numbers is. -/
theorem trans (first : Ordered .lt a b) (second : Ordered .lt b c) : Ordered .lt a c := by
  cases first with
  | numbers less =>
    cases second with
    | numbers less' => exact .numbers (Number.order_trans less less')
  | texts less =>
    cases second with
    | texts less' =>
      rw [compare_lt_iff_lt] at less less'
      exact .texts (compare_lt_iff_lt.mpr (less.trans less'))
  | flags less =>
    cases second with
    | flags less' =>
      rw [compare_lt_iff_lt] at less less'
      exact .flags (compare_lt_iff_lt.mpr (less.trans less'))

/-- Values that are ordered are equal exactly where neither comes before the other. -/
theorem equal_eq (ordered : Ordered o a b) : a.equal b = (o == .eq) := by
  cases ordered with
  | numbers order => rw [equal, order]
  | texts order =>
    subst order
    rw [equal, Bool.eq_iff_iff, beq_iff_eq, beq_iff_eq, compare_eq_iff_eq]
  | flags order =>
    subst order
    rw [equal, Bool.eq_iff_iff, beq_iff_eq, beq_iff_eq, compare_eq_iff_eq]

end Ordered

/-- The comparison of two values commutes with exchanging them. -/
theorem order?_swap (a b : Value) : b.order? a = (a.order? b).map Ordering.swap := by
  cases found : a.order? b with
  | some o => exact order?_eq_some_iff.mpr (order?_eq_some_iff.mp found).swap
  | none =>
    cases converse : b.order? a with
    | none => rfl
    | some o =>
      have ordered := order?_eq_some_iff.mpr (order?_eq_some_iff.mp converse).swap
      rw [found] at ordered
      cases ordered

def isContainer : Value → Bool
  | array _ => true
  | map _ => true
  | null => false
  | bool _ => false
  | number _ => false
  | string _ => false

/-- Values that are not ordered, and no arrays or maps, are equal only if they are null. -/
theorem equal_of_not_ordered {a b : Value} (unordered : a.order? b = none)
    (scalarA : a.isContainer = false) (scalarB : b.isContainer = false) :
    a.equal b = (a.isNull && b.isNull) := by
  cases a <;> cases b <;> simp_all [isContainer, order?, isNull, equal]

/-- A container is not null, and ordered with nothing. -/
theorem not_ordered_of_isContainer {a b : Value}
    (container : a.isContainer = true ∨ b.isContainer = true) :
    a.order? b = none ∧ (a.isNull && b.isNull) = false := by
  cases a <;> cases b <;> simp_all [isContainer, order?, isNull]

end Value

namespace Comparison

open Value (Ordered order?_eq_some_iff order?_swap)

def isOrdering : Comparison → Bool
  | eq => false
  | ne => false
  | lt => true
  | le => true
  | gt => true
  | ge => true

/-- The ordering operators go by the order of their operands; where there is none, both have to be
null. -/
theorem holds_of_isOrdering {op : Comparison} (ordering : op.isOrdering = true) (a b : Value) :
    op.holds a b = match a.order? b with
      | some o => op.admits o
      | none => a.isNull && b.isNull && op.admits .eq := by
  cases op with
  | eq | ne => cases ordering
  | lt | le | gt | ge => cases a <;> cases b <;> rfl

/-- Where values are ordered, an operator holds if it admits that order. -/
theorem holds_of_ordered {op : Comparison} {a b : Value} {o : Ordering} (ordered : Ordered o a b) :
    op.holds a b = op.admits o := by
  cases op with
  | eq => exact ordered.equal_eq
  | ne => exact congrArg (!·) ordered.equal_eq
  | lt | le | gt | ge => rw [holds_of_isOrdering rfl, order?_eq_some_iff.mpr ordered]

/-- One value is less than another exactly if they are ordered so. -/
theorem lt_holds_iff {a b : Value} : lt.holds a b = true ↔ Ordered .lt a b := by
  rw [holds_of_isOrdering rfl, ← order?_eq_some_iff]
  cases a.order? b with
  | none => simp [admits]
  | some o => simp [admits]

/-- An operator, with the operands exchanged, asks for what another one asks for. -/
theorem holds_swap {op converse : Comparison} (ordering : op.isOrdering = true)
    (ordering' : converse.isOrdering = true) (turned : ∀ o, op.admits o = converse.admits o.swap)
    (a b : Value) : op.holds a b = converse.holds b a := by
  rw [holds_of_isOrdering ordering, holds_of_isOrdering ordering', order?_swap a b]
  cases a.order? b with
  | some o => exact turned o
  | none =>
    have equals : op.admits .eq = converse.admits .eq := turned .eq
    simp only [Option.map_none, equals, Bool.and_comm a.isNull]

theorem irrefl (a : Value) : lt.holds a a = false := by
  rw [Bool.eq_false_iff]
  intro less
  have ordered := lt_holds_iff.mp less
  have converse := order?_eq_some_iff.mpr ordered.swap
  rw [order?_eq_some_iff.mpr ordered] at converse
  cases converse

/-- Of the operators that ask for different orders, how many hold. -/
def verdicts (a b : Value) : Nat :=
  [lt, eq, gt].countP (·.holds a b)

/-- Of the operators that exclude each other, exactly one holds for ordered values. -/
theorem verdicts_of_ordered {a b : Value} {o : Ordering} (ordered : Ordered o a b) :
    verdicts a b = 1 := by
  simp only [verdicts, holds_of_ordered ordered]
  cases o <;> rfl

/-- Without an order at most one of them holds, and that is equality. -/
theorem verdicts_of_not_ordered {a b : Value} (unordered : a.order? b = none) :
    verdicts a b ≤ 1 := by
  have less : lt.holds a b = false := by
    rw [holds_of_isOrdering rfl, unordered]
    exact Bool.and_false _
  have greater : gt.holds a b = false := by
    rw [holds_of_isOrdering rfl, unordered]
    exact Bool.and_false _
  cases equals : eq.holds a b <;> simp [verdicts, less, greater, equals]

/-- The six operators agree with each other, on all values. Exchanging the operands turns an ordering
operator around. `<` is irreflexive and transitive, whatever kinds of numbers are compared. Of
`<`, `==` and `>` at most one holds, and one does between two numbers, two strings or two truth
values. Without arrays and maps `<=` holds exactly where `<` or `==` does; and no ordering operator
holds where an operand is an array or a map. -/
theorem operators_cohere (a b c : Value) :
    (gt.holds a b = lt.holds b a ∧ ge.holds a b = le.holds b a) ∧
    lt.holds a a = false ∧
    (lt.holds a b = true → lt.holds b c = true → lt.holds a c = true) ∧
    verdicts a b ≤ 1 ∧
    (a.typeName = b.typeName ∧ a.typeName ∈ Value.orderedTypes → verdicts a b = 1) ∧
    (a.isContainer = false ∧ b.isContainer = false →
      le.holds a b = (lt.holds a b || eq.holds a b)) ∧
    (a.isContainer = true ∨ b.isContainer = true →
      ∀ op : Comparison, op.isOrdering = true → op.holds a b = false) := by
  refine ⟨⟨?_, ?_⟩, irrefl a, ?_, ?_, ?_, ?_, ?_⟩
  · exact holds_swap rfl rfl (fun o => by cases o <;> rfl) a b
  · exact holds_swap rfl rfl (fun o => by cases o <;> rfl) a b
  · simp only [lt_holds_iff]
    exact Ordered.trans
  · cases found : a.order? b with
    | some o => exact (verdicts_of_ordered (order?_eq_some_iff.mp found)).le
    | none => exact verdicts_of_not_ordered found
  · intro sameType
    obtain ⟨o, found⟩ := Option.isSome_iff_exists.mp (Value.isSome_order?_iff.mpr sameType)
    exact verdicts_of_ordered (order?_eq_some_iff.mp found)
  · rintro ⟨scalarA, scalarB⟩
    cases found : a.order? b with
    | some o =>
      simp only [holds_of_ordered (order?_eq_some_iff.mp found)]
      cases o <;> rfl
    | none =>
      have equals : eq.holds a b = (a.isNull && b.isNull) :=
        Value.equal_of_not_ordered found scalarA scalarB
      rw [holds_of_isOrdering rfl, holds_of_isOrdering rfl, found, equals]
      simp [admits]
  · intro container op ordering
    obtain ⟨unordered, notNull⟩ := Value.not_ordered_of_isContainer container
    rw [holds_of_isOrdering ordering, unordered, notNull, Bool.false_and]

/-- A signed word, the next binary number above it and a word that is too great for a signed one. -/
theorem operators_cohere_mixed :
    let word : Value := .int 9007199254740992
    let above : Value := .number (.float ⟨false, 4503599627370497, 1075⟩)
    let greatest : Value := .int 18446744073709551615
    lt.holds word above = true ∧ lt.holds above greatest = true ∧ lt.holds word greatest = true ∧
      gt.holds above word = true ∧ verdicts word above = 1 ∧ le.holds word above = true ∧
      ge.holds (.array [word]) word = false := by
  intro word above greatest
  have first : lt.holds word above = true := by decide +kernel
  have second : lt.holds above greatest = true := by decide +kernel
  obtain ⟨-, -, trans, -, single, le, -⟩ := operators_cohere word above greatest
  obtain ⟨⟨swapped, -⟩, -⟩ := operators_cohere above word word
  obtain ⟨-, -, -, -, -, -, container⟩ := operators_cohere (.array [word]) word word
  refine ⟨first, second, trans first second, swapped.trans first,
    single ⟨rfl, by decide⟩, ?_, container (.inl rfl) ge rfl⟩
  rw [le ⟨rfl, rfl⟩, first, Bool.true_or]

end Comparison

end ToolPlan
