import ToolPlan.Proofs.Plan.RoundTrip

/-!
How high the trees of plans are. Blocks, arrays, maps, negations and parentheses take levels, and no
plan has more than `maxNesting` of them, so what nests in these ways is bounded. `AND` and `OR` take
no level: an operand that is joined to the left puts all operands before it one node deeper, and a
text may join any number of them.

Main statements: `Plan.parse_height_le`, the height of a plan is at most a constant and the joins on
one of its paths; `Plan.height_unbounded`, no constant bounds the height of all plans that are read.
-/

namespace ToolPlan

/-! ### Heights -/

namespace Expr

mutual

/-- The values on the longest path from a value down to a value that holds none. -/
def height : Expr → Nat
  | .array items => heightOfItems items + 1
  | .map entries => heightOfEntries entries + 1
  | .number _ => 1
  | .bool _ => 1
  | .null => 1
  | .string _ => 1
  | .bare _ => 1
  | .var _ _ => 1

def heightOfItems : List Expr → Nat
  | [] => 0
  | item :: items => max item.height (heightOfItems items)

def heightOfEntries : List (String × Expr) → Nat
  | [] => 0
  | (_, value) :: entries => max value.height (heightOfEntries entries)

end

/-- Entries are no higher after an insertion than they or the new value were. -/
theorem heightOfEntries_insert_le (entries : Entries Expr) (name : String) (value : Expr) :
    heightOfEntries (Entries.insert entries name value) ≤
      max (heightOfEntries entries) value.height := by
  induction entries with
  | nil => simp [Entries.insert, heightOfEntries]
  | cons entry entries ih =>
    obtain ⟨key, old⟩ := entry
    rw [Entries.insert]
    split
    · simp only [heightOfEntries]
      omega
    · simp only [heightOfEntries]
      omega

/-- A repeated key drops a value and brings in none. -/
theorem heightOfEntries_ofList_le (fields : List (String × Expr)) :
    heightOfEntries (Entries.ofList fields) ≤ heightOfEntries fields := by
  have inserted : ∀ (fields : List (String × Expr)) (entries : Entries Expr),
      heightOfEntries (fields.foldl (fun entries pair => Entries.insert entries pair.1 pair.2)
        entries) ≤ max (heightOfEntries entries) (heightOfEntries fields) := by
    intro fields
    induction fields with
    | nil => simp [heightOfEntries]
    | cons field fields ih =>
      intro entries
      have first := heightOfEntries_insert_le entries field.1 field.2
      have others := ih (Entries.insert entries field.1 field.2)
      simp only [List.foldl_cons, heightOfEntries]
      omega
  have all := inserted fields []
  rw [heightOfEntries, Nat.zero_max] at all
  exact all

end Expr

namespace Condition

/-- The conditions and values on the longest path from a condition down. -/
def height : Condition → Nat
  | .not inner => inner.height + 1
  | .and left right => max left.height right.height + 1
  | .or left right => max left.height right.height + 1
  | .compare _ left right => max left.height right.height + 1

/-- The most conjunctions and disjunctions that one path from a condition down has. -/
def joins : Condition → Nat
  | .not inner => inner.joins
  | .and left right => max left.joins right.joins + 1
  | .or left right => max left.joins right.joins + 1
  | .compare _ _ _ => 0

end Condition

namespace Statement

mutual

/-- The statements, lists of statements, conditions and values on the longest path from a statement
down. -/
def height : Statement → Nat
  | .assign _ value => value.height + 1
  | .call request => Expr.heightOfEntries request.args + 1
  | .branch condition yes no =>
    max condition.height (max (heightOfAll yes + 1) (heightOfOtherwise no)) + 1
  | .loop _ iterable body => max iterable.height (heightOfAll body + 1) + 1
  | .finish value => value.height + 1
  | .blank => 1

def heightOfAll : List Statement → Nat
  | [] => 0
  | statement :: rest => max statement.height (heightOfAll rest)

def heightOfOtherwise : Option (List Statement) → Nat
  | none => 0
  | some statements => heightOfAll statements + 1

end

mutual

/-- The most conjunctions and disjunctions that one path from a statement down has. -/
def joins : Statement → Nat
  | .branch condition yes no => max condition.joins (max (joinsOfAll yes) (joinsOfOtherwise no))
  | .loop _ _ body => joinsOfAll body
  | .assign _ _ => 0
  | .call _ => 0
  | .finish _ => 0
  | .blank => 0

def joinsOfAll : List Statement → Nat
  | [] => 0
  | statement :: rest => max statement.joins (joinsOfAll rest)

def joinsOfOtherwise : Option (List Statement) → Nat
  | none => 0
  | some statements => joinsOfAll statements

end

mutual

/-- The place of a call is no node. -/
theorem height_unplaced : ∀ (statement : Statement), statement.unplaced.height = statement.height
  | .assign _ _ => by rw [unplaced]
  | .call _ => by simp only [unplaced, height]
  | .branch _ yes no => by
    simp only [unplaced, height, heightOfAll_unplaced yes, heightOfOtherwise_unplaced no]
  | .loop _ _ body => by simp only [unplaced, height, heightOfAll_unplaced body]
  | .finish _ => by rw [unplaced]
  | .blank => by rw [unplaced]

/-- Places have no part in the height. -/
theorem heightOfAll_unplaced : ∀ (statements : List Statement),
    heightOfAll (unplacedAll statements) = heightOfAll statements
  | [] => by rw [unplacedAll]
  | statement :: rest => by
    simp only [unplacedAll, heightOfAll, height_unplaced statement, heightOfAll_unplaced rest]

theorem heightOfOtherwise_unplaced : ∀ (no : Option (List Statement)),
    heightOfOtherwise (unplacedOtherwise no) = heightOfOtherwise no
  | none => by rw [unplacedOtherwise]
  | some statements => by
    simp only [unplacedOtherwise, heightOfOtherwise, heightOfAll_unplaced statements]

end

end Statement

def Plan.height (plan : Plan) : Nat :=
  Statement.heightOfAll plan + 1

/-- The most conjunctions and disjunctions that one path in a plan has. -/
def Plan.joins (plan : Plan) : Nat :=
  Statement.joinsOfAll plan

/-! ### What the levels bound -/

namespace Derives

variable {levels : Nat} {tokens rest : List Token}

/-- A value without parts is one node. -/
theorem Scalar.height_eq {value : Expr} (derived : Scalar tokens value rest) : value.height = 1 := by
  cases derived <;> simp only [Expr.height]

theorem Items.height_le {item : Phrase Expr} {bound : Nat}
    (bounded : ∀ ⦃tokens value rest⦄, item tokens value rest → value.height ≤ bound)
    {items : List Expr} (derived : Items item tokens items rest) :
    Expr.heightOfItems items ≤ bound := by
  induction derived with
  | close => simp [Expr.heightOfItems]
  | more _ first _ _ _ ih =>
    have := bounded first
    simp only [Expr.heightOfItems]
    omega

/-- Entries that are overwritten do not count, so the bound stays. -/
theorem Fields.height_le {item : Phrase Expr} {bound : Nat}
    (bounded : ∀ ⦃tokens value rest⦄, item tokens value rest → value.height ≤ bound)
    {fields : List (String × Expr)} (derived : Fields item tokens fields rest) :
    Expr.heightOfEntries fields ≤ bound := by
  induction derived with
  | close => simp [Expr.heightOfEntries]
  | more _ _ value _ _ _ ih =>
    have := bounded value
    simp only [Expr.heightOfEntries]
    omega

/-- Every level of arrays and maps is one node. -/
theorem Value.height_le {value : Expr} (derived : Value levels tokens value rest) :
    value.height ≤ levels + 1 := by
  induction levels generalizing tokens value rest with
  | zero => exact Nat.le_of_eq (Scalar.height_eq derived)
  | succ levels ih =>
    have inside : ∀ ⦃tokens value rest⦄, Value levels tokens value rest →
        value.height ≤ levels + 1 := fun _ _ _ derived => ih derived
    rcases derived with scalar | container
    · have := Scalar.height_eq scalar
      omega
    · cases container with
      | array items =>
        have := items.height_le inside
        simp only [Expr.height]
        omega
      | map fields =>
        have := fields.height_le inside
        have := Expr.heightOfEntries_ofList_le ‹_›
        simp only [Expr.height]
        omega

/-- A join puts its operands one node deeper, and counts as a join on their paths. -/
theorem Joined.height_le {word : TokenKind} {join : Condition → Condition → Condition}
    (height : ∀ left right, (join left right).height = max left.height right.height + 1)
    (joins : ∀ left right, (join left right).joins = max left.joins right.joins + 1)
    {operand : Phrase Condition} {bound : Nat}
    (bounded : ∀ ⦃tokens condition rest⦄, operand tokens condition rest →
      condition.height ≤ bound + condition.joins)
    {condition : Condition} (derived : Joined word join operand tokens condition rest) :
    condition.height ≤ bound + condition.joins := by
  induction derived with
  | single first => exact bounded first
  | more _ right ih =>
    have := bounded right
    rw [height, joins]
    omega

/-- Each conjunction or disjunction is one more node above its operands, and one more that is
counted as a join. -/
theorem Disjunction.height_le {operand : Phrase Condition} {bound : Nat}
    (bounded : ∀ ⦃tokens condition rest⦄, operand tokens condition rest →
      condition.height ≤ bound + condition.joins)
    {condition : Condition} (derived : Disjunction operand tokens condition rest) :
    condition.height ≤ bound + condition.joins :=
  Joined.height_le (fun _ _ => rfl) (fun _ _ => rfl)
    (fun _ _ _ conjunction => Joined.height_le (fun _ _ => rfl) (fun _ _ => rfl) bounded conjunction)
    derived

/-- A comparison is a node above its values. The levels that its values leave are for the negations
and parentheses around it. -/
theorem Operand.height_le {condition : Condition} (derived : Operand levels tokens condition rest) :
    condition.height ≤ levels + 2 + condition.joins := by
  have compared : ∀ {levels : Nat} {tokens condition rest},
      Compared (Value levels) tokens condition rest →
      condition.height ≤ levels + 2 + condition.joins := by
    intro levels tokens condition rest derived
    cases derived with
    | compare _ left _ right =>
      have := left.height_le
      have := right.height_le
      simp only [Condition.height, Condition.joins]
      omega
  induction levels generalizing tokens condition rest with
  | zero => exact compared derived
  | succ levels ih =>
    have inside : ∀ ⦃tokens condition rest⦄, Operand levels tokens condition rest →
        condition.height ≤ levels + 2 + condition.joins := fun _ _ _ derived => ih derived
    rcases derived with derived | wrapped
    · exact compared derived
    · cases wrapped with
      | not negated =>
        have := inside negated
        simp only [Condition.height, Condition.joins]
        omega
      | group grouped =>
        have := Disjunction.height_le inside grouped
        omega

theorem Arguments.height_le {value : Phrase Expr} {bound : Nat}
    (bounded : ∀ ⦃tokens meaning rest⦄, value tokens meaning rest → meaning.height ≤ bound)
    {args : List (String × Expr)} (derived : Arguments value tokens args rest) :
    Expr.heightOfEntries args ≤ bound := by
  induction derived with
  | none => simp [Expr.heightOfEntries]
  | more first _ ih =>
    have := bounded first
    simp only [Expr.heightOfEntries]
    omega

/-- A simple statement is a node above its values, which nest as deep as the levels allow. -/
theorem Simple.height_le {statement : ToolPlan.Statement}
    (derived : Simple (Value levels) tokens statement rest) : statement.height ≤ levels + 2 := by
  cases derived with
  | blank =>
    simp only [ToolPlan.Statement.height]
    omega
  | assign value =>
    have := value.height_le
    simp only [ToolPlan.Statement.height]
    omega
  | call _ args =>
    have := args.height_le fun _ _ _ value => value.height_le
    have := Expr.heightOfEntries_ofList_le ‹_›
    simp only [ToolPlan.Statement.height]
    omega
  | finish value =>
    have := value.height_le
    simp only [ToolPlan.Statement.height]
    omega

/-- Statements are as high as the highest of them, and the joins of that one are
among those of all. -/
theorem Statements.height_le {statement : Phrase ToolPlan.Statement} {bound : Nat}
    (bounded : ∀ ⦃tokens meaning rest⦄, statement tokens meaning rest →
      meaning.height ≤ bound + meaning.joins)
    {statements : List ToolPlan.Statement} (derived : Statements statement tokens statements rest) :
    ToolPlan.Statement.heightOfAll statements ≤
      bound + ToolPlan.Statement.joinsOfAll statements := by
  induction derived with
  | none => simp [ToolPlan.Statement.heightOfAll]
  | more first _ ih =>
    have := bounded first
    simp only [ToolPlan.Statement.heightOfAll, ToolPlan.Statement.joinsOfAll]
    omega

/-- Every level of blocks is two nodes: a list of statements and the statement that holds it. -/
theorem Statement.height_le {statement : ToolPlan.Statement}
    (derived : Statement levels tokens statement rest) :
    statement.height ≤ 2 * levels + 2 + statement.joins := by
  induction levels generalizing tokens statement rest with
  | zero =>
    have := Simple.height_le derived
    omega
  | succ levels ih =>
    have block : ∀ {tokens statements rest}, Block (Statement levels) tokens statements rest →
        ToolPlan.Statement.heightOfAll statements ≤
          2 * levels + 2 + ToolPlan.Statement.joinsOfAll statements := by
      rintro tokens statements rest ⟨-, -, inside⟩
      exact inside.height_le fun _ _ _ derived => ih derived
    rcases derived with simple | compound
    · have := simple.height_le
      omega
    · cases compound with
      | branch test yes no =>
        have := Disjunction.height_le (fun _ _ _ operand => Operand.height_le operand) test
        have := block yes
        cases no with
        | none =>
          simp only [ToolPlan.Statement.height, ToolPlan.Statement.joins,
            ToolPlan.Statement.heightOfOtherwise, ToolPlan.Statement.joinsOfOtherwise]
          omega
        | block _ other =>
          have := block other
          simp only [ToolPlan.Statement.height, ToolPlan.Statement.joins,
            ToolPlan.Statement.heightOfOtherwise, ToolPlan.Statement.joinsOfOtherwise]
          omega
      | loop iterable body =>
        have := iterable.height_le
        have := block body
        simp only [ToolPlan.Statement.height, ToolPlan.Statement.joins]
        omega

end Derives

namespace Plan

/-- The plan that is read is as high as its levels allow, and one node higher for every conjunction
and disjunction on a path. -/
theorem parse_height_le {text : String} {plan : Plan} (read : parse text = .ok plan) :
    plan.height ≤ 2 * maxNesting + 3 + plan.joins := by
  rw [parse, parseChars] at read
  split at read
  · simp at read
  · have := (script_of_ofTokens read).height_le fun _ _ _ derived => derived.height_le
    simp only [height, joins]
    omega

/-- Comparisons joined by both words, the last of them with an array. -/
def joining : String :=
  ("IF $hit != null OR a == b AND [$hit] == [c] ".push '{').push '}'

/-- The bound counts the joins of one path, which are two here. -/
theorem parse_height_le_joining : ∃ plan, parse joining = .ok plan ∧
    plan.height = 7 ∧ plan.joins = 2 ∧ plan.height ≤ 2 * maxNesting + 3 + plan.joins := by
  have measured : (parse joining).toOption.map (fun plan => (plan.height, plan.joins)) =
      some (7, 2) := by decide +kernel
  cases read : parse joining with
  | error fault =>
    rw [read] at measured
    cases measured
  | ok plan =>
    rw [read] at measured
    obtain ⟨high, joined⟩ := Prod.mk.inj (Option.some.inj measured)
    exact ⟨plan, rfl, high, joined, parse_height_le read⟩

/-! ### What they do not bound -/

/-- Comparisons of nothing with nothing, joined by `OR`. -/
def alternatives : Nat → Condition
  | 0 => .compare .eq .null .null
  | more + 1 => .or (alternatives more) (.compare .eq .null .null)

def branching (more : Nat) : Plan :=
  [.branch (alternatives more) [] none]

/-- Each further alternative is a node above the ones before it. -/
theorem alternatives_height (more : Nat) : more < (alternatives more).height := by
  induction more with
  | zero => decide
  | succ more ih =>
    simp only [alternatives, Condition.height]
    omega

/-- Comparisons of nothing with nothing can always be written. -/
theorem alternatives_wellFormed (more : Nat) : (alternatives more).WellFormed := by
  induction more with
  | zero => simp [alternatives, Condition.WellFormed, Expr.WellFormed]
  | succ more ih => simp [alternatives, Condition.WellFormed, Expr.WellFormed, ih]

/-- Alternatives nest nowhere: no parentheses are needed on the left of `OR`. -/
theorem alternatives_nesting (more : Nat) : (alternatives more).nesting .disjunction = 0 := by
  induction more with
  | zero => simp [alternatives, Condition.nesting, Expr.nesting]
  | succ more ih => simp [alternatives, Condition.nesting, Expr.nesting, ih]

/-- The text of joined comparisons is read as a plan with all of them on one path. -/
theorem parse_branching (more : Nat) :
    ∃ plan, parse (print (branching more)) = .ok plan ∧ more < plan.height := by
  have wellFormed : Statement.WellFormedAll (branching more) := by
    simp [branching, Statement.WellFormedAll, Statement.WellFormed, Statement.WellFormedOtherwise,
      alternatives_wellFormed]
  have fits : Statement.nestingOf (branching more) ≤ maxNesting := by
    simp [branching, Statement.nestingOf, Statement.nesting, Statement.nestingOfOtherwise,
      alternatives_nesting, maxNesting]
  obtain ⟨tokens, ending, scanned, written, whole⟩ := scan_print wellFormed
  obtain ⟨read, same, derived⟩ := Statement.derives_wordsOf _ maxNesting wellFormed fits written
  refine ⟨read, ?_, ?_⟩
  · rw [parse, parseChars, scanned]
    apply ofTokens_of_script
    rw [whole, ← List.append_nil tokens]
    exact derived
  · have high := alternatives_height more
    rw [height, ← Statement.heightOfAll_unplaced read, same, Statement.heightOfAll_unplaced]
    simp only [branching, Statement.heightOfAll, Statement.height]
    omega

/-- No constant bounds the heights of the plans that are read. -/
theorem height_unbounded :
    ¬ ∃ bound, ∀ text plan, parse text = .ok plan → plan.height ≤ bound := by
  rintro ⟨bound, bounded⟩
  obtain ⟨plan, read, higher⟩ := parse_branching bound
  exact Nat.not_lt.mpr (bounded _ plan read) higher

end Plan

end ToolPlan
