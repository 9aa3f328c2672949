import ToolPlan.Proofs.Grammar.Rules
import ToolPlan.Proofs.Token.Lines

/-!
The grammar does not look at places. By every rule, tokens that stand at other places make the same
phrase, and the only trace of their places in its meaning are the places of calls, which move with them
(`Derives.Script.relocate`).
-/

namespace ToolPlan

namespace Statement

mutual

/-- A statement with its calls at other places. -/
def relocate (move : Position → Position) : Statement → Statement
  | .call request => .call { request with place := move request.place }
  | .branch condition yes no =>
    .branch condition (relocateAll move yes) (relocateOtherwise move no)
  | .loop var iterable body => .loop var iterable (relocateAll move body)
  | .assign name value => .assign name value
  | .finish value => .finish value
  | .blank => .blank

def relocateAll (move : Position → Position) : List Statement → List Statement
  | [] => []
  | statement :: rest => statement.relocate move :: relocateAll move rest

def relocateOtherwise (move : Position → Position) :
    Option (List Statement) → Option (List Statement)
  | none => none
  | some statements => some (relocateAll move statements)

end

end Statement

namespace Derives

variable {α : Type}

/-- Tokens at other places make a phrase of the same kind, with a meaning that is carried along. -/
def Follows (move : Position → Position) (carry : α → α) (phrase : Phrase α) : Prop :=
  ∀ ⦃tokens meaning rest⦄, phrase tokens meaning rest →
    phrase (tokens.map (Token.relocate move)) (carry meaning) (rest.map (Token.relocate move))

/-- Tokens at other places make a phrase of the same meaning. -/
abbrev Placeless (move : Position → Position) (phrase : Phrase α) : Prop :=
  Follows move id phrase

variable {move : Position → Position}

/-- Kinds do not move. -/
@[simp] theorem ahead_relocate (tokens : List Token) :
    ahead (tokens.map (Token.relocate move)) = ahead tokens := by
  cases tokens <;> rfl

/-! ### Values and conditions -/

theorem Many.relocate {kind : TokenKind} {tokens rest : List Token} (many : Many kind tokens rest) :
    Many kind (tokens.map (Token.relocate move)) (rest.map (Token.relocate move)) := by
  induction many with
  | none => exact .none
  | more _ ih => exact .more ih

theorem Comma.relocate {tokens rest : List Token} (comma : Comma tokens rest) :
    Comma (tokens.map (Token.relocate move)) (rest.map (Token.relocate move)) := by
  cases comma with
  | absent => exact .absent
  | present => exact .present

/-- Names and indices have no places, so a path means the same elsewhere. -/
theorem Path.placeless : Placeless move Path := by
  intro tokens steps rest path
  induction path with
  | done single => exact .done (by rwa [ahead_relocate])
  | position whole _ ih => exact .position whole ih
  | key _ ih => exact .key ih

theorem Scalar.placeless : Placeless move Scalar := by
  intro tokens value rest scalar
  cases scalar with
  | var path => exact .var path.placeless
  | number known => exact .number known
  | trueWord => exact .trueWord
  | falseWord => exact .falseWord
  | nullWord => exact .nullWord
  | string => exact .string
  | name => exact .name
  | bare => exact .bare

theorem Items.placeless {item : Phrase Expr} (inner : Placeless move item) :
    Placeless move (Items item) := by
  intro tokens items rest derived
  induction derived with
  | close newlines => exact .close newlines.relocate
  | more before first after comma _ ih =>
    exact .more before.relocate (inner first) after.relocate comma.relocate ih

theorem Key.placeless : Placeless move Key := by
  intro tokens key rest derived
  cases derived with
  | name => exact .name
  | string => exact .string

theorem Fields.placeless {item : Phrase Expr} (inner : Placeless move item) :
    Placeless move (Fields item) := by
  intro tokens fields rest derived
  induction derived with
  | close newlines => exact .close newlines.relocate
  | more before key value after comma _ ih =>
    exact .more before.relocate key.placeless (inner value) after.relocate comma.relocate ih

theorem Container.placeless {inner : Phrase Expr} (placeless : Placeless move inner) :
    Placeless move (Container inner) := by
  intro tokens value rest derived
  cases derived with
  | array items => exact .array (Items.placeless placeless items)
  | map fields => exact .map (Fields.placeless placeless fields)

/-- By induction on the levels: no value depends on where its tokens stand. -/
theorem Value.placeless (levels : Nat) : Placeless move (Value levels) := by
  induction levels with
  | zero => exact Scalar.placeless
  | succ levels ih =>
    rintro tokens value rest (scalar | container)
    · exact .inl scalar.placeless
    · exact .inr (Container.placeless ih container)

theorem OpensMap.relocate {tokens : List Token} (opens : OpensMap tokens) :
    OpensMap (tokens.map (Token.relocate move)) := by
  cases opens with
  | close => exact .close
  | key key => exact .key key.placeless

theorem Compared.placeless {value : Phrase Expr} (inner : Placeless move value) :
    Placeless move (Compared value) := by
  intro tokens condition rest derived
  cases derived with
  | compare map left known right =>
    refine .compare ?_ (inner left) known (inner right)
    intro t q inside same
    obtain ⟨⟨kind, text, place⟩, found, rfl, moved, rfl⟩ := List.map_eq_cons_iff.mp same
    obtain ⟨rfl, rfl, -⟩ := Token.mk.inj moved
    exact (map text place found rfl).relocate

theorem Joined.placeless {word : TokenKind} {join : Condition → Condition → Condition}
    {operand : Phrase Condition} (inner : Placeless move operand) :
    Placeless move (Joined word join operand) := by
  intro tokens condition rest derived
  induction derived with
  | single first => exact .single (inner first)
  | more _ right ih => exact .more ih (inner right)

theorem Disjunction.placeless {operand : Phrase Condition} (inner : Placeless move operand) :
    Placeless move (Disjunction operand) :=
  Joined.placeless (Joined.placeless inner)

theorem Wrapped.placeless {inner : Phrase Condition} (placeless : Placeless move inner) :
    Placeless move (Wrapped inner) := by
  intro tokens condition rest derived
  cases derived with
  | not condition => exact .not (placeless condition)
  | group condition => exact .group (Disjunction.placeless placeless condition)

theorem Operand.placeless (levels : Nat) : Placeless move (Operand levels) := by
  induction levels with
  | zero => exact Compared.placeless (Value.placeless 0)
  | succ levels ih =>
    rintro tokens condition rest (compared | wrapped)
    · exact .inl (Compared.placeless (Value.placeless (levels + 1)) compared)
    · exact .inr (Wrapped.placeless ih wrapped)

/-! ### Statements -/

theorem Close.relocate {tokens rest : List Token} (close : Close tokens rest) :
    Close (tokens.map (Token.relocate move)) (rest.map (Token.relocate move)) := by
  cases close with
  | newline => exact .newline
  | brace => exact .brace
  | finished => exact .finished

theorem LooseName.placeless : Placeless move LooseName := by
  intro tokens name rest derived
  cases derived with
  | name => exact .name
  | bare => exact .bare

theorem Arguments.placeless {value : Phrase Expr} (inner : Placeless move value) :
    Placeless move (Arguments value) := by
  intro tokens args rest derived
  induction derived with
  | none => exact .none
  | more first _ ih => exact .more (inner first) ih

theorem Capture.placeless : Placeless move Capture := by
  intro tokens name rest derived
  cases derived with
  | none => exact .none
  | arrow name => exact .arrow name.placeless

/-- A call moves with its word. -/
theorem Simple.follows {value : Phrase Expr} (inner : Placeless move value) :
    Follows move (ToolPlan.Statement.relocate move) (Simple value) := by
  intro tokens statement rest derived
  cases derived with
  | blank => exact .blank
  | assign expr close => exact .assign (inner expr) close.relocate
  | call name args capture close =>
    exact .call name.placeless (Arguments.placeless inner args) capture.placeless close.relocate
  | finish expr close => exact .finish (inner expr) close.relocate

theorem Statements.follows {statement : Phrase ToolPlan.Statement}
    (inner : Follows move (ToolPlan.Statement.relocate move) statement) :
    Follows move (ToolPlan.Statement.relocateAll move) (Statements statement) := by
  intro tokens statements rest derived
  induction derived with
  | none => exact .none
  | more first _ ih => exact .more (inner first) ih

theorem Block.follows {statement : Phrase ToolPlan.Statement}
    (inner : Follows move (ToolPlan.Statement.relocate move) statement) :
    Follows move (ToolPlan.Statement.relocateAll move) (Block statement) := by
  intro tokens statements rest derived
  cases derived with
  | braces colons newlines inside =>
    exact .braces colons.relocate newlines.relocate (Statements.follows inner inside)

theorem Otherwise.follows {statement : Phrase ToolPlan.Statement}
    (inner : Follows move (ToolPlan.Statement.relocate move) statement) :
    Follows move (ToolPlan.Statement.relocateOtherwise move) (Otherwise statement) := by
  intro tokens branch rest derived
  cases derived with
  | none => exact .none
  | block newlines inside => exact .block newlines.relocate (Block.follows inner inside)

/-- The places in a compound statement are those of the calls in its blocks. -/
theorem Compound.follows {levels : Nat} {inner : Phrase ToolPlan.Statement}
    (follows : Follows move (ToolPlan.Statement.relocate move) inner) :
    Follows move (ToolPlan.Statement.relocate move) (Compound levels inner) := by
  intro tokens statement rest derived
  cases derived with
  | branch condition yes no close =>
    exact .branch (Disjunction.placeless (Operand.placeless levels) condition)
      (Block.follows follows yes) (Otherwise.follows follows no) close.relocate
  | loop iterable body close =>
    exact .loop (Value.placeless levels iterable) (Block.follows follows body) close.relocate

/-- By induction on the nesting levels. Calls move with their words, and nothing else has a place. -/
theorem Statement.follows (levels : Nat) :
    Follows move (ToolPlan.Statement.relocate move) (Statement levels) := by
  induction levels with
  | zero => exact Simple.follows (Value.placeless 0)
  | succ levels ih =>
    rintro tokens statement rest (simple | compound)
    · exact .inl (Simple.follows (Value.placeless (levels + 1)) simple)
    · exact .inr (Compound.follows ih compound)

/-- A script at other places is the same plan with its calls at these places. -/
theorem Script.relocate {tokens : List Token} {plan : Plan} (script : Script tokens plan) :
    Script (tokens.map (Token.relocate move)) (ToolPlan.Statement.relocateAll move plan) :=
  Statements.follows (Statement.follows maxNesting) script

end Derives

end ToolPlan
